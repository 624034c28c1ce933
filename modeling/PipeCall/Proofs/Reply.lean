import PipeCall.Proofs.CallId
import PipeCall.Proofs.Fields

/-!
# Replies that are read back

A reply is written as an object with the call's identifier and with a result or an error. Each of the
three spells a document from which it is read back: the identifier (`CallId.ofDocument?_document`), the
result, which may be the `null` that counts for no member (`optional?_value`), and the error, whose
data may be missing (`Failure.exists_reads`). `parse_reply` puts them together. With both a result and
an error it is the error that counts, in whatever order the members are written.
-/

namespace PipeCall

open Json (Document pieces text?_pieces integerLiteral number?_integerLiteral)

/-! ## Identifiers -/

namespace CallId

/-- An identifier as a document. -/
def document : CallId → Document
  | .number n => .number (integerLiteral n)
  | .text s => .string (pieces s.toList)

/-- An identifier is spelled by its document. -/
theorem spells_document (id : CallId) : Json.SpellsDocument id.toJson id.document := by
  cases id with
  | number n => exact Json.spells_integer n
  | text s => exact Json.spells_string s

/-- No identifier is `null`. -/
theorem document_ne_null (id : CallId) : id.document ≠ .null := by
  cases id <;> exact Document.noConfusion

/-- The document of an identifier is read as that identifier, if it fits 64 bits. -/
theorem ofDocument?_document {id : CallId} (fits : id.Fits) : ofDocument? id.document = some id := by
  cases id with
  | number n =>
    have hhigh : (n : Int) < Decimal.wordLimit := Int.ofNat_lt.2 fits
    have hnumber := number?_integerLiteral (n := (n : Int)) (by omega) hhigh
    simp [document, ofDocument?, hnumber]
  | text s => simp [document, ofDocument?, text?_pieces]

end CallId

/-! ## Failures -/

namespace Failure

/-- A failure whose code fits 64 bits with its sign, and whose data, if there are any, are exact, not
`null`, and leave a level of nesting for the failure itself. -/
structure Exact (levels : Nat) (f : Failure) : Prop where
  low : -(Decimal.signedLimit : Int) ≤ f.code
  high : f.code < Decimal.signedLimit
  data : ∀ v ∈ f.data, v.Exact (levels - 1) ∧ v ≠ .null

variable {levels : Nat} {f : Failure} {d : Document}

/-- The code of an exact failure is read back. -/
theorem Exact.int64?_code (h : f.Exact levels) :
    (Document.number (integerLiteral f.code)).int64? = some f.code := by
  obtain ⟨hlow, hhigh, -⟩ := h
  have hword : (Decimal.signedLimit : Int) ≤ Decimal.wordLimit := by decide
  have hnumber := number?_integerLiteral hlow (by omega)
  simp [Document.int64?, hnumber, hlow, hhigh]

/-- A failure is read member by member. -/
theorem ofDocument?_eq (levels : Nat) (d : Document) :
    ofDocument? levels d =
      (d.fields? memberNames).bind fun fields =>
        (fields.lookup "code").bind fun code =>
          code.int64?.bind fun code =>
            ((fields.lookup "message").elim (some "") Document.string?).bind fun message =>
              (Inbound.optional? (Document.value? (levels - 1)) "data" fields).map fun data =>
                ⟨code, message, data⟩ := by
  refine congrArg _ (funext fun fields => congrArg _ (funext fun code => congrArg _ (funext fun n => ?_)))
  unfold Inbound.optional?
  cases Document.present? "data" fields with
  | none => cases fields.lookup "message" <;> simp [Option.map_eq_bind]
  | some v =>
    cases hvalue : v.value? (levels - 1) <;> cases fields.lookup "message" <;>
      simp [Option.map_eq_bind, hvalue]

/-- A document is read as a failure by its named members: the code must be there, the message is empty
if it is not, and the data may be absent or `null`. -/
theorem ofDocument?_eq_some_iff : ofDocument? levels d = some f ↔
    ∃ (fields : List (String × Document)) (code : Document), d.fields? memberNames = some fields ∧
      fields.lookup "code" = some code ∧ code.int64? = some f.code ∧
      (fields.lookup "message").elim (some "") Document.string? = some f.message ∧
      Inbound.optional? (Document.value? (levels - 1)) "data" fields = some f.data := by
  simp only [ofDocument?_eq, Option.bind_eq_some_iff, Option.map_eq_some_iff]
  constructor
  · rintro ⟨fields, hfields, code, hlookup, n, hcode, message, hmessage, data, hdata, rfl⟩
    exact ⟨fields, code, hfields, hlookup, hcode, hmessage, hdata⟩
  · rintro ⟨fields, code, hfields, hlookup, hcode, hmessage, hdata⟩
    exact ⟨fields, hfields, code, hlookup, _, hcode, _, hmessage, _, hdata, rfl⟩

/-- An exact failure is read back from the object with the members that it is written with. There is
one for data if there are any. -/
theorem Exact.exists_fields (h : f.Exact levels) :
    ∃ fields : List (String × Document), ("data" ∈ fields.map Prod.fst ↔ f.data.isSome = true) ∧
      Json.SpellsDocument f.toJson (.ofFields fields) ∧
      ofDocument? levels (.ofFields fields) = some f := by
  have hcode := h.int64?_code
  obtain ⟨code, message, data⟩ := f
  have hspelledCode := Json.spells_integer code
  have hspelledMessage := Json.spells_string message
  have hmessage : (Document.string (pieces message.toList)).string? = some message := by
    rw [Document.string?, text?_pieces]
  cases data with
  | none =>
    refine ⟨[("code", .number (integerLiteral code)), ("message", .string (pieces message.toList))],
      by simp, ?_, ?_⟩
    · exact Document.spells_ofFields <|
        .cons ⟨rfl, hspelledCode⟩ <| .cons ⟨rfl, hspelledMessage⟩ .nil
    · have hfields : (Document.ofFields [("code", .number (integerLiteral code)),
          ("message", .string (pieces message.toList))]).fields? memberNames =
          some [("code", .number (integerLiteral code)),
            ("message", .string (pieces message.toList))] := by
        simp [Document.fields?_ofFields_eq, Document.named?, memberNames]
      exact ofDocument?_eq_some_iff.2
        ⟨_, _, hfields, rfl, hcode, hmessage, Inbound.optional?_of_missing rfl⟩
  | some v =>
    obtain ⟨hexact, hnull⟩ := h.data v rfl
    obtain ⟨d, hreads⟩ := hexact.exists_reads
    have hne : d ≠ .null := by
      rintro rfl
      exact hnull (Option.some.inj hreads.denotes).symm
    refine ⟨[("code", .number (integerLiteral code)), ("message", .string (pieces message.toList)),
      ("data", d)], by simp, ?_, ?_⟩
    · exact Document.spells_ofFields <| .cons ⟨rfl, hspelledCode⟩ <|
        .cons ⟨rfl, hspelledMessage⟩ <| .cons ⟨rfl, hreads.spelled⟩ .nil
    · have hfields : (Document.ofFields [("code", .number (integerLiteral code)),
          ("message", .string (pieces message.toList)), ("data", d)]).fields? memberNames =
          some [("code", .number (integerLiteral code)),
            ("message", .string (pieces message.toList)), ("data", d)] := by
        simp [Document.fields?_ofFields_eq, Document.named?, memberNames]
      refine ofDocument?_eq_some_iff.2 ⟨_, _, hfields, rfl, hcode, hmessage, ?_⟩
      rw [Inbound.optional?_of_lookup rfl hne, hreads.denotes, Option.map_some]

/-- An exact failure is read back from a document. -/
theorem Exact.exists_reads (h : f.Exact levels) :
    ∃ d, Json.SpellsDocument f.toJson d ∧ d ≠ .null ∧ ofDocument? levels d = some f := by
  obtain ⟨fields, -, hspelled, hread⟩ := h.exists_fields
  exact ⟨.ofFields fields, hspelled, Document.noConfusion, hread⟩

end Failure

/-! ## Replies -/

namespace Inbound

variable {id : CallId} {v : Json} {f : Failure}

/-- A document that denotes a value is read as that value, also where `null` counts for nothing. -/
theorem optional?_value {levels : Nat} {d : Document} (name : String)
    (fields : List (String × Document)) (hlookup : fields.lookup name = some d)
    (hvalue : d.value? levels = some v) :
    ∃ result, optional? (Document.value? levels) name fields = some result ∧
      result.getD .null = v := by
  by_cases hnull : d = .null
  · subst hnull
    obtain rfl := Option.some.inj hvalue
    exact ⟨none, optional?_of_null hlookup, rfl⟩
  · refine ⟨some v, ?_, rfl⟩
    rw [optional?_of_lookup hlookup hnull, hvalue, Option.map_some]

/-- A member that is an identifier is read as that identifier. -/
theorem optional?_id {fields : List (String × Document)}
    (hlookup : fields.lookup "id" = some id.document) (fits : id.Fits) :
    optional? CallId.ofDocument? "id" fields = some (some id) := by
  rw [optional?_of_lookup hlookup id.document_ne_null, CallId.ofDocument?_document fits,
    Option.map_some]

/-- Members with an error that is a failure, and with no method, are those of a failed reply. -/
theorem ofFields?_failed {d : Document} {result : Option Json} (fields : List (String × Document))
    (hid : fields.lookup "id" = some id.document) (fits : id.Fits)
    (hmethod : fields.lookup "method" = none)
    (hresult : optional? (Document.value? (Json.maxLevels - 1)) "result" fields = some result)
    (herror : fields.lookup "error" = some d) (hne : d ≠ .null)
    (hfailure : Failure.ofDocument? (Json.maxLevels - 1) d = some f) :
    Members.ofFields? fields = some ⟨some id, none, result, some f⟩ := by
  refine Members.ofFields?_eq_some (optional?_id hid fits) (optional?_of_missing hmethod) hresult ?_
  rw [optional?_of_lookup herror hne, hfailure, Option.map_some]

/-- Such members are taken for the reply that the call failed, whatever the result. -/
theorem ofMembers_failed (present : id.isAbsent = false) (result : Option Json) (f : Failure) :
    ofMembers ⟨some id, none, result, some f⟩ = .ok (.reply ⟨id, .error f⟩) := by
  simp [ofMembers, present]

/-- Replies to the call that an identifier names are read as they were written. -/
structure RepliesReadBack (id : CallId) : Prop where
  /-- A reply with a result is read as that result. -/
  result (v : Json) : v.Exact (Json.maxLevels - 1) →
    parse (Json.object [("id", id.toJson), ("result", v)]).bytes = .ok (.reply ⟨id, .ok v⟩)
  /-- A reply with an error is read as that error. -/
  error (f : Failure) : f.Exact (Json.maxLevels - 1) →
    parse (Json.object [("id", id.toJson), ("error", f.toJson)]).bytes = .ok (.reply ⟨id, .error f⟩)
  /-- A reply with both is read as the error, in whatever order they are written. -/
  both (v : Json) (f : Failure) (written : List (String × Json)) :
    v.Exact (Json.maxLevels - 1) → f.Exact (Json.maxLevels - 1) →
    written.Perm [("id", id.toJson), ("result", v), ("error", f.toJson)] →
      parse (Json.object written).bytes = .ok (.reply ⟨id, .error f⟩)

/-- Replies under an identifier that is not absent and fits 64 bits are read as they were written. -/
theorem replies_read_back (present : id.isAbsent = false) (fits : id.Fits) : RepliesReadBack id where
  result v exact := by
    obtain ⟨d, hreads⟩ := exact.exists_reads
    have hspelled : List.Forall₂ Document.SpellsField [("id", id.toJson), ("result", v)]
        [("id", id.document), ("result", d)] :=
      .cons ⟨rfl, id.spells_document⟩ (.cons ⟨rfl, hreads.spelled⟩ .nil)
    obtain ⟨result, hresult, hgetD⟩ := optional?_value "result"
      [("id", id.document), ("result", d)] rfl hreads.denotes
    have hread : Members.ofFields? [("id", id.document), ("result", d)] =
        some ⟨some id, none, result, none⟩ :=
      Members.ofFields?_eq_some (optional?_id rfl fits) (optional?_of_missing rfl) hresult
        (optional?_of_missing rfl)
    rw [parse_object (.refl _) hspelled (by simp [Document.named?, memberNames]) hread]
    simp [ofMembers, present, hgetD]
  error f exact := by
    obtain ⟨d, hspells, hne, hfailure⟩ := exact.exists_reads
    have hspelled : List.Forall₂ Document.SpellsField [("id", id.toJson), ("error", f.toJson)]
        [("id", id.document), ("error", d)] :=
      .cons ⟨rfl, id.spells_document⟩ (.cons ⟨rfl, hspells⟩ .nil)
    have hread := ofFields?_failed [("id", id.document), ("error", d)] rfl fits rfl
      (optional?_of_missing rfl) rfl hne hfailure
    rw [parse_object (.refl _) hspelled (by simp [Document.named?, memberNames]) hread,
      ofMembers_failed present]
  both v f written exact exact' order := by
    obtain ⟨d, hreads⟩ := exact.exists_reads
    obtain ⟨e, hspells, hne, hfailure⟩ := exact'.exists_reads
    have hspelled : List.Forall₂ Document.SpellsField
        [("id", id.toJson), ("result", v), ("error", f.toJson)]
        [("id", id.document), ("result", d), ("error", e)] :=
      .cons ⟨rfl, id.spells_document⟩ (.cons ⟨rfl, hreads.spelled⟩ (.cons ⟨rfl, hspells⟩ .nil))
    obtain ⟨result, hresult, -⟩ := optional?_value "result"
      [("id", id.document), ("result", d), ("error", e)] rfl hreads.denotes
    have hread := ofFields?_failed [("id", id.document), ("result", d), ("error", e)] rfl
      fits rfl hresult rfl hne hfailure
    rw [parse_object order hspelled (by simp [Document.named?, memberNames]) hread,
      ofMembers_failed present]

/-- An error with data outweighs a nested result that stands behind it. The identifier need not name
any call. -/
theorem error_outweighs_result :
    let id : CallId := .text "seven "
    let failure : Failure := ⟨-32601, "no \"such\" method\n", some (.array [.null])⟩
    let result : Json := .object [("a", .array [.number (.integer 1)])]
    id.isAbsent = false ∧
      parse (Json.object [("error", failure.toJson), ("id", id.toJson), ("result", result)]).bytes =
        .ok (.reply ⟨id, .error failure⟩) := by
  intro id failure result
  have hpresent : id.isAbsent = false := by decide
  have hresult : result.Exact (Json.maxLevels - 1) :=
    .object (by simp) fun m hm => by
      obtain rfl := List.mem_singleton.1 hm
      exact .array fun v hv => by
        obtain rfl := List.mem_singleton.1 hv
        exact .integer _ (by decide) (by decide)
  have hdata : ∀ v ∈ failure.data, v.Exact (Json.maxLevels - 2) ∧ v ≠ .null := by
    rintro v hv
    obtain rfl := Option.some.inj hv
    refine ⟨.array fun v hv => ?_, Json.noConfusion⟩
    obtain rfl := List.mem_singleton.1 hv
    exact .null _
  have hfailure : failure.Exact (Json.maxLevels - 1) := ⟨by decide, by decide, hdata⟩
  have horder := (List.perm_append_singleton ("error", failure.toJson)
    [("id", id.toJson), ("result", result)]).symm
  exact ⟨hpresent, (replies_read_back hpresent trivial).both _ _ _ hresult hfailure horder⟩

end Inbound

end PipeCall
