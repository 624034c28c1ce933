import PipeCall.Proofs.Json.Kept
import PipeCall.Proofs.Reply
import PipeCall.Session.State

/-!
# Failures that are written again

A failure is read from more texts than the one it is written as: its members may stand in any order
and among others, or in an array, its message may be missing, and data that are `null` count for none.
What was read has one text, and that stays as it is when it is read and written again
(`Failure.failures_rewritten`): the code that is read fits its place, the data are not `null`, and
what was read of them is kept (`Json.Kept`), so the failure is exact (`Failure.exact_of_ofDocument?`).
-/

namespace PipeCall

open Json (Document Writes text?)

/-- Only `null` denotes `null`. -/
theorem Json.Document.eq_null_of_value? {levels : Nat} {d : Document}
    (h : d.value? levels = some .null) : d = .null := by
  cases d with
  | null => rfl
  | bool | number | string => simp [value?] at h
  | array | object => cases levels <;> simp [value?, ofMembers] at h

/-- An integer that was read for 64 bits fits these with its sign. -/
theorem Json.Document.bounds_of_int64? {d : Document} {n : Int} (h : d.int64? = some n) :
    -(Decimal.signedLimit : Int) ≤ n ∧ n < Decimal.signedLimit := by
  cases d with
  | number l =>
    unfold int64? at h
    dsimp only at h
    split at h
    · split at h
      · rename_i hbounds
        exact Option.some.inj h ▸ hbounds
      · simp at h
    · simp at h
  | null | bool | string | array | object => simp [int64?] at h

namespace Failure

variable {levels : Nat} {f : Failure} {d : Document} {bs : Bytes}

/-! ## What is read -/

/-- A failure has data exactly if the document that it is read from gives some. -/
theorem isSome_data_iff (h : ofDocument? levels d = some f) :
    f.data.isSome = true ↔ ∃ v, d.Gives memberNames "data" v := by
  obtain ⟨fields, -, hfields, -, -, -, hdata⟩ := ofDocument?_eq_some_iff.1 h
  have hgives := fun v =>
    Document.present?_eq_some_iff_gives (v := v) (by decide) (by decide : "data" ∈ memberNames) hfields
  simp only [← hgives]
  rcases Inbound.optional?_cases hdata with ⟨hnone, hf⟩ | ⟨e, v, hsome, -, hf⟩
  · simp [hnone, hf]
  · simp [hsome, hf]

/-- A failure that was read is exact if all numbers in its data are integers. -/
theorem exact_of_ofDocument? (h : ofDocument? levels d = some f)
    (integral : ∀ v ∈ f.data, v.Integral) : f.Exact levels := by
  obtain ⟨fields, code, -, -, hcode, -, hdata⟩ := ofDocument?_eq_some_iff.1 h
  obtain ⟨hlow, hhigh⟩ := Document.bounds_of_int64? hcode
  refine ⟨hlow, hhigh, fun v hv => ?_⟩
  rcases Inbound.optional?_cases hdata with ⟨-, hf⟩ | ⟨e, v', hpresent, hvalue, hf⟩
  · simp [hf] at hv
  · obtain rfl : v' = v := Option.some.inj (hf.symm.trans hv)
    refine ⟨(Json.kept_of_value? e hvalue).exact (integral v' hv), ?_⟩
    rintro rfl
    exact (Document.present?_eq_some_iff.1 hpresent).2 (Document.eq_null_of_value? hvalue)

/-! ## Reading and writing again -/

/-- What becomes of a failure that was read from a text. -/
structure Rewritten (bs : Bytes) (f : Failure) : Prop where
  /-- It is read again from the text that it is written as. -/
  again : parse? f.toJson.bytes = some f
  /-- What is read from that text is written as that text. -/
  text : (parse? f.toJson.bytes).map (fun f => f.toJson.bytes) = some f.toJson.bytes
  /-- That text is an object, and it has a member for data exactly if the first text gave data: if they
  were there and not `null`. -/
  data : ∃ (d : Document) (members : List (List Json.Piece × Document)),
    Writes bs d.tokens ∧ Writes f.toJson.bytes (Document.object members).tokens ∧
      ((∃ m ∈ members, text? m.1 = some "data") ↔ ∃ v, d.Gives memberNames "data" v)
  /-- A caller whose call comes out so is told the failure as it is, whatever it expects. -/
  told (shape : Shape) (id : CallId) :
    Session.outcomeOf shape (.reply ⟨id, .error f⟩) = .error (.server f)

/-- A failure that was read from a text, all numbers in its data being integers, is written as a text
that no longer changes when it is read and written again. -/
theorem failures_rewritten (h : parse? bs = some f) (integral : ∀ v ∈ f.data, v.Integral) :
    Rewritten bs f := by
  obtain ⟨d, hdoc, hread⟩ := Option.bind_eq_some_iff.1 h
  obtain ⟨fields, hnames, hspelled, hreads⟩ := (exact_of_ofDocument? hread integral).exists_fields
  have again : parse? f.toJson.bytes = some f := by
    rw [parse?, hspelled.parse?_bytes, Option.bind_some, hreads]
  refine ⟨again, by rw [again, Option.map_some], ⟨d, _, Document.parse?_eq_some_iff.1 hdoc,
    Document.parse?_eq_some_iff.1 hspelled.parse?_bytes, ?_⟩, fun shape id => rfl⟩
  rw [← isSome_data_iff hread, ← hnames]
  simp only [List.mem_map, exists_exists_and_eq_and, Json.text?_pieces, Option.some.injEq]

/-- Data with one key twice, behind which the code stands and no message, are written in the order of
their keys, and the rest in its own. -/
theorem failures_rewritten_unordered :
    let bs := Utf8.encode
      "\x7b\"data\":\x7b\"b\":[-5],\"a\":18446744073709551615,\"b\":[]\x7d,\"x\":1.5,\"code\":-32601\x7d"
    let data : Json := .object [("a", .number (.integer 18446744073709551615)), ("b", .array [])]
    parse? bs = some ⟨-32601, "", some data⟩ ∧ Rewritten bs ⟨-32601, "", some data⟩ := by
  intro bs data
  obtain ⟨d, hd⟩ : ∃ d, d = Document.ofFields [("b", .array [.number ⟨true, ['5'], none, none⟩]),
    ("a", .number ⟨false, "18446744073709551615".toList, none, none⟩), ("b", .array [])] := ⟨_, rfl⟩
  obtain ⟨code, hcode⟩ : ∃ code, code = Document.number ⟨true, "32601".toList, none, none⟩ := ⟨_, rfl⟩
  have hdoc : Document.parse? bs = some (.ofFields [("data", d),
      ("x", .number ⟨false, ['1'], some ['5'], none⟩), ("code", code)]) := by
    rw [hd, hcode]
    rfl
  have hint : code.int64? = some (-32601) := by
    rw [hcode]
    rfl
  have hdata : Inbound.optional? (Document.value? 126) "data" [("data", d), ("code", code)] =
      some (some data) := by
    have hne : d ≠ .null := hd ▸ Document.noConfusion
    rw [Inbound.optional?_of_lookup rfl hne, hd]
    rfl
  have hfields : (Document.ofFields [("data", d), ("x", .number ⟨false, ['1'], some ['5'], none⟩),
      ("code", code)]).fields? memberNames = some [("data", d), ("code", code)] := by
    simp [Document.fields?_ofFields_eq, Document.named?, memberNames]
  have hparse : parse? bs = some ⟨-32601, "", some data⟩ := by
    rw [parse?, hdoc, Option.bind_some]
    exact ofDocument?_eq_some_iff.2 ⟨_, code, hfields, rfl, hint, rfl, hdata⟩
  refine ⟨hparse, failures_rewritten hparse fun v hv => ?_⟩
  obtain rfl := Option.some.inj hv
  refine .object ?_
  rw [List.forall_mem_cons, List.forall_mem_singleton]
  exact ⟨.integer _, .array (by simp)⟩

end Failure

end PipeCall
