import PipeCall.Proofs.Fields
import PipeCall.Proofs.Session.Outcome

/-!
# Frames that are not objects

A frame that is not one JSON object is no message, and nothing comes of it but a note that it is
malformed. Two kinds of frames are exceptions (`Tolerated`). An array is read as the object in which
its items stand under the names of a message's members, so an array of four items at most that can be
read so is a message. And what stands under other names is passed over, so an object need not be text
there. `malformed_unless_tolerated` says that there are no others, and what these are taken for: the
object that has their named members and no others (`Document.ofFields`).
-/

namespace PipeCall

open Json (Document Writes)

namespace Inbound

variable {frame : Bytes} {d : Document} {fields : List (String × Document)}

/-! ## What is read as a message -/

/-- Each named member is left out or `null`, or can be read as what it must be. -/
structure Readable (fields : List (String × Document)) : Prop where
  id : (optional? CallId.ofDocument? "id" fields).isSome = true
  method : (optional? Document.string? "method" fields).isSome = true
  result : (optional? (Document.value? (Json.maxLevels - 1)) "result" fields).isSome = true
  error : (optional? (Failure.ofDocument? (Json.maxLevels - 1)) "error" fields).isSome = true

/-- A document has the members of a message if its named members can be read. -/
theorem ofDocument?_isSome_iff : (Members.ofDocument? d).isSome = true ↔
    ∃ fields, d.fields? memberNames = some fields ∧ Readable fields := by
  simp only [Option.isSome_iff_exists, Members.ofDocument?, Option.bind_eq_bind,
    Option.bind_eq_some_iff, Option.pure_def, Option.some.injEq]
  constructor
  · rintro ⟨_, fields, hfields, id, hid, method, hmethod, result, hresult, error, herror, rfl⟩
    exact ⟨fields, hfields, by rw [hid]; rfl, by rw [hmethod]; rfl, by rw [hresult]; rfl,
      by rw [herror]; rfl⟩
  · rintro ⟨fields, hfields, id, method, result, error⟩
    obtain ⟨id, hid⟩ := Option.isSome_iff_exists.1 id
    obtain ⟨method, hmethod⟩ := Option.isSome_iff_exists.1 method
    obtain ⟨result, hresult⟩ := Option.isSome_iff_exists.1 result
    obtain ⟨error, herror⟩ := Option.isSome_iff_exists.1 error
    exact ⟨_, fields, hfields, id, hid, method, hmethod, result, hresult, error, herror, rfl⟩

/-- A document is the message that its named members are by themselves. -/
theorem parse_ofFields {frame' : Bytes} (written : Writes frame d.tokens)
    (named : d.fields? memberNames = some fields)
    (written' : Writes frame' (Document.ofFields fields).tokens) : parse frame = parse frame' := by
  have hfields := Document.fields?_ofFields (by decide) named
  have hmembers : Members.ofDocument? (Document.ofFields fields) = Members.ofDocument? d := by
    rw [Members.ofDocument?_eq, Members.ofDocument?_eq, hfields, named]
  rw [parse_of_writes written, parse_of_writes written', hmembers]

/-- A message that has its members is not malformed. -/
theorem ofMembers_ne_malformed (m : Members) : ofMembers m ≠ .error .malformed := by
  unfold ofMembers
  split
  · simp
  · simp
  · split
    · simp
    · split <;> simp

/-- A frame is not malformed exactly if a document is written in it whose named members can be
read. -/
theorem parse_ne_malformed_iff : parse frame ≠ .error .malformed ↔
    ∃ (d : Document) (fields : List (String × Document)),
      Writes frame d.tokens ∧ d.fields? memberNames = some fields ∧ Readable fields := by
  have hparse : parse frame ≠ .error .malformed ↔
      ((Document.parse? frame).bind Members.ofDocument?).isSome = true := by
    unfold parse
    cases (Document.parse? frame).bind Members.ofDocument? with
    | none => simp
    | some m => simpa using ofMembers_ne_malformed m
  rw [hparse]
  constructor
  · intro h
    obtain ⟨m, hm⟩ := Option.isSome_iff_exists.1 h
    obtain ⟨d, hdoc, hmembers⟩ := Option.bind_eq_some_iff.1 hm
    obtain ⟨fields, hfields, hreadable⟩ := ofDocument?_isSome_iff.1 (by rw [hmembers]; rfl)
    exact ⟨d, fields, Document.parse?_eq_some_iff.1 hdoc, hfields, hreadable⟩
  · rintro ⟨d, fields, hwrites, hfields, hreadable⟩
    rw [Document.parse?_eq_some_iff.2 hwrites, Option.bind_some]
    exact ofDocument?_isSome_iff.2 ⟨fields, hfields, hreadable⟩

/-! ## What is not one object -/

/-- The bytes of a frame are text, and they are one JSON object. -/
def SpellsObject (frame : Bytes) : Prop :=
  (Utf8.decode? frame).isSome = true ∧ ∃ members, Writes frame (Document.object members).tokens

/-- A frame is not one JSON object, and has the members of a message all the same. -/
inductive Tolerated (frame : Bytes) : Prop where
  /-- It is an array of them, in the order of their names; those at the end may be left out. -/
  | positional {items : List Document} (array : Writes frame (Document.array items).tokens)
      (few : items.length ≤ memberNames.length) (readable : Readable (memberNames.zip items))
  /-- It would be an object, but is not text where nobody reads it. -/
  | garbled {members : List (List Json.Piece × Document)} {fields : List (String × Document)}
      (broken : Utf8.decode? frame = none) (object : Writes frame (Document.object members).tokens)
      (named : (Document.object members).fields? memberNames = some fields)
      (readable : Readable fields)

/-- A tolerated frame is not one object. -/
theorem Tolerated.not_spellsObject (h : Tolerated frame) : ¬ SpellsObject frame := by
  rintro ⟨htext, members, hobject⟩
  cases h with
  | positional array => exact absurd (Document.writes_unique array hobject) (by simp)
  | garbled broken => simp [broken] at htext

/-- A tolerated frame is not malformed. -/
theorem Tolerated.parse_ne_malformed (h : Tolerated frame) : parse frame ≠ .error .malformed := by
  cases h with
  | positional array few readable =>
    have named := Document.fields?_array_eq_some_iff.2 ⟨few, rfl⟩
    exact parse_ne_malformed_iff.2 ⟨_, _, array, named, readable⟩
  | garbled broken object named readable =>
    exact parse_ne_malformed_iff.2 ⟨_, _, object, named, readable⟩

/-- A frame that is not one object is tolerated if it is not malformed. -/
theorem tolerated_of_parse (h : ¬ SpellsObject frame) (hparse : parse frame ≠ .error .malformed) :
    Tolerated frame := by
  obtain ⟨d, fields, hwrites, hfields, hreadable⟩ := parse_ne_malformed_iff.1 hparse
  cases d with
  | array items =>
    obtain ⟨few, rfl⟩ := Document.fields?_array_eq_some_iff.1 hfields
    exact .positional hwrites few hreadable
  | object members =>
    cases hdecode : Utf8.decode? frame with
    | none => exact .garbled hdecode hwrites hfields hreadable
    | some text => exact absurd ⟨by rw [hdecode]; rfl, members, hwrites⟩ h
  | null | bool | number | string =>
    -- A scalar has no members.
    simp [Document.fields?] at hfields

/-- A frame that is not one JSON object is malformed exactly if it is not tolerated, and then a client
does nothing with it but note that. A document is taken for the object that has its named members and
no others. -/
theorem malformed_unless_tolerated (frame : Bytes) :
    ((¬ SpellsObject frame → parse frame = .error .malformed) ↔ ¬ Tolerated frame) ∧
      (¬ SpellsObject frame → ¬ Tolerated frame →
        ∀ s : Session, s.dispatch frame = s.note .malformed) ∧
      ∀ (d : Document) (fields : List (String × Document)) (frame' : Bytes),
        Writes frame d.tokens → d.fields? memberNames = some fields →
        Writes frame' (Document.ofFields fields).tokens → parse frame = parse frame' := by
  have hmalformed : ¬ SpellsObject frame → ¬ Tolerated frame → parse frame = .error .malformed :=
    fun h other => Classical.not_not.1 fun hparse => other (tolerated_of_parse h hparse)
  refine ⟨⟨fun refused h => ?_, fun other h => hmalformed h other⟩, fun h other s => ?_,
    fun d fields frame' => parse_ofFields⟩
  · exact h.parse_ne_malformed (refused h.not_spellsObject)
  · simp only [Session.dispatch, hmalformed h other]

/-- A byte that is no text is not noticed under a name that no member of a message has. -/
example : parse (Utf8.encode "\x7b\"id\":1,\"x\":\"" ++ 0xff :: Utf8.encode "\"\x7d") =
    .ok (.reply ⟨.number 1, .ok .null⟩) := rfl

/-- An array of one number is no object, but it is a reply to the call with that number, and ends it. -/
theorem array_taken_for_reply :
    ¬ SpellsObject (Utf8.encode "[1]") ∧
      parse (Utf8.encode "[1]") = .ok (.reply ⟨.number 1, .ok .null⟩) ∧
      ([[.start], [.issue ⟨"m", some (.object []), .value⟩], [.send (Utf8.encode "[1]\n\n")]].foldl
        Session.step Session.Setup.sample.fresh).outcomeAt? 0 = some (.ok .null) := by
  refine ⟨?_, rfl, rfl⟩
  rintro ⟨-, members, hwrites⟩
  have harray : Document.parse? (Utf8.encode "[1]") =
      some (.array [.number ⟨false, ['1'], none, none⟩]) := rfl
  rw [Document.parse?_eq_some_iff.2 hwrites] at harray
  exact absurd (Option.some.inj harray) (by simp)

end Inbound

end PipeCall
