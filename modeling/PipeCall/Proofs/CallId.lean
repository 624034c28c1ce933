import Mathlib.Algebra.Group.Nat.Defs
import PipeCall.Message
import PipeCall.Proofs.Decimal
import PipeCall.Proofs.Json.Lexing

/-!
# Which call an identifier names

A number names the call of that number, and a text the call whose number it is the canonical decimal
of. `Addressing` puts together what this comes to: a number and a text meet only where the text is the
number's decimal, two texts never meet, what is as good as no identifier names no call, and no reply
carries such an identifier. So a reply reaches a call only under the number that was sent, or under
its decimal to the letter.
-/

namespace PipeCall

namespace CallId

variable {s s' : String} {k n : Nat} {id : CallId}

/-- Two identifiers name the same call. -/
def SameCall (a b : CallId) : Prop := ∃ n, a.key? = some n ∧ b.key? = some n

/-- An identifier that is a number fits 64 bits. -/
def Fits : CallId → Prop
  | .number n => n < Decimal.wordLimit
  | .text _ => True

/-! ## Numbers and texts -/

/-- A number names the call of that number, and zero none. -/
theorem key?_number_eq_some_iff : (number n).key? = some k ↔ k = n ∧ n ≠ 0 := by
  have hkey : (number n).key? = if n = 0 then none else some n := rfl
  rw [hkey, Option.ite_none_left_eq_some, Option.some.injEq, and_comm, eq_comm]

/-- A text names the call whose number it is the canonical text of. -/
theorem key?_text_eq_some_iff :
    (text s).key? = some n ↔ 1 ≤ n ∧ n < 2 ^ 64 ∧ Decimal.Canonical s.toList n := by
  have hlimit : Decimal.wordLimit = 2 ^ 64 := rfl
  have hkey : (text s).key? = some n ↔ Decimal.canonical? s.toList = some n ∧ n ≠ 0 := by
    simp only [key?, Option.filter_eq_some_iff, decide_eq_true_eq]
  rw [hkey, Decimal.canonical?_eq_some_iff, hlimit, Nat.one_le_iff_ne_zero]
  exact ⟨fun ⟨⟨hlt, hcanonical⟩, hne⟩ => ⟨hne, hlt, hcanonical⟩,
    fun ⟨hne, hlt, hcanonical⟩ => ⟨⟨hlt, hcanonical⟩, hne⟩⟩

/-- A number and a text name the same call if the text is the number's decimal, which fits 64 bits. -/
theorem sameCall_number_text_iff :
    (number n).SameCall (text s) ↔ n ≠ 0 ∧ n < 2 ^ 64 ∧ s = Decimal.text n := by
  constructor
  · rintro ⟨k, hnumber, htext⟩
    obtain ⟨rfl, hne⟩ := key?_number_eq_some_iff.1 hnumber
    obtain ⟨-, hlt, hcanonical⟩ := key?_text_eq_some_iff.1 htext
    exact ⟨hne, hlt, Decimal.canonical_toList_iff.1 hcanonical⟩
  · rintro ⟨hne, hlt, htext⟩
    have hcanonical := Decimal.canonical_toList_iff.2 htext
    have hone : 1 ≤ n := Nat.one_le_iff_ne_zero.2 hne
    exact ⟨n, key?_number_eq_some_iff.2 ⟨rfl, hne⟩,
      key?_text_eq_some_iff.2 ⟨hone, hlt, hcanonical⟩⟩

/-- Two texts that name the same call are one text. -/
theorem eq_of_sameCall_text (h : (text s).SameCall (text s')) : s = s' := by
  obtain ⟨n, hn, hn'⟩ := h
  obtain ⟨-, -, hcanonical⟩ := key?_text_eq_some_iff.1 hn
  obtain ⟨-, -, hcanonical'⟩ := key?_text_eq_some_iff.1 hn'
  have htext := Decimal.canonical_toList_iff.1 hcanonical
  have htext' := Decimal.canonical_toList_iff.1 hcanonical'
  rw [htext, htext']

/-! ## Absent identifiers -/

/-- An identifier that names a call is not absent. -/
theorem isAbsent_of_key? (h : id.key? = some n) : id.isAbsent = false := by
  cases id with
  | number m =>
    obtain ⟨-, hne⟩ := key?_number_eq_some_iff.1 h
    exact beq_eq_false_iff_ne.2 hne
  | text s =>
    obtain ⟨-, -, hcanonical⟩ := key?_text_eq_some_iff.1 h
    -- The first character of the text is a digit.
    obtain ⟨c, cs, hcons⟩ := List.exists_cons_of_ne_nil hcanonical.nonempty
    have hdigit : c.isDigit = true := hcanonical.digits c (by simp [hcons])
    simp [isAbsent, hcons, Decimal.isBlank_of_isDigit hdigit]

/-- An identifier that was read fits 64 bits. -/
theorem fits_of_ofDocument? {d : Json.Document} (h : ofDocument? d = some id) : id.Fits := by
  unfold ofDocument? at h
  split at h
  · split at h
    · rename_i hnumber
      obtain ⟨-, hhigh⟩ := Json.NumberLiteral.bounds_of_number? hnumber
      obtain ⟨hsign, heq⟩ := Option.ite_none_right_eq_some.1 h
      obtain rfl := Option.some.inj heq
      show Int.toNat _ < Decimal.wordLimit
      omega
    · simp at h
  · obtain ⟨_, -, rfl⟩ := Option.map_eq_some_iff.1 h
    trivial
  · simp at h

end CallId

namespace Inbound

/-- Members that are taken for a reply name the call that it answers. -/
theorem id_of_ofMembers {m : Members} {r : Reply} (h : ofMembers m = .ok (.reply r)) :
    m.id = some r.id ∧ r.id.isAbsent = false := by
  unfold ofMembers at h
  split at h
  · simp at h
  · simp at h
  · rename_i id hmethod hid
    split at h
    · simp at h
    · rename_i hpresent
      obtain rfl := Inbound.reply.inj (Except.ok.inj h)
      exact ⟨hid, Bool.eq_false_iff.2 hpresent⟩

/-- The identifier of a reply is present, and fits 64 bits. -/
theorem id_of_parse {frame : Bytes} {r : Reply} (h : parse frame = .ok (.reply r)) :
    r.id.isAbsent = false ∧ r.id.Fits := by
  unfold parse at h
  split at h
  · rename_i m hm
    obtain ⟨hid, hpresent⟩ := id_of_ofMembers h
    obtain ⟨d, -, hmembers⟩ := Option.bind_eq_some_iff.1 hm
    simp only [Members.ofDocument?, Option.bind_eq_bind, Option.bind_eq_some_iff, Option.pure_def,
      Option.some.injEq] at hmembers
    obtain ⟨_, -, id, hread, _, -, _, -, _, -, rfl⟩ := hmembers
    obtain rfl : id = some r.id := hid
    unfold optional? at hread
    split at hread
    · simp at hread
    · obtain ⟨_, hread, heq⟩ := Option.map_eq_some_iff.1 hread
      obtain rfl := Option.some.inj heq
      exact ⟨hpresent, CallId.fits_of_ofDocument? hread⟩
  · simp at h

end Inbound

namespace CallId

/-- How identifiers name calls. -/
structure Addressing : Prop where
  /-- A text names the call whose number it is the canonical decimal of, if that is a positive number
  of 64 bits. -/
  text (s : String) (n : Nat) :
    (text s).key? = some n ↔ 1 ≤ n ∧ n < 2 ^ 64 ∧ Decimal.Canonical s.toList n
  /-- A number names the call of that number, unless it is zero. -/
  number (n k : Nat) : (number n).key? = some k ↔ k = n ∧ n ≠ 0
  /-- A number that names a call and a text name the same call exactly if the text is the number's
  decimal. -/
  mixed (n : Nat) (s : String) :
    (CallId.number n).SameCall (.text s) ↔ n ≠ 0 ∧ n < 2 ^ 64 ∧ s = Decimal.text n
  /-- No two texts name the same call. -/
  texts (s s' : String) : (CallId.text s).SameCall (.text s') → s = s'
  /-- An identifier that is absent names no call. -/
  absent (id : CallId) : id.isAbsent = true → id.key? = none
  /-- A reply that was read has an identifier that is not absent; a number in it fits 64 bits. -/
  replies (frame : Bytes) (r : Reply) :
    Inbound.parse frame = .ok (.reply r) → r.id.isAbsent = false ∧ r.id.Fits

/-- Identifiers name calls by their numbers and the canonical decimals of these, and by nothing
else. -/
theorem addressing : Addressing where
  text _ _ := key?_text_eq_some_iff
  number _ _ := key?_number_eq_some_iff
  mixed _ _ := sameCall_number_text_iff
  texts _ _ := eq_of_sameCall_text
  absent id habsent := by
    refine Option.eq_none_iff_forall_ne_some.2 fun n hkey => ?_
    rw [isAbsent_of_key? hkey] at habsent
    exact absurd habsent (by decide)
  replies _ _ := Inbound.id_of_parse

/-- The decimal of a number that names a call names the same call; with a plus sign, a zero in front or
a blank behind it names none, and neither does the first number that does not fit. -/
example : (CallId.text "70").key? = some 70 ∧
    ["+70", "070", "70 ", "0", "", "18446744073709551616"].all fun s => (CallId.text s).key?.isNone := by
  decide

end CallId

end PipeCall
