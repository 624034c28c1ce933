import Mathlib.Data.List.Induction
import PipeCall.Decimal
import PipeCall.Text.Blank

/-!
# Canonical decimals

`Canonical cs n` says of a text, without a printer, that it is the canonical decimal of a number: a
run of digits without a sign or white space, of which the first is no zero unless it is all there is,
and which denotes the number. The digits that are printed are such a text and the only one
(`canonical_iff`), so `canonical?` answers for these texts and no others (`canonical?_eq_some_iff`):
the plus sign and the zeros in front that the laxer reader lets through do not get past it. What that
one accepts is `Word` (`readWord?_eq_some_iff`).
-/

namespace PipeCall.Decimal

variable {c : Char} {cs : List Char} {n : Nat}

/-- The canonical decimal of a number. -/
structure Canonical (cs : List Char) (n : Nat) : Prop where
  /-- It has a digit. -/
  nonempty : cs ≠ []
  /-- It has no sign and no white space. -/
  digits : ∀ c ∈ cs, c.isDigit = true
  /-- It has no zero in front. -/
  lead : cs.head? = some '0' → cs = ['0']
  /-- It denotes the number. -/
  value : Nat.ofDigitChars 10 cs 0 = n

/-- A run of digits denotes a number that fits 64 bits. -/
structure Digits (ds : List Char) (n : Nat) : Prop where
  nonempty : ds ≠ []
  digits : ∀ c ∈ ds, c.isDigit = true
  value : Nat.ofDigitChars 10 ds 0 = n
  fits : n < wordLimit

/-- A number that fits 64 bits in digits, of which any may be zeros in front, with at most one plus
sign before them. -/
inductive Word (cs : List Char) (n : Nat) : Prop where
  | plain (digits : Digits cs n)
  | plus {ds : List Char} (sign : cs = '+' :: ds) (digits : Digits ds n)

/-! ## Digits -/

/-- The decimal digits are the characters from 48 to 57. -/
theorem toNat_of_isDigit (h : c.isDigit = true) : 48 ≤ c.toNat ∧ c.toNat ≤ 57 := by
  simp only [Char.isDigit, Bool.and_eq_true, decide_eq_true_eq, ge_iff_le,
    UInt32.le_iff_toNat_le] at h
  exact h

/-- A digit is no white space. -/
theorem isBlank_of_isDigit (h : c.isDigit = true) : Text.isBlank c = false := by
  obtain ⟨hlow, hhigh⟩ := toNat_of_isDigit h
  unfold Text.isBlank
  simp only [Bool.or_eq_false_iff, Bool.and_eq_false_iff, decide_eq_false_iff_not, beq_eq_false_iff_ne]
  omega

/-- A digit is printed for its own value, which is below ten. -/
theorem digitChar_of_isDigit (h : c.isDigit = true) :
    c.toNat - 48 < 10 ∧ (c.toNat - 48).digitChar = c := by
  obtain ⟨hlow, hhigh⟩ := toNat_of_isDigit h
  refine ⟨by omega, Char.toNat_inj.1 ?_⟩
  rw [Nat.toNat_digitChar_of_lt_ten (by omega)]
  omega

/-- The digits that are printed are digits. -/
theorem isDigit_toDigits : ∀ c ∈ Nat.toDigits 10 n, c.isDigit = true := fun _ hc =>
  Nat.isDigit_of_mem_toDigits (by decide) (by decide) hc

/-- The digits of a positive number do not start with a zero. -/
theorem head_toDigits (h : 0 < n) : (Nat.toDigits 10 n).head? ≠ some '0' := by
  induction n using Nat.base_induction 10 (by decide) with
  | single m hm =>
    rw [Nat.toDigits_of_lt_base hm]
    simpa using Nat.ne_of_gt h
  | digit m k hk hm ih =>
    obtain ⟨d, ds, hds⟩ := List.exists_cons_of_ne_nil (Nat.toDigits_ne_nil (n := m) (b := 10))
    have hrest := ih hm
    rw [← Nat.toDigits_append_toDigits (by decide) hm hk, hds]
    rw [hds] at hrest
    exact hrest

/-- One more digit behind the digits of a positive number. -/
theorem toDigits_concat (hn : 0 < n) (hc : c.isDigit = true) :
    Nat.toDigits 10 (10 * n + (c.toNat - 48)) = Nat.toDigits 10 n ++ [c] := by
  obtain ⟨hlt, hchar⟩ := digitChar_of_isDigit hc
  rw [← Nat.toDigits_append_toDigits (by decide) hn hlt, Nat.toDigits_of_lt_base hlt, hchar]

/-! ## The canonical text -/

/-- Digits without a zero in front are printed for the number that they denote. -/
theorem Canonical.eq_toDigits (h : Canonical cs n) : cs = Nat.toDigits 10 n := by
  -- Digits are added behind, so the number is multiplied by ten and what is in front stays.
  induction cs using List.reverseRecOn generalizing n with
  | nil => exact absurd rfl h.nonempty
  | append_singleton ds d ih =>
    obtain ⟨-, digits, lead, rfl⟩ := h
    have hd : d.isDigit = true := digits d (by simp)
    have hvalue : Nat.ofDigitChars 10 (ds ++ [d]) 0 =
        10 * Nat.ofDigitChars 10 ds 0 + (d.toNat - 48) := by
      rw [Nat.ofDigitChars_append, Nat.ofDigitChars_cons, Nat.ofDigitChars_nil]
      rfl
    rw [hvalue]
    cases ds with
    | nil =>
      obtain ⟨hlt, hchar⟩ := digitChar_of_isDigit hd
      rw [Nat.ofDigitChars_nil, Nat.mul_zero, Nat.zero_add, Nat.toDigits_of_lt_base hlt, hchar]
      rfl
    | cons e ds =>
      have hlead : (e :: ds).head? ≠ some '0' := by
        intro hzero
        have := congrArg List.length (lead (by simpa using hzero))
        simp at this
      have hfront := ih ⟨by simp, fun c hc => digits c (List.mem_append_left _ hc),
        fun hzero => absurd hzero hlead, rfl⟩
      have hpos : 0 < Nat.ofDigitChars 10 (e :: ds) 0 := by
        refine Nat.pos_of_ne_zero fun hzero => hlead ?_
        rw [hfront, hzero]
        rfl
      rw [toDigits_concat hpos hd, ← hfront]

/-- What is printed for a number is its canonical text, and nothing else is. -/
theorem canonical_iff : Canonical cs n ↔ cs = Nat.toDigits 10 n := by
  refine ⟨Canonical.eq_toDigits, ?_⟩
  rintro rfl
  refine ⟨Nat.toDigits_ne_nil, isDigit_toDigits, fun hzero => ?_, Nat.ofDigitChars_ten_toDigits⟩
  rcases Nat.eq_zero_or_pos n with rfl | hpos
  · rfl
  · exact absurd hzero (head_toDigits hpos)

/-- A string is the canonical text of a number if it is what is printed for it. -/
theorem canonical_toList_iff {s : String} : Canonical s.toList n ↔ s = text n := by
  rw [canonical_iff, text, ← String.toList_inj, String.toList_ofList]

/-- A number can be told from its text. -/
theorem text_injective {m n : Nat} (h : text m = text n) : m = n := by
  have hm : Canonical (text m).toList m := canonical_toList_iff.2 rfl
  have hn : Canonical (text m).toList n := canonical_toList_iff.2 h
  exact hm.value.symm.trans hn.value

/-! ## The laxer reader -/

/-- A digit is no plus sign. -/
theorem Digits.ne_plus {ds rest : List Char} (h : Digits ds n) : ds ≠ '+' :: rest := by
  rintro rfl
  exact absurd (h.digits '+' (by simp)) (by decide)

/-- Digits whose number fits 64 bits are read as that. -/
theorem readNat?_filter_eq_some_iff :
    (readNat? cs).filter (· < wordLimit) = some n ↔ Digits cs n := by
  rw [Option.filter_eq_some_iff, readNat?, Option.ite_none_right_eq_some, Option.some.injEq,
    List.all_eq_true, decide_eq_true_eq]
  constructor
  · rintro ⟨⟨⟨nonempty, digits⟩, value⟩, fits⟩
    exact ⟨nonempty, digits, value, fits⟩
  · rintro ⟨nonempty, digits, value, fits⟩
    exact ⟨⟨⟨nonempty, digits⟩, value⟩, fits⟩

/-- The numbers that fit 64 bits are read from their digits, with a plus sign or without, and from
nothing else. -/
theorem readWord?_eq_some_iff : readWord? cs = some n ↔ Word cs n := by
  unfold readWord?
  dsimp only
  rw [readNat?_filter_eq_some_iff]
  split
  · rename_i rest
    constructor
    · exact fun h => .plus rfl h
    · intro h
      cases h with
      | plain digits => exact absurd rfl digits.ne_plus
      | plus sign digits => exact (List.cons.inj sign).2 ▸ digits
  · rename_i hother
    constructor
    · exact fun h => .plain h
    · intro h
      cases h with
      | plain digits => exact digits
      | plus sign digits => exact absurd sign (hother _)

/-- The canonical text of a number that fits 64 bits is read as the number. -/
theorem readWord?_toDigits (h : n < wordLimit) : readWord? (Nat.toDigits 10 n) = some n :=
  readWord?_eq_some_iff.2 <|
    .plain ⟨Nat.toDigits_ne_nil, isDigit_toDigits, Nat.ofDigitChars_ten_toDigits, h⟩

/-- The canonical texts of the numbers that fit 64 bits are read, and no others. -/
theorem canonical?_eq_some_iff : canonical? cs = some n ↔ n < wordLimit ∧ Canonical cs n := by
  rw [canonical?, Option.filter_eq_some_iff, beq_iff_eq, canonical_iff]
  constructor
  · rintro ⟨hread, rfl⟩
    obtain ⟨-, hlt⟩ := Option.filter_eq_some_iff.1 hread
    exact ⟨of_decide_eq_true hlt, rfl⟩
  · rintro ⟨hlt, rfl⟩
    exact ⟨readWord?_toDigits hlt, rfl⟩

end PipeCall.Decimal
