import Mathlib.Algebra.Order.Field.Power
import Mathlib.Data.Rat.Cast.Order
import Mathlib.Tactic.NormNum
import Mathlib.Tactic.Positivity
import PipeCall.Json.Value

/-!
# What is rounded is finite

A double is finite if its significand has 53 bits and its exponent is in range (`Double.IsFinite`).
Every double that is computed is: a fraction is cut to a quotient of at most 53 bits, so that rounding
carries it at most to the next power of two (`quotient_le`), and what is too large gives no double.
So are the numbers that a document denotes (`NumberLiteral.isFinite_of_number?`).
-/

namespace PipeCall.Json

namespace Double

variable {negative : Bool} {num den : Nat} {e : Int} {d d' : Double}

/-- A double as there are: its significand has 53 bits, and its exponent is in range. -/
structure IsFinite (d : Double) : Prop where
  significand : d.significand < significandLimit
  low : minExponent ≤ d.exponent
  high : d.exponent ≤ maxExponent

/-- A quotient is rounded down or up. -/
theorem roundDiv_cases (num den : Nat) :
    roundDiv num den = num / den ∨ roundDiv num den = num / den + 1 := by
  unfold roundDiv
  dsimp only
  split <;> omega

/-- A quotient below a positive number is rounded at most to that number. -/
theorem roundDiv_le {n : Nat} (hn : 0 < n) (h : 0 < den → num < n * den) : roundDiv num den ≤ n := by
  have hfloor : num / den < n := by
    rcases Nat.eq_zero_or_pos den with rfl | hden
    · rwa [Nat.div_zero]
    · exact (Nat.div_lt_iff_lt_mul hden).2 (h hden)
  rcases roundDiv_cases num den with hround | hround <;> omega

/-- The comparison with a power of two is exact. -/
theorem twoPowLe_iff : twoPowLe e num den = true ↔ (den : ℚ) * (2 : ℚ) ^ e ≤ num := by
  unfold twoPowLe
  split
  · rename_i he
    obtain ⟨j, rfl⟩ := Int.eq_ofNat_of_zero_le he
    rw [Int.toNat_natCast, Nat.shiftLeft_eq, decide_eq_true_eq, zpow_natCast]
    exact_mod_cast Iff.rfl
  · rename_i he
    obtain ⟨j, rfl⟩ : ∃ j : Nat, e = -j := ⟨(-e).toNat, by omega⟩
    have hpow : (0 : ℚ) < (2 : ℚ) ^ j := by positivity
    rw [neg_neg, Int.toNat_natCast, Nat.shiftLeft_eq, decide_eq_true_eq, zpow_neg, zpow_natCast,
      ← div_eq_mul_inv, div_le_iff₀ hpow]
    exact_mod_cast Iff.rfl

/-- A fraction is less than twice the power of two that is found for it. -/
theorem lt_two_zpow_floorLog (num : Nat) (hden : den ≠ 0) :
    (num : ℚ) < den * (2 : ℚ) ^ (floorLog num den + 1) := by
  unfold floorLog
  dsimp only
  split
  · have hnum' : (num : ℚ) < (2 : ℚ) ^ (num.log2 + 1) := by exact_mod_cast Nat.lt_log2_self
    have hden' : (2 : ℚ) ^ den.log2 ≤ den := by exact_mod_cast Nat.log2_self_le hden
    calc (num : ℚ) < (2 : ℚ) ^ (num.log2 + 1) := hnum'
      _ = (2 : ℚ) ^ den.log2 * (2 : ℚ) ^ ((num.log2 : Int) - den.log2 + 1) := by
        rw [← zpow_natCast, ← zpow_natCast, ← zpow_add₀ (by norm_num)]
        congr 1
        omega
      _ ≤ den * (2 : ℚ) ^ ((num.log2 : Int) - den.log2 + 1) := by gcongr
  · rename_i hguess
    rw [twoPowLe_iff, not_le] at hguess
    rwa [Int.sub_add_cancel]

/-- The quotient of a fraction by a power of two that leaves 53 bits of it, rounded. -/
def quotient (num den : Nat) (q : Int) : Nat :=
  if 0 ≤ q then roundDiv num (den <<< q.toNat) else roundDiv (num <<< (-q).toNat) den

/-- Such a quotient is at most the power of two above the greatest significand. -/
theorem quotient_le {q : Int} (hq : floorLog num den - 52 ≤ q) :
    quotient num den q ≤ significandLimit := by
  have hlimit : (significandLimit : ℚ) = (2 : ℚ) ^ (53 : Int) := by norm_num [significandLimit]
  have hpower : (2 : ℚ) ^ (floorLog num den + 1) ≤ (2 : ℚ) ^ (53 + q) :=
    zpow_le_zpow_right₀ (by norm_num) (by omega)
  have hbound : den ≠ 0 → (num : ℚ) < significandLimit * ((2 : ℚ) ^ q * den) := fun hden =>
    calc (num : ℚ) < den * (2 : ℚ) ^ (floorLog num den + 1) := lt_two_zpow_floorLog num hden
      _ ≤ den * (2 : ℚ) ^ (53 + q) := by gcongr
      _ = significandLimit * ((2 : ℚ) ^ q * den) := by
        rw [hlimit, zpow_add₀ (by norm_num), mul_comm, mul_assoc]
  unfold quotient
  split
  · rename_i hsign
    obtain ⟨j, rfl⟩ := Int.eq_ofNat_of_zero_le hsign
    refine roundDiv_le (by decide) fun hden => ?_
    rw [Int.toNat_natCast, Nat.shiftLeft_eq] at hden ⊢
    have hbound := hbound (by rintro rfl; simp at hden)
    rw [zpow_natCast, mul_comm ((2 : ℚ) ^ j)] at hbound
    exact_mod_cast hbound
  · rename_i hsign
    obtain ⟨j, rfl⟩ : ∃ j : Nat, q = -j := ⟨(-q).toNat, by omega⟩
    refine roundDiv_le (by decide) fun hden => ?_
    rw [neg_neg, Int.toNat_natCast, Nat.shiftLeft_eq]
    have hpow : (0 : ℚ) < (2 : ℚ) ^ j := by positivity
    have hbound := hbound hden.ne'
    rw [zpow_neg, zpow_natCast, ← div_eq_inv_mul, ← mul_div_assoc, lt_div_iff₀ hpow] at hbound
    exact_mod_cast hbound

/-- Zero is finite. -/
theorem isFinite_zero (negative : Bool) : (zero negative).IsFinite where
  significand := Nat.two_pow_pos 53
  low := Int.le_refl _
  high := by
    show minExponent ≤ maxExponent
    decide

/-- What a fraction is rounded to is finite. -/
theorem isFinite_of_ofRatio? (h : ofRatio? negative num den = some d) : d.IsFinite := by
  unfold ofRatio? at h
  split at h
  · obtain rfl := Option.some.inj h
    exact isFinite_zero negative
  · have hle : quotient num den (max (floorLog num den - 52) minExponent) ≤ significandLimit :=
      quotient_le (Int.le_max_left _ _)
    have hleast := Int.le_max_right (floorLog num den - 52) minExponent
    dsimp only at h
    rw [← quotient] at h
    generalize max (floorLog num den - 52) minExponent = q at h hle hleast
    generalize quotient num den q = m at h hle
    by_cases hcarry : m = significandLimit
    · -- Rounding has carried to the next power of two.
      rw [if_pos hcarry] at h
      obtain ⟨hmost, heq⟩ := Option.ite_none_right_eq_some.1 h
      obtain rfl := Option.some.inj heq
      have hcarried : leastNormal ≠ 0 ∧ leastNormal < significandLimit := by decide
      refine ⟨hcarried.2, ?_, ?_⟩ <;> dsimp only <;> rw [if_neg hcarried.1]
      · omega
      · exact hmost
    · rw [if_neg hcarry] at h
      obtain ⟨hmost, heq⟩ := Option.ite_none_right_eq_some.1 h
      obtain rfl := Option.some.inj heq
      refine ⟨Nat.lt_of_le_of_ne hle hcarry, ?_, ?_⟩ <;> dsimp only <;> split
      · exact Int.le_refl _
      · exact hleast
      · decide
      · exact hmost

/-- Scaling by powers of ten leaves a double finite. -/
theorem isFinite_of_shrink? {steps k : Nat} (hd : d.IsFinite) (h : shrink? steps d k = some d') :
    d'.IsFinite := by
  have hscale : ∀ {d d' : Double} {k : Nat}, d.scaleDown? k = some d' → d'.IsFinite := by
    intro d d' k h
    obtain ⟨_, -, hratio⟩ := Option.bind_eq_some_iff.1 h
    exact isFinite_of_ofRatio? hratio
  induction steps generalizing d k with
  | zero =>
    obtain rfl := Option.some.inj h
    exact hd
  | succ steps ih =>
    unfold shrink? at h
    split at h
    · exact hscale h
    · split at h
      · obtain rfl := Option.some.inj h
        exact hd
      · obtain ⟨smaller, hsmaller, hrest⟩ := Option.bind_eq_some_iff.1 h
        exact ih (hscale hsmaller) hrest

/-- What a significand and a power of ten stand for is finite. -/
theorem isFinite_of_ofDecimal? {significand : Nat} {exponent : Int}
    (h : ofDecimal? negative significand exponent = some d') : d'.IsFinite := by
  obtain ⟨d, hd, h⟩ := Option.bind_eq_some_iff.1 h
  have hfinite : d.IsFinite := isFinite_of_ofRatio? hd
  split at h
  · split at h
    · obtain ⟨_, -, hratio⟩ := Option.bind_eq_some_iff.1 h
      exact isFinite_of_ofRatio? hratio
    · obtain ⟨-, heq⟩ := Option.ite_none_right_eq_some.1 h
      obtain rfl := Option.some.inj heq
      exact hfinite
  · exact isFinite_of_shrink? hfinite h

end Double

/-- The double that a literal denotes is finite. -/
theorem NumberLiteral.isFinite_of_number? {l : NumberLiteral} {d : Double}
    (h : l.number? = some (.double d)) : d.IsFinite := by
  unfold NumberLiteral.number? at h
  dsimp only at h
  split at h
  · simp at h
  · split at h
    · simp at h
    · obtain ⟨_, hdecimal, heq⟩ := Option.map_eq_some_iff.1 h
      obtain rfl := Number.double.inj heq
      exact Double.isFinite_of_ofDecimal? hdecimal

end PipeCall.Json
