import Mathlib.Tactic.FieldSimp
import Mathlib.Tactic.Ring
import PipeCall.Proofs.Json.Rounding

/-!
# The shortest decimal of a double

The search for the shortest decimal goes from coarse grids to finer ones and stops at the first with a
number on it that rounds to the double. It does stop: a grid on which neither of the two numbers
around the double rounds to it is at least three quarters of the double's unit wide
(`three_mul_quarter_le`), and the last grid is finer than that (`grid_lt`). So what the search gives
rounds to the double (`shortest_readsBack`), and it is not zero (`shortest_pos`).
-/

namespace PipeCall.Json.Double

variable {d : Double} {k : Int} {c : Nat}

/-! ## One unit for binary and decimal fractions -/

/-- A quarter of `2 ^ e` in the unit to which it is brought together with `10 ^ k`. -/
def quarter (e k : Int) : Nat := 10 ^ (-k).toNat * 2 ^ (e - 2).toNat

/-- `10 ^ k` in that unit. -/
def grid (e k : Int) : Nat := 10 ^ k.toNat * 2 ^ (2 - e).toNat

theorem quarter_pos (e k : Int) : 0 < quarter e k := by
  unfold quarter
  positivity

theorem grid_pos (e k : Int) : 0 < grid e k := by
  unfold grid
  positivity

/-- Quarters of `2 ^ e` and multiples of `10 ^ k` in the common unit. -/
theorem alignWith_eq (e k : Int) (n c : Nat) : alignWith e k n c = (n * quarter e k, c * grid e k) := by
  have hpow : ∀ j, Nat.pow 10 j = 10 ^ j := fun _ => rfl
  unfold alignWith quarter grid
  simp only [Nat.shiftLeft_eq, hpow, Nat.mul_assoc]

/-- The common unit is the same for both. -/
theorem grid_eq (e k : Int) : (grid e k : ℚ) = quarter e k * ((10 : ℚ) ^ k * (2 : ℚ) ^ (2 - e)) := by
  have hten : (10 : ℚ) ^ k.toNat = (10 : ℚ) ^ (-k).toNat * (10 : ℚ) ^ k := by
    rw [← zpow_natCast, ← zpow_natCast, ← zpow_add₀ (by norm_num)]
    congr 1
    omega
  have htwo : (2 : ℚ) ^ (2 - e).toNat = (2 : ℚ) ^ (e - 2).toNat * (2 : ℚ) ^ (2 - e) := by
    rw [← zpow_natCast, ← zpow_natCast, ← zpow_add₀ (by norm_num)]
    congr 1
    omega
  unfold grid quarter
  push_cast
  rw [hten, htwo]
  ring

/-! ## What rounds to a double -/

/-- The numbers that round to a double that is not zero are positive, lie around it, and are at least
three quarters of its unit apart. -/
theorem interval_bounds (h : 0 < d.significand) :
    0 < d.interval.low ∧ d.interval.low < d.interval.value ∧ d.interval.value < d.interval.high ∧
      d.interval.low + 3 ≤ d.interval.high := by
  unfold interval
  dsimp only
  split <;> omega

/-- A decimal between the ends rounds to the double. -/
theorem readsBack_of_between (hlow : d.interval.low * quarter d.exponent k < c * grid d.exponent k)
    (hhigh : c * grid d.exponent k < d.interval.high * quarter d.exponent k) :
    d.readsBack k c = true := by
  unfold readsBack
  simp only [alignWith_eq]
  split
  · simp [hlow.le, hhigh.le]
  · simp [hlow, hhigh]

/-- A decimal that rounds to a double that is not zero is not zero. -/
theorem pos_of_readsBack (hpos : 0 < d.significand) (h : d.readsBack k c = true) : 0 < c := by
  have hlow : d.interval.low * quarter d.exponent k ≤ c * grid d.exponent k := by
    unfold readsBack at h
    simp only [alignWith_eq] at h
    split at h
    · simp only [Bool.and_eq_true, decide_eq_true_eq] at h
      exact h.1
    · simp only [Bool.and_eq_true, decide_eq_true_eq] at h
      exact h.1.le
  have hleast : 0 < d.interval.low * quarter d.exponent k :=
    Nat.mul_pos (interval_bounds hpos).1 (quarter_pos _ _)
  exact Nat.pos_of_mul_pos_right (hleast.trans_le hlow)

/-! ## The search -/

/-- What is found on a grid rounds to the double. -/
theorem readsBack_of_nearest? (h : d.nearest? k = some c) : d.readsBack k c = true := by
  unfold nearest? at h
  simp only [alignWith_eq] at h
  split at h
  · rename_i hfloor hnext
    obtain rfl := Option.some.inj h
    rcases roundDiv_cases (d.interval.value * quarter d.exponent k) (1 * grid d.exponent k) with
      hround | hround <;> rw [hround]
    · exact hfloor
    · exact hnext
  · rename_i hfloor _
    obtain rfl := Option.some.inj h
    exact hfloor
  · rename_i _ hnext
    obtain rfl := Option.some.inj h
    exact hnext
  · simp at h

/-- A grid on which nothing is found is at least three quarters of the double's unit wide. -/
theorem three_mul_quarter_le (hpos : 0 < d.significand) (h : d.nearest? k = none) :
    3 * quarter d.exponent k ≤ grid d.exponent k := by
  obtain ⟨-, hlow, hhigh, hwidth⟩ := interval_bounds hpos
  have hquarter := quarter_pos d.exponent k
  have hgrid := grid_pos d.exponent k
  unfold nearest? at h
  simp only [alignWith_eq, Nat.one_mul] at h
  generalize hc : d.interval.value * quarter d.exponent k / grid d.exponent k = c at h
  split at h
  · simp at h
  · simp at h
  · simp at h
  · rename_i hfloor hnext
    have hbelow : c * grid d.exponent k ≤ d.interval.value * quarter d.exponent k := by
      rw [← hc]
      exact Nat.div_mul_le_self _ _
    have habove : d.interval.value * quarter d.exponent k < (c + 1) * grid d.exponent k := by
      rw [← hc]
      exact (Nat.div_lt_iff_lt_mul hgrid).1 (Nat.lt_succ_self _)
    have hlow' : d.interval.low * quarter d.exponent k < d.interval.value * quarter d.exponent k :=
      Nat.mul_lt_mul_of_pos_right hlow hquarter
    have hhigh' : d.interval.value * quarter d.exponent k < d.interval.high * quarter d.exponent k :=
      Nat.mul_lt_mul_of_pos_right hhigh hquarter
    -- The two numbers around the double are not between the ends, so the ends are between them.
    have hfirst : c * grid d.exponent k ≤ d.interval.low * quarter d.exponent k := by
      refine Nat.le_of_not_lt fun hlt => ?_
      exact absurd (readsBack_of_between hlt (hbelow.trans_lt hhigh')) (by simp [hfloor])
    have hlast : d.interval.high * quarter d.exponent k ≤ (c + 1) * grid d.exponent k := by
      refine Nat.le_of_not_lt fun hlt => ?_
      exact absurd (readsBack_of_between (hlow'.trans habove) hlt) (by simp [hnext])
    have hends : (d.interval.low + 3) * quarter d.exponent k ≤
        d.interval.high * quarter d.exponent k := Nat.mul_le_mul_right _ hwidth
    rw [Nat.add_mul] at hends
    rw [Nat.add_mul, Nat.one_mul] at hlast
    omega

/-- A search finds something if there is something on its last grid. -/
theorem readsBack_searchGrid {steps : Nat} (h : d.nearest? (k - steps) ≠ none) :
    d.readsBack (d.searchGrid steps k).2 (d.searchGrid steps k).1 = true := by
  induction steps generalizing k with
  | zero =>
    obtain ⟨c, hc⟩ := Option.ne_none_iff_exists'.1 h
    rw [Int.natCast_zero, Int.sub_zero] at hc
    simp only [searchGrid, hc, Option.getD_some]
    exact readsBack_of_nearest? hc
  | succ steps ih =>
    unfold searchGrid
    split
    · rename_i c hc
      exact readsBack_of_nearest? hc
    · refine ih ?_
      rwa [show k - 1 - (steps : Int) = k - ((steps + 1 : Nat) : Int) by omega]

/-! ## The last grid -/

/-- A power of ten is at most a power of two if a power of it is. -/
theorem ten_zpow_le {q m : Int} {a b : Nat} (ha : 0 < a) (hq : a * q ≤ b * m)
    (h : (10 : ℚ) ^ (b * m) ≤ (2 : ℚ) ^ (a * m)) : (10 : ℚ) ^ q ≤ (2 : ℚ) ^ m := by
  have hpow : ((10 : ℚ) ^ q) ^ a ≤ ((2 : ℚ) ^ m) ^ a := by
    calc ((10 : ℚ) ^ q) ^ a = (10 : ℚ) ^ (a * q) := by
          rw [← zpow_natCast, ← zpow_mul, mul_comm]
      _ ≤ (10 : ℚ) ^ (b * m) := zpow_le_zpow_right₀ (by norm_num) hq
      _ ≤ (2 : ℚ) ^ (a * m) := h
      _ = ((2 : ℚ) ^ m) ^ a := by rw [← zpow_natCast, ← zpow_mul, mul_comm]
  exact (pow_le_pow_iff_left₀ (by positivity) (by positivity) ha.ne').1 hpow

/-- The power of ten that is estimated for a power of two is at most a hundred times too great, over
the whole range of doubles. -/
theorem ten_zpow_estimate_le {m : Int} (hlow : -1074 ≤ m) (hhigh : m ≤ 1023) :
    (10 : ℚ) ^ (m * 30103 / 100000 - 2) ≤ (2 : ℚ) ^ m := by
  rcases le_or_gt 0 m with hm | hm
  · -- Three decimal digits are less than ten binary ones.
    refine ten_zpow_le (a := 10) (b := 3) (by decide) (by omega) ?_
    obtain ⟨j, rfl⟩ := Int.eq_ofNat_of_zero_le hm
    have hpow : ((10 : ℚ) ^ 3) ^ j ≤ ((2 : ℚ) ^ 10) ^ j := pow_le_pow_left₀ (by norm_num) (by norm_num) j
    rw [zpow_mul, zpow_mul]
    exact_mod_cast hpow
  · -- Twenty-eight decimal digits are more than ninety-three binary ones.
    refine ten_zpow_le (a := 93) (b := 28) (by decide) (by omega) ?_
    obtain ⟨j, rfl⟩ : ∃ j : Nat, m = -j := ⟨(-m).toNat, by omega⟩
    have hpow : ((2 : ℚ) ^ 93) ^ j ≤ ((10 : ℚ) ^ 28) ^ j :=
      pow_le_pow_left₀ (by norm_num) (by norm_num) j
    have hinv := inv_anti₀ (by positivity) hpow
    rw [zpow_mul, zpow_mul, zpow_neg, zpow_neg]
    exact_mod_cast hinv

/-- The last grid of the search is less than three quarters of the double's unit wide. -/
theorem grid_lt (finite : d.IsFinite) (hpos : 0 < d.significand) {m : Int}
    (hm : m = d.significand.log2 + d.exponent) :
    grid d.exponent (m * 30103 / 100000 + 2 - 20) <
      3 * quarter d.exponent (m * 30103 / 100000 + 2 - 20) := by
  obtain ⟨hsignificand, hlow, hhigh⟩ := finite
  have hlog : d.significand.log2 < 53 := (Nat.log2_lt hpos.ne').2 hsignificand
  have hleast : -1074 ≤ d.exponent := hlow
  have hmost : d.exponent ≤ 971 := hhigh
  have hestimate := ten_zpow_estimate_le (m := m) (by omega) (by omega)
  have hmagnitude : (2 : ℚ) ^ m ≤ (2 : ℚ) ^ 52 * (2 : ℚ) ^ d.exponent := by
    rw [← zpow_natCast, ← zpow_add₀ (by norm_num)]
    exact zpow_le_zpow_right₀ (by norm_num) (by omega)
  generalize m * 30103 / 100000 = q at hestimate ⊢
  have hgrid : (10 : ℚ) ^ (q + 2 - 20) * (2 : ℚ) ^ (2 - d.exponent) < 3 := by
    have hten : (10 : ℚ) ^ (q + 2 - 20) = (10 : ℚ) ^ (q - 2) * (10 : ℚ) ^ (-16 : Int) := by
      rw [← zpow_add₀ (by norm_num)]
      congr 1
      omega
    have htwo : (2 : ℚ) ^ (2 - d.exponent) = 4 / (2 : ℚ) ^ d.exponent := by
      rw [zpow_sub₀ (by norm_num)]
      norm_num
    have hunit : (0 : ℚ) < (2 : ℚ) ^ d.exponent := by positivity
    calc (10 : ℚ) ^ (q + 2 - 20) * (2 : ℚ) ^ (2 - d.exponent)
        = (10 : ℚ) ^ (q - 2) * (10 : ℚ) ^ (-16 : Int) * (4 / (2 : ℚ) ^ d.exponent) := by
          rw [hten, htwo]
      _ ≤ (2 : ℚ) ^ 52 * (2 : ℚ) ^ d.exponent * (10 : ℚ) ^ (-16 : Int) *
          (4 / (2 : ℚ) ^ d.exponent) := by
          gcongr
          exact hestimate.trans hmagnitude
      _ = (2 : ℚ) ^ 52 * (10 : ℚ) ^ (-16 : Int) * 4 := by field_simp
      _ < 3 := by norm_num
  have hquarter : (0 : ℚ) < quarter d.exponent (q + 2 - 20) :=
    Nat.cast_pos.2 (quarter_pos _ _)
  have hcast : (grid d.exponent (q + 2 - 20) : ℚ) < (3 * quarter d.exponent (q + 2 - 20) : Nat) := by
    rw [grid_eq]
    push_cast
    rw [mul_comm (3 : ℚ)]
    exact mul_lt_mul_of_pos_left hgrid hquarter
  exact_mod_cast hcast

/-- The shortest decimal of a double rounds to it. -/
theorem shortest_readsBack (finite : d.IsFinite) (hpos : 0 < d.significand) :
    d.readsBack d.shortest.2 d.shortest.1 = true := by
  refine readsBack_searchGrid fun hnone => ?_
  have hwide := three_mul_quarter_le hpos hnone
  have hnarrow := grid_lt finite hpos rfl
  exact absurd hwide (Nat.not_le_of_lt hnarrow)

/-- The shortest decimal of a double that is not zero is not zero. -/
theorem shortest_pos (finite : d.IsFinite) (hpos : 0 < d.significand) : 0 < d.shortest.1 :=
  pos_of_readsBack hpos (shortest_readsBack finite hpos)

end PipeCall.Json.Double
