/-!
# Finite doubles

A finite IEEE 754 double is a sign, a significand below `2 ^ 53` and an exponent of two. All
arithmetic is exact on natural numbers and rounded once at the end by `ofRatio?`: to the nearest
double, of two equally near ones to the one with the even significand. The two scalings by a power
of ten first round that power to a double, as multiplying by a tabulated constant does.
-/

namespace PipeCall.Json

/-- A finite double: `significand * 2 ^ exponent`, negated if `negative`. -/
structure Double where
  negative : Bool
  significand : Nat
  exponent : Int
  deriving DecidableEq, Repr

namespace Double

/-- One past the greatest significand: `2 ^ 53`. -/
def significandLimit : Nat := 0x20000000000000

/-- The least significand of a double whose exponent is not the least one: `2 ^ 52`. -/
def leastNormal : Nat := 0x10000000000000

/-- The least exponent of two. -/
def minExponent : Int := -1074

/-- The greatest exponent of two. -/
def maxExponent : Int := 971

/-- Zero, with its sign. -/
def zero (negative : Bool) : Double := ⟨negative, 0, minExponent⟩

/-- The quotient of two natural numbers, rounded to the nearest integer; a half goes to the even
neighbour. -/
def roundDiv (num den : Nat) : Nat :=
  let floor := num / den
  match compare (2 * (num % den)) den with
  | .lt => floor
  | .gt => floor + 1
  | .eq => floor + floor % 2

/-- Whether `2 ^ e ≤ num / den`. -/
def twoPowLe (e : Int) (num den : Nat) : Bool :=
  if 0 ≤ e then den <<< e.toNat ≤ num else den ≤ num <<< (-e).toNat

/-- The exponent of the greatest power of two that is at most `num / den`. -/
def floorLog (num den : Nat) : Int :=
  let guess : Int := (num.log2 : Int) - den.log2
  if twoPowLe guess num den then guess else guess - 1

/-- The double nearest to `num / den`, or nothing if that is beyond the greatest one. -/
def ofRatio? (negative : Bool) (num den : Nat) : Option Double :=
  if num = 0 then some (zero negative) else
  let q := max (floorLog num den - 52) minExponent
  let m := if 0 ≤ q then roundDiv num (den <<< q.toNat) else roundDiv (num <<< (-q).toNat) den
  let (m, q) := if m = significandLimit then (leastNormal, q + 1) else (m, q)
  if q ≤ maxExponent then some ⟨negative, m, if m = 0 then minExponent else q⟩ else none

/-- The double nearest to a natural number. -/
def ofNat? (negative : Bool) (n : Nat) : Option Double := ofRatio? negative n 1

/-- The magnitude of a double as a fraction. -/
def ratio (d : Double) : Nat × Nat :=
  if 0 ≤ d.exponent then (d.significand <<< d.exponent.toNat, 1)
  else (d.significand, 1 <<< (-d.exponent).toNat)

/-- The greatest power of ten that rounds to a double. -/
def maxTenPower : Nat := 308

/-- A double times the double nearest to `10 ^ k`. -/
def scaleUp? (d : Double) (k : Nat) : Option Double := do
  let power ← ofNat? false (Nat.pow 10 k)
  ofRatio? d.negative (d.ratio.1 * power.ratio.1) (d.ratio.2 * power.ratio.2)

/-- A double over the double nearest to `10 ^ k`. -/
def scaleDown? (d : Double) (k : Nat) : Option Double := do
  let power ← ofNat? false (Nat.pow 10 k)
  ofRatio? d.negative (d.ratio.1 * power.ratio.2) (d.ratio.2 * power.ratio.1)

/-- A double over `10 ^ k`, in steps that no power of ten overflows; it stops at zero. Every step
makes a non-zero double of 64 bits smaller by 308 orders of magnitude, so `steps` can be small. -/
def shrink? : Nat → Double → Nat → Option Double
  | 0, d, _ => some d
  | steps + 1, d, k =>
    if k ≤ maxTenPower then d.scaleDown? k
    else if d.significand = 0 then some d
    else do shrink? steps (← d.scaleDown? maxTenPower) (k - maxTenPower)

/-- The double that a significand of 64 bits and a power of ten stand for: the significand is
rounded to a double and scaled once, and only a power below the least tabulated one takes more
steps. Beyond the greatest double there is none. -/
def ofDecimal? (negative : Bool) (significand : Nat) (exponent : Int) : Option Double := do
  let d ← ofNat? negative significand
  if 0 ≤ exponent then
    if exponent.toNat ≤ maxTenPower then d.scaleUp? exponent.toNat
    else if significand = 0 then some d
    else none
  else
    shrink? 4 d (-exponent).toNat

/-! ## The shortest decimal -/

/-- The numbers that round to a double, with the double itself, in quarters of the unit
`2 ^ exponent`, and whether the two ends are among them. -/
structure Interval where
  low : Nat
  value : Nat
  high : Nat
  closed : Bool

/-- The numbers that round to a non-zero double, in quarters of its unit. Below a power of two the
neighbour is only half as far away. -/
def interval (d : Double) : Interval :=
  let v := 4 * d.significand
  let below := if d.significand = leastNormal ∧ minExponent < d.exponent then 1 else 2
  { low := v - below, value := v, high := v + 2, closed := d.significand % 2 = 0 }

/-- Brings `n` quarters of `2 ^ e` and `c * 10 ^ k` to integers of one unit. -/
def alignWith (e k : Int) (n c : Nat) : Nat × Nat :=
  ((n * Nat.pow 10 (-k).toNat) <<< (e - 2).toNat, (c * Nat.pow 10 k.toNat) <<< (2 - e).toNat)

/-- Whether `c * 10 ^ k` rounds to the double. -/
def readsBack (d : Double) (k : Int) (c : Nat) : Bool :=
  let i := d.interval
  let (low, x) := alignWith d.exponent k i.low c
  let (high, _) := alignWith d.exponent k i.high c
  if i.closed then low ≤ x && x ≤ high else low < x && x < high

/-- The multiple of `10 ^ k` nearest to the double among the two around it that round to it; a tie
goes to the even one. -/
def nearest? (d : Double) (k : Int) : Option Nat :=
  let (v, unit) := alignWith d.exponent k d.interval.value 1
  let c := v / unit
  match d.readsBack k c, d.readsBack k (c + 1) with
  | true, true => some (roundDiv v unit)
  | true, false => some c
  | false, true => some (c + 1)
  | false, false => none

/-- The shortest decimal on a grid `10 ^ k` or on one of the `steps` finer ones. -/
def searchGrid (d : Double) : Nat → Int → Nat × Int
  | 0, k => ((d.nearest? k).getD 0, k)
  | steps + 1, k =>
    match d.nearest? k with
    | some c => (c, k)
    | none => searchGrid d steps (k - 1)

/-- The decimal `c * 10 ^ k` with the fewest digits that rounds to a non-zero double, and the
nearest of those. The search starts on a grid that is coarser than the double is large; seventeen
digits always suffice. -/
def shortest (d : Double) : Nat × Int :=
  let magnitude : Int := d.significand.log2 + d.exponent
  d.searchGrid 20 (magnitude * 30103 / 100000 + 2)

/-- How a number is written: positional from `10 ^ -5` to below `10 ^ 16`, else with an exponent. -/
def layout (digits : List Char) (k : Int) : List Char :=
  let point : Int := digits.length + k
  if 0 ≤ k ∧ point ≤ 16 then
    digits ++ List.replicate k.toNat '0' ++ ['.', '0']
  else if 0 < point ∧ point ≤ 16 then
    digits.take point.toNat ++ '.' :: digits.drop point.toNat
  else if -5 < point ∧ point ≤ 0 then
    '0' :: '.' :: List.replicate (-point).toNat '0' ++ digits
  else
    let exponent := point - 1
    digits.take 1 ++ (if digits.length = 1 then [] else '.' :: digits.drop 1) ++
      ['e', if exponent < 0 then '-' else '+'] ++ Nat.toDigits 10 exponent.natAbs

/-- The text of a double: the shortest decimal that reads back as it. -/
def chars (d : Double) : List Char :=
  let magnitude :=
    if d.significand = 0 then ['0', '.', '0']
    else
      let (c, k) := d.shortest
      layout (Nat.toDigits 10 c) k
  if d.negative then '-' :: magnitude else magnitude

end Double

end PipeCall.Json
