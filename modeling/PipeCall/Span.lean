import PipeCall.Decimal

/-!
# Time spans

A span is a number of nanoseconds. Its text is in the largest unit that gives it a whole part, with
as many decimals as it needs.
-/

namespace PipeCall

/-- A length of time, in nanoseconds. -/
structure Span where
  nanos : Nat
  deriving DecidableEq, Repr

namespace Span

/-- A span of whole seconds and some nanoseconds. -/
def ofParts (secs nanos : Nat) : Span := ⟨secs * 1000000000 + nanos⟩

/-- A span of whole seconds. -/
def ofSecs (n : Nat) : Span := ofParts n 0

/-- A span of whole milliseconds. -/
def ofMillis (n : Nat) : Span := ⟨n * 1000000⟩

/-- The whole milliseconds in a span, at most the largest number that fits 64 bits: a part of a
millisecond is dropped. -/
def millis (s : Span) : Nat := min (s.nanos / 1000000) (Decimal.wordLimit - 1)

/-- The first `places` decimals of `part / 10 ^ places`, without the zeros at their end. -/
def decimals (places part : Nat) : List Char :=
  let digits := Nat.toDigits 10 part
  let padded := List.replicate (places - digits.length) '0' ++ digits
  (padded.reverse.dropWhile (· == '0')).reverse

/-- The text of `n / 10 ^ places`. -/
def fixed (places n : Nat) : String :=
  let fraction := decimals places (n % Nat.pow 10 places)
  Decimal.text (n / Nat.pow 10 places) ++
    if fraction.isEmpty then "" else "." ++ String.ofList fraction

/-- The text of a span: seconds, milliseconds, microseconds or nanoseconds. -/
def text (s : Span) : String :=
  if 1000000000 ≤ s.nanos then fixed 9 s.nanos ++ "s"
  else if 1000000 ≤ s.nanos then fixed 6 s.nanos ++ "ms"
  else if 1000 ≤ s.nanos then fixed 3 s.nanos ++ "µs"
  else Decimal.text s.nanos ++ "ns"

/-- Whole milliseconds that fit 64 bits are kept. -/
theorem millis_ofMillis {n : Nat} (h : n < Decimal.wordLimit) : (ofMillis n).millis = n := by
  simp only [millis, ofMillis, Nat.mul_div_cancel _ (show 0 < 1000000 by decide)]
  omega

end Span

end PipeCall
