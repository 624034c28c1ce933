/-!
# Decimal numbers

The canonical text of a natural number (no sign, no leading zero) is the core library's
`Nat.toDigits 10`. `readNat?` reads any non-empty run of digits; `readWord?` is the laxer reader of
settings, with an optional plus sign, for numbers that fit 64 bits. `canonical?` reads the canonical
text alone.
-/

namespace PipeCall.Decimal

/-- One past the largest number that fits 64 bits: `2 ^ 64`. -/
def wordLimit : Nat := 0x10000000000000000

/-- One past the largest number that fits 64 bits with a sign: `2 ^ 63`. -/
def signedLimit : Nat := 0x8000000000000000

/-- The canonical text of a number. -/
def text (n : Nat) : String := String.ofList (Nat.toDigits 10 n)

/-- The canonical text of an integer. -/
def intText (n : Int) : String :=
  if n < 0 then "-" ++ text n.natAbs else text n.natAbs

/-- The number that a non-empty run of digits denotes; leading zeros are accepted. -/
def readNat? (cs : List Char) : Option Nat :=
  if cs ≠ [] ∧ cs.all Char.isDigit then some (Nat.ofDigitChars 10 cs 0) else none

/-- The number below 2^64 that a text denotes: an optional plus sign, then digits. -/
def readWord? (cs : List Char) : Option Nat :=
  let digits := match cs with
    | '+' :: rest => rest
    | cs => cs
  (readNat? digits).filter (· < wordLimit)

/-- The number below 2^64 whose canonical text this is. -/
def canonical? (cs : List Char) : Option Nat :=
  (readWord? cs).filter fun n => Nat.toDigits 10 n == cs

/-- Digits read back as the number that they write. -/
@[simp] theorem readNat?_toDigits (n : Nat) : readNat? (Nat.toDigits 10 n) = some n := by
  unfold readNat?
  rw [if_pos]
  · simp
  · refine ⟨Nat.toDigits_ne_nil, List.all_eq_true.2 fun c hc => ?_⟩
    exact Nat.isDigit_of_mem_toDigits (by decide) (by decide) hc

end PipeCall.Decimal
