import PipeCall.Counterparty.Octets

/-!
# Written numbers

The numbers that scripts hold as text. `Numeral.decimal?` reads digits of base ten and
`Numeral.literal?` digits of the base that they begin with; `Numeral.integer?` also knows a sign and
blanks around it, and refuses what needs more than 64 bits.
-/

namespace PipeCall.Counterparty.Numeral

/-- A text without the blanks around it. -/
def trim (cs : Octets) : Octets :=
  ((cs.dropWhile Octets.isBlank).reverse.dropWhile Octets.isBlank).reverse

/-- The value of a digit; what is none has the value 36. -/
def digit (c : Char) : Nat :=
  if c.isDigit then c.toNat - '0'.toNat
  else if c.isAlpha then c.toLower.toNat - 'a'.toNat + 10
  else 36

/-- The number that digits of a base denote; none denote zero. -/
def ofDigits? (base : Nat) (ds : Octets) : Option Nat :=
  if ds.all (digit · < base) then some (ds.foldl (fun n c => n * base + digit c) 0) else none

/-- The number that decimal digits denote. -/
def decimal? (cs : Octets) : Option Nat := if cs = [] then none else ofDigits? 10 cs

/-- The number that digits denote: hexadecimal after `0x`, octal after `0`, else decimal. -/
def literal? (cs : Octets) : Option Nat :=
  match cs with
  | '0' :: 'x' :: ds | '0' :: 'X' :: ds => if ds = [] then none else ofDigits? 16 ds
  | '0' :: ds => ofDigits? 8 ds
  | ds => decimal? ds

/-- An integer of 64 bits. -/
def wrap (n : Int) : Int := n.bmod 0x10000000000000000

/-- The greatest integer of 64 bits. -/
def greatest : Nat := 0x7fffffffffffffff

/-- The integer that a text denotes, with a sign and blanks around it, if it has 64 bits. -/
def integer? (magnitude? : Octets → Option Nat) (cs : Octets) : Option Int :=
  let n? : Option Int := match trim cs with
    | '-' :: ds => (magnitude? ds).map fun n => -(n : Int)
    | '+' :: ds | ds => (magnitude? ds).map fun n => (n : Int)
  n?.filter fun n => wrap n = n

/-- The number that an argument denotes, which has to fit into 31 bits. -/
def count? (cs : Octets) : Option Nat :=
  match integer? decimal? cs with
  | some (.ofNat n) => if n < 0x80000000 then some n else none
  | _ => none

end PipeCall.Counterparty.Numeral
