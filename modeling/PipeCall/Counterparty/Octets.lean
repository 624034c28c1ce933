import PipeCall.Text.Utf8

/-!
# Octets

A counterparty deals in byte strings, in its script as well as in what it reads and writes. Each
byte is held as the character of its number, so that the ASCII characters a script gives a meaning
to can be written as themselves.
-/

namespace PipeCall.Counterparty

/-- A byte string, each byte as the character of its number. -/
abbrev Octets := List Char

namespace Octets

/-- The octets of a byte string. -/
def ofBytes (bs : Bytes) : Octets := bs.map fun b => Char.ofNat b.toNat

/-- The bytes that octets stand for. -/
def toBytes (cs : Octets) : Bytes := cs.map fun c => UInt8.ofNat c.toNat

/-- The octets of a string. -/
def ofString (s : String) : Octets := ofBytes (Utf8.encode s)

/-- Whether a character is a blank: the space and the control characters from tab to return. -/
def isBlank (c : Char) : Bool := c == ' ' || ('\t' ≤ c && c ≤ '\r')

/-- Whether a character may begin the name of a variable. -/
def isNameStart (c : Char) : Bool := c.isAlpha || c == '_'

/-- Whether a character may stand in the name of a variable. -/
def isNamePart (c : Char) : Bool := c.isAlphanum || c == '_'

/-- Whether octets are the name of a variable. -/
def isName (cs : Octets) : Bool :=
  match cs with
  | c :: rest => isNameStart c && rest.all isNamePart
  | [] => false

/-- A name and what follows an equals sign after it. -/
def assignment? (cs : Octets) : Option (Octets × Octets) :=
  match cs.takeWhile isNamePart, cs.dropWhile isNamePart with
  | name, '=' :: value => if isName name then some (name, value) else none
  | _, _ => none

/-- The pieces between the occurrences of a character. -/
def splitOn (separator : Char) : Octets → List Octets
  | [] => [[]]
  | c :: rest =>
    match splitOn separator rest with
    | piece :: pieces => if c = separator then [] :: piece :: pieces else (c :: piece) :: pieces
    | [] => [[c]]

/-- Byte strings one after the other, with another between them. -/
def join (separator : Octets) : List Octets → Octets
  | [] => []
  | [cs] => cs
  | cs :: rest => cs ++ separator ++ join separator rest

/-- The decimal digits of an integer. -/
def ofInt (n : Int) : Octets :=
  if n < 0 then '-' :: Nat.toDigits 10 n.natAbs else Nat.toDigits 10 n.natAbs

/-- The byte string without the line feeds at its end. -/
def dropLineFeeds (cs : Octets) : Octets := (cs.reverse.dropWhile (· == '\n')).reverse

end Octets

end PipeCall.Counterparty
