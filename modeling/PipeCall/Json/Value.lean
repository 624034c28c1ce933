import PipeCall.Json.Double
import PipeCall.Decimal
import PipeCall.Json.Document

/-!
# JSON values

A `Json` is what a document denotes: numbers are integers of 64 bits or finite doubles, strings are
text, and an object has its members in ascending order of their keys, each key once.
`Document.value?` finds the value of a document. It can fail: a number may be beyond the doubles, a
string may not be text, and only so many levels of nesting are followed.
-/

namespace PipeCall

namespace Json

/-- A number. -/
inductive Number where
  /-- An integer that fits 64 bits, with or without a sign. -/
  | integer (n : Int)
  | double (d : Double)
  deriving DecidableEq, Repr

end Json

/-- A JSON value. -/
inductive Json where
  | null
  | bool (b : Bool)
  | number (n : Json.Number)
  | string (s : String)
  | array (items : List Json)
  | object (members : List (String × Json))
  deriving Repr

namespace Json

/-- The greatest nesting of a value that is kept. -/
def maxLevels : Nat := 127

/-- Puts a member into a list sorted by key; a member with that key is replaced. -/
def insertMember (key : String) (value : Json) : List (String × Json) → List (String × Json)
  | [] => [(key, value)]
  | (k, v) :: rest =>
    if key < k then (key, value) :: (k, v) :: rest
    else if key = k then (key, value) :: rest
    else (k, v) :: insertMember key value rest

/-- The object with these members; of two with one key the later stays. -/
def ofMembers (members : List (String × Json)) : Json :=
  .object (members.foldl (fun sorted (k, v) => insertMember k v sorted) [])

/-- The empty object. -/
def emptyObject : Json := .object []

/-! ## What a number denotes -/

namespace NumberLiteral

/-- A significand of 64 bits and the power of ten it is to be scaled by. -/
structure Scientific where
  significand : Nat := 0
  exponent : Int := 0
  /-- Whether a digit was met that the significand has no room for. -/
  full : Bool := false

/-- One digit before the point: what does not fit counts for the power of ten. -/
def Scientific.addWhole (s : Scientific) (d : Nat) : Scientific :=
  if s.full ∨ Decimal.wordLimit ≤ s.significand * 10 + d then
    { s with exponent := s.exponent + 1, full := true }
  else { s with significand := s.significand * 10 + d }

/-- One digit after the point: the first that does not fit, and all after it, are ignored. -/
def Scientific.addFraction (s : Scientific) (d : Nat) : Scientific :=
  if s.full ∨ Decimal.wordLimit ≤ s.significand * 10 + d then { s with full := true }
  else { s with significand := s.significand * 10 + d, exponent := s.exponent - 1 }

/-- The values of digits. -/
def digitValues (ds : List Char) : List Nat := ds.map fun c => c.toNat - '0'.toNat

/-- The significand and the power of ten of a literal. -/
def scientific (n : NumberLiteral) : Scientific :=
  let whole := (digitValues n.whole).foldl Scientific.addWhole {}
  let decimals := digitValues (n.fraction.getD [])
  let s := decimals.foldl Scientific.addFraction { whole with full := false }
  match n.exponent with
  | none => s
  | some (negative, ds) =>
    let e : Int := Nat.ofDigitChars 10 ds 0
    { s with exponent := s.exponent + if negative then -e else e }

/-- The number that a literal denotes. One without a point and an exponent is an integer if it fits
64 bits; minus zero is a double. -/
def number? (n : NumberLiteral) : Option Number :=
  let whole := Nat.ofDigitChars 10 n.whole 0
  let plain := n.fraction.isNone && n.exponent.isNone
  if plain ∧ ¬n.negative ∧ whole < Decimal.wordLimit then
    some (.integer whole)
  else if plain ∧ n.negative ∧ 0 < whole ∧ whole ≤ Decimal.signedLimit then
    some (.integer (-whole))
  else
    let s := n.scientific
    (Double.ofDecimal? n.negative s.significand s.exponent).map .double

end NumberLiteral

/-! ## What a string denotes -/

/-- Whether a `\u` unit is the first of a surrogate pair. -/
def isHighUnit (n : Nat) : Bool := 0xd800 ≤ n && n < 0xdc00

/-- Whether a `\u` unit is the second of a surrogate pair. -/
def isLowUnit (n : Nat) : Bool := 0xdc00 ≤ n && n < 0xe000

/-- The character of a surrogate pair. -/
def pairChar (high low : Nat) : Char :=
  Char.ofNat (0x10000 + (high - 0xd800) * 0x400 + (low - 0xdc00))

/-- The bytes that the pieces of a string spell; a surrogate without its partner spells none. -/
def spell? : List Piece → Option Bytes
  | [] => some []
  | .byte b :: rest => (spell? rest).map (b :: ·)
  | .unit n :: rest =>
    if isHighUnit n then
      match rest with
      | .unit m :: rest =>
        if isLowUnit m then (spell? rest).map (Utf8.encodeChar (pairChar n m) ++ ·) else none
      | _ => none
    else if isLowUnit n then none
    else (spell? rest).map (Utf8.encodeChar (Char.ofNat n) ++ ·)

/-- The text that the pieces of a string spell. -/
def text? (pieces : List Piece) : Option String := (spell? pieces).bind Utf8.decode?

end Json

/-! ## What a document denotes -/

namespace Json.Document

mutual

/-- The value of a document that nests at most `levels` deep. -/
def value? (levels : Nat) : Document → Option Json
  | .null => some .null
  | .bool b => some (.bool b)
  | .number n => n.number?.map .number
  | .string ps => (text? ps).map .string
  | .array items =>
    match levels with
    | 0 => none
    | levels + 1 => (values? levels items).map .array
  | .object members =>
    match levels with
    | 0 => none
    | levels + 1 => (memberValues? levels members).map ofMembers

/-- The values of the items of an array. -/
def values? (levels : Nat) : List Document → Option (List Json)
  | [] => some []
  | d :: ds => do
    let v ← value? levels d
    let vs ← values? levels ds
    pure (v :: vs)

/-- The keys and values of the members of an object. -/
def memberValues? (levels : Nat) : List (List Piece × Document) → Option (List (String × Json))
  | [] => some []
  | (key, d) :: ms => do
    let k ← text? key
    let v ← value? levels d
    let vs ← memberValues? levels ms
    pure ((k, v) :: vs)

end

end Json.Document

/-- The value that a byte string spells as a whole. -/
def Json.parse? (bs : Bytes) : Option Json :=
  (Json.Document.parse? bs).bind (Json.Document.value? Json.maxLevels)

end PipeCall
