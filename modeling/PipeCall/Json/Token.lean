import PipeCall.Text.Utf8

/-!
# Tokens of a JSON document

`Token.lex?` cuts a byte string into the tokens of RFC 8259, with the white space between them left
out. A token keeps what was written: a number its digits, a string its bytes and its `\u` units.
What they denote is settled later, because a document may hold parts that nobody asks for, and there
a number may be too large and a string need not be text.
-/

namespace PipeCall.Json

/-- A number as it is written. -/
structure NumberLiteral where
  negative : Bool
  /-- The digits before the point. -/
  whole : List Char
  /-- The digits after the point, if there is one. -/
  fraction : Option (List Char)
  /-- The digits of the exponent, if there is one, and whether it is negative. -/
  exponent : Option (Bool × List Char)
  deriving DecidableEq, Repr

/-- A part of a written string: a byte, or the number of a `\u` escape. -/
inductive Piece where
  | byte (b : UInt8)
  | unit (n : Nat)
  deriving DecidableEq, Repr

/-- A token. -/
inductive Token where
  | beginObject
  | endObject
  | beginArray
  | endArray
  | colon
  | comma
  | null
  | bool (b : Bool)
  | number (literal : NumberLiteral)
  | string (pieces : List Piece)
  deriving DecidableEq, Repr

namespace Token

/-- The white space between tokens: space, tab, line feed, carriage return. -/
def isSpace (b : UInt8) : Bool := b == 0x20 || b == 0x09 || b == 0x0a || b == 0x0d

/-- A decimal digit. -/
def isDigit (b : UInt8) : Bool := 0x30 ≤ b && b ≤ 0x39

/-- The digits at the head of a byte string, and the rest. -/
def takeDigits (bs : Bytes) : List Char × Bytes :=
  ((bs.takeWhile isDigit).map fun b => Char.ofNat b.toNat, bs.dropWhile isDigit)

/-- The digits at the head of a byte string, if there is one at least, and the rest. -/
def takeDigits? (bs : Bytes) : Option (List Char × Bytes) :=
  match takeDigits bs with
  | ([], _) => none
  | (ds, rest) => some (ds, rest)

/-- The digits before the point: a lone zero, or digits that do not start with one. -/
def takeWhole? : Bytes → Option (List Char × Bytes)
  | 0x30 :: rest => some (['0'], rest)
  | bs => takeDigits? bs

/-- A point and the digits after it, or nothing. -/
def takeFraction? : Bytes → Option (Option (List Char) × Bytes)
  | 0x2e :: rest => (takeDigits? rest).map fun (ds, rest) => (some ds, rest)
  | bs => some (none, bs)

/-- The digits of an exponent after its sign, which may be left out. -/
def takeSigned? : Bytes → Option ((Bool × List Char) × Bytes)
  | 0x2b :: rest => (takeDigits? rest).map fun (ds, rest) => ((false, ds), rest)
  | 0x2d :: rest => (takeDigits? rest).map fun (ds, rest) => ((true, ds), rest)
  | bs => (takeDigits? bs).map fun (ds, rest) => ((false, ds), rest)

/-- An exponent, or nothing. -/
def takeExponent? : Bytes → Option (Option (Bool × List Char) × Bytes)
  | 0x65 :: rest | 0x45 :: rest => (takeSigned? rest).map fun (e, rest) => (some e, rest)
  | bs => some (none, bs)

/-- A number after its sign. -/
def takeUnsigned? (negative : Bool) (bs : Bytes) : Option (NumberLiteral × Bytes) := do
  let (whole, bs) ← takeWhole? bs
  let (fraction, bs) ← takeFraction? bs
  let (exponent, bs) ← takeExponent? bs
  pure (⟨negative, whole, fraction, exponent⟩, bs)

/-- A number. -/
def takeNumber? : Bytes → Option (NumberLiteral × Bytes)
  | 0x2d :: rest => takeUnsigned? true rest
  | bs => takeUnsigned? false bs

/-- The value of a hexadecimal digit of either case. -/
def hexValue? (b : UInt8) : Option Nat :=
  if 0x30 ≤ b && b ≤ 0x39 then some (b.toNat - 0x30)
  else if 0x61 ≤ b && b ≤ 0x66 then some (b.toNat - 0x61 + 10)
  else if 0x41 ≤ b && b ≤ 0x46 then some (b.toNat - 0x41 + 10)
  else none

/-- The number that four hexadecimal digits write. -/
def hexUnit? (a b c d : UInt8) : Option Nat := do
  pure ((← hexValue? a) * 4096 + (← hexValue? b) * 256 + (← hexValue? c) * 16 + (← hexValue? d))

/-- The byte that a letter after a backslash stands for. -/
def escape? (b : UInt8) : Option UInt8 :=
  if b == 0x22 || b == 0x5c || b == 0x2f then some b
  else if b == 0x62 then some 0x08
  else if b == 0x66 then some 0x0c
  else if b == 0x6e then some 0x0a
  else if b == 0x72 then some 0x0d
  else if b == 0x74 then some 0x09
  else none

/-- A string after its opening quote, up to the closing one. Control bytes must be escaped. -/
def takeString? : Bytes → Option (List Piece × Bytes)
  | [] => none
  | 0x22 :: rest => some ([], rest)
  | 0x5c :: 0x75 :: a :: b :: c :: d :: rest =>
    match hexUnit? a b c d with
    | some n => (takeString? rest).map fun (ps, rest) => (.unit n :: ps, rest)
    | none => none
  | 0x5c :: c :: rest =>
    match escape? c with
    | some b => (takeString? rest).map fun (ps, rest) => (.byte b :: ps, rest)
    | none => none
  | b :: rest =>
    if b < 0x20 || b == 0x5c then none
    else (takeString? rest).map fun (ps, rest) => (.byte b :: ps, rest)

/-- The token at the head of a byte string, and the rest. -/
def next? : Bytes → Option (Token × Bytes)
  | 0x7b :: rest => some (.beginObject, rest)
  | 0x7d :: rest => some (.endObject, rest)
  | 0x5b :: rest => some (.beginArray, rest)
  | 0x5d :: rest => some (.endArray, rest)
  | 0x3a :: rest => some (.colon, rest)
  | 0x2c :: rest => some (.comma, rest)
  | 0x6e :: 0x75 :: 0x6c :: 0x6c :: rest => some (.null, rest)
  | 0x74 :: 0x72 :: 0x75 :: 0x65 :: rest => some (.bool true, rest)
  | 0x66 :: 0x61 :: 0x6c :: 0x73 :: 0x65 :: rest => some (.bool false, rest)
  | 0x22 :: rest => (takeString? rest).map fun (ps, rest) => (.string ps, rest)
  | bs => (takeNumber? bs).map fun (n, rest) => (.number n, rest)

/-- The tokens of a byte string, `fuel` bounding their number. -/
def lexWithin? : Nat → Bytes → Option (List Token)
  | fuel, bs =>
    match bs.dropWhile isSpace, fuel with
    | [], _ => some []
    | _ :: _, 0 => none
    | bs, fuel + 1 =>
      match next? bs with
      | some (t, rest) => (lexWithin? fuel rest).map (t :: ·)
      | none => none

/-- The tokens of a byte string, if it consists of tokens and white space. Every token takes a byte,
so the length bounds their number. -/
def lex? (bs : Bytes) : Option (List Token) := lexWithin? bs.length bs

end Token

end PipeCall.Json
