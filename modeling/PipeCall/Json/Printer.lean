import PipeCall.Json.Value

/-!
# Writing JSON

`Json.compact` writes a value without white space, `Json.pretty` with a line for every item and two
spaces for every level. A string escapes the quote, the backslash and the ASCII controls; every
other character stands for itself, so the compact text of a value holds no line feed.
-/

namespace PipeCall.Json

/-- A lower-case hexadecimal digit. -/
def hexDigit (n : Nat) : Char := Nat.digitChar n

/-- A character as it is written inside a string. -/
def escaped (c : Char) : List Char :=
  match c with
  | '"' => ['\\', '"']
  | '\\' => ['\\', '\\']
  | '\x08' => ['\\', 'b']
  | '\x0c' => ['\\', 'f']
  | '\n' => ['\\', 'n']
  | '\r' => ['\\', 'r']
  | '\t' => ['\\', 't']
  | c =>
    if c.toNat < 0x20 then
      ['\\', 'u', '0', '0', hexDigit (c.toNat / 16), hexDigit (c.toNat % 16)]
    else [c]

/-- A string, with its quotes. -/
def stringChars (s : String) : List Char := '"' :: s.toList.flatMap escaped ++ ['"']

/-- An integer. -/
def integerChars (n : Int) : List Char :=
  if n < 0 then '-' :: Nat.toDigits 10 n.natAbs else Nat.toDigits 10 n.natAbs

/-- A number. -/
def Number.chars : Number → List Char
  | .integer n => integerChars n
  | .double d => d.chars

/-- A truth value. -/
def boolChars (b : Bool) : List Char := if b then "true".toList else "false".toList

/-- A member of an object, its value already written. -/
def memberChars (key : String) (separator value : List Char) : List Char :=
  stringChars key ++ separator ++ value

mutual

/-- The text of a value without white space. -/
def compact : Json → List Char
  | .null => "null".toList
  | .bool b => boolChars b
  | .number n => n.chars
  | .string s => stringChars s
  | .array items => '[' :: compactItems items ++ [']']
  | .object members => '\x7b' :: compactMembers members ++ ['\x7d']

/-- Items, separated by commas. -/
def compactItems : List Json → List Char
  | [] => []
  | [v] => compact v
  | v :: vs => compact v ++ ',' :: compactItems vs

/-- Members, separated by commas. -/
def compactMembers : List (String × Json) → List Char
  | [] => []
  | [(k, v)] => memberChars k [':'] (compact v)
  | (k, v) :: ms => memberChars k [':'] (compact v) ++ ',' :: compactMembers ms

end

/-- The start of a line inside `depth` containers. -/
def newLine (depth : Nat) : List Char := '\n' :: List.replicate (2 * depth) ' '

mutual

/-- The text of a value inside `depth` containers, one item or member a line. -/
def prettyChars (depth : Nat) : Json → List Char
  | .null => "null".toList
  | .bool b => boolChars b
  | .number n => n.chars
  | .string s => stringChars s
  | .array [] => ['[', ']']
  | .array (v :: vs) => '[' :: prettyItems (depth + 1) (v :: vs) ++ newLine depth ++ [']']
  | .object [] => ['\x7b', '\x7d']
  | .object (m :: ms) =>
    '\x7b' :: prettyMembers (depth + 1) (m :: ms) ++ newLine depth ++ ['\x7d']

/-- Items, each on a line of its own. -/
def prettyItems (depth : Nat) : List Json → List Char
  | [] => []
  | [v] => newLine depth ++ prettyChars depth v
  | v :: vs => newLine depth ++ prettyChars depth v ++ ',' :: prettyItems depth vs

/-- Members, each on a line of its own. -/
def prettyMembers (depth : Nat) : List (String × Json) → List Char
  | [] => []
  | [(k, v)] => newLine depth ++ memberChars k [':', ' '] (prettyChars depth v)
  | (k, v) :: ms =>
    newLine depth ++ memberChars k [':', ' '] (prettyChars depth v) ++ ',' :: prettyMembers depth ms

end

/-- The compact text as a string. -/
def text (v : Json) : String := String.ofList v.compact

/-- The compact text as bytes. -/
def bytes (v : Json) : Bytes := Utf8.encodeChars v.compact

/-- The indented text as a string. -/
def pretty (v : Json) : String := String.ofList (v.prettyChars 0)

end PipeCall.Json
