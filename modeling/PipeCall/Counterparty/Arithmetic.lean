import PipeCall.Counterparty.Numeral

/-!
# Arithmetic

The expressions of scripts, on integers of 64 bits that wrap around. `Arithmetic.evaluate` gives the
value and the assignments that the expression makes, in order. An operand that is not needed is read
but not evaluated.
-/

namespace PipeCall.Counterparty.Arithmetic

open Numeral (wrap)

/-- A token of an expression. -/
inductive Token where
  | number (n : Int)
  | name (cs : Octets)
  | sign (text : String)
  /-- What cannot be read. -/
  | unknown
  deriving DecidableEq

/-- The signs, each before those that it begins with. -/
def signs : List String :=
  ["<<=", ">>=", "<<", ">>", "<=", ">=", "==", "!=", "&&", "||", "+=", "-=", "*=", "/=", "%=", "&=",
    "|=", "^=", "=", "<", ">", "&", "|", "^", "+", "-", "*", "/", "%", "!", "~", "(", ")", "?", ":"]

/-- The tokens of an expression, `fuel` bounding their number. A number that is too great is taken
for the greatest one. -/
def lex : Nat → Octets → List Token
  | 0, _ => []
  | fuel + 1, cs =>
    match cs with
    | [] => []
    | c :: rest =>
      if c == ' ' || c == '\t' || c == '\n' then lex fuel rest
      else if c.isDigit then
        let ds := cs.takeWhile Char.isAlphanum
        match Numeral.literal? ds with
        | some n => .number (min n Numeral.greatest : Nat) :: lex fuel (cs.drop ds.length)
        | none => [.unknown]
      else if Octets.isNameStart c then
        let name := cs.takeWhile Octets.isNamePart
        .name name :: lex fuel (cs.drop name.length)
      else
        match signs.find? fun s => s.toList.isPrefixOf cs with
        | some s => .sign s :: lex fuel (cs.drop s.length)
        | none => [.unknown]

/-- What is left to read, and the assignments that were made, the latest first. -/
structure State where
  tokens : List Token
  assigned : List (Octets × Int) := []

/-- What reading a part of an expression gives: a value, or a complaint. -/
abbrev Read (α : Type) := StateT State (Except String) α

/-- The binary operators, from the loosest to the tightest. -/
def levels : List (List String) :=
  [["||"], ["&&"], ["|"], ["^"], ["&"], ["==", "!="], ["<=", ">=", "<", ">"], ["<<", ">>"],
    ["+", "-"], ["*", "/", "%"]]

/-- Whether a sign that ends like an assignment compares. -/
def isComparison (sign : String) : Bool := ["==", "!=", "<=", ">="].contains sign

/-- The integer that says whether something holds. -/
def truth (b : Bool) : Int := if b then 1 else 0

/-- The bits of a 64-bit integer as a natural number. -/
def bits (n : Int) : Nat := (n.emod 0x10000000000000000).toNat

/-- What an operator makes of its operands. -/
def apply (operator : String) (a b : Int) : Except String Int :=
  match operator with
  | "|" => pure (wrap (bits a ||| bits b : Nat))
  | "^" => pure (wrap (bits a ^^^ bits b : Nat))
  | "&" => pure (wrap (bits a &&& bits b : Nat))
  | "==" => pure (truth (a == b))
  | "!=" => pure (truth (a != b))
  | "<=" => pure (truth (a ≤ b))
  | ">=" => pure (truth (a ≥ b))
  | "<" => pure (truth (a < b))
  | ">" => pure (truth (a > b))
  | "<<" => pure (wrap (bits a <<< (bits b % 64) : Nat))
  | ">>" => pure (a >>> (bits b % 64))
  | "+" => pure (wrap (a + b))
  | "-" => pure (wrap (a - b))
  | "*" => pure (wrap (a * b))
  | "/" => if b = 0 then throw "division by zero" else pure (wrap (a.tdiv b))
  | "%" => if b = 0 then throw "division by zero" else pure (a.tmod b)
  | "||" => pure (truth (a != 0 || b != 0))
  | "&&" => pure (truth (a != 0 && b != 0))
  | _ => throw "expecting EOF"

/-- Goes past the next token. -/
def skip : Read Unit := modify fun s => { s with tokens := s.tokens.drop 1 }

/-- The value of a variable, as far as the expression knows it. -/
def valueOf (lookup : Octets → Except String Int) (name : Octets) : Read Int := do
  match (← get).assigned.lookup name with
  | some n => pure n
  | none => lookup name

mutual

/-- An assignment or a choice. -/
def expression (lookup : Octets → Except String Int) : Nat → Bool → Read Int
  | 0, _ => throw "expecting primary"
  | fuel + 1, live => do
    match (← get).tokens with
    | .name name :: .sign s :: _ =>
      if s = "=" ∨ (s.endsWith "=" ∧ !isComparison s) then
        skip
        skip
        let right ← expression lookup fuel live
        if !live then pure right
        else
          let value ←
            if s = "=" then pure right
            else do apply (s.dropEnd 1).toString (← valueOf lookup name) right
          modify fun s => { s with assigned := (name, value) :: s.assigned }
          pure value
      else choice lookup fuel live
    | _ => choice lookup fuel live

/-- A condition with its two outcomes, or no condition. -/
def choice (lookup : Octets → Except String Int) : Nat → Bool → Read Int
  | 0, _ => throw "expecting primary"
  | fuel + 1, live => do
    let condition ← binary lookup fuel live levels
    match (← get).tokens with
    | .sign "?" :: _ =>
      skip
      let yes ← expression lookup fuel (live && condition != 0)
      match (← get).tokens with
      | .sign ":" :: _ =>
        skip
        let no ← choice lookup fuel (live && condition == 0)
        pure (if condition != 0 then yes else no)
      | _ => throw "expecting ':'"
    | _ => pure condition

/-- Operands with operators of these levels between them. -/
def binary (lookup : Octets → Except String Int) : Nat → Bool → List (List String) → Read Int
  | 0, _, _ => throw "expecting primary"
  | fuel + 1, live, [] => unary lookup fuel live
  | fuel + 1, live, operators :: tighter => do
    let left ← binary lookup fuel live tighter
    binaryRest lookup fuel live operators tighter left

/-- The operators of one level and their right operands. -/
def binaryRest (lookup : Octets → Except String Int) :
    Nat → Bool → List String → List (List String) → Int → Read Int
  | 0, _, _, _, left => pure left
  | fuel + 1, live, operators, tighter, left => do
    match (← get).tokens with
    | .sign s :: _ =>
      if operators.contains s then
        skip
        let needed := !(s = "&&" ∧ left = 0) && !(s = "||" ∧ left ≠ 0)
        let right ← binary lookup fuel (live && needed) tighter
        let value ← if live then apply s left right else pure 0
        binaryRest lookup fuel live operators tighter value
      else pure left
    | _ => pure left

/-- A number, a variable or an expression in parentheses, after signs that change it. -/
def unary (lookup : Octets → Except String Int) : Nat → Bool → Read Int
  | 0, _ => throw "expecting primary"
  | fuel + 1, live => do
    match (← get).tokens with
    | .sign "-" :: _ =>
      skip
      pure (wrap (-(← unary lookup fuel live)))
    | .sign "+" :: _ =>
      skip
      unary lookup fuel live
    | .sign "!" :: _ =>
      skip
      pure (truth ((← unary lookup fuel live) == 0))
    | .sign "~" :: _ =>
      skip
      pure (-(← unary lookup fuel live) - 1)
    | .sign "(" :: _ =>
      skip
      let n ← expression lookup fuel live
      match (← get).tokens with
      | .sign ")" :: _ =>
        skip
        pure n
      | _ => throw "expecting ')'"
    | .number n :: _ =>
      skip
      pure n
    | .name name :: _ =>
      skip
      if live then valueOf lookup name else pure 0
    | _ => throw "expecting primary"

end

/-- The value of an expression and its assignments, the first one first. `lookup` gives the values
of variables. -/
def evaluate (lookup : Octets → Except String Int) (cs : Octets) :
    Except String (Int × List (Octets × Int)) := do
  let complain (e : String) : String :=
    "arithmetic expression: " ++ e ++ ": \"" ++ String.ofList cs ++ "\""
  let tokens := lex (cs.length + 1) cs
  match (expression lookup (20 * tokens.length + 20) true).run { tokens } with
  | .ok (n, { tokens := [], assigned }) => pure (n, assigned.reverse)
  | .ok _ => throw (complain "expecting EOF")
  | .error e => throw (if e.startsWith "Illegal" then e else complain e)

end PipeCall.Counterparty.Arithmetic
