import PipeCall.Counterparty.Numeral
import PipeCall.Counterparty.Place

/-!
# Conditions

The conditions of `test`: about texts, numbers and places, and what is put together of those.
`Condition.holds` decides one. Reading goes word by word; what a function has read ends with the
first of the words that it gives back.
-/

namespace PipeCall.Counterparty.Condition

/-- What is decided, or a complaint. -/
abbrev Decided (α : Type) := Except Octets α

/-- The tests of one word. -/
def unary : List String :=
  ["-n", "-z", "-t", "-b", "-c", "-d", "-e", "-f", "-g", "-h", "-k", "-L", "-O", "-G", "-p", "-r",
    "-s", "-S", "-u", "-w", "-x"]

/-- The relations of two words. -/
def binary : List String :=
  ["=", "!=", "<", ">", "-eq", "-ne", "-lt", "-le", "-gt", "-ge", "-nt", "-ot", "-ef"]

/-- Whether a word is one of some names. -/
def isAmong (names : List String) (w : Octets) : Bool := names.any (·.toList = w)

/-- The integer that a word is. -/
def integer (w : Octets) : Decided Int :=
  match Numeral.integer? Numeral.decimal? w with
  | some n => pure n
  | none => throw ("Illegal number: ".toList ++ w)

/-- Whether a test of one word holds. No stream is a terminal. -/
def holdsOf (test : String) (w : Octets) : Bool :=
  match test, Place.resolve w with
  | "-n", _ => w ≠ []
  | "-z", _ => w = []
  | _, .error _ => false
  | "-e", _ | "-r", _ | "-O", _ | "-G", _ | "-w", _ => true
  | "-d", .ok (.directory _) => true
  | "-x", .ok (.directory _) | "-x", .ok (.program _) => true
  | "-c", .ok (.file ("dev" :: _)) => true
  | "-f", .ok (.file ("dev" :: _)) => false
  | "-f", .ok (.file _) | "-f", .ok (.program _) => true
  | "-s", .ok (.file ("dev" :: _)) => false
  | "-s", _ => true
  | _, _ => false

/-- Whether two words are related. -/
def related (relation : String) (a b : Octets) : Decided Bool :=
  match relation with
  | "=" => pure (a = b)
  | "!=" => pure (a ≠ b)
  | "<" => pure (String.ofList a < String.ofList b)
  | ">" => pure (String.ofList b < String.ofList a)
  | "-nt" | "-ot" => pure false
  | "-ef" =>
    match Place.resolve a, Place.resolve b with
    | .ok p, .ok q => pure (p = q)
    | _, _ => pure false
  | _ => do
    let m ← integer a
    let n ← integer b
    match relation with
    | "-eq" => pure (m = n)
    | "-ne" => pure (m ≠ n)
    | "-lt" => pure (m < n)
    | "-le" => pure (m ≤ n)
    | "-gt" => pure (m > n)
    | _ => pure (m ≥ n)

/-- Whether the first word of what follows is a word like others, although it is a test's name. -/
def isOperand : List Octets → Bool
  | [] => true
  | [_] => false
  | w :: _ => isAmong binary w

mutual

/-- Conditions of which one has to hold. -/
def anyOf : Nat → List Octets → Decided (Bool × List Octets)
  | 0, ws => pure (false, ws)
  | fuel + 1, ws => do
    let (first, ws) ← allOf fuel ws
    match ws.tail with
    | ['-', 'o'] :: rest => do
      let (second, ws) ← anyOf fuel rest
      pure (first || second, ws)
    | _ => pure (first, ws)

/-- Conditions all of which have to hold. -/
def allOf : Nat → List Octets → Decided (Bool × List Octets)
  | 0, ws => pure (false, ws)
  | fuel + 1, ws => do
    let (first, ws) ← negated fuel ws
    match ws.tail with
    | ['-', 'a'] :: rest => do
      let (second, ws) ← allOf fuel rest
      pure (first && second, ws)
    | _ => pure (first, ws)

/-- A condition, or what is not to hold. -/
def negated : Nat → List Octets → Decided (Bool × List Octets)
  | 0, ws => pure (false, ws)
  | fuel + 1, ws =>
    match ws with
    | ['!'] :: w :: rest => do
      let (b, ws) ← negated fuel (w :: rest)
      pure (!b, ws)
    | [['!']] => pure (true, ws)
    | ws => primary fuel ws

/-- A test, a relation, a condition in parentheses, or a word, which must not be empty. -/
def primary : Nat → List Octets → Decided (Bool × List Octets)
  | 0, ws => pure (false, ws)
  | fuel + 1, ws => do
    match ws with
    | [] => pure (false, [])
    | ['('] :: w :: rest =>
      if w = [')'] then pure (false, w :: rest)
      else do
        let (b, ws) ← anyOf fuel (w :: rest)
        match ws.tail with
        | [')'] :: rest => pure (b, [')'] :: rest)
        | _ => throw "closing paren expected".toList
    | w :: rest =>
      match rest with
      | operand :: more =>
        if isAmong unary w ∧ !isOperand rest then
          pure (holdsOf (String.ofList w) operand, operand :: more)
        else if isAmong binary operand then
          match more with
          | [] => throw (operand ++ ": argument expected".toList)
          | b :: _ => do pure (← related (String.ofList operand) w b, more)
        else pure (w ≠ [], ws)
      | [] => pure (w ≠ [], ws)

end

/-- Decides a condition, `fuel` bounding the number of its negations. -/
def holdsWithin : Nat → List Octets → Decided Bool
  | 0, _ => pure false
  | fuel + 1, ws => do
    let whole : Decided Bool := do
      let (b, left) ← anyOf (4 * ws.length + 4) ws
      match left with
      | w :: _ :: _ =>
        let subject := if w = [] then [] else w ++ ": ".toList
        throw (subject ++ "unexpected operator".toList)
      | _ => pure b
    match ws with
    | [] => pure false
    | [a, relation, b] =>
      if isAmong binary relation then related (String.ofList relation) a b
      else if a = ['('] ∧ b = [')'] then pure (relation ≠ [])
      else if a = ['!'] then do pure !(← holdsWithin fuel [relation, b])
      else whole
    | [['('], a, b, [')']] => holdsWithin fuel [a, b]
    | [['!'], a, b, c] => do pure !(← holdsWithin fuel [a, b, c])
    | _ => whole

/-- Decides a condition. -/
def holds (ws : List Octets) : Decided Bool := holdsWithin (ws.length + 1) ws

/-- How a condition comes out as a command: zero if it holds, and two with a complaint. -/
def status (name : String) (args : List Octets) : Nat × Option Octets :=
  let decide (ws : List Octets) : Nat × Option Octets :=
    match holds ws with
    | .ok b => (if b then 0 else 1, none)
    | .error complaint => (2, some complaint)
  if name = "[" then
    if args.getLast? = some [']'] then decide args.dropLast else (2, some "missing ]".toList)
  else decide args

end PipeCall.Counterparty.Condition
