import PipeCall.Counterparty.Octets

/-!
# Patterns

The patterns of scripts: an asterisk stands for any octets, a question mark for one, and brackets
for one of a class. A pattern is read from signs, because a character that was quoted stands for
itself.
-/

namespace PipeCall.Counterparty

/-- A character of a pattern's text, and whether it may have a meaning of its own. -/
structure Sign where
  char : Char
  active : Bool

/-- A part of a pattern. -/
inductive PatternItem where
  | exactly (c : Char)
  | one
  | many
  /-- One character in one of the ranges, or, if negated, in none. -/
  | among (negated : Bool) (ranges : List (Char × Char))

/-- A pattern, as its parts. -/
abbrev Pattern := List PatternItem

namespace Pattern

/-- The ranges of a named class of ASCII characters. -/
def namedClass (name : String) : List (Char × Char) :=
  match name with
  | "alpha" => [('A', 'Z'), ('a', 'z')]
  | "digit" => [('0', '9')]
  | "alnum" => [('A', 'Z'), ('a', 'z'), ('0', '9')]
  | "lower" => [('a', 'z')]
  | "upper" => [('A', 'Z')]
  | "space" => [(' ', ' '), ('\t', '\r')]
  | "blank" => [(' ', ' '), ('\t', '\t')]
  | "xdigit" => [('0', '9'), ('A', 'F'), ('a', 'f')]
  | "punct" => [('!', '/'), (':', '@'), ('[', '\x60'), ('\x7b', '~')]
  | "print" => [(' ', '~')]
  | "graph" => [('!', '~')]
  | "cntrl" => [('\x00', '\x1f'), ('\x7f', '\x7f')]
  | _ => []

/-- The ranges of a class up to its closing bracket, and what follows; none if it is not closed. A
bracket that comes first is a member. -/
def takeClass? : Nat → Bool → List Sign → Option (List (Char × Char) × List Sign)
  | 0, _, _ => none
  | fuel + 1, isFirst, signs =>
    match signs with
    | [] => none
    | ⟨'[', true⟩ :: ⟨':', true⟩ :: rest =>
      let name := (rest.takeWhile (·.char ≠ ':')).map Sign.char
      match rest.dropWhile (·.char ≠ ':') with
      | ⟨':', true⟩ :: ⟨']', true⟩ :: rest =>
        (takeClass? fuel false rest).map fun (ranges, rest) =>
          (namedClass (String.ofList name) ++ ranges, rest)
      | _ => none
    | ⟨low, _⟩ :: ⟨'-', true⟩ :: ⟨high, active⟩ :: rest =>
      if low = ']' ∧ !isFirst then some ([], ⟨'-', true⟩ :: ⟨high, active⟩ :: rest)
      else if high = ']' ∧ active then
        (takeClass? fuel false (⟨'-', true⟩ :: ⟨high, active⟩ :: rest)).map fun (ranges, rest) =>
          ((low, low) :: ranges, rest)
      else (takeClass? fuel false rest).map fun (ranges, rest) => ((low, high) :: ranges, rest)
    | ⟨c, active⟩ :: rest =>
      if c = ']' ∧ active ∧ !isFirst then some ([], rest)
      else (takeClass? fuel false rest).map fun (ranges, rest) => ((c, c) :: ranges, rest)

/-- The pattern that signs spell, `fuel` bounding their number. -/
def readWithin : Nat → List Sign → Pattern
  | 0, _ => []
  | _, [] => []
  | fuel + 1, ⟨c, active⟩ :: rest =>
    if !active then .exactly c :: readWithin fuel rest
    else
      match c, rest with
      | '\\', ⟨d, _⟩ :: rest => .exactly d :: readWithin fuel rest
      | '*', _ => .many :: readWithin fuel rest
      | '?', _ => .one :: readWithin fuel rest
      | '[', ⟨'!', true⟩ :: more | '[', ⟨'^', true⟩ :: more =>
        match takeClass? (more.length + 1) true more with
        | some (ranges, rest) => .among true ranges :: readWithin fuel rest
        | none => .exactly c :: readWithin fuel rest
      | '[', _ =>
        match takeClass? (rest.length + 1) true rest with
        | some (ranges, rest) => .among false ranges :: readWithin fuel rest
        | none => .exactly c :: readWithin fuel rest
      | _, _ => .exactly c :: readWithin fuel rest

/-- The pattern that signs spell. -/
def read (signs : List Sign) : Pattern := readWithin signs.length signs

/-- Whether one character is what an item asks for. -/
def holds (item : PatternItem) (c : Char) : Bool :=
  match item with
  | .exactly d => c = d
  | .one | .many => true
  | .among negated ranges => (ranges.any fun (low, high) => low ≤ c && c ≤ high) != negated

/-- The byte string and everything that is left of it from some place on. -/
def suffixes : Octets → List Octets
  | [] => [[]]
  | c :: rest => (c :: rest) :: suffixes rest

/-- Whether a pattern matches a whole byte string. -/
def matchesAll : Pattern → Octets → Bool
  | [], cs => cs.isEmpty
  | .many :: p, cs => (suffixes cs).any (matchesAll p)
  | item :: p, c :: cs => holds item c && matchesAll p cs
  | _ :: _, [] => false

/-- The byte string without the shortest or the longest part at its beginning that matches. -/
def cutHead (p : Pattern) (longest : Bool) (cs : Octets) : Octets :=
  let lengths := List.range (cs.length + 1)
  let lengths := if longest then lengths.reverse else lengths
  cs.drop ((lengths.find? fun n => matchesAll p (cs.take n)).getD 0)

/-- The byte string without the shortest or the longest part at its end that matches. -/
def cutTail (p : Pattern) (longest : Bool) (cs : Octets) : Octets :=
  let lengths := List.range (cs.length + 1)
  let lengths := if longest then lengths else lengths.reverse
  cs.take ((lengths.find? fun n => matchesAll p (cs.drop n)).getD cs.length)

end Pattern

end PipeCall.Counterparty
