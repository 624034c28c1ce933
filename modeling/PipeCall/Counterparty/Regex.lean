import PipeCall.Counterparty.Pattern

/-!
# Regular expressions

The expressions that lines are searched for, in the basic and in the extended notation:
`Regex.read?` reads one. `Regex.find?` gives the leftmost match. Where there are alternatives it
takes the longer match, and a repetition takes as much as it can.
-/

namespace PipeCall.Counterparty

/-- A regular expression. -/
inductive Regex where
  /-- The empty text. -/
  | nothing
  /-- A character of some kind. -/
  | one (holds : Char → Bool)
  /-- A place between characters, of which there may be none, of some kind. -/
  | edge (holds : Option Char → Option Char → Bool)
  /-- A part that is remembered under a number. -/
  | group (n : Nat) (r : Regex)
  /-- The same text as a part that is remembered. -/
  | same (n : Nat)
  | both (r s : Regex)
  | either (r s : Regex)
  | repeated (r : Regex) (least : Nat) (most : Option Nat)

namespace Regex

/-! ## Matching -/

/-- How far a match has come. -/
structure Spot where
  /-- The number of characters that it has passed. -/
  passed : Nat := 0
  /-- The character before it. -/
  before : Option Char
  rest : Octets
  groups : List (Nat × Octets) := []

/-- The one of two matches that is longer. -/
def longer : Option Spot → Option Spot → Option Spot
  | some s, some t => if s.passed < t.passed then some t else some s
  | s, t => s.or t

/-- Goes on from a spot with a match of an expression, and then with what follows it. -/
def follow : Nat → Regex → Spot → (Spot → Option Spot) → Option Spot
  | 0, _, _, _ => none
  | fuel + 1, r, s, next =>
    match r with
    | .nothing => next s
    | .one holds =>
      match s.rest with
      | c :: rest =>
        if holds c then next { s with passed := s.passed + 1, before := some c, rest } else none
      | [] => none
    | .edge holds => if holds s.before s.rest.head? then next s else none
    | .group n r =>
      follow fuel r s fun t =>
        next { t with groups := (n, s.rest.take (t.passed - s.passed)) :: t.groups }
    | .same n =>
      let text := (s.groups.lookup n).getD []
      if text.isPrefixOf s.rest then
        next
          { s with
            passed := s.passed + text.length
            before := text.getLast?.or s.before
            rest := s.rest.drop text.length }
      else none
    | .both r q => follow fuel r s fun t => follow fuel q t next
    | .either r q => longer (follow fuel r s next) (follow fuel q s next)
    | .repeated r (least + 1) most =>
      follow fuel r s fun t => follow fuel (.repeated r least (most.map (· - 1))) t next
    | .repeated _ 0 (some 0) => next s
    | .repeated r 0 most =>
      let more := follow fuel r s fun t =>
        if s.passed < t.passed then follow fuel (.repeated r 0 (most.map (· - 1))) t next
        else none
      more.or (next s)

/-- The number of parts of an expression. -/
def size : Regex → Nat
  | .nothing | .one _ | .edge _ | .same _ => 1
  | .group _ r => r.size + 1
  | .both r s | .either r s => r.size + s.size + 1
  | .repeated r least most => r.size + least + most.getD 0 + 1

/-- A match: what is before it, what it is, what follows, and the parts that are remembered. -/
structure Match where
  skipped : Octets
  text : Octets
  rest : Octets
  groups : List (Nat × Octets)

/-- The first match in a text, after some characters that were skipped, the last one first. -/
def search (r : Regex) (fuel : Nat) (before : Option Char) (skipped cs : Octets) : Option Match :=
  match follow fuel r { before, rest := cs } some, cs with
  | some s, _ => some ⟨skipped.reverse, cs.take s.passed, s.rest, s.groups⟩
  | none, [] => none
  | none, c :: rest => search r fuel (some c) (c :: skipped) rest

/-- The first match in a text that follows a character, or nothing. -/
def find? (r : Regex) (before : Option Char) (cs : Octets) : Option Match :=
  search r ((cs.length + 2) * (r.size + 2)) before [] cs

/-- Whether an expression matches a part of a text. -/
def occursIn (r : Regex) (cs : Octets) : Bool := (r.find? none cs).isSome

/-- The beginning of the text. -/
def first : Regex := .edge fun before _ => before.isNone

/-- The end of the text. -/
def last : Regex := .edge fun _ after => after.isNone

/-- The expression that takes upper and lower case for the same. -/
def ignoringCase : Regex → Regex
  | .one holds => .one fun c => holds c || holds c.toUpper || holds c.toLower
  | .group n r => .group n r.ignoringCase
  | .both r s => .both r.ignoringCase s.ignoringCase
  | .either r s => .either r.ignoringCase s.ignoringCase
  | .repeated r least most => .repeated r.ignoringCase least most
  | r => r

/-- The expression of a text that stands for itself. -/
def literal (cs : Octets) : Regex := cs.foldr (fun c r => .both (.one (· == c)) r) .nothing

/-! ## Reading -/

/-- What is left to read, and how many groups there are. -/
structure Reading where
  rest : Octets
  groups : Nat := 0

/-- What reading gives; nothing if it cannot be read. -/
abbrev Read (α : Type) := StateT Reading Option α

/-- Goes past some characters. -/
def skip (n : Nat) : Read Unit := modify fun s => { s with rest := s.rest.drop n }

/-- Whether a character is one of words. -/
def isWordPart (c : Char) : Bool := c.isAlphanum || c == '_'

/-- What a backslash and a character stand for. -/
def escaped (c : Char) : Regex :=
  let isIn (c : Option Char) : Bool := c.any isWordPart
  match c with
  | '<' => .edge fun before after => !isIn before && isIn after
  | '>' => .edge fun before after => isIn before && !isIn after
  | 'b' => .edge fun before after => isIn before != isIn after
  | 'B' => .edge fun before after => isIn before == isIn after
  | 'n' => .one (· == '\n')
  | 't' => .one (· == '\t')
  | 'w' => .one isWordPart
  | 'W' => .one (!isWordPart ·)
  | 's' => .one Octets.isBlank
  | 'S' => .one (!Octets.isBlank ·)
  | c => if '1' ≤ c && c ≤ '9' then .same (c.toNat - '0'.toNat) else .one (· == c)

/-- A class, after its bracket. -/
def bracket : Read Regex := do
  let cs := (← get).rest
  let negated := cs.head? = some '^'
  let signs := (if negated then cs.tail else cs).map fun c => (⟨c, true⟩ : Sign)
  match Pattern.takeClass? (signs.length + 1) true signs with
  | none => failure
  | some (ranges, left) =>
    modify fun s => { s with rest := left.map Sign.char }
    pure (.one (Pattern.holds (.among negated ranges)))

/-- The bounds of a repetition, after its brace. -/
def bounds (extended : Bool) : Read (Nat × Option Nat) := do
  let cs := (← get).rest
  let low := cs.takeWhile Char.isDigit
  let rest := cs.drop low.length
  let least := Nat.ofDigitChars 10 low 0
  let (most, rest) := match rest with
    | ',' :: rest =>
      let high := rest.takeWhile Char.isDigit
      (if high = [] then none else some (Nat.ofDigitChars 10 high 0), rest.drop high.length)
    | rest => (some least, rest)
  match extended, rest with
  | true, '\x7d' :: rest | false, '\\' :: '\x7d' :: rest =>
    modify fun s => { s with rest }
    pure (least, most)
  | _, _ => failure

/-- The repetitions after an expression. -/
def repetitions (extended : Bool) : Nat → Regex → Read Regex
  | 0, r => pure r
  | fuel + 1, r => do
    let again (n : Nat) (least : Nat) (most : Option Nat) : Read Regex := do
      skip n
      repetitions extended fuel (.repeated r least most)
    match extended, (← get).rest with
    | _, '*' :: _ => again 1 0 none
    | true, '+' :: _ => again 1 1 none
    | true, '?' :: _ => again 1 0 (some 1)
    | false, '\\' :: '+' :: _ => again 2 1 none
    | false, '\\' :: '?' :: _ => again 2 0 (some 1)
    | true, '\x7b' :: _ => do
      skip 1
      let (least, most) ← bounds true
      again 0 least most
    | false, '\\' :: '\x7b' :: _ => do
      skip 2
      let (least, most) ← bounds false
      again 0 least most
    | _, _ => pure r

/-- Whether a text begins with what ends a branch. -/
def endsBranch (extended : Bool) (cs : Octets) : Bool :=
  match extended, cs with
  | _, [] => true
  | true, '|' :: _ | true, ')' :: _ => true
  | false, '\\' :: '|' :: _ | false, '\\' :: ')' :: _ => true
  | _, _ => false

mutual

/-- Branches, one of which is to match. -/
def branches (extended : Bool) : Nat → Read Regex
  | 0 => failure
  | fuel + 1 => do
    let r ← branch extended fuel true
    match extended, (← get).rest with
    | true, '|' :: _ => do
      skip 1
      pure (.either r (← branches extended fuel))
    | false, '\\' :: '|' :: _ => do
      skip 2
      pure (.either r (← branches extended fuel))
    | _, _ => pure r

/-- Expressions one after the other. -/
def branch (extended : Bool) : Nat → Bool → Read Regex
  | 0, _ => failure
  | fuel + 1, isFirst => do
    let cs := (← get).rest
    if endsBranch extended cs then pure .nothing
    else
      match cs with
      | '^' :: _ =>
        if extended || isFirst then
          skip 1
          pure (.both first (← branch extended fuel isFirst))
        else more extended fuel isFirst
      | '$' :: rest =>
        if extended || endsBranch false rest then
          skip 1
          pure (.both last (← branch extended fuel false))
        else more extended fuel isFirst
      | _ => more extended fuel isFirst

/-- An expression with its repetitions, and those after it. -/
def more (extended : Bool) : Nat → Bool → Read Regex
  | 0, _ => failure
  | fuel + 1, isFirst => do
    let r ← single extended fuel isFirst
    let r ← repetitions extended fuel r
    pure (.both r (← branch extended fuel false))

/-- An expression without a repetition. -/
def single (extended : Bool) : Nat → Bool → Read Regex
  | 0, _ => failure
  | fuel + 1, isFirst => do
    let grouped (n : Nat) : Read Regex := do
      skip n
      let number := (← get).groups + 1
      modify fun s => { s with groups := number }
      let r ← branches extended fuel
      match extended, (← get).rest with
      | true, ')' :: _ => skip 1
      | false, '\\' :: ')' :: _ => skip 2
      | _, _ => failure
      pure (.group number r)
    match extended, (← get).rest with
    | _, [] => failure
    | _, '[' :: _ => do
      skip 1
      bracket
    | _, '.' :: _ => do
      skip 1
      pure (.one fun _ => true)
    | true, '(' :: _ => grouped 1
    | false, '\\' :: '(' :: _ => grouped 2
    | _, ['\\'] => failure
    | _, '\\' :: c :: _ => do
      skip 2
      pure (escaped c)
    | _, c :: _ => do
      if extended && (c == '+' || c == '?' || c == '*') && !isFirst then failure
      skip 1
      pure (.one (· == c))

end

/-- The expression that a text denotes, in the basic or the extended notation. -/
def read? (extended : Bool) (cs : Octets) : Option Regex :=
  match (branches extended (8 * cs.length + 8)).run { rest := cs } with
  | some (r, { rest := [], .. }) => some r
  | _ => none

end Regex

end PipeCall.Counterparty
