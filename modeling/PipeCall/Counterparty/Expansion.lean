import PipeCall.Counterparty.Arithmetic
import PipeCall.Counterparty.Pattern
import PipeCall.Counterparty.Task

/-!
# Expansion

What the words of a script stand for when they are used. A word is first turned into glyphs, which
know where a character comes from; `Glyph.fields` then cuts them up where a value that was not
quoted has a separator, and `Glyph.signs` makes a pattern of them. Expansion may set variables of
the task.
-/

namespace PipeCall.Counterparty

/-- Where a character of an expanded word comes from. -/
inductive Origin where
  /-- From the script, not quoted. -/
  | plain
  | quoted
  /-- From a value that is not quoted. -/
  | value
  deriving DecidableEq

/-- A part of an expanded word. -/
inductive Glyph where
  | char (c : Char) (origin : Origin)
  /-- Something quoted, which makes a field even if it is empty. -/
  | present
  /-- The arguments, of which there are none: they make no field even if they are quoted. -/
  | absent
  /-- The end of an argument with another one after it. -/
  | boundary

/-- A list of glyphs. -/
abbrev Glyphs := List Glyph

namespace Glyph

/-- Octets of one origin. -/
def ofOctets (origin : Origin) (cs : Octets) : Glyphs :=
  (if origin = .quoted then [.present] else []) ++ cs.map fun c => .char c origin

/-- The octets of glyphs, with others between arguments. -/
def toOctets (between : Octets) (gs : Glyphs) : Octets :=
  gs.flatMap fun
    | .char c _ => [c]
    | .boundary => between
    | .present | .absent => []

/-- The signs of a pattern. -/
def signs (gs : Glyphs) : List Sign :=
  gs.filterMap fun
    | .char c origin => some ⟨c, origin != .quoted⟩
    | _ => none

/-- The glyphs of an operand, which is as much of a value as what it takes the place of. -/
def asValue (gs : Glyphs) : Glyphs :=
  gs.map fun
    | .char c .plain => .char c .value
    | g => g

/-- A value whose arguments, if it has some, stay apart. -/
def ofArguments (origin : Origin) (args : List Octets) : Glyphs :=
  match args with
  | [] => if origin = .quoted then [.absent] else []
  | [cs] => ofOctets origin cs
  | cs :: rest => ofOctets origin cs ++ .boundary :: ofArguments origin rest

/-! ## Fields -/

/-- Whether a character is one of the separators that count as one if they follow each other. -/
def isBlank (c : Char) : Bool := c == ' ' || c == '\t' || c == '\n'

/-- What has been seen of a field. -/
structure Cut where
  /-- The octets of the field, the last one first; none outside a field. -/
  current : Option Octets := none
  /-- Whether arguments were wanted of which there are none. -/
  isAbsent : Bool := false
  /-- Whether blanks have ended the last field. -/
  isAfterBlank : Bool := false

/-- The field, if there is one. -/
def Cut.field (k : Cut) : List Octets :=
  match k.current with
  | some [] => if k.isAbsent then [] else [[]]
  | some cs => [cs.reverse]
  | none => []

/-- Cuts glyphs into fields at separators. -/
def cut (separators : Octets) : Cut → Glyphs → List Octets
  | k, [] => k.field
  | k, .present :: rest => cut separators { k with current := some (k.current.getD []) } rest
  | k, .absent :: rest => cut separators { k with isAbsent := true } rest
  | k, .boundary :: rest => k.field ++ cut separators {} rest
  | k, .char c origin :: rest =>
    if origin ≠ .value ∨ !separators.contains c then
      cut separators { current := some (c :: k.current.getD []) } rest
    else if isBlank c then
      k.field ++ cut separators { isAfterBlank := k.current.isSome || k.isAfterBlank } rest
    else if k.current.isNone ∧ k.isAfterBlank then cut separators {} rest
    else (if k.current.isNone then [[]] else k.field) ++ cut separators {} rest

/-- The fields of a word. -/
def fields (separators : Octets) (gs : Glyphs) : List Octets := cut separators {} gs

end Glyph

/-! ## Values -/

namespace Task

/-- The separators of fields. -/
def separators (t : Task) : Octets := (t.value? "IFS".toList).getD ((usual? "IFS".toList).getD [])

/-- What stands between arguments that are put together. -/
def between (t : Task) : Octets := t.separators.take 1

/-- The value of a parameter. -/
def parameter? (t : Task) (name : Octets) : Option Octets :=
  match name with
  | ['?'] => some (Octets.ofInt t.status)
  | ['#'] => some (Octets.ofInt t.args.length)
  | ['$'] => some (Octets.ofInt t.shell)
  | ['!'] => t.lastStarted.map fun n => Octets.ofInt n
  | ['-'] => some t.options
  | ['@'] => if t.args.isEmpty then none else some (Octets.join [' '] t.args)
  | ['*'] => if t.args.isEmpty then none else some (Octets.join t.between t.args)
  | _ =>
    if name.all Char.isDigit then
      match Nat.ofDigitChars 10 name 0 with
      | 0 => some t.name
      | n + 1 => t.args[n]?
    else t.value? name

/-- Whether there is no value, or perhaps only an empty one. -/
def lacks (t : Task) (name : Octets) (orEmpty : Bool) : Bool :=
  match t.parameter? name with
  | none => true
  | some value => orEmpty && value.isEmpty

/-- Whether an operand is wanted. -/
def wants (t : Task) (name : Octets) : Modifier → Bool
  | .otherwise orEmpty | .assigning orEmpty | .demanding orEmpty => t.lacks name orEmpty
  | .given orEmpty => !t.lacks name orEmpty
  | .cutHead _ | .cutTail _ => true
  | .plain | .length | .unknown => false

end Task

/-! ## Words -/

namespace Expansion

/-- What expansion gives, or a complaint. -/
abbrev Expand (α : Type) := StateT Task (Except Octets) α

/-- The origin of a value. -/
def originOf (quoted : Bool) : Origin := if quoted then .quoted else .value

/-- The glyphs of a value. The arguments stay apart. -/
def glyphsOf (t : Task) (quoted : Bool) (name value : Octets) : Glyphs :=
  if name = ['@'] ∨ (name = ['*'] ∧ !quoted) then Glyph.ofArguments (originOf quoted) t.args
  else Glyph.ofOctets (originOf quoted) value

/-- Complains of a parameter. -/
def refuse {α : Type} (name complaint : Octets) : Expand α :=
  throw (name ++ ": ".toList ++ complaint)

/-- The complaint about a parameter without a value. -/
def notSet (orEmpty : Bool) : Octets :=
  "parameter not set".toList ++ if orEmpty then " or null".toList else []

/-- The integer that a variable holds. -/
def integer (t : Task) (name : Octets) : Except String Int :=
  let value := (t.value? name).getD []
  if value.all Octets.isBlank then .ok 0
  else
    match Numeral.integer? Numeral.literal? value with
    | some n => .ok n
    | none => .error ("Illegal number: " ++ String.ofList value)

mutual

/-- The glyphs of a piece. -/
def piece : Piece → Expand Glyphs
  | .text quoted cs => pure (Glyph.ofOctets (if quoted then .quoted else .plain) cs)
  | .result quoted cs =>
    pure (Glyph.ofOctets (originOf quoted) (Octets.dropLineFeeds (cs.filter (· ≠ '\x00'))))
  | .output _ _ _ => pure []
  | .arithmetic quoted expression => do
    let cs := Glyph.toOctets [' '] (← pieces expression)
    match Arithmetic.evaluate (integer (← get)) cs with
    | .error complaint => throw complaint.toList
    | .ok (n, assigned) =>
      modify fun t => assigned.foldl (fun t (name, n) => t.bind name (some (Octets.ofInt n))) t
      pure (Glyph.ofOctets (originOf quoted) (Octets.ofInt n))
  | .parameter quoted name modifier operand => do
    let t ← get
    let value := t.parameter? name
    let plain := glyphsOf t quoted name (value.getD [])
    let isArguments := name = ['@'] ∨ name = ['*']
    match modifier with
    | .plain =>
      if value.isNone ∧ t.hasOption 'u' ∧ !isArguments then refuse name (notSet false)
      else pure plain
    | .length =>
      if value.isNone ∧ t.hasOption 'u' ∧ !isArguments then refuse name (notSet false)
      else pure (Glyph.ofOctets (originOf quoted) (Octets.ofInt (value.getD []).length))
    | .otherwise orEmpty =>
      if t.lacks name orEmpty then do pure (Glyph.asValue (← pieces operand)) else pure plain
    | .assigning orEmpty =>
      if t.lacks name orEmpty then do
        let cs := Glyph.toOctets t.between (← pieces operand)
        if Octets.isName name then
          modify fun t => t.bind name (some cs)
          pure (Glyph.ofOctets (originOf quoted) cs)
        else refuse name "bad variable name".toList
      else pure plain
    | .demanding orEmpty =>
      if t.lacks name orEmpty then do
        let cs := Glyph.toOctets t.between (← pieces operand)
        refuse name (if cs = [] then notSet orEmpty else cs)
      else pure plain
    | .given orEmpty =>
      if t.lacks name orEmpty then pure (Glyph.ofOctets (originOf quoted) [])
      else do pure (Glyph.asValue (← pieces operand))
    | .cutHead longest => do
      let pattern := Pattern.read (Glyph.signs (← pieces operand))
      pure (Glyph.ofOctets (originOf quoted) (pattern.cutHead longest (value.getD [])))
    | .cutTail longest => do
      let pattern := Pattern.read (Glyph.signs (← pieces operand))
      pure (Glyph.ofOctets (originOf quoted) (pattern.cutTail longest (value.getD [])))
    | .unknown => throw "Bad substitution".toList

/-- The glyphs of some pieces. -/
def pieces : List Piece → Expand Glyphs
  | [] => pure []
  | p :: ps => do
    let gs ← piece p
    pure (gs ++ (← pieces ps))

end

/-- The fields of a word. -/
def fields (w : Word) : Expand (List Octets) := do
  let gs ← pieces w
  pure (Glyph.fields (← get).separators gs)

/-- The fields of some words. -/
def allFields (ws : List Word) : Expand (List Octets) := do pure (← ws.mapM fields).flatten

/-- A word as one text. -/
def text (w : Word) : Expand Octets := do
  let gs ← pieces w
  pure (Glyph.toOctets (← get).between gs)

/-- A word as a pattern. -/
def pattern (w : Word) : Expand Pattern := do pure (Pattern.read (Glyph.signs (← pieces w)))

end Expansion

end PipeCall.Counterparty
