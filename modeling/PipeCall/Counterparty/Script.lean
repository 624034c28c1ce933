import PipeCall.Counterparty.Octets

/-!
# Scripts

What a counterparty's script is made of. A `Word` is put together of pieces, some of which stand for
text that is found out when the script runs; a `Command` is a program with its arguments, or
commands put together. The output of a command may be a piece of a word: `Command.pending?` tells
the first such piece of a command, and `Command.fill` puts the text there.
-/

namespace PipeCall.Counterparty

/-- What is taken of a parameter. Some take an operand, and some treat an empty value like none. -/
inductive Modifier where
  | plain
  /-- The length of the value. -/
  | length
  /-- The operand, if there is no value. -/
  | otherwise (orEmpty : Bool)
  /-- The operand, which becomes the value, if there is none. -/
  | assigning (orEmpty : Bool)
  /-- A complaint, if there is no value. -/
  | demanding (orEmpty : Bool)
  /-- The operand, if there is a value. -/
  | given (orEmpty : Bool)
  /-- The value without what matches the operand at its beginning. -/
  | cutHead (longest : Bool)
  /-- The value without what matches the operand at its end. -/
  | cutTail (longest : Bool)
  /-- Nothing that is known. -/
  | unknown
  deriving DecidableEq

/-- Whether the operand is a pattern, which is read in the same way inside quoting marks. -/
def Modifier.isCut : Modifier → Bool
  | .cutHead _ | .cutTail _ => true
  | _ => false

/-- A piece of a word. What is quoted is not split into fields. -/
inductive Piece where
  | text (quoted : Bool) (cs : Octets)
  | parameter (quoted : Bool) (name : Octets) (modifier : Modifier) (operand : List Piece)
  | arithmetic (quoted : Bool) (expression : List Piece)
  /-- The output of a script, which begins on that line. -/
  | output (quoted : Bool) (line : Nat) (script : Octets)
  /-- The output of a script that has run. -/
  | result (quoted : Bool) (cs : Octets)

/-- A word, as its pieces. -/
abbrev Word := List Piece

/-- What is done to a stream of a command. -/
inductive Direction where
  | read
  | write
  | append
  /-- The stream becomes the same as another. -/
  | duplicate
  /-- The text itself is read. -/
  | text
  deriving DecidableEq

/-- A change of one stream of a command, given by its number. -/
structure Redirection where
  stream : Nat
  direction : Direction
  operand : Word

/-- A command. -/
inductive Command where
  /-- Assignments, and the words of a command, which is on that line. -/
  | simple (line : Nat) (assignments : List (Octets × Word)) (words : List Word)
      (redirections : List Redirection)
  /-- One after the other. -/
  | sequence (commands : List Command)
  /-- All at the same time, each reading what the one before it writes. -/
  | pipeline (stages : List Command)
  | negated (command : Command)
  /-- The second one if the first one succeeds. -/
  | both (first second : Command)
  /-- The second one if the first one fails. -/
  | either (first second : Command)
  /-- Without waiting for it. -/
  | background (command : Command)
  /-- In a process of its own. -/
  | subshell (command : Command)
  | branch (condition yes no : Command)
  /-- As long as the condition succeeds, or, if inverted, fails. -/
  | loop (inverted : Bool) (condition body : Command)
  /-- Once for every field of the words, or for every argument. -/
  | each (line : Nat) (name : Octets) (words : Option (List Word)) (body : Command)
  /-- The first one of which a pattern matches. -/
  | choice (line : Nat) (word : Word) (arms : List (List Word × Command))
  | define (name : Octets) (body : Command)
  | redirected (command : Command) (redirections : List Redirection)

/-! ## Output as a piece of a word -/

mutual

/-- The piece without operands that are not wanted. -/
def Piece.needed (isWanted : Octets → Modifier → Bool) : Piece → Piece
  | .parameter quoted name modifier operand =>
    let operand := if isWanted name modifier then neededIn isWanted operand else []
    .parameter quoted name modifier operand
  | .arithmetic quoted expression => .arithmetic quoted (neededIn isWanted expression)
  | p => p

/-- The pieces without operands that are not wanted. -/
def neededIn (isWanted : Octets → Modifier → Bool) : List Piece → List Piece
  | [] => []
  | p :: ps => Piece.needed isWanted p :: neededIn isWanted ps

end

mutual

/-- The first script in a piece whose output is wanted, after its line. -/
def Piece.pending? : Piece → Option (Nat × Octets)
  | .output _ line script => some (line, script)
  | .parameter _ _ _ operand => pendingIn? operand
  | .arithmetic _ expression => pendingIn? expression
  | .text _ _ | .result _ _ => none

/-- The first script in some pieces whose output is wanted. -/
def pendingIn? : List Piece → Option (Nat × Octets)
  | [] => none
  | p :: ps => (Piece.pending? p).or (pendingIn? ps)

end

mutual

/-- The piece with an output put in place of its first script; only if there is one. -/
def Piece.fill? (text : Octets) : Piece → Option Piece
  | .output quoted _ _ => some (.result quoted text)
  | .parameter quoted name modifier operand =>
    (fillIn? text operand).map (.parameter quoted name modifier)
  | .arithmetic quoted expression => (fillIn? text expression).map (.arithmetic quoted)
  | .text _ _ | .result _ _ => none

/-- The pieces with an output put in place of their first script; only if there is one. -/
def fillIn? (text : Octets) : List Piece → Option (List Piece)
  | [] => none
  | p :: ps =>
    match Piece.fill? text p with
    | some q => some (q :: ps)
    | none => (fillIn? text ps).map (p :: ·)

end

namespace Word

/-- The text of a word that is not quoted and has no other pieces. -/
def plain? : Word → Option Octets
  | [.text false cs] => some cs
  | _ => none

/-- The text of a word as it is written, and whether some of it was quoted. -/
def literal : Word → Octets × Bool
  | [] => ([], false)
  | .text quoted cs :: rest => (cs ++ (literal rest).1, quoted || (literal rest).2)
  | _ :: rest => literal rest

/-- The first script in some words whose output is wanted. -/
def pendingAmong? (ws : List Word) : Option (Nat × Octets) := ws.findSome? pendingIn?

/-- The words with an output put in place of their first script. -/
def fillAmong (text : Octets) : List Word → List Word
  | [] => []
  | w :: ws =>
    match fillIn? text w with
    | some v => v :: ws
    | none => w :: fillAmong text ws

end Word

namespace Command

/-- All words that a command expands before it does anything. -/
def wordsOf : Command → List Word
  | .simple _ assignments words redirections =>
    words ++ redirections.map Redirection.operand ++ assignments.map Prod.snd
  | .each _ _ (some words) _ => words
  | .choice _ word arms => word :: (arms.map Prod.fst).flatten
  | .redirected _ redirections => redirections.map Redirection.operand
  | _ => []

/-- Other operands for redirections. -/
def withOperands (redirections : List Redirection) (operands : List Word) : List Redirection :=
  redirections.zipWith (fun r w => { r with operand := w }) operands

/-- Other patterns for the arms of a choice. -/
def withPatterns : List (List Word × Command) → List Word → List (List Word × Command)
  | [], _ => []
  | (own, body) :: arms, words =>
    (words.take own.length, body) :: withPatterns arms (words.drop own.length)

/-- The command with others in place of all its words. -/
def withWords (words : List Word) : Command → Command
  | .simple line assignments own redirections =>
    let operands := words.drop own.length
    let values := operands.drop redirections.length
    .simple line (assignments.zipWith (fun (name, _) value => (name, value)) values)
      (words.take own.length) (withOperands redirections operands)
  | .each line name (some _) body => .each line name (some words) body
  | .choice line _ arms => .choice line (words.headD []) (withPatterns arms words.tail)
  | .redirected command redirections => .redirected command (withOperands redirections words)
  | c => c

/-- The command without operands that are not wanted. -/
def needed (isWanted : Octets → Modifier → Bool) (c : Command) : Command :=
  c.withWords (c.wordsOf.map (neededIn isWanted))

/-- The first script in a command whose output is wanted. -/
def pending? (c : Command) : Option (Nat × Octets) := Word.pendingAmong? c.wordsOf

/-- The command with an output put in place of its first script. -/
def fill (text : Octets) (c : Command) : Command := c.withWords (Word.fillAmong text c.wordsOf)

end Command

end PipeCall.Counterparty
