import PipeCall.Counterparty.Script

/-!
# Reading scripts

A script is read a line at a time, or as many lines as a command takes: `Source.line?` gives the
commands that come next and what is left. What cannot be read is a `ScriptFault`, with the wording
and the line of the complaint. Each function takes some fuel, of which every step uses up one; the
length of the text is always enough.
-/

namespace PipeCall.Counterparty

/-- What is left of a script, and the number of its first line. -/
structure Source where
  text : Octets
  line : Nat := 1
  /-- The number of lines that were taken out after this one. -/
  hidden : Nat := 0

/-- Why a script cannot be read. -/
structure ScriptFault where
  line : Nat
  message : String

namespace Source

/-- What reading gives: something, and what is left. -/
abbrev Read (α : Type) := StateT Source (Except ScriptFault) α

/-- Complains. -/
def complain {α : Type} (message : String) : Read α := do
  throw ⟨(← get).line, message⟩

/-- Goes past the first characters. -/
def skip (n : Nat) : Read Unit :=
  modify fun s => { s with text := s.text.drop n, line := s.line + (s.text.take n).count '\n' }

/-! ## Words -/

/-- Puts text in front of some pieces. -/
def consText (quoted : Bool) (cs : Octets) : List Piece → List Piece
  | .text q ds :: rest =>
    if q = quoted then .text q (cs ++ ds) :: rest else .text quoted cs :: .text q ds :: rest
  | ps => .text quoted cs :: ps

/-- The script between two grave accents, where some characters may have a backslash before them,
and the number of characters that it takes. -/
def takeGrave? : Octets → Option (Octets × Nat)
  | [] => none
  | '\x60' :: _ => some ([], 1)
  | '\\' :: c :: rest =>
    (takeGrave? rest).map fun (cs, n) =>
      (if c == '$' || c == '\x60' || c == '\\' then c :: cs else '\\' :: c :: cs, n + 2)
  | c :: rest => (takeGrave? rest).map fun (cs, n) => (c :: cs, n + 1)

/-- What is open where a script is looked through: for each open parenthesis the number of choices
in it that are open, whose patterns end with a parenthesis of their own. -/
structure Nesting where
  choices : List Nat := [0]
  /-- Whether a word begins here, and whether it is the first one of a command. -/
  isStart : Bool := true
  isFirst : Bool := true

/-- The nesting inside a word. -/
def Nesting.inside (n : Nesting) : Nesting := { n with isStart := false }

/-- The nesting after another number of open choices in the last parenthesis. -/
def Nesting.change (n : Nesting) (f : Nat → Nat) : Nesting :=
  match n.choices with
  | k :: rest => { n with choices := f k :: rest, isStart := false, isFirst := false }
  | [] => n

/-- The words after which a command may begin. -/
def openers : List String := ["!", "\x7b", "do", "elif", "else", "if", "then", "until", "while"]

mutual

/-- What follows the parenthesis that ends a script, whose beginning was passed. -/
def pastScript : Nat → Nesting → Octets → Option Octets
  | 0, _, _ => none
  | fuel + 1, n, cs =>
    match cs with
    | [] => none
    | '\\' :: _ :: rest => pastScript fuel n.inside rest
    | '\'' :: rest => pastScript fuel n.inside (rest.dropWhile (· ≠ '\'')).tail
    | '"' :: rest => (pastQuoted fuel rest).bind (pastScript fuel n.inside)
    | '\x60' :: rest =>
      (takeGrave? rest).bind fun (_, length) => pastScript fuel n.inside (rest.drop length)
    | '$' :: '(' :: rest => (pastScript fuel {} rest).bind (pastScript fuel n.inside)
    | '$' :: '\x7b' :: rest => (pastBraced fuel rest).bind (pastScript fuel n.inside)
    | '(' :: rest => pastScript fuel { choices := 0 :: n.choices } rest
    | ')' :: rest =>
      match n.choices with
      | 0 :: [] | [] => some rest
      | 0 :: outer => pastScript fuel { choices := outer, isFirst := false } rest
      | choices => pastScript fuel { choices } rest
    | c :: rest =>
      if c = '#' ∧ n.isStart then pastScript fuel n (rest.dropWhile (· ≠ '\n'))
      else if c = ' ' ∨ c = '\t' then pastScript fuel { n with isStart := true } rest
      else if c = '\n' ∨ c = ';' ∨ c = '&' ∨ c = '|' then
        pastScript fuel { n with isStart := true, isFirst := true } rest
      else if n.isStart ∧ n.isFirst then
        let w := String.ofList (cs.takeWhile fun c => c.isAlpha || c == '!' || c == '\x7b')
        let rest := cs.drop (max w.length 1)
        if w = "case" then pastScript fuel (n.change (· + 1)) rest
        else if w = "esac" then pastScript fuel (n.change (· - 1)) rest
        else if openers.contains w then pastScript fuel n.inside rest
        else pastScript fuel { n with isStart := false, isFirst := false } rest
      else pastScript fuel n.inside rest

/-- What follows the quoting mark that ends a text. -/
def pastQuoted : Nat → Octets → Option Octets
  | 0, _ => none
  | fuel + 1, cs =>
    match cs with
    | [] => none
    | '"' :: rest => some rest
    | '\\' :: _ :: rest => pastQuoted fuel rest
    | '\x60' :: rest => (takeGrave? rest).bind fun (_, length) => pastQuoted fuel (rest.drop length)
    | '$' :: '(' :: rest => (pastScript fuel {} rest).bind (pastQuoted fuel)
    | '$' :: '\x7b' :: rest => (pastBraced fuel rest).bind (pastQuoted fuel)
    | _ :: rest => pastQuoted fuel rest

/-- What follows the brace that ends a parameter. -/
def pastBraced : Nat → Octets → Option Octets
  | 0, _ => none
  | fuel + 1, cs =>
    match cs with
    | [] => none
    | '\x7d' :: rest => some rest
    | '\\' :: _ :: rest => pastBraced fuel rest
    | '"' :: rest => (pastQuoted fuel rest).bind (pastBraced fuel)
    | '\x60' :: rest => (takeGrave? rest).bind fun (_, length) => pastBraced fuel (rest.drop length)
    | '$' :: '(' :: rest => (pastScript fuel {} rest).bind (pastBraced fuel)
    | '$' :: '\x7b' :: rest => (pastBraced fuel rest).bind (pastBraced fuel)
    | _ :: rest => pastBraced fuel rest

end

/-- The length of a script up to the parenthesis that ends it. -/
def closing? (cs : Octets) : Option Nat :=
  (pastScript (cs.length + 1) {} cs).map fun rest => cs.length - rest.length - 1

/-- Whether a character is the name of a parameter that is not a variable. -/
def isSpecial (c : Char) : Bool :=
  c.isDigit || c == '@' || c == '*' || c == '#' || c == '?' || c == '-' || c == '$' || c == '!'

/-- The name of a parameter at the beginning of a text. -/
def nameOf (braces : Bool) (cs : Octets) : Octets :=
  match cs with
  | c :: _ =>
    if Octets.isNameStart c then cs.takeWhile Octets.isNamePart
    else if c.isDigit then if braces then cs.takeWhile Char.isDigit else [c]
    else if isSpecial c then [c]
    else []
  | [] => []

/-- What follows the name of a parameter in braces, and its length. -/
def modifierOf (cs : Octets) : Modifier × Nat :=
  match cs with
  | '\x7d' :: _ => (.plain, 0)
  | ':' :: '\x7d' :: _ => (.plain, 2)
  | ':' :: '-' :: _ => (.otherwise true, 2)
  | ':' :: '=' :: _ => (.assigning true, 2)
  | ':' :: '?' :: _ => (.demanding true, 2)
  | ':' :: '+' :: _ => (.given true, 2)
  | '-' :: _ => (.otherwise false, 1)
  | '=' :: _ => (.assigning false, 1)
  | '?' :: _ => (.demanding false, 1)
  | '+' :: _ => (.given false, 1)
  | '#' :: '#' :: _ => (.cutHead true, 2)
  | '#' :: _ => (.cutHead false, 1)
  | '%' :: '%' :: _ => (.cutTail true, 2)
  | '%' :: _ => (.cutTail false, 1)
  | _ => (.unknown, 0)

mutual

/-- The pieces up to the quoting mark that closes them, or to the end. -/
def takeQuoted : Nat → Option Char → Read (List Piece)
  | 0, _ => complain "Unterminated quoted string"
  | fuel + 1, close => do
    match (← get).text with
    | [] => if close.isNone then pure [.text true []] else complain "Unterminated quoted string"
    | '\\' :: c :: _ =>
      skip 2
      let rest ← takeQuoted fuel close
      pure <|
        if c == '\n' then rest
        else if c == '$' || c == '\x60' || c == '\\' || some c == close then consText true [c] rest
        else consText true ['\\', c] rest
    | '$' :: _ =>
      let p ← takeParameter fuel true
      pure (p :: (← takeQuoted fuel close))
    | '\x60' :: _ =>
      let p ← takeOutput true
      pure (p :: (← takeQuoted fuel close))
    | c :: _ =>
      skip 1
      if some c == close then pure [.text true []]
      else pure (consText true [c] (← takeQuoted fuel close))

/-- The pieces up to a character that ends them. -/
def takeUnquoted : Nat → (Char → Bool) → Read (List Piece)
  | 0, _ => complain "Unterminated quoted string"
  | fuel + 1, stop => do
    match (← get).text with
    | [] => pure []
    | '\'' :: rest =>
      let inside := rest.takeWhile (· ≠ '\'')
      if inside.length = rest.length then
        skip (rest.length + 1)
        complain "Unterminated quoted string"
      else
        skip (inside.length + 2)
        pure (consText true inside (← takeUnquoted fuel stop))
    | '"' :: _ =>
      skip 1
      let quoted ← takeQuoted fuel (some '"')
      pure (quoted ++ (← takeUnquoted fuel stop))
    | '\\' :: c :: _ =>
      skip 2
      let rest ← takeUnquoted fuel stop
      pure (if c == '\n' then rest else consText true [c] rest)
    | '$' :: _ =>
      let p ← takeParameter fuel false
      pure (p :: (← takeUnquoted fuel stop))
    | '\x60' :: _ =>
      let p ← takeOutput false
      pure (p :: (← takeUnquoted fuel stop))
    | c :: _ =>
      if stop c then pure []
      else
        skip 1
        pure (consText false [c] (← takeUnquoted fuel stop))

/-- The piece that a dollar sign begins. Before anything else it stands for itself. -/
def takeParameter : Nat → Bool → Read Piece
  | 0, _ => complain "Unterminated quoted string"
  | fuel + 1, quoted => do
    skip 1
    match (← get).text with
    | '(' :: rest =>
      match closing? rest with
      | none =>
        skip (rest.length + 1)
        complain <| if rest.head? = some '(' then "Missing '))'"
          else "end of file unexpected (expecting \")\")"
      | some n =>
        let inside := rest.take n
        match inside, inside.getLast? with
        | '(' :: _, some ')' =>
          let line := (← get).line
          skip (n + 2)
          match (takeQuoted fuel none).run { text := (inside.drop 1).dropLast, line } with
          | .ok (pieces, _) => pure (.arithmetic quoted pieces)
          | .error e => throw e
        | _, _ =>
          let line := (← get).line
          skip (n + 2)
          pure (.output quoted line inside)
    | '\x7b' :: '#' :: rest =>
      let name := nameOf true rest
      if name ≠ [] ∧ rest[name.length]? = some '\x7d' then
        skip (name.length + 3)
        pure (.parameter quoted name .length [])
      else takeBraced fuel quoted
    | '\x7b' :: _ => takeBraced fuel quoted
    | cs =>
      match nameOf false cs with
      | [] => pure (.text quoted ['$'])
      | name =>
        skip name.length
        pure (.parameter quoted name .plain [])

/-- A parameter in braces, from the opening brace on. -/
def takeBraced : Nat → Bool → Read Piece
  | 0, _ => complain "Missing '\x7d'"
  | fuel + 1, quoted => do
    skip 1
    let name := nameOf true (← get).text
    skip name.length
    let (modifier, length) := modifierOf (← get).text
    let modifier := if name = [] then .unknown else modifier
    skip length
    let operand ←
      if quoted && !modifier.isCut then takeQuotedOperand fuel
      else takeUnquoted fuel (· == '\x7d')
    match (← get).text with
    | '\x7d' :: _ =>
      skip 1
      pure (.parameter quoted name modifier operand)
    | _ => complain "Missing '\x7d'"

/-- An operand inside quoting marks, up to its closing brace. -/
def takeQuotedOperand : Nat → Read (List Piece)
  | 0 => complain "Missing '\x7d'"
  | fuel + 1 => do
    match (← get).text with
    | [] => complain "Unterminated quoted string"
    | '\x7d' :: _ => pure [.text true []]
    | '"' :: _ =>
      skip 1
      takeQuotedOperand fuel
    | '\\' :: c :: _ =>
      skip 2
      let rest ← takeQuotedOperand fuel
      let isEscaped := c == '$' || c == '\x60' || c == '\\' || c == '"' || c == '\x7d'
      pure (consText true (if isEscaped then [c] else ['\\', c]) rest)
    | '$' :: _ =>
      let p ← takeParameter fuel true
      pure (p :: (← takeQuotedOperand fuel))
    | '\x60' :: _ =>
      let p ← takeOutput true
      pure (p :: (← takeQuotedOperand fuel))
    | c :: _ =>
      skip 1
      pure (consText true [c] (← takeQuotedOperand fuel))

/-- The piece between two grave accents. -/
def takeOutput (quoted : Bool) : Read Piece := do
  match takeGrave? ((← get).text.drop 1) with
  | some (script, n) =>
    skip (n + 1)
    pure (.output quoted 1 script)
  | none =>
    skip (← get).text.length
    complain "EOF in backquote substitution"

end

/-! ## Tokens -/

/-- A token of a script. -/
inductive Token where
  | word (w : Word)
  | operator (text : String)
  /-- What changes a stream, the number of which may be given. -/
  | redirect (stream : Option Nat) (text : String)
  | newline
  | finish

/-- Whether a character outside quotes ends a word. -/
def endsWord (c : Char) : Bool :=
  c == ' ' || c == '\t' || c == '\n' || c == ';' || c == '&' || c == '|' || c == '<' || c == '>' ||
    c == '(' || c == ')'

/-- The text from the next token on; blanks and comments are passed over. -/
def skipBlanks (line : Nat) : Octets → Octets × Nat
  | ' ' :: rest | '\t' :: rest => skipBlanks line rest
  | '\\' :: '\n' :: rest => skipBlanks (line + 1) rest
  | '#' :: rest => (rest.dropWhile (· ≠ '\n'), line)
  | cs => (cs, line)

/-- The operators, each before those that it begins with. -/
def operators : List String := ["&&", "||", ";;", ";", "&", "|", "(", ")"]

/-- The operators that change a stream, each before those that it begins with. -/
def redirectors : List String := ["<<-", "<<", "<&", "<", ">>", ">&", ">|", ">"]

/-- The next token. -/
def token : Read Token := do
  modify fun s =>
    let (text, line) := skipBlanks s.line s.text
    { s with text, line }
  let cs := (← get).text
  let digits := cs.takeWhile Char.isDigit
  let beginsWith (cs : Octets) (o : String) : Bool := o.toList.isPrefixOf cs
  match cs with
  | [] => pure .finish
  | '\n' :: _ =>
    modify fun s => { text := s.text.drop 1, line := s.line + 1 + s.hidden }
    pure .newline
  | _ =>
    let redirector := redirectors.find? (beginsWith (cs.drop digits.length))
    match redirector, operators.find? (beginsWith cs) with
    | some o, _ =>
      skip (digits.length + o.length)
      pure (.redirect (if digits = [] then none else some (Nat.ofDigitChars 10 digits 0)) o)
    | none, some o =>
      skip o.length
      pure (.operator o)
    | none, none => do pure (.word (← takeUnquoted (cs.length + 1) endsWord))

/-- The next token, without going past it. -/
def peek : Read Token := do
  let s ← get
  let t ← token
  set s
  pure t

/-- The words that have a meaning where a command begins. -/
def reserved : List String :=
  ["!", "\x7b", "\x7d", "case", "do", "done", "elif", "else", "esac", "fi", "for", "if", "then",
    "until", "while"]

/-- A token that is a plain word, as a string. -/
def Token.plain : Token → String
  | .word w => String.ofList ((Word.plain? w).getD [])
  | _ => ""

/-- How a token is named in a complaint. -/
def Token.name : Token → String
  | .word w =>
    let plain := Token.plain (.word w)
    if reserved.contains plain then "\"" ++ plain ++ "\"" else "word"
  | .operator o => "\"" ++ o ++ "\""
  | .redirect _ _ => "redirection"
  | .newline => "newline"
  | .finish => "end of file"

/-- Complains of a token. -/
def unexpected {α : Type} (t : Token) (expected : Option String) : Read α :=
  complain <| t.name ++ " unexpected" ++
    match expected with
    | some e => " (expecting \"" ++ e ++ "\")"
    | none => ""

/-- Goes past a word or an operator that has to be there. -/
def expect (text : String) : Read Unit := do
  match ← token with
  | .word w => if Token.plain (.word w) = text then pure () else unexpected (.word w) (some text)
  | .operator o => if o = text then pure () else unexpected (.operator o) (some text)
  | t => unexpected t (some text)

/-- Goes past ends of lines. -/
def skipLines : Nat → Read Unit
  | 0 => pure ()
  | fuel + 1 => do
    match ← peek with
    | .newline =>
      let _ ← token
      skipLines fuel
    | _ => pure ()

/-- Goes past all ends of lines that are there. -/
def skipAllLines : Read Unit := do skipLines ((← get).text.length + 1)

/-! ## Redirections -/

/-- The lines up to one that is the delimiter, and what is left. -/
def takeLines : Nat → Bool → Octets → Octets → Octets × Octets
  | 0, _, _, cs => ([], cs)
  | fuel + 1, strip, delimiter, cs =>
    if cs = [] then ([], [])
    else
      let line := cs.takeWhile (· ≠ '\n')
      let rest := cs.drop (line.length + 1)
      let line := if strip then line.dropWhile (· == '\t') else line
      if line = delimiter then ([], rest)
      else
        let (lines, after) := takeLines fuel strip delimiter rest
        (line ++ (if cs.contains '\n' then '\n' :: lines else lines), after)

/-- Takes the text of a redirection, which stands on the lines after this one. -/
def takeText (strip : Bool) (delimiter : Word) : Read Word := do
  let s ← get
  let before := s.text.takeWhile (· ≠ '\n')
  let after := s.text.drop (before.length + 1)
  let (mark, isQuoted) := delimiter.literal
  let (lines, rest) := takeLines (after.length + 1) strip mark after
  let taken := (after.take (after.length - rest.length)).count '\n'
  set ({ s with text := before ++ '\n' :: rest, hidden := s.hidden + taken } : Source)
  if isQuoted then pure [.text true lines]
  else
    let inside : Source := { text := lines, line := s.line + s.hidden + 1 }
    match (takeQuoted (lines.length + 1) none).run inside with
    | .ok (pieces, _) => pure pieces
    | .error e => throw e

/-- The redirection that an operator begins. -/
def redirection (stream : Option Nat) (operator : String) : Read Redirection := do
  match ← token with
  | .word w =>
    let input := stream.getD 0
    let output := stream.getD 1
    match operator with
    | "<" => pure ⟨input, .read, w⟩
    | "<&" => pure ⟨input, .duplicate, w⟩
    | ">&" => pure ⟨output, .duplicate, w⟩
    | ">>" => pure ⟨output, .append, w⟩
    | "<<" => pure ⟨input, .text, ← takeText false w⟩
    | "<<-" => pure ⟨input, .text, ← takeText true w⟩
    | _ => pure ⟨output, .write, w⟩
  | t => unexpected t none

/-- The redirections that come next. -/
def redirections : Nat → Read (List Redirection)
  | 0 => pure []
  | fuel + 1 => do
    match ← peek with
    | .redirect stream operator =>
      let _ ← token
      let r ← redirection stream operator
      pure (r :: (← redirections fuel))
    | _ => pure []

/-! ## Commands -/

/-- The assignment that a word is: it begins with a name and an equals sign that are not quoted. -/
def assignment? : Word → Option (Octets × Word)
  | .text false cs :: rest =>
    match Octets.assignment? cs with
    | some (name, []) => some (name, rest)
    | some (name, value) => some (name, .text false value :: rest)
    | none => none
  | _ => none

/-- A command that consists of others. -/
def Command.ofList : List Command → Command
  | [c] => c
  | cs => .sequence cs

/-- The words that end a command or a part of one. -/
def closers : List String := ["\x7d", "do", "done", "elif", "else", "esac", "fi", "then"]

/-- Whether a token may begin a command. -/
def Token.begins : Token → Bool
  | .word w => !closers.contains (Token.plain (.word w))
  | .operator o => o == "("
  | .redirect _ _ => true
  | .newline | .finish => false

/-- The words of a loop over words, up to the end of the line or a semicolon. -/
def listedWords : Nat → Read (List Word)
  | 0 => pure []
  | fuel + 1 => do
    match ← token with
    | .word w => pure (w :: (← listedWords fuel))
    | .newline | .operator ";" => pure []
    | t => unexpected t none

/-- The patterns of an arm, up to the parenthesis after them. -/
def patterns : Nat → Read (List Word)
  | 0 => pure []
  | fuel + 1 => do
    match ← token with
    | .word w =>
      match ← token with
      | .operator "|" => pure (w :: (← patterns fuel))
      | .operator ")" => pure [w]
      | t => unexpected t (some ")")
    | t => unexpected t (some ")")

/-- The parts of a simple command. -/
structure Parts where
  assignments : List (Octets × Word) := []
  words : List Word := []
  redirections : List Redirection := []

mutual

/-- Commands up to a token that begins none. They may be on several lines. -/
def list : Nat → Bool → Read (List Command)
  | 0, _ => pure []
  | fuel + 1, lines => do
    if lines then skipAllLines
    let c ← andOr fuel
    match ← peek with
    | .operator ";" =>
      let _ ← token
      listRest fuel lines c
    | .operator "&" =>
      let _ ← token
      listRest fuel lines (.background c)
    | .newline => if lines then listRest fuel lines c else pure [c]
    | _ => pure [c]

/-- A command, and those after it. -/
def listRest : Nat → Bool → Command → Read (List Command)
  | 0, _, c => pure [c]
  | fuel + 1, lines, c => do
    if lines then skipAllLines
    if (← peek).begins then pure (c :: (← list fuel lines)) else pure [c]

/-- Commands each of which depends on how the one before it comes out. -/
def andOr : Nat → Read Command
  | 0 => complain "end of file unexpected"
  | fuel + 1 => do andOrRest fuel (← pipeline fuel)

/-- A command, and those that depend on how it comes out. -/
def andOrRest : Nat → Command → Read Command
  | 0, c => pure c
  | fuel + 1, c => do
    match ← peek with
    | .operator "&&" =>
      let _ ← token
      skipAllLines
      andOrRest fuel (.both c (← pipeline fuel))
    | .operator "||" =>
      let _ ← token
      skipAllLines
      andOrRest fuel (.either c (← pipeline fuel))
    | _ => pure c

/-- Commands that read what the one before writes. -/
def pipeline : Nat → Read Command
  | 0 => complain "end of file unexpected"
  | fuel + 1 => do
    let t ← peek
    if t.plain = "!" then
      let _ ← token
      pure (.negated (← pipeline fuel))
    else
      match ← stages fuel with
      | [c] => pure c
      | cs => pure (.pipeline cs)

/-- The commands of a pipeline. -/
def stages : Nat → Read (List Command)
  | 0 => complain "end of file unexpected"
  | fuel + 1 => do
    let c ← command fuel
    match ← peek with
    | .operator "|" =>
      let _ ← token
      skipAllLines
      pure (c :: (← stages fuel))
    | _ => pure [c]

/-- One command. -/
def command : Nat → Read Command
  | 0 => complain "end of file unexpected"
  | fuel + 1 => do
    let t ← peek
    match t with
    | .operator "(" =>
      let _ ← token
      let body ← list fuel true
      expect ")"
      withRedirections fuel (.subshell (Command.ofList body))
    | .redirect _ _ =>
      let line := (← get).line
      simple fuel line {}
    | .word _ =>
      if !reserved.contains t.plain then
        let line := (← get).line
        simple fuel line {}
      else
        let _ ← token
        match t.plain with
        | "\x7b" =>
          let body ← list fuel true
          expect "\x7d"
          withRedirections fuel (Command.ofList body)
        | "if" => do withRedirections fuel (← branch fuel)
        | "while" => do withRedirections fuel (← loop fuel false)
        | "until" => do withRedirections fuel (← loop fuel true)
        | "for" => do withRedirections fuel (← each fuel)
        | "case" => do withRedirections fuel (← choice fuel)
        | _ => unexpected t none
    | t => unexpected t none

/-- A command with the redirections after it. -/
def withRedirections : Nat → Command → Read Command
  | _, c => do
    match ← redirections (← get).text.length with
    | [] => pure c
    | rs => pure (.redirected c rs)

/-- A branch, after its first word. -/
def branch : Nat → Read Command
  | 0 => complain "end of file unexpected"
  | fuel + 1 => do
    let condition ← list fuel true
    expect "then"
    let yes ← list fuel true
    let t ← token
    match t.plain with
    | "elif" =>
      let no ← branch fuel
      pure (.branch (Command.ofList condition) (Command.ofList yes) no)
    | "else" =>
      let no ← list fuel true
      expect "fi"
      pure (.branch (Command.ofList condition) (Command.ofList yes) (Command.ofList no))
    | "fi" => pure (.branch (Command.ofList condition) (Command.ofList yes) (.sequence []))
    | _ => unexpected t (some "fi")

/-- A loop with a condition, after its first word. -/
def loop : Nat → Bool → Read Command
  | 0, _ => complain "end of file unexpected"
  | fuel + 1, inverted => do
    let condition ← list fuel true
    expect "do"
    let body ← list fuel true
    expect "done"
    pure (.loop inverted (Command.ofList condition) (Command.ofList body))

/-- A loop over words, after its first word. -/
def each : Nat → Read Command
  | 0 => complain "end of file unexpected"
  | fuel + 1 => do
    let line := (← get).line
    let t ← token
    let name := t.plain.toList
    if !Octets.isName name then complain "Bad for loop variable"
    else
      skipAllLines
      let next ← peek
      let words ←
        if next.plain = "in" then do
          let _ ← token
          pure (some (← listedWords (← get).text.length))
        else do
          match next with
          | .operator ";" => let _ ← token
          | _ => pure ()
          pure none
      skipAllLines
      expect "do"
      let body ← list fuel true
      expect "done"
      pure (.each line name words (Command.ofList body))

/-- A choice, after its first word. -/
def choice : Nat → Read Command
  | 0 => complain "end of file unexpected"
  | fuel + 1 => do
    let line := (← get).line
    match ← token with
    | .word w =>
      skipAllLines
      expect "in"
      pure (.choice line w (← arms fuel))
    | t => unexpected t none

/-- The arms of a choice, and its last word. -/
def arms : Nat → Read (List (List Word × Command))
  | 0 => complain "end of file unexpected"
  | fuel + 1 => do
    skipAllLines
    let t ← peek
    if t.plain = "esac" then
      let _ ← token
      pure []
    else
      match t with
      | .operator "(" => let _ ← token
      | _ => pure ()
      let ps ← patterns ((← get).text.length + 1)
      skipAllLines
      let body ← if (← peek).begins then list fuel true else pure []
      let t ← token
      match t with
      | .operator ";;" => pure ((ps, Command.ofList body) :: (← arms fuel))
      | t =>
        if t.plain = "esac" then pure [(ps, Command.ofList body)] else unexpected t (some ";;")

/-- The rest of a simple command, or the body of what its only word defines. -/
def simple : Nat → Nat → Parts → Read Command
  | 0, line, p => pure (.simple line p.assignments p.words p.redirections)
  | fuel + 1, line, p => do
    match ← peek with
    | .redirect stream operator =>
      let _ ← token
      let r ← redirection stream operator
      simple fuel line { p with redirections := p.redirections ++ [r] }
    | .word w =>
      let _ ← token
      match if p.words.isEmpty then assignment? w else none with
      | some a => simple fuel line { p with assignments := p.assignments ++ [a] }
      | none => simple fuel line { p with words := p.words ++ [w] }
    | .operator "(" =>
      match p.words.map Word.plain?, p.assignments, p.redirections with
      | [some name], [], [] =>
        let _ ← token
        match ← token with
        | .operator ")" => pure ()
        | .word _ => complain "word unexpected (expecting \")\")"
        | t => unexpected t (some ")")
        if !Octets.isName name then complain "Bad function name"
        else
          skipAllLines
          pure (.define name (← command fuel))
      | _, _, _ => unexpected (.operator "(") none
    | _ => pure (.simple line p.assignments p.words p.redirections)

end

/-- The commands on the next line, and what is left; nothing at the end. -/
def line? : Read (Option Command) := do
  skipAllLines
  match ← peek with
  | .finish => pure none
  | _ =>
    let cs ← list (8 * (← get).text.length + 20) false
    match ← token with
    | .newline | .finish => pure (some (Command.ofList cs))
    | t => unexpected t none

end Source

end PipeCall.Counterparty
