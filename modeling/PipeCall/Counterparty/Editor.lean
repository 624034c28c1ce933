import PipeCall.Counterparty.Regex

/-!
# Editing a stream of lines

The scripts of `sed`: commands that are carried out on every line of a text. `Editor.read?` reads a
script. `Editor.run` carries it out on as much of a text as there is, and tells whether it has come
to an end.
-/

namespace PipeCall.Counterparty.Editor

/-! ## Scripts -/

/-- Which lines are meant. -/
inductive Address where
  | line (n : Nat)
  | last
  | having (r : Regex)
  /-- So many lines after the one where a range begins. -/
  | further (n : Nat)
  /-- A line, and those that follow it in steps. -/
  | every (start step : Nat)

/-- A part of what is put in place of a match. -/
inductive Part where
  | text (cs : Octets)
  /-- What was matched by a group; all of it is the zeroth. -/
  | group (n : Nat)

/-- What is done. -/
inductive Action where
  /-- Replaces the `nth` match, or all from that on. -/
  | substitute (r : Regex) (parts : List Part) (nth : Nat) (all print : Bool)
  | transliterate (map : List (Char × Char))
  | print
  /-- Prints the first line of what there is. -/
  | printFirst
  | delete
  /-- Deletes the first line of what there is, and starts again with the rest. -/
  | deleteFirst
  /-- Prints the number of the line. -/
  | number
  /-- Ends, after printing what there is or not. -/
  | quit (print : Bool) (status : Nat)
  /-- Goes on with the next line. -/
  | next
  /-- Appends the next line to what there is. -/
  | join
  | insert (cs : Octets)
  | append (cs : Octets)
  | change (cs : Octets)
  /-- Keeps what there is, in place of what is kept or after it. -/
  | keep (after : Bool)
  /-- Takes what is kept, in place of what there is or after it. -/
  | take (after : Bool)
  | exchange
  | label (name : Octets)
  /-- Goes on at a label or at the end; perhaps only if something was replaced. -/
  | jump (name : Octets) (ifReplaced : Bool)
  /-- Begins commands up to a closing one, which are passed over for other lines. -/
  | enter
  | close

/-- A command, and the lines that it is for. -/
structure Command where
  start : Option Address := none
  stop : Option Address := none
  /-- Whether it is for the other lines. -/
  negated : Bool := false
  action : Action

/-! ## Reading scripts -/

/-- What reading gives; nothing if the script cannot be read. -/
abbrev Read (α : Type) := StateT Octets Option α

/-- Goes past blanks. -/
def skipBlanks : Read Unit := modify fun cs => cs.dropWhile fun c => c == ' ' || c == '\t'

/-- The beginning of a class of characters, as far as a bracket in it does not close it. -/
def classStart : Octets → Octets
  | '[' :: '^' :: ']' :: _ => ['[', '^', ']']
  | '[' :: ']' :: _ => ['[', ']']
  | '[' :: '^' :: _ => ['[', '^']
  | cs => cs.take 1

/-- The text up to a mark that has no backslash before it. A backslash before the mark is left out,
and one before an `n` makes a line feed of it. If there are classes, a mark in one is a character.
-/
def takeTo (mark : Char) (classes : Bool) : Nat → Bool → Octets → Option (Octets × Octets)
  | 0, _, _ => none
  | fuel + 1, inClass, cs =>
    let add (ds : Octets) (inClass : Bool) : Option (Octets × Octets) :=
      (takeTo mark classes fuel inClass (cs.drop ds.length)).map fun (text, rest) =>
        (ds ++ text, rest)
    match cs with
    | [] => none
    | '\\' :: c :: rest =>
      let put := if c = mark then [c] else if c = 'n' then ['\n'] else ['\\', c]
      (takeTo mark classes fuel inClass rest).map fun (text, rest) => (put ++ text, rest)
    | c :: rest =>
      if inClass then add [c] (c != ']')
      else if c = mark then some ([], rest)
      else if c = '\n' then none
      else if c = '[' ∧ classes then add (classStart cs) true
      else add [c] false

/-- The parts of what is put in place of a match. -/
def parts : Octets → List Part
  | [] => []
  | '\\' :: 'n' :: rest => .text ['\n'] :: parts rest
  | '\\' :: 't' :: rest => .text ['\t'] :: parts rest
  | '\\' :: c :: rest =>
    (if c.isDigit then Part.group (c.toNat - '0'.toNat) else .text [c]) :: parts rest
  | '&' :: rest => .group 0 :: parts rest
  | c :: rest => .text [c] :: parts rest

/-- What stands between a mark and its next occurrence. -/
def delimited (mark : Char) (classes : Bool) : Read Octets := do
  let cs ← get
  let (text, rest) ← (takeTo mark classes (cs.length + 1) false cs : Option _)
  set rest
  pure text

/-- A number, if there is one. -/
def number : Read (Option Nat) := do
  let ds := (← get).takeWhile Char.isDigit
  modify fun cs => cs.drop ds.length
  pure (if ds = [] then none else some (Nat.ofDigitChars 10 ds 0))

/-- An address, if there is one. -/
def address (extended : Bool) : Read (Option Address) := do
  let having (text : Octets) : Read (Option Address) := do
    let cs ← get
    let isFolded := cs.head? = some 'I'
    if isFolded then set cs.tail
    let r ← (Regex.read? extended text : Option _)
    pure (some (.having (if isFolded then r.ignoringCase else r)))
  match ← get with
  | '$' :: rest => do
    set rest
    pure (some .last)
  | '/' :: rest => do
    set rest
    having (← delimited '/' true)
  | '\\' :: mark :: rest => do
    set rest
    having (← delimited mark true)
  | '+' :: rest => do
    set rest
    pure ((← number).map .further)
  | _ => do
    match ← number, ← get with
    | some start, '~' :: rest => do
      set rest
      pure ((← number).map (.every start))
    | n, _ => pure (n.map .line)

/-- The flags of a substitution: the match that it begins with, whether it replaces all from there
on, whether it prints, and whether it takes upper and lower case for the same. -/
def flags : Nat → Nat × Bool × Bool × Bool → Read (Nat × Bool × Bool × Bool)
  | 0, found => pure found
  | fuel + 1, (nth, all, print, folded) => do
    match ← get with
    | 'g' :: rest => do
      set rest
      flags fuel (nth, true, print, folded)
    | 'p' :: rest => do
      set rest
      flags fuel (nth, all, true, folded)
    | 'I' :: rest | 'i' :: rest => do
      set rest
      flags fuel (nth, all, print, true)
    | c :: _ =>
      if c.isDigit then do flags fuel ((← number).getD 1, all, print, folded)
      else pure (nth, all, print, folded)
    | [] => pure (nth, all, print, folded)

/-- The text of a command up to the end of the line, after a backslash or not. -/
def lineText : Read Octets := do
  skipBlanks
  match ← get with
  | '\\' :: '\n' :: rest => set rest
  | '\\' :: rest => do
    set rest
    skipBlanks
  | _ => pure ()
  let cs ← get
  let text := cs.takeWhile (· ≠ '\n')
  set (cs.drop text.length)
  pure (text ++ ['\n'])

/-- A name up to the end of the command. -/
def name : Read Octets := do
  skipBlanks
  let text := (← get).takeWhile fun c => c != '\n' && c != ';' && c != '\x7d'
  modify fun cs => cs.drop text.length
  pure (text.takeWhile (· ≠ ' '))

/-- What a command does, by its letter. -/
def action (extended : Bool) (letter : Char) : Read Action := do
  match letter with
  | 's' =>
    match ← get with
    | [] => failure
    | mark :: rest =>
      set rest
      let pattern ← delimited mark true
      let cs ← get
      let (replacement, rest) ← (takeReplacement mark (cs.length + 1) cs : Option _)
      set rest
      let (nth, all, print, folded) ← flags (rest.length + 1) (1, false, false, false)
      let r ← (Regex.read? extended pattern : Option _)
      pure (.substitute (if folded then r.ignoringCase else r) (parts replacement) nth all print)
  | 'y' =>
    match ← get with
    | [] => failure
    | mark :: rest =>
      set rest
      let low ← delimited mark false
      let high ← delimited mark false
      if low.length = high.length then pure (.transliterate (low.zip high)) else failure
  | 'q' => do
    skipBlanks
    pure (.quit true ((← number).getD 0))
  | 'Q' => do
    skipBlanks
    pure (.quit false ((← number).getD 0))
  | 'p' => pure .print
  | 'P' => pure .printFirst
  | 'd' => pure .delete
  | 'D' => pure .deleteFirst
  | '=' => pure .number
  | 'n' => pure .next
  | 'N' => pure .join
  | 'h' => pure (.keep false)
  | 'H' => pure (.keep true)
  | 'g' => pure (.take false)
  | 'G' => pure (.take true)
  | 'x' => pure .exchange
  | 'i' => do pure (.insert (← lineText))
  | 'a' => do pure (.append (← lineText))
  | 'c' => do pure (.change (← lineText))
  | ':' => do pure (.label (← name))
  | 'b' => do pure (.jump (← name) false)
  | 't' => do pure (.jump (← name) true)
  | '\x7b' => pure .enter
  | '\x7d' => pure .close
  | _ => failure
where
  /-- What is put in place of a match, up to the mark. -/
  takeReplacement (mark : Char) : Nat → Octets → Option (Octets × Octets)
    | 0, _ => none
    | fuel + 1, cs =>
      let add (ds : Octets) (found : Option (Octets × Octets)) : Option (Octets × Octets) :=
        found.map fun (text, rest) => (ds ++ text, rest)
      match cs with
      | [] => none
      | '\\' :: c :: rest =>
        add (if c = mark ∧ mark ≠ '&' then [c] else ['\\', c]) (takeReplacement mark fuel rest)
      | c :: rest => if c = mark then some ([], rest) else add [c] (takeReplacement mark fuel rest)

/-- Commands up to the end of the script. -/
def commands (extended : Bool) : Nat → Read (List Command)
  | 0 => failure
  | fuel + 1 => do
    modify fun cs => cs.dropWhile fun c => c == ' ' || c == '\t' || c == '\n' || c == ';'
    match ← get with
    | [] => pure []
    | '#' :: rest => do
      set (rest.dropWhile (· ≠ '\n'))
      commands extended fuel
    | _ => do
      let start ← address extended
      skipBlanks
      let stop ← do
        match ← get with
        | ',' :: rest => do
          set rest
          skipBlanks
          address extended
        | _ => pure none
      skipBlanks
      let negated ← do
        match ← get with
        | '!' :: rest => do
          set rest
          skipBlanks
          pure true
        | _ => pure false
      match ← get with
      | [] => failure
      | letter :: rest => do
        set rest
        let action ← action extended letter
        pure ({ start, stop, negated, action } :: (← commands extended fuel))

/-- The commands of a script, in the basic or the extended notation. -/
def read? (extended : Bool) (script : Octets) : Option (List Command) :=
  ((commands extended (script.length + 1)).run script).map Prod.fst

/-! ## Carrying them out -/

/-- What there is while commands are carried out. -/
structure State where
  /-- What there is of the current line, and what is kept. -/
  space : Octets := []
  kept : Octets := []
  /-- The number of the line. -/
  line : Nat := 0
  /-- Whether the current line has a line feed. -/
  isEnded : Bool := true
  /-- What has not been read. -/
  left : Octets
  output : Octets := []
  /-- Whether the last line that was printed lacks its line feed. -/
  isOpen : Bool := false
  /-- What is printed at the end of the line. -/
  later : Octets := []
  isReplaced : Bool := false
  /-- The ranges in which the current line is, by the number of their commands, with the number of
  their last line, if that is known. -/
  ranges : List (Nat × Option Nat) := []

/-- How commands go on. -/
inductive Outcome where
  /-- With the next line. -/
  | going (s : State)
  /-- Without reading another line. -/
  | again (s : State)
  /-- They cannot before more is there to read. -/
  | stuck (s : State)
  | ended (s : State) (status : Nat)

namespace State

/-- Prints a text, on a line of its own. -/
def emit (s : State) (cs : Octets) : State :=
  if cs = [] then s
  else { s with output := s.output ++ (if s.isOpen then '\n' :: cs else cs), isOpen := false }

/-- Prints a line; the last one lacks its line feed if it was read without one. -/
def print (s : State) (cs : Octets) : State :=
  let ended := s.emit (cs ++ ['\n'])
  if s.isEnded then ended else { ended with output := ended.output.dropLast, isOpen := true }

/-- Whether there is a whole line to read, or none will come. -/
def canRead (s : State) (ended : Bool) : Bool := ended || s.left.contains '\n'

/-- The next line, and the state without it. -/
def readLine (s : State) : Octets × State :=
  let text := s.left.takeWhile (· ≠ '\n')
  (text,
    { s with
      left := s.left.drop (text.length + 1)
      line := s.line + 1
      isEnded := text.length < s.left.length })

/-- Prints what is to be printed at the end of a line. -/
def flush (s : State) : State := { s.emit s.later with later := [] }

end State

/-- Whether a line is the one that an address means. -/
def Address.means (a : Address) (s : State) : Bool :=
  match a with
  | .line n => s.line = n
  | .last => s.left.isEmpty
  | .having r => r.occursIn s.space
  | .further _ => false
  | .every start step =>
    if step = 0 then s.line = start else start ≤ s.line ∧ (s.line - start) % step = 0

/-- Whether a command is for the current line; ranges are begun and ended. -/
def selects (c : Command) (index : Nat) (s : State) : Bool × State :=
  let outside := s.ranges.filter (·.1 ≠ index)
  let (b, s) :=
    match c.start, c.stop with
    | none, _ => (true, s)
    | some start, none => (start.means s, s)
    | some start, some stop =>
      match s.ranges.lookup index with
      | some known =>
        let isLast := match known with
          | some n => decide (n ≤ s.line)
          | none => stop.means s
        (true, if isLast then { s with ranges := outside } else s)
      | none =>
        if start.means s then
          let known := match stop with
            | .line n => some n
            | .further n => some (s.line + n)
            | _ => none
          let isOnlyOne := match known with
            | some n => decide (n ≤ s.line)
            | none => false
          (true, if isOnlyOne then s else { s with ranges := (index, known) :: s.ranges })
        else (false, s)
  (b != c.negated, s)

/-- What is put in place of a match. -/
def fillParts (m : Regex.Match) (ps : List Part) : Octets :=
  ps.flatMap fun
    | .text cs => cs
    | .group 0 => m.text
    | .group n => (m.groups.lookup n).getD []

/-- Replaces matches in what follows a character, or nothing; `seen` of them are passed over, and
whether some was replaced is told. An empty match right after another one does not count. -/
def substituteFrom (r : Regex) (ps : List Part) (all : Bool) :
    Nat → Nat → Option Char → Bool → Octets → Octets × Bool
  | 0, _, _, _, cs => (cs, false)
  | fuel + 1, seen, before, isAfter, cs =>
    match r.find? before cs with
    | none => (cs, false)
    | some m =>
      let isVoid := m.text.isEmpty && isAfter && m.skipped.isEmpty
      let counted := if isVoid then seen else seen - 1
      let isReplaced := !isVoid && seen ≤ 1
      let put := m.skipped ++ if isReplaced then fillParts m ps else m.text
      if isReplaced && !all then (put ++ m.rest, true)
      else
        match m.text, m.rest with
        | [], [] => (put, isReplaced)
        | [], c :: rest =>
          let (more, b) := substituteFrom r ps all fuel counted (some c) false rest
          (put ++ c :: more, isReplaced || b)
        | text, rest =>
          let (more, b) := substituteFrom r ps all fuel counted text.getLast? true rest
          (put ++ more, isReplaced || b)

/-- The commands after those that belong to the one before them. -/
def afterBlock : Nat → List (Nat × Command) → List (Nat × Command)
  | _, [] => []
  | depth, (_, c) :: rest =>
    match c.action with
    | .enter => afterBlock (depth + 1) rest
    | .close => if depth = 0 then rest else afterBlock (depth - 1) rest
    | _ => afterBlock depth rest

/-- The commands after a label. -/
def afterLabel (name : Octets) : List (Nat × Command) → List (Nat × Command)
  | [] => []
  | (_, c) :: rest =>
    match c.action with
    | .label n => if n = name then rest else afterLabel name rest
    | _ => afterLabel name rest

/-- Carries out commands on what there is. -/
def carryOut (quiet ended : Bool) (program : List (Nat × Command)) :
    Nat → List (Nat × Command) → State → Outcome
  | 0, _, s => .ended s 1
  | _, [], s => .going ((if quiet then s else s.print s.space).flush)
  | fuel + 1, (index, c) :: rest, s =>
    let go := carryOut quiet ended program fuel
    let (isSelected, s) := selects c index s
    let printed (s : State) : State := if quiet then s else s.print s.space
    if !isSelected then
      match c.action with
      | .enter => go (afterBlock 0 rest) s
      | _ => go rest s
    else
      match c.action with
      | .substitute r ps nth all print =>
        let (space, isReplaced) :=
          substituteFrom r ps all (s.space.length + 2) nth none false s.space
        let s := { s with space, isReplaced := s.isReplaced || isReplaced }
        go rest (if isReplaced && print then s.print space else s)
      | .transliterate map => go rest { s with space := s.space.map fun c => (map.lookup c).getD c }
      | .print => go rest (s.print s.space)
      | .printFirst => go rest (s.print (s.space.takeWhile (· ≠ '\n')))
      | .delete => .going s.flush
      | .deleteFirst =>
        if s.space.contains '\n' then
          .again ({ s with space := (s.space.dropWhile (· ≠ '\n')).tail }.flush)
        else .going s.flush
      | .number => go rest (s.emit (Octets.ofInt s.line ++ ['\n']))
      | .quit print status => .ended ((if print then printed s else s).flush) status
      | .next =>
        if s.left.isEmpty && ended then .ended ((printed s).flush) 0
        else if !s.canRead ended then .stuck s
        else
          let (space, s) := (printed s).flush.readLine
          go rest { s with space }
      | .join =>
        if s.left.isEmpty && ended then .ended ((printed s).flush) 0
        else if !s.canRead ended then .stuck s
        else
          let (more, s) := s.flush.readLine
          go rest { s with space := s.space ++ '\n' :: more }
      | .insert cs => go rest (s.emit cs)
      | .append cs => go rest { s with later := s.later ++ cs }
      | .change cs =>
        let isInside := (s.ranges.lookup index).isSome && !c.negated
        .going (if isInside then s else s.emit cs).flush
      | .keep after =>
        go rest { s with kept := if after then s.kept ++ '\n' :: s.space else s.space }
      | .take after =>
        go rest { s with space := if after then s.space ++ '\n' :: s.kept else s.kept }
      | .exchange => go rest { s with space := s.kept, kept := s.space }
      | .label _ | .enter | .close => go rest s
      | .jump name ifReplaced =>
        if ifReplaced && !s.isReplaced then go rest s
        else
          let s := if ifReplaced then { s with isReplaced := false } else s
          go (if name = [] then [] else afterLabel name program) s

/-- Carries out commands on the lines that are there, one after the other. -/
def runLines (quiet ended usesLast : Bool) (program : List (Nat × Command)) :
    Nat → Bool → State → Octets × Option Nat
  | 0, _, s => (s.output, some 1)
  | fuel + 1, reads, s =>
    let isNext := !s.left.isEmpty && s.canRead ended
    let after := s.left.dropWhile (· ≠ '\n')
    if reads && s.left.isEmpty && ended then (s.output, some 0)
    else if reads && !isNext then (s.output, none)
    else if reads && usesLast && !ended && after.length ≤ 1 then (s.output, none)
    else
      let (space, s) := if reads then s.readLine else (s.space, s)
      let fuelOfLine := 10000 + program.length
      let isReplaced := s.isReplaced && !reads
      match carryOut quiet ended program fuelOfLine program { s with space, isReplaced } with
      | .going s => runLines quiet ended usesLast program fuel true s
      | .again s => runLines quiet ended usesLast program fuel false s
      | .stuck _ => (s.output, none)
      | .ended s status => (s.output, some status)

/-- Whether a command asks for the last line. -/
def asksForLast (c : Command) : Bool :=
  match c.start, c.stop with
  | some .last, _ | _, some .last => true
  | _, _ => false

/-- What the commands write for a text, which may not have ended, and how they come out if they are
at an end. -/
def run (quiet : Bool) (program : List Command) (cs : Octets) (ended : Bool) :
    Octets × Option Nat :=
  let numbered := program.zipIdx.map fun (c, n) => (n, c)
  runLines quiet ended (program.any asksForLast) numbered (2 * cs.length + 2) true { left := cs }

end PipeCall.Counterparty.Editor
