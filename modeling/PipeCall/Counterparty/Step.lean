import PipeCall.Counterparty.Builtin

/-!
# Steps

What a task does next. `Turn.perform` does what its first frame says; a command is taken apart into
frames that do its parts. `Turn.step` also looks at signals and at the end of the task.
-/

namespace PipeCall.Counterparty.Turn

open Builtin

/-! ## Redirections -/

/-- The directory that a path is in. -/
def folderOf (path : Octets) : Octets :=
  let name := (path.reverse.takeWhile (· ≠ '/')).reverse
  if name.length = path.length then ['.'] else path.take (path.length - name.length)

/-- Where a stream leads that is redirected to a path, or a complaint. -/
def destination (u : Turn) (direction : Direction) (path : Octets) : Except Octets Endpoint :=
  let refused (verb reason : String) : Octets :=
    "cannot ".toList ++ verb.toList ++ ' ' :: path ++ ": ".toList ++ reason.toList
  if path = [] ∧ direction ≠ .read then .error (refused "create" "Directory nonexistent") else
  match direction, u.openPath path with
  | _, .ok e => .ok e
  | .read, .error .tooLong => .error (refused "open" "File name too long")
  | .read, .error .forbidden => .ok .null
  | .read, .error _ => .error (refused "open" "No such file")
  | _, .error .forbidden => .error (refused "create" "Is a directory")
  | _, .error .tooLong => .error (refused "create" "File name too long")
  | _, .error _ =>
    match Place.resolve (folderOf path) with
    | .ok (.directory _) => .ok .null
    | _ => .error (refused "create" "Directory nonexistent")

/-- The complaint about a stream that is no number of one digit. -/
def badNumber : Octets := "Syntax error: Bad fd number".toList

/-- Redirects a stream to what an operand says, or complains; whether that ends the task. -/
def redirectOne (u : Turn) (r : Redirection) (operand : Octets) : Except (Octets × Bool) Turn :=
  let lead (u : Turn) (e : Endpoint) : Turn :=
    u.alter fun t => { t with streams := t.streams.put r.stream e }
  match r.direction with
  | .duplicate =>
    if operand = ['-'] then
      .ok (u.alter fun t => { t with streams := t.streams.close r.stream })
    else
      match Numeral.decimal? operand with
      | none => .error (badNumber, true)
      | some n =>
        match u.task.streams.at? n with
        | some e => .ok (lead u e)
        | none =>
          if 9 < n then .error (badNumber, true)
          else .error (operand ++ ": Bad file descriptor".toList, false)
  | .text =>
    let (u, pipe) := u.newPipe operand
    .ok (lead u (.taking pipe))
  | direction =>
    match u.destination direction operand with
    | .ok e => .ok (lead u e)
    | .error complaint => .error (complaint, false)

/-- Redirects streams; whether that was possible. -/
def redirect (u : Turn) : List Redirection → Turn × Bool
  | [] => (u, true)
  | r :: rs =>
    match (Expansion.text r.operand).run u.task with
    | .error complaint => (u.giveUp complaint, false)
    | .ok (operand, task) =>
      match redirectOne { u with task } r operand with
      | .ok u => redirect u rs
      | .error (complaint, true) => (u.giveUp complaint, false)
      | .error (complaint, false) => (u.complain complaint, false)

/-! ## Assignments -/

/-- Makes assignments, one after the other, or complains. -/
def assign (u : Turn) : List (Octets × Word) → Except Octets Turn
  | [] => .ok u
  | (name, w) :: rest =>
    match (Expansion.text w).run u.task with
    | .error complaint => .error complaint
    | .ok (value, task) =>
      if task.constants.contains name then .error (name ++ ": is read only".toList)
      else assign { u with task := task.bind name (some value) } rest

/-! ## Programs -/

/-- The variables that a program started by a task gets to know. -/
def environmentOf (t : Task) (name : Octets) : Option Octets :=
  match t.bindings.lookup name with
  | some value => if t.exported.contains name || (t.environment name).isSome then value else none
  | none => t.environment name

/-- The options of a shell, whether its script is an argument, and the other arguments. -/
def shellOptions : Nat → List Char → List Octets → Except Octets (List Char × List Octets)
  | 0, letters, words => .ok (letters, words)
  | fuel + 1, letters, words =>
    match words with
    | ['-', '-'] :: rest => .ok (letters, rest)
    | ['-', 'o'] :: name :: rest =>
      match optionLetter? name with
      | some c => shellOptions fuel (letters ++ [c]) rest
      | none => .error ("Illegal option -o ".toList ++ name)
    | ('-' :: c :: more) :: rest =>
      match (c :: more).find? fun c => c ≠ 'c' ∧ c ≠ 'l' ∧ !optionLetters.contains c with
      | some c => .error ("Illegal option -".toList ++ [c])
      | none => shellOptions fuel (letters ++ c :: more) rest
    | words => .ok (letters, words)

/-- Becomes a shell. -/
def becomeShell (u : Turn) (words : List Octets) : Turn :=
  let own := words.headD []
  let start (name : Octets) (args : List Octets) (options : List Char) (frame : Frame) : Turn :=
    u.alter fun t => { t with name, args, options, within := [], shell := t.id, frames := [frame] }
  let refuse (complaint : Octets) : Turn :=
    (u.report (own ++ ": 0: ".toList ++ complaint ++ ['\n'])).exit 2
  match shellOptions words.length [] words.tail with
  | .error complaint => refuse complaint
  | .ok (letters, rest) =>
    let options := letters.filter fun c => c ≠ 'c' ∧ c ≠ 'l'
    match rest with
    | script :: more =>
      if letters.contains 'c' then
        start (more.headD own) more.tail options (.script { text := script })
      else if letters.contains 's' then start own rest options (.sentScript { text := [] })
      else
        match u.openPath script with
        | .ok _ => start script more options (.script { text := [] })
        | .error _ => refuse ("cannot open ".toList ++ script ++ ": No such file".toList)
    | [] =>
      if letters.contains 'c' then refuse "-c requires an argument".toList
      else start own [] options (.sentScript { text := [] })

/-- Changes what a program gets to know, and becomes another one. -/
def becomeChanged (u : Turn) : Nat → List Octets → Turn
  | 0, _ => u.stop 0
  | fuel + 1, words =>
    match words with
    | [] => u.stop 0
    | ['-', 'i'] :: rest | ['-'] :: rest =>
      becomeChanged (u.alter fun t => { t with environment := fun _ => none }) fuel rest
    | ['-', 'u'] :: name :: rest =>
      let known := u.task.environment
      let environment (n : Octets) : Option Octets := if n = name then none else known n
      becomeChanged (u.alter fun t => { t with environment }) fuel rest
    | w :: rest =>
      match Octets.assignment? w with
      | some (name, value) =>
        let known := u.task.environment
        let environment (n : Octets) : Option Octets := if n = name then some value else known n
        becomeChanged (u.alter fun t => { t with environment }) fuel rest
      | none =>
        match u.find w with
        | .ok program => u.push [.program program words]
        | .error .forbidden =>
          (u.report ("env: '".toList ++ w ++ "': Permission denied\n".toList)).exit 126
        | .error _ =>
          (u.report ("env: '".toList ++ w ++ "': No such file or directory\n".toList)).exit 127

/-- Becomes a program, which begins with the first of its words. -/
def become (u : Turn) (program : String) (words : List Octets) : Turn :=
  let u := u.alter fun t =>
    { t with
      frames := []
      environment := environmentOf t
      bindings := []
      exported := []
      constants := []
      functions := []
      traps := t.traps.filter (·.2 = [])
      options := []
      lastStarted := none
      line := 1
      status := 0
      escapes := program != "bash" }
  if ["sh", "dash", "bash"].contains program then u.becomeShell words
  else if program = "env" then u.becomeChanged words.length words.tail
  else if ["nice", "nohup", "setsid", "stdbuf"].contains program then
    u.becomeChanged words.length (words.tail.dropWhile fun w => w.head? = some '-')
  else u.start program words.tail

/-- Whether a task has nothing more to do than to give back what it changed. -/
def isLast (t : Task) : Bool :=
  t.traps.all (·.2 = []) &&
    t.frames.all fun
      | .restore _ | .undo _ | .verify => true
      | .script s => s.text.all Glyph.isBlank
      | _ => false

/-- Runs a command by its words: a function, a command of the shell, or a program. -/
def invoke (u : Turn) (words : List Octets) (functions : Bool) : Turn :=
  let name := words.headD []
  match if functions then u.task.functions.lookup name else none with
  | some body =>
    let args := u.task.args
    (u.alter fun t => { t with args := words.tail }).push
      [.command body none, .leave args []]
  | none =>
    if isBuiltin name then u.push [.builtin (String.ofList name) words.tail]
    else
      match u.find name with
      | .error fault =>
        let (complaint, status) := notFound name fault
        u.failing complaint status
      | .ok program =>
        if isLast u.task then u.become program words
        else
          let (u, id) := u.fork [.program program words] u.task.streams
          u.push [.await id]

/-! ## Commands -/

/-- Shows what a command does, if that is wanted. -/
def trace (u : Turn) (names : List Octets) (fields : List Octets) : Turn :=
  let assigned := names.map fun name => name ++ '=' :: (u.task.value? name).getD []
  let words := assigned ++ fields
  if u.task.hasOption 'x' ∧ words ≠ [] then
    u.report (['+', ' '] ++ Octets.join [' '] words ++ ['\n'])
  else u

/-- Does with its fields what a simple command says. -/
def simple (u : Turn) (assignments : List (Octets × Word)) (fields : List Octets)
    (redirections : List Redirection) (filled : Option Nat) : Turn :=
  let streams := u.task.streams
  let name := fields.headD []
  let isFunction := (u.task.functions.lookup name).isSome
  let isFirm := fields ≠ [] ∧ isSpecial name ∧ !isFunction
  let (redirected, isDone) := u.redirect redirections
  let names := assignments.map Prod.fst
  let back (u : Turn) : Turn := u.alter fun t => { t with streams }
  if !isDone then
    if isFirm then redirected.exit 2 else ((back redirected).leaving 2).push [.verify]
  else if fields = [] then
    match (back redirected).assign assignments with
    | .error complaint => (back redirected).giveUp complaint
    | .ok v => ((v.trace names []).leaving (filled.getD 0)).push [.verify]
  else
    let saved := u.task.saving names
    match redirected.assign assignments with
    | .error complaint => (back redirected).giveUp complaint
    | .ok v =>
      let own := v.task.streams
      let v := ((back v).trace names fields).alter fun t => { t with streams := own }
      let isKept := redirections.isEmpty || fields == ["exec".toList]
      let after := (if isFirm ∨ names.isEmpty then [] else [Frame.undo saved]) ++
        (if isKept then [] else [.restore streams]) ++ [.verify]
      (v.alter fun t => { t with exported := names ++ t.exported }).push
        (.invoke fields true :: after)

/-- Starts a task for each stage of a pipeline. The first one reads what `before` leads to. -/
def startStages (u : Turn) (before : Option Endpoint) : List Command → Turn × List Nat
  | [] => (u, [])
  | c :: rest =>
    let inherited := u.task.streams
    let reading := match before with
      | some e => inherited.put 0 e
      | none => inherited
    if rest.isEmpty then
      let (u, id) := u.fork [.command c none] reading
      (u, [id])
    else
      let (u, pipe) := u.newPipe []
      let (u, id) := u.fork [.command c none] (reading.put 1 (.giving pipe))
      let (u, ids) := startStages u (some (.taking pipe)) rest
      (u, id :: ids)

/-- The first arm of a choice of which a pattern matches a text. -/
def choose (u : Turn) (cs : Octets) :
    List (List Word × Command) → Except Octets (Turn × Option Command)
  | [] => .ok (u, none)
  | ([], _) :: arms => choose u cs arms
  | (w :: ws, c) :: arms =>
    match (Expansion.pattern w).run u.task with
    | .error complaint => .error complaint
    | .ok (pattern, task) =>
      if pattern.matchesAll cs then .ok ({ u with task }, some c)
      else choose { u with task } cs ((ws, c) :: arms)
  termination_by arms => (arms.map fun arm => arm.1.length + 1).foldr (· + ·) 0

/-- Does what a command says, of which all output is there that its words need. -/
def execute (u : Turn) (c : Command) (filled : Option Nat) : Turn :=
  let run (c : Command) : Frame := .command c none
  match c with
  | .simple line assignments words redirections =>
    let u := u.alter fun t => { t with line }
    match (Expansion.allFields words).run u.task with
    | .error complaint => u.giveUp complaint
    | .ok (fields, task) =>
      { u with task }.simple assignments fields redirections filled
  | .sequence [] => u.leaving 0
  | .sequence commands => u.push (commands.map run)
  | .pipeline stages =>
    let (u, ids) := u.startStages none stages
    u.push [.awaitAll ids 0, .verify]
  | .negated c => u.push [run c, .negate]
  | .both first second => u.push [run first, .onSuccess second]
  | .either first second => u.push [run first, .onFailure second]
  | .background c =>
    let (u, id) := u.fork [run c] (u.task.streams.put 0 .null)
    (u.alter fun t => { t with lastStarted := some id }).leaving 0
  | .subshell c =>
    if isLast u.task then u.push [run c]
    else
      let (u, id) := u.fork [run c] u.task.streams
      u.push [.await id, .verify]
  | .branch condition yes no => u.push [run condition, .choose yes no]
  | .loop inverted condition body => u.push [run condition, .decide inverted condition body 0]
  | .each line name words body =>
    let u := u.alter fun t => { t with line }
    match words with
    | none => (if u.task.args.isEmpty then u.leaving 0 else u).push [.each name u.task.args body]
    | some words =>
      match (Expansion.allFields words).run u.task with
      | .error complaint => u.giveUp complaint
      | .ok (values, task) =>
        let u := { u with task }
        (if values.isEmpty then u.leaving 0 else u).push [.each name values body]
  | .choice line word arms =>
    let u := u.alter fun t => { t with line }
    match (Expansion.text word).run u.task with
    | .error complaint => u.giveUp complaint
    | .ok (cs, task) =>
      match choose { u with task } cs arms with
      | .error complaint => u.giveUp complaint
      | .ok (u, some c) => u.push [run c]
      | .ok (u, none) => u.leaving 0
  | .define name body =>
    u.alter fun t =>
      { t with functions := (name, body) :: t.functions.filter (·.1 ≠ name), status := 0 }
  | .redirected c redirections =>
    let streams := u.task.streams
    match u.redirect redirections with
    | (v, true) => v.push [run c, .restore streams]
    | (v, false) => (v.alter fun t => { t with streams, status := 2 }).push [.verify]

/-- Expands the words of a command before the first one that needs an output, and goes on with the
command; or complains. -/
def expandFirst (u : Turn) (c : Command) (next : Turn → Command → Turn) : Turn :=
  match c with
  | .simple line assignments words redirections =>
    let u := u.alter fun t => { t with line }
    let ready := words.takeWhile fun w => (pendingIn? w).isNone
    match (Expansion.allFields ready).run u.task with
    | .error complaint => u.giveUp complaint
    | .ok (fields, task) =>
      let expanded := fields.map fun cs => [Piece.text true cs]
      next { u with task }
        (.simple line assignments (expanded ++ words.drop ready.length) redirections)
  | c => next u c

/-! ## Frames -/

/-- Runs the next line of a script. -/
def readScript (u : Turn) (s : Source) : Turn :=
  match Source.line?.run s with
  | .error fault =>
    (u.alter fun t => { t with line := fault.line }).giveUp
      ("Syntax error: ".toList ++ fault.message.toList)
  | .ok (none, _) => u
  | .ok (some c, rest) => u.push [.command c none, .script rest]

/-- Runs the next line of a script that is sent, if it is there. -/
def readSentScript (u : Turn) (s : Source) : Turn :=
  let go : Turn :=
    match Source.line?.run s with
    | .ok (some c, rest) => u.push [.command c none, .sentScript rest]
    | _ => u.readScript s
  let isWhole : Bool :=
    match Source.line?.run s with
    | .ok (some _, _) => s.text.contains '\n'
    | _ => false
  if isWhole then go
  else
    match u.look 0 with
    | .octets cs =>
      (u.consume 0 cs.length).push [.sentScript { s with text := s.text ++ cs }]
    | .nothing => u.waitingForData 0 (.sentScript s)
    | .ended | .refused => go

/-- Collects what a task writes, and goes on with a command when the task is over. -/
def collect (u : Turn) (id pipe : Nat) (seen : Octets) (c : Command) : Turn :=
  let later (seen : Octets) : Frame := .collect id pipe seen c
  match u.process.look u.isHeld (some (.taking pipe)) with
  | .octets cs => { u with process := u.process.fill pipe [] }.push [later (seen ++ cs)]
  | .nothing => u.waiting (.data (.taking pipe)) (later seen)
  | _ =>
    if u.process.isOver id then
      let (u, status, _) := u.bury id
      u.push [.command (c.fill seen) (some status)]
    else u.waiting (.task id) (later seen)

/-- Does what a frame says. -/
def perform (u : Turn) (f : Frame) : Turn :=
  let run (c : Command) : Frame := .command c none
  match f with
  | .script s => u.readScript s
  | .sentScript s => u.readSentScript s
  | .command c filled =>
    let c := if filled.isNone then c.needed u.task.wants else c
    match c.pending? with
    | none => u.execute c filled
    | some (line, text) =>
      u.expandFirst c fun u c =>
        let (u, pipe) := u.newPipe []
        let (u, id) := u.fork [.script { text, line }] (u.task.streams.put 1 (.giving pipe))
        u.push [.collect id pipe [] c]
  | .builtin name args => u.builtin name args
  | .reading raw names seen => u.readLine raw names seen
  | .invoke words functions => u.invoke words functions
  | .program name words => u.become name words
  | .utility utility => u.work utility
  | .onSuccess c => if u.task.status = 0 then u.push [run c] else u
  | .onFailure c => if u.task.status = 0 then u else u.push [run c]
  | .negate => u.leaving (if u.task.status = 0 then 1 else 0)
  | .choose yes no => u.push [run (if u.task.status = 0 then yes else no)]
  | .decide inverted condition body last =>
    if (u.task.status == 0) != inverted then
      u.push [run body, .again inverted condition body]
    else u.leaving last
  | .again inverted condition body =>
    u.push [run condition, .decide inverted condition body u.task.status]
  | .each _ [] _ => u
  | .each name (value :: values) body =>
    (u.alter (·.bind name (some value))).push [run body, .each name values body]
  | .restore streams => u.alter fun t => { t with streams }
  | .undo saved => u.alter (·.undo saved)
  | .leave args saved => u.alter fun t => { t.undo saved with args }
  | .await id =>
    if u.process.isOver id then
      let (u, status, signal) := u.bury id
      match signal with
      | some signal => (u.report (obituary signal)).leaving status
      | none => u.leaving status
    else u.waiting (.task id) f
  | .awaitAll [] last => u.leaving last
  | .awaitAll (id :: ids) _ =>
    if u.process.isOver id then
      let (u, status, _) := u.bury id
      u.push [.awaitAll ids status]
    else u.waiting (.task id) f
  | .collect id pipe seen c => u.collect id pipe seen c
  | .verify =>
    if u.task.status ≠ 0 ∧ u.task.hasOption 'e' ∧ !u.task.isChecked then u.exit u.task.status
    else u
  | .outside within => u.alter fun t => { t with within }
  | .leaving status => u.leaving status
  | .quit status => u.stop status

/-- What a task does with nothing left to do: what it was told to do at its end, and then it ends.
-/
def conclude (u : Turn) : Turn :=
  let t := u.task
  match t.traps.lookup "EXIT" with
  | none | some [] => u.stop t.status
  | some text =>
    { u with task := { t with traps := t.traps.filter (·.1 ≠ "EXIT") } }.push
      [.script { text }, .quit t.status]

/-- Does something for a signal first, and otherwise the next thing that is left to do. -/
def step (u : Turn) : Turn :=
  let t := { u.task with wait := .none }
  match t.signals, t.frames with
  | signal :: signals, _ =>
    let text := (t.traps.lookup signal).getD []
    { u with task := { t with signals } }.push
      [.script { text }, .leaving t.status]
  | [], [] => { u with task := t }.conclude
  | [], f :: frames => { u with task := { t with frames } }.perform f

end PipeCall.Counterparty.Turn
