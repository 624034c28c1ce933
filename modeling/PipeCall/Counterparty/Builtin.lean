import PipeCall.Counterparty.Expansion
import PipeCall.Counterparty.Utility

/-!
# Commands of the shell itself

The commands that are no programs, because they change the task that runs them or read a line and no
more. `Turn.builtin` runs one. A complaint of one of the special ones ends the task.
-/

namespace PipeCall.Counterparty

namespace Builtin

/-- The commands whose complaints end the task, and which keep the assignments before them. -/
def special : List String :=
  [":", ".", "break", "continue", "eval", "exec", "exit", "export", "readonly", "return", "set",
    "shift", "times", "trap", "unset"]

/-- The other commands. -/
def regular : List String :=
  ["[", "alias", "bg", "cd", "command", "echo", "false", "fg", "getopts", "hash", "jobs", "kill",
    "local", "printf", "pwd", "read", "test", "true", "type", "ulimit", "umask", "unalias", "wait"]

/-- Whether a word is the name of one of the special commands. -/
def isSpecial (w : Octets) : Bool := Condition.isAmong special w

/-- Whether a word is the name of a command of the shell. -/
def isBuiltin (w : Octets) : Bool := isSpecial w || Condition.isAmong regular w

/-- The signals, with their numbers. -/
def signals : List (String × Nat) :=
  [("HUP", 1), ("INT", 2), ("QUIT", 3), ("ILL", 4), ("TRAP", 5), ("ABRT", 6), ("BUS", 7),
    ("FPE", 8), ("KILL", 9), ("USR1", 10), ("SEGV", 11), ("USR2", 12), ("PIPE", 13), ("ALRM", 14),
    ("TERM", 15), ("CHLD", 17), ("CONT", 18), ("URG", 23), ("WINCH", 28)]

/-- The signal that a name or a number means; zero is none, and is what happens at the end. -/
def signal? (w : Octets) : Option (String × Nat) :=
  match Numeral.decimal? w with
  | some 0 => some ("EXIT", 0)
  | some n => signals.find? (·.2 = n)
  | none =>
    if w = "EXIT".toList then some ("EXIT", 0)
    else signals.find? fun s => s.1.toList = w.map Char.toUpper

/-- What is said of a task that a signal has ended. -/
def obituary (signal : String) : Octets :=
  match signal with
  | "HUP" => "Hangup\n".toList
  | "QUIT" => "Quit\n".toList
  | "ILL" => "Illegal instruction\n".toList
  | "TRAP" => "Trace/breakpoint trap\n".toList
  | "ABRT" => "Aborted\n".toList
  | "BUS" => "Bus error\n".toList
  | "FPE" => "Floating point exception\n".toList
  | "KILL" => "Killed\n".toList
  | "USR1" => "User defined signal 1\n".toList
  | "SEGV" => "Segmentation fault\n".toList
  | "USR2" => "User defined signal 2\n".toList
  | "ALRM" => "Alarm clock\n".toList
  | "TERM" => "Terminated\n".toList
  | _ => []

/-- The letter of an option that has a name. -/
def optionLetter? (name : Octets) : Option Char :=
  match String.ofList name with
  | "errexit" => some 'e'
  | "nounset" => some 'u'
  | "xtrace" => some 'x'
  | "noglob" => some 'f'
  | "verbose" => some 'v'
  | "noexec" => some 'n'
  | "noclobber" => some 'C'
  | "allexport" => some 'a'
  | "notify" => some 'b'
  | "monitor" => some 'm'
  | _ => none

/-- The letters of options. -/
def optionLetters : List Char := "efIimnsxvVECabu".toList

/-- The word that is not an option, and those after it; without the mark that ends options. -/
def operands (args : List Octets) : List Octets :=
  match args with
  | ['-', '-'] :: rest => rest
  | args => args

/-! ## Lines -/

/-- The glyphs of the line at the beginning of a text, how many octets it takes, and whether it is
whole. Unless it is raw, a backslash quotes what follows. -/
def scanLine (raw : Bool) : Glyphs → Nat → Octets → Glyphs × Nat × Bool
  | seen, n, [] => (seen.reverse, n, false)
  | seen, n, '\n' :: _ => (seen.reverse, n + 1, true)
  | seen, n, c :: rest =>
    if c = '\\' ∧ !raw then
      match rest with
      | [] => (seen.reverse, n, false)
      | '\n' :: rest => scanLine raw seen (n + 2) rest
      | d :: rest => scanLine raw (.char d .quoted :: seen) (n + 2) rest
    else scanLine raw (if c = '\x00' then seen else .char c .value :: seen) (n + 1) rest

/-- Whether a glyph is a separator that is, or is not, a blank. -/
def isSeparator (separators : Octets) (blank : Bool) : Glyph → Bool
  | .char c .value => separators.contains c && Glyph.isBlank c == blank
  | _ => false

/-- Gives each variable a field of a line, and the last one all that is left. -/
def assignFields (separators : Octets) : List Octets → Glyphs → Task → Task
  | [], _, t => t
  | name :: names, gs, t =>
    let isBlank := isSeparator separators true
    let isMark := isSeparator separators false
    let gs := gs.dropWhile isBlank
    let field := gs.takeWhile fun g => !isBlank g && !isMark g
    let rest := (gs.drop field.length).dropWhile isBlank
    let rest := match rest with
      | g :: more => if isMark g then more.dropWhile isBlank else rest
      | [] => []
    if names.isEmpty then
      let all := (gs.reverse.dropWhile isBlank).reverse
      t.bind name (some (Glyph.toOctets [] (if rest.isEmpty then field else all)))
    else assignFields separators names rest (t.bind name (some (Glyph.toOctets [] field)))

/-! ## Loops and functions -/

/-- Whether a frame goes on with a loop. -/
def isLoop : Frame → Bool
  | .again _ _ _ | .decide _ _ _ _ | .each _ _ _ => true
  | _ => false

/-- Whether a frame is the end of a function. -/
def isLeave : Frame → Bool
  | .leave _ _ => true
  | _ => false

/-- Gives back what frames would give back that are left out. -/
def discard (t : Task) : List Frame → Task
  | [] => t
  | .restore streams :: rest => discard { t with streams } rest
  | .undo saved :: rest => discard (t.undo saved) rest
  | .outside within :: rest => discard { t with within } rest
  | _ :: rest => discard t rest

/-- The frames from the end of the `n`th loop on. -/
def toLoop : Nat → List Frame → List Frame
  | n, f :: rest =>
    if !isLoop f then toLoop n rest
    else if n ≤ 1 then f :: rest
    else toLoop (n - 1) rest
  | _, [] => []

/-- Leaves loops, and goes on with the last one or not. -/
def leaveLoops (t : Task) (n : Nat) (again : Bool) : Task :=
  let count := (t.frames.takeWhile (!isLeave ·)).countP isLoop
  if count = 0 then t
  else
    let left := toLoop (min n count) t.frames
    let t := discard t (t.frames.take (t.frames.length - left.length))
    let frames := match left with
      | .decide inverted condition body _ :: rest =>
        if again then .again inverted condition body :: rest else rest
      | f :: rest => if again then f :: rest else rest
      | [] => []
    { t with frames }

/-- Leaves a function, or else the script. -/
def leaveFunction (t : Task) (status : Nat) : Task :=
  let inside := t.frames.takeWhile (!isLeave ·)
  if inside.length = t.frames.length then t.exit status
  else { discard t inside with frames := t.frames.drop inside.length, status }

/-- Keeps what variables are for the end of the function; none outside of functions. -/
def keepForFunction (t : Task) (names : List Octets) : Option Task :=
  let inside := t.frames.takeWhile (!isLeave ·)
  match t.frames.drop inside.length with
  | .leave args saved :: rest =>
    let fresh := t.saving (names.filter fun name => !saved.any (·.1 = name))
    some { t with frames := inside ++ .leave args (saved ++ fresh) :: rest }
  | _ => none

end Builtin

namespace Turn

open Builtin

/-- Complains in the name of a command. -/
def refuse (u : Turn) (name : String) (complaint : Octets) (status : Nat) : Turn :=
  let u := u.complainAs name.toList complaint
  if special.contains name then u.exit status else u.leaving status

/-- Writes for a command, and leaves a status. -/
def say (u : Turn) (name : String) (cs : Octets) (status : Nat) : Turn :=
  match u.write 1 cs with
  | (v, true) => v.leaving status
  | (v, false) =>
    if v.task.ended.isSome then v
    else (v.complainAs name.toList (name.toList ++ ": I/O error".toList)).leaving 1

/-- Reads a line, or what there is of it. -/
def readLine (u : Turn) (raw : Bool) (names : List Octets) (seen : Octets) : Turn :=
  let keep (u : Turn) (gs : Glyphs) (status : Nat) : Turn :=
    (u.alter fun t => assignFields t.separators names gs t).leaving status
  match u.look 0 with
  | .octets cs =>
    let (gs, n, isWhole) := scanLine raw [] 0 (seen ++ cs)
    if isWhole then keep (u.consume 0 (n - seen.length)) gs 0
    else (u.consume 0 cs.length).push [.reading raw names (seen ++ cs)]
  | .nothing => u.waitingForData 0 (.reading raw names seen)
  | .ended | .refused =>
    let (gs, _, _) := scanLine raw [] 0 seen
    keep u gs 1

/-- Sets options by their letters, or complains. -/
def setOptions (u : Turn) (on : Bool) (letters : List Char) : Turn :=
  match letters.find? (!optionLetters.contains ·) with
  | some c => u.refuse "set" ("Illegal option -".toList ++ [c]) 2
  | none =>
    u.alter fun t =>
      let others := t.options.filter (!letters.contains ·)
      { t with options := if on then others ++ letters else others, status := 0 }

/-- Sets options and arguments. -/
def set (u : Turn) : Nat → List Octets → Turn
  | 0, _ => u
  | fuel + 1, words =>
    let named (on : Bool) (name : Octets) (rest : List Octets) : Turn :=
      match optionLetter? name with
      | some c => set (u.setOptions on [c]) fuel rest
      | none => u.refuse "set" ("Illegal option -o ".toList ++ name) 2
    let signed (on : Bool) (letters : List Char) (rest : List Octets) : Turn :=
      if letters.all optionLetters.contains then set (u.setOptions on letters) fuel rest
      else u.setOptions on letters
    match words with
    | [] => u.leaving 0
    | ['-', '-'] :: rest => u.alter fun t => { t with args := rest, status := 0 }
    | ['-'] :: rest =>
      let u := u.setOptions false ['x', 'v']
      if rest.isEmpty then u else u.alter fun t => { t with args := rest }
    | ['-', 'o'] :: name :: rest => named true name rest
    | ['+', 'o'] :: name :: rest => named false name rest
    | ('-' :: c :: letters) :: rest => signed true (c :: letters) rest
    | ('+' :: c :: letters) :: rest => signed false (c :: letters) rest
    | words => u.alter fun t => { t with args := words, status := 0 }

/-- The name that an assignment is for. -/
def nameOf (w : Octets) : Octets := w.takeWhile (· ≠ '=')

/-- Gives variables the values of assignments, and does something with every name; unless one of
them is to keep its value. -/
def declare (u : Turn) (command : String) (words : List Octets) (change : Task → Octets → Task) :
    Turn :=
  match words.find? fun w => nameOf w ≠ w ∧ u.task.constants.contains (nameOf w) with
  | some w => u.refuse command (nameOf w ++ ": is read only".toList) 2
  | none =>
    u.alter fun t =>
      words.foldl
        (fun t w =>
          match Octets.assignment? w with
          | some (name, value) => change (t.bind name (some value)) name
          | none => change t w)
        { t with status := 0 }

/-- Says what is done at signals. -/
def trap (u : Turn) (args : List Octets) : Turn :=
  let put (action : Option Octets) (names : List Octets) : Turn :=
    match names.find? fun w => (signal? w).isNone with
    | some w => (u.report ("trap: ".toList ++ w ++ ": bad trap\n".toList)).leaving 1
    | none =>
      let keys := names.filterMap fun w => (signal? w).map Prod.fst
      u.alter fun t =>
        let others := t.traps.filter fun (key, _) => !keys.contains key
        let own := match action with
          | some action => keys.map fun key => (key, action)
          | none => []
        { t with traps := own ++ others, status := 0 }
  match operands args with
  | [] => u.leaving 0
  | [w] => put none [w]
  | action :: names =>
    if (Numeral.decimal? action).isSome then put none (action :: names)
    else put (if action = ['-'] then none else some action) names

/-- How signals are to be sent. -/
def killUsage : String :=
  "Usage: kill [-s sigspec | -signum | -sigspec] [pid | job]... or\nkill -l [exitstatus]"

/-- Sends signals. -/
def sendSignals (u : Turn) (args : List Octets) : Turn :=
  let send (signal : Option (String × Nat)) (targets : List Octets) : Turn :=
    match signal, targets with
    | none, _ => u.refuse "kill" "invalid signal number or name".toList 2
    | some _, [] => u.refuse "kill" killUsage.toList 2
    | some (name, number), targets =>
      targets.foldl
        (fun u w =>
          let id := match w with
            | '%' :: _ => u.task.lastStarted
            | w => Numeral.count? w
          match id with
          | none => u.refuse "kill" ("Illegal number: ".toList ++ w) 2
          | some id =>
            match u.signal id name number with
            | (u, true) => u
            | (u, false) => u.refuse "kill" "No such process\n".toList 1)
        (u.leaving 0)
  match args with
  | ['-', 's'] :: w :: rest => send (signal? w) (operands rest)
  | ['-', '-'] :: rest => send (some ("TERM", 15)) rest
  | ('-' :: c :: w) :: rest =>
    match signal? (c :: w) with
    | none => u.refuse "kill" ("Illegal option -".toList ++ [c]) 2
    | signal => send signal (operands rest)
  | args => send (some ("TERM", 15)) args

/-- Waits for tasks that it has started. -/
def waitFor (u : Turn) (args : List Octets) : Turn :=
  match args with
  | [] =>
    if u.process.tasks.all fun t => t.parent != u.task.id || t.ended.isSome then u.leaving 0
    else u.waiting .tasks (.builtin "wait" [])
  | w :: rest =>
    let id := match w with
      | '%' :: _ => u.task.lastStarted
      | w => Numeral.count? w
    match id with
    | none => u.refuse "wait" ("Illegal number: ".toList ++ w) 2
    | some id =>
      if u.process.isOver id then
        let (u, status, signal) := u.bury id
        let u := match signal with
          | some signal => u.report (obituary signal)
          | none => u
        (u.leaving status).push (if rest.isEmpty then [] else [.builtin "wait" rest])
      else u.waiting (.task id) (.builtin "wait" args)

/-- The complaint about a command without a program, and the status that it leaves. -/
def notFound (name : Octets) (fault : PlaceFault) : Octets × Nat :=
  let reason := match fault with
    | .forbidden => "Permission denied"
    | .tooLong => "File name too long"
    | _ => "not found"
  (name ++ ": ".toList ++ reason.toList, if fault = .forbidden then 126 else 127)

/-- The program that a command of the task is. -/
def find (u : Turn) (name : Octets) : Except PlaceFault String :=
  Place.find ((u.task.value? "PATH".toList).getD Place.usualPath) name

/-- What a name means as a command, as it is told. -/
def meaning? (u : Turn) (name : Octets) : Option Octets :=
  if (u.task.functions.lookup name).isSome || isBuiltin name then some name
  else if name.contains '/' then (u.find name).toOption.map fun _ => name
  else (u.find name).toOption.map fun program => "/usr/bin/".toList ++ program.toList

/-- The number that an argument is, or a complaint. -/
def withNumber (u : Turn) (name : String) (args : List Octets) (usual : Nat)
    (act : Nat → Turn) : Turn :=
  match args with
  | [] => act usual
  | w :: _ =>
    match Numeral.count? w with
    | some n => act n
    | none => u.refuse name ("Illegal number: ".toList ++ w) 2

/-- The number of loops that an argument is, or a complaint. -/
def withCount (u : Turn) (name : String) (args : List Octets) (act : Nat → Turn) : Turn :=
  u.withNumber name args 1 fun n =>
    if n = 0 then u.refuse name "Illegal number: 0".toList 2 else act n

/-- Writes a format with its arguments. -/
def print (u : Turn) (words : List Octets) : Turn :=
  match words with
  | [] => u.refuse "printf" "usage: printf format [arg ...]".toList 2
  | format :: args =>
    let p := Format.print format args
    let status := if p.complaints.isEmpty then 0 else if p.stopped then 2 else 1
    let u := p.complaints.foldl (fun u c => u.complainAs "printf".toList c.toList) u
    u.say "printf" p.output status

/-- Runs one of the special commands. -/
def specialCommand (u : Turn) (name : String) (args : List Octets) : Turn :=
  match name with
  | "exit" => u.withNumber name args u.task.status fun n => u.exit n
  | "return" => u.withNumber name args u.task.status fun n => u.alter (leaveFunction · n)
  | "break" => u.withCount name args fun n => (u.leaving 0).alter (leaveLoops · n false)
  | "continue" => u.withCount name args fun n => (u.leaving 0).alter (leaveLoops · n true)
  | "set" => u.set (args.length + 1) args
  | "shift" =>
    u.withNumber name args 1 fun n =>
      if u.task.args.length < n then u.refuse name "can't shift that many".toList 2
      else u.alter fun t => { t with args := t.args.drop n, status := 0 }
  | "export" =>
    u.declare name (args.filter (· ≠ ['-', 'p'])) fun t key =>
      { t with exported := key :: t.exported }
  | "readonly" =>
    u.declare name (args.filter (· ≠ ['-', 'p'])) fun t key =>
      { t with constants := key :: t.constants }
  | "unset" =>
    match args with
    | ['-', 'f'] :: names =>
      u.alter fun t =>
        { t with functions := t.functions.filter fun (n, _) => !names.contains n, status := 0 }
    | _ =>
      let names := args.filter (· ≠ ['-', 'v'])
      match names.find? u.task.constants.contains with
      | some w => u.refuse name (w ++ ": is read only".toList) 2
      | none => u.alter fun t => { names.foldl (fun t w => t.bind w none) t with status := 0 }
  | "eval" =>
    if args.all List.isEmpty then u.leaving 0
    else
      (u.alter fun t => { t with within := "eval".toList }).push
        [.script { text := Octets.join [' '] args }, .outside u.task.within]
  | "." =>
    match args with
    | [] => u.leaving 0
    | w :: _ => u.refuse name ("cannot open ".toList ++ w ++ ": No such file".toList) 2
  | "exec" =>
    match operands args with
    | [] => u.leaving 0
    | words =>
      match u.find (words.headD []) with
      | .ok program => u.alter fun t => { t with frames := [.program program words] }
      | .error fault =>
        let (complaint, status) := notFound (words.headD []) fault
        u.refuse name complaint status
  | "trap" => u.trap args
  | _ => u.leaving 0

/-- Tells what a name means as a command. -/
def describe (u : Turn) (w : Octets) : Turn :=
  let told (text : String) : Octets := w ++ text.toList ++ ['\n']
  if Condition.isAmong Source.reserved w then u.say "type" (told " is a shell keyword") 0
  else
    match u.meaning? w with
    | some cs =>
      if (u.task.functions.lookup w).isSome then u.say "type" (told " is a shell function") 0
      else if isSpecial w then u.say "type" (told " is a special shell builtin") 0
      else if isBuiltin w then u.say "type" (told " is a shell builtin") 0
      else u.say "type" (w ++ " is ".toList ++ cs ++ ['\n']) 0
    | none => u.say "type" (told ": not found") 127

/-- Runs a command of the shell. -/
def builtin (u : Turn) (name : String) (args : List Octets) : Turn :=
  match name with
  | "true" => u.leaving 0
  | "false" => u.leaving 1
  | "echo" =>
    if !u.task.escapes then u.say name (Utility.echo [] args) 0
    else
      let isOpen := args.head? = some ['-', 'n']
      let p := Format.unescape (Octets.join [' '] (if isOpen then args.tail else args))
      u.say name (if isOpen || p.stopped then p.output else p.output ++ ['\n']) 0
  | "printf" =>
    match args with
    | ('-' :: c :: more) :: rest =>
      if c = '-' ∧ more = [] then u.print rest
      else u.refuse name ("Illegal option -".toList ++ [c]) 2
    | words => u.print words
  | "read" =>
    let options := args.takeWhile fun w => w.head? = some '-' ∧ w ≠ ['-', '-']
    let letters := options.flatMap List.tail
    let words := operands (args.drop options.length)
    let names := if letters.contains 'p' then words.tail else words
    match letters.find? fun c => c ≠ 'r' ∧ c ≠ 'p', names.find? (!Octets.isName ·) with
    | some c, _ => u.refuse name ("Illegal option -".toList ++ [c]) 2
    | none, some w => u.refuse name (w ++ ": bad variable name".toList) 2
    | none, none =>
      if names.isEmpty then u.refuse name "arg count".toList 2
      else u.readLine (letters.contains 'r') names []
  | "test" | "[" =>
    match Condition.status name args with
    | (status, none) => u.leaving status
    | (status, some complaint) => u.refuse name complaint status
  | "local" =>
    match keepForFunction u.task (args.map nameOf) with
    | none => (u.complain "local: not in a function".toList).exit 2
    | some task => { u with task }.declare name args fun t _ => t
  | "command" =>
    match args with
    | ['-', 'v'] :: w :: _ =>
      match u.meaning? w with
      | some cs => u.say name (cs ++ ['\n']) 0
      | none => u.leaving 127
    | ['-', 'V'] :: w :: _ => u.describe w
    | args =>
      match args.filter (· ≠ ['-', 'p']) with
      | [] => u.leaving 0
      | words => u.push [.invoke words false]
  | "type" => args.foldl (fun u w => if u.task.status = 0 then u.describe w else u) (u.leaving 0)
  | "cd" =>
    let current := (u.task.value? "PWD".toList).getD []
    let path := (operands args).headD ((u.task.value? "HOME".toList).getD [])
    let path := if path = ['-'] then (u.task.value? "OLDPWD".toList).getD current else path
    let isAbsolute := path.head? = some '/'
    match Place.resolve (if isAbsolute then path else current ++ '/' :: path) with
    | .ok (.directory names) =>
      let folder := '/' :: Octets.join ['/'] (names.map String.toList)
      let v := u.alter fun t =>
        (t.bind "OLDPWD".toList (some current)).bind "PWD".toList (some folder)
      if path = [] then u.leaving 0
      else if args.head? = some ['-'] then v.say name (folder ++ ['\n']) 0
      else v.leaving 0
    | _ => if path = [] then u.leaving 0 else u.refuse name ("can't cd to ".toList ++ path) 2
  | "umask" => u.say name (if args.isEmpty then "0022\n".toList else []) 0
  | "pwd" => u.say name ((u.task.value? "PWD".toList).getD [] ++ ['\n']) 0
  | "kill" => u.sendSignals args
  | "wait" => u.waitFor args
  | _ =>
    if special.contains name then u.specialCommand name args
    else u.leaving 0

end Turn

end PipeCall.Counterparty
