import PipeCall.Counterparty.Condition
import PipeCall.Counterparty.Process

/-!
# Utilities

The programs that scripts use beside commands of their own. `Utility.ofWords` tells what a program
does that is started with some words, and `Turn.work` does a part of it.
-/

namespace PipeCall.Counterparty

namespace Utility

open Numeral (decimal?)

/-- Complains and does nothing else. -/
def refusal (name : String) (complaint : Octets) : Utility :=
  .say [] (name.toList ++ ": ".toList ++ complaint ++ ['\n']) 1

/-- A refusal that tells where there is more to read. -/
def refusalWithHint (name : String) (complaint : Octets) : Utility :=
  let hint := "\nTry '" ++ name ++ " --help' for more information."
  refusal name (complaint ++ hint.toList)

/-- A length of time in seconds, with decimals and perhaps a unit, as milliseconds. -/
def millis? (cs : Octets) : Option Nat :=
  let whole := cs.takeWhile Char.isDigit
  let rest := cs.drop whole.length
  let decimals := if rest.head? = some '.' then rest.tail.takeWhile Char.isDigit else []
  let unit := if rest.head? = some '.' then rest.tail.drop decimals.length else rest
  let thousandths := (decimals ++ List.replicate 3 '0').take 3
  let n := Nat.ofDigitChars 10 whole 0 * 1000 + Nat.ofDigitChars 10 thousandths 0
  if whole = [] ∧ decimals = [] then none
  else
    match unit with
    | [] | ['s'] => some n
    | ['m'] => some (n * 60)
    | ['h'] => some (n * 3600)
    | ['d'] => some (n * 86400)
    | _ => none

/-- Consecutive integers. -/
def sequence (first step last : Int) : List Int :=
  if step = 0 then []
  else
    let count := Int.fdiv (last - first) step + 1
    (List.range count.toNat).map fun (k : Nat) => first + step * k

/-- An integer that octets are. -/
def int? (cs : Octets) : Option Int :=
  match cs with
  | '-' :: rest => (decimal? rest).map fun n => -(n : Int)
  | cs => (decimal? cs).map fun n => (n : Int)

/-- The output of an echo: it may leave out the line feed, and know escapes. -/
def echo : List Char → List Octets → Octets
  | letters, words =>
    match words with
    | ('-' :: c :: more) :: rest =>
      if (c :: more).all ['n', 'e', 'E'].contains then echo (letters ++ c :: more) rest
      else written letters words
    | words => written letters words
where
  /-- The words as they are written. -/
  written (letters : List Char) (words : List Octets) : Octets :=
    let text := Octets.join [' '] words
    let ended := if letters.contains 'n' then [] else ['\n']
    match letters.reverse.find? (· ≠ 'n') with
    | some 'e' =>
      let p := Format.unescape text
      if p.stopped then p.output else p.output ++ ended
    | _ => text ++ ended

/-- The last name of a path, and what is before it. -/
def splitPath (path : Octets) : Octets × Octets :=
  let path := (path.reverse.dropWhile (· == '/')).reverse
  let name := (path.reverse.takeWhile (· ≠ '/')).reverse
  let folder := path.take (path.length - name.length)
  (name, if folder = [] then ['.'] else (folder.reverse.dropWhile (· == '/')).reverse)

/-- What an expression of three words comes to. -/
def calculate (words : List Octets) : Option Octets :=
  match words with
  | [a, operator, b] => do
    let m ← int? a
    let n ← int? b
    match operator with
    | ['+'] => some (Octets.ofInt (m + n))
    | ['-'] => some (Octets.ofInt (m - n))
    | ['*'] => some (Octets.ofInt (m * n))
    | ['/'] => if n = 0 then none else some (Octets.ofInt (m.tdiv n))
    | ['%'] => if n = 0 then none else some (Octets.ofInt (m.tmod n))
    | _ => none
  | _ => none

/-- The number of octets that a copy of blocks takes, if that is given. -/
def blockAmount (words : List Octets) : Option Nat :=
  let value (key : String) : Option Nat :=
    words.findSome? fun w => if key.toList.isPrefixOf w then decimal? (w.drop key.length) else none
  (value "count=").map fun n => n * (value "bs=").getD 512

/-- What a program of this name does with these words. -/
def ofWords (t : Task) (name : String) (words : List Octets) : Utility :=
  match name with
  | "true" => .say [] [] 0
  | "false" => .say [] [] 1
  | "echo" => .say (echo [] words) [] 0
  | "printf" =>
    match words with
    | [] => refusalWithHint name "missing operand".toList
    | format :: args =>
      let p := Format.print format args
      let errors := p.complaints.flatMap fun c => "printf: ".toList ++ c.toList ++ ['\n']
      .say p.output errors (if p.complaints.isEmpty then 0 else 1)
  | "test" | "[" =>
    match Condition.status name words with
    | (status, none) => .say [] [] status
    | (status, some complaint) =>
      .say [] (name.toList ++ ": ".toList ++ complaint ++ ['\n']) status
  | "cat" =>
    let files := words.filter fun w => w.head? ≠ some '-' ∨ w = ['-']
    .copy (if files.isEmpty then [['-']] else files) [1] 0
  | "tee" =>
    let isErrors (w : Octets) : Bool := w = "/dev/stderr".toList || w = "/dev/fd/2".toList
    let isOutput (w : Octets) : Bool := w = "/dev/stdout".toList || w = "/dev/fd/1".toList
    let targets := words.filterMap fun w =>
      if isErrors w then some 2 else if isOutput w then some 1 else none
    .copy [['-']] (1 :: targets) 0
  | "dd" =>
    match blockAmount words with
    | some n => .filter (Filter.head (.octets n, none)) [] 0
    | none => .copy [['-']] [1] 0
  | "seq" =>
    let ns := words.map int?
    let written (ns : List Int) : Utility :=
      .say (ns.flatMap fun n => Octets.ofInt n ++ ['\n']) [] 0
    match ns with
    | [] => refusalWithHint name "missing operand".toList
    | [some last] => written (sequence 1 1 last)
    | [some first, some last] => written (sequence first 1 last)
    | [some first, some step, some last] => written (sequence first step last)
    | _ =>
      let w := (words.find? fun w => (int? w).isNone).getD []
      refusalWithHint name ("invalid floating point argument: '".toList ++ w ++ ['\''])
  | "sleep" =>
    match words, words.find? fun w => (millis? w).isNone with
    | [], _ => refusalWithHint name "missing operand".toList
    | _, some w => refusalWithHint name ("invalid time interval '".toList ++ w ++ ['\''])
    | _, none => .sleep ((words.filterMap millis?).foldl (· + ·) 0)
  | "basename" => .say ((splitPath (words.headD [])).1 ++ ['\n']) [] 0
  | "dirname" => .say ((splitPath (words.headD [])).2 ++ ['\n']) [] 0
  | "expr" =>
    match calculate words with
    | some cs => .say (cs ++ ['\n']) [] (if cs = ['0'] then 1 else 0)
    | none => .say [] "expr: syntax error\n".toList 2
  | "printenv" =>
    let values := words.map t.environment
    .say ((values.filterMap id).flatMap fun v => v ++ ['\n']) []
      (if values.all Option.isSome then 0 else 1)
  | "yes" => .flood (Octets.join [' '] (if words.isEmpty then [['y']] else words) ++ ['\n'])
  | _ =>
    match Filter.ofWords name words with
    | some (f, _) => .filter f [] 0
    | none =>
      .say [] [] (if name.endsWith "grep" then 2 else if Filter.names.contains name then 1 else 0)

end Utility

/-! ## At work -/

namespace Turn

/-- Opens a device or a stream of the task by its path; why that is not possible. -/
def openPath (u : Turn) (path : Octets) : Except PlaceFault Endpoint :=
  let stream (n : Nat) : Except PlaceFault Endpoint :=
    match u.task.streams.at? n with
    | some e => .ok e
    | none => .error .missing
  match Place.resolve path with
  | .error fault => .error fault
  | .ok (.directory _) => .error .forbidden
  | .ok (.file ["dev", "stdin"]) => stream 0
  | .ok (.file ["dev", "stdout"]) => stream 1
  | .ok (.file ["dev", "stderr"]) => stream 2
  | .ok (.file ["dev", "zero"]) => .ok .zeros
  | .ok (.file ["dev", "tty"]) => .error .missing
  | .ok _ => .ok .null

/-- How a utility complains about a file that it cannot read, and how it comes out. -/
def unreadable (name : String) (file : Octets) (reason : String) : Octets × Nat :=
  let (text, status) :=
    match name with
    | "head" | "tail" => ("cannot open '".toList ++ file ++ "' for reading".toList, 1)
    | "tac" => ("failed to open '".toList ++ file ++ "' for reading".toList, 1)
    | "sed" => ("can't read ".toList ++ file, 2)
    | "sort" => ("cannot read: ".toList ++ file, 2)
    | "grep" | "egrep" | "fgrep" => (file, 2)
    | _ => (file, 1)
  (Octets.join ": ".toList [name.toList, text, reason.toList] ++ ['\n'], status)

/-- Begins the work of a utility. A file that it is given takes the place of its input. -/
def start (u : Turn) (name : String) (words : List Octets) : Turn :=
  let go (u : Turn) : Turn := u.push [.utility (Utility.ofWords u.task name words)]
  match Filter.ofWords name words with
  | some (_, file :: _) =>
    if file = ['-'] then go u
    else
      match u.openPath file with
      | .ok e => go (u.alter fun t => { t with streams := t.streams.put 0 e })
      | .error fault =>
        let reason := if fault = .forbidden then "Is a directory" else "No such file or directory"
        let (complaint, status) := unreadable name file reason
        (u.report complaint).leaving status
  | _ => go u

/-- Writes the same to several streams; whether that was possible. -/
def writeAll (u : Turn) (targets : List Nat) (cs : Octets) : Turn × Bool :=
  targets.foldl
    (fun (u, all) target =>
      let (u, b) := u.write target cs
      (u, all && b))
    (u, true)

/-- Copies the next file, or what there is of it. -/
def copyNext (u : Turn) (files : List Octets) (targets : List Nat) (status : Nat) : Turn :=
  let going (files : List Octets) (status : Nat) : List Frame :=
    [.utility (.copy files targets status)]
  match files with
  | [] => u.leaving status
  | file :: rest =>
    if file = ['-'] then
      match u.look 0 with
      | .octets cs =>
        let (v, isDone) := (u.consume 0 cs.length).writeAll targets cs
        if isDone then v.push (going files status) else v.leaving 1
      | .ended => u.push (going rest status)
      | .nothing => u.waitingForData 0 (.utility (.copy files targets status))
      | .refused =>
        let reason := "Bad file descriptor\n"
        let both := "cat: -: " ++ reason ++ "cat: closing standard input: " ++ reason
        (u.report both.toList).push (going rest 1)
    else
      let refuse (reason : String) : Turn :=
        (u.report ("cat: ".toList ++ file ++ ": ".toList ++ reason.toList ++ ['\n'])).push
          (going rest 1)
      match Place.resolve file, u.openPath file with
      | .ok (.file ["dev", "stdin"]), _ => u.push (going (['-'] :: rest) status)
      | .ok (.directory _), _ => refuse "Is a directory"
      | _, .ok .zeros =>
        let (v, isDone) := u.writeAll targets (List.replicate 8192 '\x00')
        if isDone then v.push (going files status) else v.leaving 1
      | _, .ok _ => u.push (going rest status)
      | _, .error .notDirectory => refuse "Not a directory"
      | _, .error .tooLong => refuse "File name too long"
      | _, .error _ => refuse "No such file or directory"

/-- Lets a filter read what there is, and write what it writes for that. -/
def filterNext (u : Turn) (f : Filter) (seen : Octets) (written : Nat) : Turn :=
  let go (u : Turn) (seen : Octets) (ended : Bool) : Turn :=
    let (output, status) := f.apply seen ended
    let isPrompt := f.isPrompt || status.isSome || ended
    let (v, isDone) := u.write 1 (if isPrompt then output.drop written else [])
    let known := if isPrompt then output.length else written
    match status, isDone with
    | some status, true => v.leaving status
    | none, true =>
      if ended then v.leaving 0 else v.push [.utility (.filter f seen known)]
    | _, false => v.leaving 1
  match u.look 0 with
  | .octets cs =>
    if (f.apply [] false).2.isSome then go u seen false
    else
      let read := match f.most with
        | some n => cs.take (n - seen.length)
        | none => cs
      go (u.consume 0 read.length) (seen ++ read) false
  | .nothing =>
    if (f.apply [] false).2.isSome then go u seen false
    else u.waitingForData 0 (.utility (.filter f seen written))
  | .ended => go u seen true
  | .refused => u.leaving 1

/-- Does a part of the work of a utility. -/
def work (u : Turn) (utility : Utility) : Turn :=
  match utility with
  | .say output errors status =>
    let (v, isDone) := (u.report errors).write 1 output
    v.leaving (if isDone then status else 1)
  | .copy files targets status => u.copyNext files targets status
  | .filter f seen written => u.filterNext f seen written
  | .sleep millis => u.push [.utility (.asleep (u.now + millis))]
  | .asleep time => if time ≤ u.now then u.leaving 0 else u.waiting (.clock time) (.utility utility)
  | .flood cs =>
    let (v, isDone) := u.write 1 (List.replicate (8192 / cs.length + 1) cs).flatten
    if isDone then v.push [.utility utility] else v.leaving 1

end Turn

end PipeCall.Counterparty
