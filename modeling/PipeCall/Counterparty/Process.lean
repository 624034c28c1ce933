import PipeCall.Counterparty.Task

/-!
# Processes

A `Process` is a counterparty at work: its tasks, the pipes between them, what it was sent and has
not read, and what it has written. A `Turn` is one of its tasks going on; it can read, write and
start other tasks.
-/

namespace PipeCall.Counterparty

/-- A counterparty at work. -/
structure Process where
  tasks : List Task := []
  /-- What is in each pipe, by its number. -/
  pipes : List (Nat × Octets) := []
  /-- The next number for a task or a pipe. -/
  serial : Nat
  /-- What it was sent and has not read. -/
  unread : Octets := []
  /-- Whether nothing more will be sent. -/
  inputEnded : Bool := false
  /-- What it has written to its output, and to its errors. -/
  output : Octets := []
  errors : Octets := []
  /-- Whether nobody reads its output any more. -/
  outputGone : Bool := false

namespace Process

/-- How much a pipe holds before a writer has to wait. -/
def pipeCapacity : Nat := 65536

/-- How many tasks there can be beside one that starts another. -/
def taskLimit : Nat := 512

/-- Whether a task leads a stream to an endpoint. -/
def isHeld (p : Process) (e : Endpoint) : Bool := p.tasks.any (·.holds e)

/-- What is in a pipe. -/
def content (p : Process) (pipe : Nat) : Octets := (p.pipes.lookup pipe).getD []

/-- The process with other content in a pipe. -/
def fill (p : Process) (pipe : Nat) (cs : Octets) : Process :=
  { p with pipes := (pipe, cs) :: p.pipes.filter (·.1 ≠ pipe) }

/-- A task by its number. -/
def task? (p : Process) (id : Nat) : Option Task := p.tasks.find? (·.id = id)

/-- Whether a task is over, or not there. -/
def isOver (p : Process) (id : Nat) : Bool := p.tasks.all fun t => t.id != id || t.ended.isSome

/-- What a reader finds. -/
inductive Look where
  | octets (cs : Octets)
  /-- Nothing, and nothing more will come. -/
  | ended
  /-- Nothing yet. -/
  | nothing
  /-- There is nothing to read from. -/
  | refused

/-- What a reader of an endpoint finds, if the endpoint of a pipe's writers is held as `isHeld`
says. -/
def look (p : Process) (isHeld : Endpoint → Bool) : Option Endpoint → Look
  | some .input =>
    if p.unread.isEmpty then if p.inputEnded then .ended else .nothing else .octets p.unread
  | some (.taking pipe) =>
    match p.content pipe with
    | [] => if isHeld (.giving pipe) then .nothing else .ended
    | cs => .octets cs
  | some .null => .ended
  | some .zeros => .octets (List.replicate 8192 '\x00')
  | _ => .refused

/-- Whether an endpoint takes more without waiting. -/
def hasRoom (p : Process) : Endpoint → Bool
  | .giving pipe => !p.isHeld (.taking pipe) || (p.content pipe).length < pipeCapacity
  | .output => p.outputGone || p.output.length < pipeCapacity
  | _ => true

/-- Whether a task can go on. -/
def canGoOn (p : Process) (now : Nat) (t : Task) : Bool :=
  t.ended.isNone &&
    (!t.signals.isEmpty ||
      match t.wait with
      | .none => true
      | .data e =>
        match p.look p.isHeld (some e) with
        | .nothing => false
        | _ => true
      | .room e => p.hasRoom e
      | .clock time => time ≤ now
      | .task id => p.isOver id
      | .tasks => p.tasks.all fun other => other.parent != t.id || other.ended.isSome
      | .forever => false)

end Process

/-! ## Turns -/

/-- A task that goes on, beside the others of its process. -/
structure Turn where
  task : Task
  /-- The process with its other tasks. -/
  process : Process
  now : Nat

namespace Turn

/-- Changes the task. -/
def alter (u : Turn) (change : Task → Task) : Turn := { u with task := change u.task }

/-- Leaves a status. -/
def leaving (u : Turn) (status : Nat) : Turn := u.alter (·.leaving status)

/-- Has something more to do first. -/
def push (u : Turn) (frames : List Frame) : Turn := u.alter (·.push frames)

/-- Ends the task with a status, after what it does at its end. -/
def exit (u : Turn) (status : Nat) : Turn := u.alter (·.exit status)

/-- Waits, and then does something. -/
def waiting (u : Turn) (wait : Wait) (frame : Frame) : Turn :=
  u.alter fun t => { t.push [frame] with wait }

/-- Whether the process is there for an endpoint. -/
def isHeld (u : Turn) (e : Endpoint) : Bool := u.task.holds e || u.process.isHeld e

/-! ### Reading -/

/-- What the task finds when it reads a stream. -/
def look (u : Turn) (stream : Nat) : Process.Look :=
  u.process.look u.isHeld (u.task.streams.at? stream)

/-- Takes so many octets of what is found. -/
def consume (u : Turn) (stream n : Nat) : Turn :=
  match u.task.streams.at? stream with
  | some .input => { u with process := { u.process with unread := u.process.unread.drop n } }
  | some (.taking pipe) =>
    { u with process := u.process.fill pipe ((u.process.content pipe).drop n) }
  | _ => u

/-- Waits for something to read, and then does something. -/
def waitingForData (u : Turn) (stream : Nat) (frame : Frame) : Turn :=
  match u.task.streams.at? stream with
  | some e => u.waiting (.data e) frame
  | none => u.push [frame]

/-! ### Writing -/

/-- Ends the task because nobody reads what it writes, unless it is told to go on. -/
def breakOff (u : Turn) : Turn :=
  if u.task.traps.lookup "PIPE" = some [] then u else u.alter (·.kill "PIPE" 13)

/-- Writes to a stream; whether that was possible. If there is no more room then, the task waits
before it goes on. -/
def write (u : Turn) (stream : Nat) (cs : Octets) : Turn × Bool :=
  let p := u.process
  let taking (e : Endpoint) (p : Process) (size : Nat) : Turn :=
    let wait := if Process.pipeCapacity ≤ size then .room e else .none
    { u with process := p, task := { u.task with wait } }
  if cs = [] then (u, true)
  else
    match u.task.streams.at? stream with
    | some .output =>
      if p.outputGone then (u.breakOff, false)
      else
        let output := p.output ++ cs
        (taking .output { p with output } output.length, true)
    | some .errors => ({ u with process := { p with errors := p.errors ++ cs } }, true)
    | some .null | some .zeros => (u, true)
    | some (.giving pipe) =>
      if !u.isHeld (.taking pipe) then (u.breakOff, false)
      else
        let content := p.content pipe ++ cs
        (taking (.giving pipe) (p.fill pipe content) content.length, true)
    | _ => (u, false)

/-- Writes to the errors of the task. -/
def report (u : Turn) (cs : Octets) : Turn := (u.write 2 cs).1

/-- Complains in the name of a command, after that of the script and the line. -/
def complainAs (u : Turn) (command complaint : Octets) : Turn :=
  let parts := [u.task.name, Octets.ofInt u.task.line] ++ (if command = [] then [] else [command])
  u.report (Octets.join ": ".toList (parts ++ [complaint]) ++ ['\n'])

/-- Complains. -/
def complain (u : Turn) (complaint : Octets) : Turn := u.complainAs u.task.within complaint

/-- Complains and leaves a status. -/
def failing (u : Turn) (complaint : Octets) (status : Nat) : Turn :=
  (u.complain complaint).leaving status

/-- Complains and ends the task. -/
def giveUp (u : Turn) (complaint : Octets) : Turn := (u.complain complaint).exit 2

/-! ### Other tasks -/

/-- A new pipe. -/
def newPipe (u : Turn) (content : Octets) : Turn × Nat :=
  let n := u.process.serial
  ({ u with process := { u.process.fill n content with serial := n + 1 } }, n)

/-- Starts a task like this one with something else to do. It does not know what this one does at a
signal, unless that is nothing. If there are too many tasks, this one gives up instead. -/
def fork (u : Turn) (frames : List Frame) (streams : Streams) : Turn × Nat :=
  let n := u.process.serial
  let t := u.task
  if Process.taskLimit < (u.process.tasks.filter (·.ended.isNone)).length then
    ({ u with process := { u.process with serial := n + 1 } }.giveUp "Cannot fork".toList, n)
  else
  let started : Task :=
    { t with
      id := n
      parent := t.id
      frames
      streams
      options := if t.isChecked then t.options.filter (· ≠ 'e') else t.options
      traps := t.traps.filter (·.2 = [])
      signals := []
      wait := .none }
  ({ u with process := { u.process with serial := n + 1, tasks := u.process.tasks ++ [started] } },
    n)

/-- Ends the task. -/
def stop (u : Turn) (status : Nat) : Turn :=
  u.alter fun t =>
    { t with frames := [], streams := [], status, ended := some (status % 256), wait := .none }

/-- Forgets a task that is over. How it came out; if a signal has ended it, its name. -/
def bury (u : Turn) (id : Nat) : Turn × Nat × Option String :=
  match u.process.task? id with
  | none => (u, 127, none)
  | some t =>
    ({ u with process := { u.process with tasks := u.process.tasks.filter (·.id ≠ id) } },
      t.ended.getD 0, t.killedBy)

/-- Sends a signal to a task; whether there is one that can get it. -/
def signal (u : Turn) (id : Nat) (name : String) (number : Nat) : Turn × Bool :=
  let receive (t : Task) : Task :=
    if name = "KILL" then t.kill name number
    else
      match t.traps.lookup name with
      | some [] => t
      | some _ => { t with signals := t.signals ++ [name] }
      | none => if ["CHLD", "CONT", "URG", "WINCH"].contains name then t else t.kill name number
  if u.task.id = id then (if number = 0 then u else u.alter receive, true)
  else
    match u.process.task? id with
    | none => (u, false)
    | some t =>
      if t.ended.isSome ∨ number = 0 then (u, true)
      else
        let tasks := u.process.tasks.map fun t => if t.id = id then receive t else t
        ({ u with process := { u.process with tasks } }, true)

end Turn

end PipeCall.Counterparty
