import PipeCall.Counterparty.Filter
import PipeCall.Counterparty.Place
import PipeCall.Counterparty.Script.Grammar

/-!
# Tasks

A counterparty consists of tasks. A `Task` runs a script or is a utility at work; what it has left
to do is a stack of frames. Its streams lead to what the counterparty is sent and what it writes, or
to pipes between tasks.
-/

namespace PipeCall.Counterparty

/-! ## Streams -/

/-- Where a stream leads. -/
inductive Endpoint where
  /-- What the counterparty is sent. -/
  | input
  | output
  | errors
  /-- Nothing: it has no content, and takes anything. -/
  | null
  /-- Zeros without end. -/
  | zeros
  /-- The end of a pipe that is read. -/
  | taking (pipe : Nat)
  /-- The end of a pipe that is written. -/
  | giving (pipe : Nat)
  deriving DecidableEq

/-- The streams of a task, by their numbers. -/
abbrev Streams := List (Nat × Endpoint)

namespace Streams

/-- Where a stream leads, if it is open. -/
def at? (s : Streams) (n : Nat) : Option Endpoint := s.lookup n

/-- The streams without one. -/
def close (s : Streams) (n : Nat) : Streams := s.filter (·.1 ≠ n)

/-- The streams with one that leads elsewhere. -/
def put (s : Streams) (n : Nat) (e : Endpoint) : Streams := (n, e) :: s.close n

end Streams

/-! ## Utilities -/

/-- A utility at work. -/
inductive Utility where
  /-- Writes its output and its errors. -/
  | say (output errors : Octets) (status : Nat)
  /-- Writes the contents of files one after the other; a hyphen is its input. -/
  | copy (files : List Octets) (targets : List Nat) (status : Nat)
  /-- Has read some input, and has written so many octets. -/
  | filter (f : Filter) (seen : Octets) (written : Nat)
  | sleep (millis : Nat)
  /-- Sleeps until a time on the clock. -/
  | asleep (time : Nat)
  /-- Writes the same again and again. -/
  | flood (cs : Octets)

/-! ## Frames -/

/-- Something that a task has left to do. -/
inductive Frame where
  | script (s : Source)
  /-- A script that is sent to the task itself, with what was sent of it so far. -/
  | sentScript (s : Source)
  /-- A command, and how the last task came out whose output was put into it. -/
  | command (c : Command) (filled : Option Nat)
  /-- A command of the shell itself, with its arguments. -/
  | builtin (name : String) (args : List Octets)
  /-- Reads a line into variables, of which it has seen some. -/
  | reading (raw : Bool) (names : List Octets) (seen : Octets)
  /-- A command by its words. The first one may be that of a function, if those are looked at. -/
  | invoke (words : List Octets) (functions : Bool)
  /-- Becomes a program, which gets to know its words. -/
  | program (name : String) (words : List Octets)
  | utility (u : Utility)
  /-- Runs a command if the last one succeeded. -/
  | onSuccess (c : Command)
  /-- Runs a command if the last one failed. -/
  | onFailure (c : Command)
  /-- Turns success into failure and failure into success. -/
  | negate
  | choose (yes no : Command)
  /-- Decides, after the condition of a loop, whether the body is run. -/
  | decide (inverted : Bool) (condition body : Command) (last : Nat)
  /-- Goes back to the condition of a loop. -/
  | again (inverted : Bool) (condition body : Command)
  /-- Runs the body of a loop for each of the values. -/
  | each (name : Octets) (values : List Octets) (body : Command)
  /-- Gives back the streams that a command changed. -/
  | restore (streams : Streams)
  /-- Gives back the variables that a command changed. -/
  | undo (saved : List (Octets × Option (Option Octets)))
  /-- Ends a function: gives back the arguments and the variables of its own. -/
  | leave (args : List Octets) (saved : List (Octets × Option (Option Octets)))
  /-- Waits for another task, whose status becomes the task's own. -/
  | await (task : Nat)
  /-- Waits for the tasks of a pipeline; the status is that of the last. -/
  | awaitAll (tasks : List Nat) (last : Nat)
  /-- Collects what a task writes to a pipe, and puts it into a command. -/
  | collect (task pipe : Nat) (seen : Octets) (c : Command)
  /-- Ends the task if the last command failed. -/
  | verify
  /-- Gives back the name of the command that runs the script. -/
  | outside (within : Octets)
  /-- Leaves a status. -/
  | leaving (status : Nat)
  /-- Ends the task with a status. -/
  | quit (status : Nat)

/-- What a task waits for. -/
inductive Wait where
  /-- Nothing. -/
  | none
  /-- Something to read, or the end of it. -/
  | data (e : Endpoint)
  /-- Room to write. -/
  | room (e : Endpoint)
  /-- A time on the clock, in milliseconds. -/
  | clock (time : Nat)
  /-- The end of a task. -/
  | task (id : Nat)
  /-- The end of all tasks that it has started, or a signal. -/
  | tasks
  /-- Nothing that will come. -/
  | forever

/-! ## Tasks -/

/-- What a task is. -/
structure Task where
  /-- Its number. -/
  id : Nat
  /-- The number of the task that started it. -/
  parent : Nat := 0
  /-- The number that its script takes for its own. -/
  shell : Nat
  frames : List Frame
  streams : Streams
  /-- The name that its script has for itself. -/
  name : Octets := []
  /-- The name of the command that runs the script, if there is one. -/
  within : Octets := []
  args : List Octets := []
  /-- The variables that it got to know at its start. -/
  environment : Octets → Option Octets := fun _ => none
  /-- The variables that it has set, or, without a value, unset. -/
  bindings : List (Octets × Option Octets) := []
  /-- The variables that the programs it starts get to know. -/
  exported : List Octets := []
  /-- The variables that keep their values. -/
  constants : List Octets := []
  functions : List (Octets × Command) := []
  /-- How the last command came out; zero is success. -/
  status : Nat := 0
  /-- The last task that it started and did not wait for. -/
  lastStarted : Option Nat := none
  /-- The line of the last command. -/
  line : Nat := 1
  /-- Whether its own command for printing knows escapes. -/
  escapes : Bool := true
  /-- The letters of the options that are set. -/
  options : List Char := []
  /-- What it does at a signal. -/
  traps : List (String × Octets) := []
  /-- The signals that it has not dealt with. -/
  signals : List String := []
  wait : Wait := .none
  /-- How it came out, once it has ended. -/
  ended : Option Nat := none
  /-- The signal that has ended it. -/
  killedBy : Option String := none

namespace Task

/-- Leaves a status. -/
def leaving (t : Task) (status : Nat) : Task := { t with status, wait := .none }

/-- Has something more to do first. -/
def push (t : Task) (frames : List Frame) : Task := { t with frames := frames ++ t.frames }

/-- Ends with a status, after what it does at its end. -/
def exit (t : Task) (status : Nat) : Task :=
  { t with frames := [], status }

/-- Is ended by a signal. -/
def kill (t : Task) (signal : String) (number : Nat) : Task :=
  { t with
    frames := []
    streams := []
    ended := some (128 + number)
    killedBy := some signal
    wait := .none }

/-- The variables that begin with their usual values, whatever else a task gets to know. -/
def firm : List String := ["IFS", "OPTIND"]

/-- The values of variables that nobody has set. -/
def usual? (name : Octets) : Option Octets :=
  match String.ofList name with
  | "IFS" => some [' ', '\t', '\n']
  | "OPTIND" => some ['1']
  | "PATH" => some Place.usualPath
  | "PS1" => some ['$', ' ']
  | "PS2" => some ['>', ' ']
  | "PS4" => some ['+', ' ']
  | _ => none

/-- The value of a variable. -/
def value? (t : Task) (name : Octets) : Option Octets :=
  match t.bindings.lookup name with
  | some value => value
  | none =>
    if firm.contains (String.ofList name) then usual? name
    else (t.environment name).or (usual? name)

/-- Sets a variable. -/
def bind (t : Task) (name : Octets) (value : Option Octets) : Task :=
  { t with bindings := (name, value) :: t.bindings.filter (·.1 ≠ name) }

/-- Gives variables back what they were. -/
def undo (t : Task) (saved : List (Octets × Option (Option Octets))) : Task :=
  let kept := t.bindings.filter fun b => !saved.any (·.1 = b.1)
  { t with
    bindings := (saved.filterMap fun (name, old) => old.map fun value => (name, value)) ++ kept }

/-- What variables are, to give it back to them. -/
def saving (t : Task) (names : List Octets) : List (Octets × Option (Option Octets)) :=
  names.eraseDups.map fun name => (name, t.bindings.lookup name)

/-- Whether an option is set. -/
def hasOption (t : Task) (letter : Char) : Bool := t.options.contains letter

/-- Whether a stream of the task leads to an endpoint, or will lead there again. -/
def holds (t : Task) (e : Endpoint) : Bool :=
  let leads (streams : Streams) : Bool := streams.any (·.2 = e)
  let willLead : Frame → Bool
    | .restore streams => leads streams
    | .collect _ pipe _ _ => e = .taking pipe
    | _ => false
  t.ended.isNone && (leads t.streams || t.frames.any willLead)

/-- Whether a failure is looked at by what is left to do, so that it is no reason to end. -/
def isChecked (t : Task) : Bool :=
  t.frames.any fun
    | .onSuccess _ | .onFailure _ | .negate | .choose _ _ | .decide _ _ _ _ => true
    | _ => false

end Task

end PipeCall.Counterparty
