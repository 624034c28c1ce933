import PipeCall.Counterparty.Step

/-!
# Running a process

The tasks of a process take turns: the first one that can go on does so for a while, and is the last
one then. `Process.run` lets them go on until all wait or are over; `Process.spawn` starts the
process of a command.
-/

namespace PipeCall.Counterparty

namespace Turn

/-- How many steps a task makes before it is another one's turn. -/
def length : Nat := 64

/-- Makes at most so many steps, as long as the task can go on. -/
def go : Nat → Turn → Turn
  | 0, u => u
  | fuel + 1, u =>
    let v := u.step
    let whole := { v.process with tasks := v.task :: v.process.tasks }
    if whole.canGoOn v.now v.task then go fuel v else v

end Turn

namespace Process

/-- Gives a turn to the first task that can go on; none can if there is no result. -/
def turn? (p : Process) (now : Nat) : Option Process :=
  let before := p.tasks.takeWhile fun t => !p.canGoOn now t
  match p.tasks.drop before.length with
  | [] => none
  | task :: after =>
    let u := Turn.go Turn.length { task, process := { p with tasks := before ++ after }, now }
    some { u.process with tasks := u.process.tasks ++ [u.task] }

/-- Gives at most so many turns. -/
def runWithin : Nat → Nat → Process → Process
  | 0, _, p => p
  | fuel + 1, now, p =>
    match p.turn? now with
    | some q => runWithin fuel now q
    | none => p

/-- The greatest number of turns that are given one after the other. -/
def patience : Nat := 1000

/-- Lets a process go on. -/
def run (p : Process) (now : Nat) : Process := runWithin patience now p

/-- Whether some task can go on. -/
def isBusy (p : Process) (now : Nat) : Bool := p.tasks.any (p.canGoOn now)

/-- Sends a process octets, and tells it perhaps that they are the last ones. -/
def send (p : Process) (cs : Octets) (ended : Bool) : Process :=
  { p with unread := p.unread ++ cs, inputEnded := p.inputEnded || ended }

/-- The time at which a task has slept enough. -/
def wakeTime? (p : Process) : Option Nat :=
  (p.tasks.filterMap fun t =>
    match t.ended, t.wait with
    | none, .clock time => some time
    | _, _ => none).min?

/-- The number of the task that is started first. -/
def firstTask : Nat := 1000

/-- Whether the task that was started first is over. -/
def hasExited (p : Process) : Bool := p.isOver firstTask

/-- Ends the task that was started first. -/
def kill (p : Process) : Process :=
  let killed (t : Task) : Task :=
    if t.id = firstTask ∧ t.ended.isNone then t.kill "KILL" 9 else t
  { p with tasks := p.tasks.map killed }

/-- The variable that says where programs are. -/
def pathVariable : String := "PATH"

/-- The process of a command. -/
def spawn (command : String) (args : List String) (environment : String → Option String) :
    Except PlaceFault Process :=
  if (command :: args).any (·.contains '\x00') then .error .nul
  else
    let words := (command :: args).map Octets.ofString
    let searchPath := ((environment pathVariable).map Octets.ofString).getD Place.usualPath
    match Place.find searchPath (Octets.ofString command) with
    | .error fault => .error fault
    | .ok program =>
      let task : Task :=
        { id := firstTask
          shell := firstTask
          frames := [.program program words]
          streams := [(0, .input), (1, .output), (2, .errors)]
          environment := fun name => (environment (String.ofList name)).map Octets.ofString }
      .ok { tasks := [task], serial := firstTask + 1 }

end Process

end PipeCall.Counterparty
