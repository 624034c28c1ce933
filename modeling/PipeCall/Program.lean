import PipeCall.Conversation
import PipeCall.Invocation
import PipeCall.Settings

/-!
# The program

One call to a counterparty: `Program.run` takes the arguments and the environment to what is
printed. The result is printed as indented JSON. An error is reported with its cause.

The counterparty is a process that the program starts itself, with whatever command it is given.
`Counterparty` stands for that process, with the shell and the utilities that such commands call, so
that the program can be run as a whole. What is shown of a client holds whatever its counterparty
sends, and says nothing of these.
-/

namespace PipeCall.Program

/-- Why there is no result. -/
inductive Error where
  | usage (e : Invocation.UsageError)
  | spawn (command : String) (fault : Counterparty.PlaceFault)
  | call (method : String) (e : CallError)

namespace Error

/-- The error, and after it what caused it. -/
def chain : Error → List String
  | .usage e => [e.text]
  | .spawn command fault => ["Failed to spawn " ++ command, fault.text]
  | .call method e => ["Call to " ++ method ++ " failed", e.text]

/-- A cause as it is reported: every line indented. -/
def indent (cause : String) : List Char :=
  "    ".toList ++ cause.toList.flatMap fun c => if c = '\n' then "\n    ".toList else [c]

/-- The report of an error. -/
def report (e : Error) : String :=
  match e.chain with
  | [] => ""
  | message :: causes =>
    let caused := if causes.isEmpty then [] else
      "\n\nCaused by:".toList ++ causes.flatMap fun cause => '\n' :: indent cause
    "Error: " ++ message ++ String.ofList caused ++ "\n"

end Error

/-- What the program does. -/
structure Result where
  /-- The result of the call, or why there is none. -/
  outcome : Except Error Json
  /-- What the counterparty has written to its errors, and what it writes there later. -/
  errors : Bytes := []
  late : Bytes := []

namespace Result

/-- What is printed. -/
def output (r : Result) : String :=
  match r.outcome with
  | .ok v => v.pretty ++ "\n"
  | .error _ => ""

/-- What is reported, between what the counterparty has written and what it writes later. -/
def report (r : Result) : String :=
  let own := match r.outcome with
    | .ok _ => ""
    | .error e => e.report
  Utf8.lossy (r.errors ++ Utf8.encode own ++ r.late)

/-- The exit code. -/
def code (r : Result) : Nat :=
  match r.outcome with
  | .ok _ => 0
  | .error _ => 1

end Result

/-- Makes the call of an invocation to a process. -/
def talk (settings : Settings) (i : Invocation) (process : Counterparty.Process) : Result :=
  let fresh := Session.new settings.limit settings.timeout
  let session := (fresh.step [.start]).step [.issue ⟨i.method, some i.params, .value⟩]
  let c := Conversation.converse { session, process }
  let finished := c.finish
  let errors := finished.process.errors
  let outcome := match c.outcome? with
    | some (.ok v) => .ok v
    | some (.error e) => .error (.call i.method e)
    | none => .error (.call i.method .shutDown)
  { outcome
    errors := Counterparty.Octets.toBytes errors
    late := Counterparty.Octets.toBytes (finished.abandon.process.errors.drop errors.length) }

/-- What the program does with these arguments in this environment. -/
def run (args : List String) (lookup : String → Option String) : Result :=
  match Invocation.parse args with
  | .error e => { outcome := .error (.usage e) }
  | .ok i =>
    match Counterparty.Process.spawn i.command i.args lookup with
    | .error fault => { outcome := .error (.spawn i.command fault) }
    | .ok process => talk (Settings.ofEnvironment lookup).1 i process

end PipeCall.Program
