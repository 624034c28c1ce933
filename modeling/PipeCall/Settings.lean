import PipeCall.Event
import PipeCall.Frame
import PipeCall.Text.Blank

/-!
# Settings

How long a call waits, and how long a message may be. Both have a default and a variable of the
environment that replaces it; a value that cannot be used is reported and leaves the default. One that
is not even text is taken for none.
-/

namespace PipeCall

/-- The settings of a client. -/
structure Settings where
  timeout : Span := Span.ofSecs 20
  limit : Nat := Frame.defaultLimit
  deriving DecidableEq, Repr

namespace Settings

/-- The variable with the timeout in whole seconds. -/
def timeoutVariable : String := "JRPC_PIPE_TIMEOUT_SECS"

/-- The variable with the greatest length of a message in bytes. -/
def limitVariable : String := "JRPC_PIPE_MAX_MESSAGE_SIZE"

/-- The number that a variable's value is: white space around it does not count. -/
def readNumber? (value : String) : Option Nat := Decimal.readWord? (Text.trim value.toList)

/-- The number that a variable holds, and the report if it is set to anything else. -/
def readVariable (name : String) (value : Option String) : Option Nat × List Event :=
  match value with
  | none => (none, [])
  | some raw =>
    match readNumber? raw with
    | some n => (some n, [])
    | none => (none, [.invalidSetting name raw])

/-- The settings that the environment asks for, and what is wrong with it. -/
def ofEnvironment (lookup : String → Option String) : Settings × List Event :=
  let (secs, timeoutEvents) := readVariable timeoutVariable (lookup timeoutVariable)
  let (bytes, limitEvents) := readVariable limitVariable (lookup limitVariable)
  let defaults : Settings := {}
  ({ timeout := (secs.map Span.ofSecs).getD defaults.timeout
     limit := bytes.getD defaults.limit },
    timeoutEvents ++ limitEvents)

/-- The settings that an environment of byte strings asks for: a variable that does not hold text
counts as one that is not set. -/
def ofBytes (environment : String → Option Bytes) : Settings × List Event :=
  ofEnvironment fun name => (environment name).bind Utf8.decode?

end Settings

end PipeCall
