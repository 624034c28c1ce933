import PipeCall.Program

/-!
# Entry point

Reads the environment, runs the program and prints.
-/

open PipeCall

/-- Runs the program with the arguments of the command line. -/
def main (args : List String) : IO UInt32 := do
  let timeout ← IO.getEnv Settings.timeoutVariable
  let limit ← IO.getEnv Settings.limitVariable
  let path ← IO.getEnv Counterparty.Process.pathVariable
  let lookup (name : String) : Option String :=
    if name = Settings.timeoutVariable then timeout
    else if name = Settings.limitVariable then limit
    else if name = Counterparty.Process.pathVariable then path
    else none
  let result := Program.run args lookup
  IO.print result.output
  IO.eprint result.report
  pure (UInt32.ofNat result.code)
