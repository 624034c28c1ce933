import PipeCall.Json.Printer
import PipeCall.Text.Quoted

/-!
# The command line

`<method> [params-json] -- <command> [args...]`: a call to make, and the counterparty to make it to.
The first separator ends the call; everything after it belongs to the counterparty.
-/

namespace PipeCall

/-- What a command line asks for. -/
structure Invocation where
  method : String
  params : Json
  command : String
  args : List String

namespace Invocation

/-- How the command line is to be used. -/
def usage : String := "usage: jrpc-pipe <method> [params-json] -- <command> [args...]"

/-- What is wrong with a command line. -/
inductive UsageError where
  | missingMethod
  | invalidParams (raw : String)
  | unexpectedArgument (extra : String)
  | missingCommand
  deriving DecidableEq, Repr

/-- The wording of what is wrong. -/
def UsageError.text : UsageError → String
  | .missingMethod => "missing method\n" ++ usage
  | .invalidParams raw => "Invalid params JSON: " ++ raw
  | .unexpectedArgument extra => "unexpected argument " ++ Text.quoted extra ++ "\n" ++ usage
  | .missingCommand => "missing counterparty command after --\n" ++ usage

/-- What separates the call from the counterparty. -/
def separator : String := "--"

/-- The parameters of a call; without a text for them they are an empty object. -/
def readParams : Option String → Except UsageError Json
  | none => .ok Json.emptyObject
  | some raw =>
    match Json.parse? (Utf8.encode raw) with
    | some v => .ok v
    | none => .error (.invalidParams raw)

/-- The method and the parameters of the arguments before the separator. -/
def readCall : List String → Except UsageError (String × Json)
  | [] => .error .missingMethod
  | method :: rest => do
    let params ← readParams rest.head?
    match rest.drop 1 with
    | [] => pure (method, params)
    | extra :: _ => .error (.unexpectedArgument extra)

/-- What a list of arguments asks for. -/
def parse (args : List String) : Except UsageError Invocation := do
  let (method, params) ← readCall (args.takeWhile (· ≠ separator))
  match (args.dropWhile (· ≠ separator)).drop 1 with
  | [] => .error .missingCommand
  | command :: args => pure ⟨method, params, command, args⟩

end Invocation

end PipeCall
