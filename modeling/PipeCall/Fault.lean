import PipeCall.Decimal

/-!
# Faults of a stream

What can be wrong with a message or with the stream that carries it. Only a failing stream ends the
reading; every other fault costs one message.
-/

namespace PipeCall

/-- What is wrong with a message or its stream. -/
inductive Fault where
  /-- The bytes are no JSON document of a message's shape. -/
  | malformed
  /-- A reply names no call. -/
  | missingId
  /-- A message is longer than allowed. -/
  | oversized (size limit : Nat)
  /-- The stream failed. -/
  | stream (reason : String)
  deriving DecidableEq, Repr

namespace Fault

/-- The wording of a fault. -/
def text : Fault → String
  | .malformed => "Malformed message"
  | .missingId => "Reply has no id"
  | .oversized size limit =>
    "Message size " ++ Decimal.text size ++ " exceeds maximum " ++ Decimal.text limit ++ " bytes"
  | .stream reason => "I/O error: " ++ reason

/-- Whether nothing more can be read after the fault. -/
def isFatal : Fault → Bool
  | .stream _ => true
  | _ => false

end Fault

end PipeCall
