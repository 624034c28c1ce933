import PipeCall.Message
import PipeCall.Span

/-!
# Errors of a call

What a caller is told when there is no result.
-/

namespace PipeCall

/-- Why a call, or starting the client, came to nothing. -/
inductive CallError where
  /-- The client is not running, or stopped while the call waited. -/
  | shutDown
  /-- The client was started before. -/
  | alreadyStarted
  /-- No reply came within the window. -/
  | timeout (window : Span)
  /-- The counterparty answered with a failure. -/
  | server (failure : Failure)
  /-- The call could not be handed to the output. -/
  | protocol (reason : String)
  /-- The parameters cannot be written, or the result is not what was expected. -/
  | serialization

namespace CallError

/-- The wording of an error. -/
def text : CallError → String
  | .shutDown => "Client is shut down"
  | .alreadyStarted => "Client already started"
  | .timeout window => "Request timed out after " ++ window.text
  | .server f => "Server error " ++ Decimal.intText f.code ++ ": " ++ f.message
  | .protocol reason => "Protocol error: " ++ reason
  | .serialization => "Serialization error"

end CallError

end PipeCall
