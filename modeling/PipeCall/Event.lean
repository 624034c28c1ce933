import PipeCall.CallId
import PipeCall.Fault
import PipeCall.Span

/-!
# Events

What a running client does that an operator may want to know. `Event.diagnostic?` is the line that
is shown for an event; two events are routine and show none.
-/

namespace PipeCall

/-- Something that happened in a client. -/
inductive Event where
  | started
  /-- The client was told to stop while so many calls were outstanding. -/
  | stopping (released : Nat)
  /-- A reply reached the call of this number. -/
  | resolved (id : Nat)
  /-- The counterparty sent a message of its own. -/
  | notification (method : String)
  /-- A reply names no outstanding call. -/
  | stray (id : CallId)
  /-- A frame is a reply without an identifier. -/
  | unidentified (frame : Bytes)
  /-- A frame is no message. -/
  | malformed
  /-- A frame was too long to be read. -/
  | unreadable (fault : Fault)
  /-- The stream ended inside a message of which so many bytes are left. -/
  | truncated (leftover : Nat)
  | inputEnded
  | inputFailed (fault : Fault)
  /-- The end of the input released so many calls. -/
  | abandoned (released : Nat)
  /-- A call cannot be written. -/
  | unsendable (id : Nat) (method : String) (fault : Fault)
  /-- Writing a call failed. -/
  | outputFailed (id : Nat) (method : String) (reason : String)
  /-- The output was not flushed in time. -/
  | writerOverdue (grace : Span)
  /-- The input was not let go in time. -/
  | readerOverdue (grace : Span)
  /-- A setting has a value that cannot be used. -/
  | invalidSetting (name value : String)

namespace Event

/-- The line shown for an event. -/
def diagnostic? : Event → Option String
  | .started => some "INFO IPC client started"
  | .stopping n =>
    some ("INFO Shutting down IPC client (" ++ Decimal.text n ++ " pending calls released)")
  | .resolved _ | .notification _ => none
  | .stray id => some ("WARN No pending call for reply with id " ++ id.shown)
  | .unidentified frame => some ("WARN Dropping reply without id: " ++ Utf8.lossy frame)
  | .malformed => some ("WARN Failed to parse message: " ++ Fault.malformed.text)
  | .unreadable fault => some ("WARN Dropping unreadable message: " ++ fault.text)
  | .truncated n =>
    some ("WARN Discarding " ++ Decimal.text n ++ " bytes of incomplete message at end of stream")
  | .inputEnded => some "INFO Input stream closed by counterparty"
  | .inputFailed fault => some ("ERROR Failed to read from input stream: " ++ fault.text)
  | .abandoned n =>
    some ("WARN Released " ++ Decimal.text n ++ " pending calls after reader exit")
  | .unsendable id method fault =>
    some ("ERROR Dropping call " ++ Decimal.text id ++ " (" ++ method ++ "): " ++ fault.text)
  | .outputFailed id method reason =>
    some ("ERROR Failed to write call " ++ Decimal.text id ++ " (" ++ method ++ "): " ++ reason)
  | .writerOverdue grace =>
    some ("WARN Writer loop did not finish flushing within " ++ grace.text ++ ", aborting")
  | .readerOverdue grace =>
    some ("WARN Reader loop did not stop within " ++ grace.text ++ ", aborting")
  | .invalidSetting name value =>
    some ("WARN Ignoring invalid " ++ name ++ "=" ++ Text.quoted value)

end Event

end PipeCall
