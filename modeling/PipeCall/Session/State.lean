import PipeCall.CallError
import PipeCall.Event
import PipeCall.Frame.Intake
import PipeCall.Registry
import PipeCall.Shape

/-!
# The state of a client

A `Session` is one client with its two streams, on a clock of whole milliseconds. Its calls are kept
in order of issue with how far each has got: a call waits for room in the outbound queue, then for
its settlement, and then it is over. The writer takes requests off the queue and puts them on the
output; the reader takes frames off the input, and a reply that it has read is on its way to the
registry for a moment before it gets there.
-/

namespace PipeCall

namespace Session

/-- How many requests the outbound queue holds, beside the one that is being written. -/
def queueCapacity : Nat := 64

/-- How many replies may be on their way to the registry at a time. -/
def maxInFlight : Nat := 256

/-! ## Calls -/

/-- What identifies a call that was registered. -/
structure Ticket where
  request : Request
  shape : Shape
  /-- The slot of its registration. -/
  slot : Nat
  issuedAt : Nat
  /-- How long it waits, in milliseconds. -/
  window : Nat

namespace Ticket

/-- The number of the call. -/
def id (t : Ticket) : Nat := t.request.id

/-- When its time is up. -/
def deadline (t : Ticket) : Nat := t.issuedAt + t.window

end Ticket

/-- How a call comes out. -/
abbrev Outcome := Except CallError Json

/-- How far a registered call has got. -/
inductive Phase where
  /-- It waits for room in the outbound queue. -/
  | waiting
  /-- It was taken into the queue and waits for its settlement. -/
  | queued
  | ended (outcome : Outcome)
  /-- Its caller has given it up. -/
  | abandoned

namespace Phase

/-- Whether the call is still going on. -/
def isLive : Phase → Bool
  | .waiting | .queued => true
  | .ended _ | .abandoned => false

/-- Whether the call waits for room. -/
def isWaiting : Phase → Bool
  | .waiting => true
  | _ => false

end Phase

/-- A call that was made. -/
inductive Call where
  /-- It ended before it was registered. -/
  | refused (error : CallError)
  | registered (ticket : Ticket) (phase : Phase)

namespace Call

/-- Whether the call is still going on. -/
def isLive : Call → Bool
  | .refused _ => false
  | .registered _ phase => phase.isLive

/-- Whether the call waits for room in the outbound queue. -/
def isWaiting : Call → Bool
  | .refused _ => false
  | .registered _ phase => phase.isWaiting

/-- How the call came out, once it has. -/
def outcome? : Call → Option Outcome
  | .refused e => some (.error e)
  | .registered _ (.ended outcome) => some outcome
  | .registered _ _ => none

/-- The ticket of a call that is still going on. -/
def liveTicket? : Call → Option Ticket
  | .registered ticket phase => if phase.isLive then some ticket else none
  | .refused _ => none

end Call

/-- How a settled call comes out: its result must have the expected shape. -/
def outcomeOf (shape : Shape) : Settlement → Outcome
  | .shutDown => .error .shutDown
  | .reply r =>
    match r.outcome with
    | .error failure => .error (.server failure)
    | .ok v =>
      match shape.read? v with
      | some v => .ok v
      | none => .error .serialization

/-! ## The two loops -/

/-- What the writer is doing. -/
inductive Writer where
  | absent
  /-- It waits for a request. -/
  | ready
  /-- It has so much of a request's frame left to write. -/
  | writing (request : Request) (rest : Bytes)
  /-- It has shut the output down and let it go. -/
  | closed
  /-- It has let the output go without shutting it down. -/
  | lost

namespace Writer

/-- Whether it is there and will take requests. -/
def isAlive : Writer → Bool
  | .ready | .writing _ _ => true
  | _ => false

/-- Whether it has let the output go. -/
def isGone : Writer → Bool
  | .closed | .lost => true
  | _ => false

end Writer

/-- What the reader is doing. -/
inductive Reader where
  | absent
  | running
  /-- It reads no more and waits for the replies on their way to the registry. -/
  | leaving
  /-- It has let the input go. -/
  | gone

namespace Reader

/-- Whether it has let the input go. -/
def isGone : Reader → Bool
  | .gone => true
  | _ => false

end Reader

/-! ## The client -/

/-- Where a client is in its life; there is no way back. -/
inductive Lifecycle where
  | notStarted
  | running
  | shutDown
  deriving DecidableEq, Repr

/-- How far a shutdown has got that found the client running. -/
inductive Closing where
  /-- There was none. -/
  | none
  /-- It waits for the writer, no longer than to the deadline. -/
  | writer (grace deadline : Nat)
  /-- It waits for the reader, no longer than to the deadline. -/
  | reader (grace deadline : Nat)
  | finished

end Session

open Session in
/-- A client, its streams and its clock. -/
structure Session where
  /-- The greatest length of a message either way. -/
  limit : Nat := Frame.defaultLimit
  /-- How long a call waits that is issued now, in milliseconds. -/
  window : Nat
  clock : Nat := 0
  lifecycle : Lifecycle := .notStarted
  ids : CallId.Counter := {}
  registry : Registry := {}
  /-- Every call made, in order of issue. -/
  calls : List Call := []
  /-- The requests that wait to be written. -/
  queue : List Request := []
  writer : Writer := .absent
  output : Output := {}
  reader : Reader := .absent
  intake : Frame.Intake := ⟨{}, ⟨limit, [], 0, none⟩⟩
  /-- The replies on their way to the registry, each with the number of the call it names. -/
  inFlight : List (Nat × Reply) := []
  closing : Closing := .none
  /-- What happened, in order. -/
  events : List Event := []

namespace Session

/-- Notes an event. -/
def note (s : Session) (e : Event) : Session := { s with events := s.events ++ [e] }

/-- The tickets of the calls that are still going on, in order of issue. -/
def liveTickets (s : Session) : List Ticket := s.calls.filterMap Call.liveTicket?

/-- Whether nothing more can come into the outbound queue: the client is shut down, and no call is
left that could still hand in its request. -/
def queueClosed (s : Session) : Bool :=
  s.lifecycle = .shutDown && s.calls.all fun c => !c.isLive

/-- A registered call among the others. -/
structure Spot where
  before : List Call
  ticket : Ticket
  phase : Phase
  after : List Call

/-- The calls with another phase in that spot. -/
def Spot.put (spot : Spot) (phase : Phase) : List Call :=
  spot.before ++ .registered spot.ticket phase :: spot.after

/-- The first registered call that a test holds of. -/
def spot? (test : Ticket → Phase → Bool) : List Call → Option Spot
  | [] => none
  | .registered ticket phase :: rest =>
    if test ticket phase then some ⟨[], ticket, phase, rest⟩
    else (spot? test rest).map fun spot =>
      { spot with before := .registered ticket phase :: spot.before }
  | .refused e :: rest =>
    (spot? test rest).map fun spot => { spot with before := .refused e :: spot.before }

/-- A call leaves the registry: its entry, if there is one, and its slot. -/
def unregister (s : Session) (t : Ticket) : Registry := ((s.registry.cancel t.id).2).release t.slot

/-- The call in a spot ends. -/
def conclude (s : Session) (spot : Spot) (outcome : Outcome) : Session :=
  { s with calls := spot.put (.ended outcome), registry := s.unregister spot.ticket }

end Session

end PipeCall
