import PipeCall.Session.State

/-!
# What can be done to a client

A `Command` is anything that its owner, its callers, its counterparty or the clock does. It takes
effect at once; what follows from it is for `Session.settle`.
-/

namespace PipeCall.Session

/-- A client that has not been started. -/
def new (limit : Nat) (timeout : Span) : Session :=
  { limit, window := timeout.millis }

/-! ## The owner -/

/-- Starts the client on its streams; a client starts once. -/
def start (s : Session) : Except CallError Session :=
  match s.lifecycle with
  | .notStarted =>
    .ok ({ s with lifecycle := .running, writer := .ready, reader := .running }.note .started)
  | _ => .error .alreadyStarted

/-- Lets go of the streams that the client is offered and does not take. If it has had streams
before, those are its own, and it keeps them: the ones it is offered now are others. -/
def declineStreams (s : Session) : Session :=
  match s.writer, s.reader with
  | .absent, .absent => { s with writer := .lost, reader := .gone }
  | _, _ => s

/-- One step of a shutdown: a loop that is gone is waited for no longer, and one that is not gone at
the deadline is stopped, which lets its stream go.

A reader that is stopped so keeps its replies on their way here, where the tasks that take them to the
registry go with the reader. On one thread these tasks were made before the reader is stopped and have
their turns before it is let go, so no reply is lost that is still on its way here; and what they find
is a registry that the shutdown has drained. With several threads they may be lost. -/
def close? (s : Session) : Option Session :=
  match s.closing with
  | .writer grace deadline =>
    let next := { s with closing := .reader grace (s.clock + grace) }
    if s.writer.isGone then some next
    else if deadline ≤ s.clock then
      some ({ next with writer := .lost }.note (.writerOverdue (Span.ofMillis grace)))
    else none
  | .reader grace deadline =>
    let next := { s with closing := .finished }
    if s.reader.isGone then some next
    else if deadline ≤ s.clock then
      some ({ next with reader := .gone }.note (.readerOverdue (Span.ofMillis grace)))
    else none
  | _ => none

/-- Shuts the client down: every outstanding call is released, and nothing more is taken into the
queue. A client that runs then waits for its writer, and after that for its reader, each for as long
as a call would wait now. If that is no time at all they are stopped before they can go on. -/
def shutDown (s : Session) : Session :=
  let (released, registry) := s.registry.drain
  let stopped := { s with lifecycle := .shutDown, registry }
  match s.lifecycle with
  | .running =>
    let waiting :=
      { stopped with closing := .writer s.window (s.clock + s.window) }.note (.stopping released)
    if s.window = 0 then (waiting.close?.bind close?).getD waiting else waiting
  | _ => stopped

/-- Sets how long a call waits that is issued from now on. -/
def setTimeout (s : Session) (timeout : Span) : Session := { s with window := timeout.millis }

/-! ## The callers -/

/-- A call to be made; without parameters it is one whose parameters cannot be written. -/
structure Order where
  method : String
  params : Option Json
  shape : Shape := .value

/-- Adds a call. -/
def addCall (s : Session) (c : Call) : Session := { s with calls := s.calls ++ [c] }

/-- Whether a call that is made now finds a place in the outbound queue. A place that comes free is
kept for the first call that waits and has none yet, so those that are kept are taken. A call whose
place is kept has still to get its turn, and until then it is overtaken by a call that is made and
finds another place free. -/
def hasRoom (s : Session) : Bool :=
  s.queue.length + s.calls.countP Call.isWaiting < queueCapacity

/-- Hands a registered call's request to the queue, if there is room. A call that finds no writer ends
at once. -/
def enqueue (s : Session) (ticket : Ticket) : Session :=
  if !s.writer.isAlive then
    { s with registry := s.unregister ticket }.addCall <|
      .registered ticket (.ended (.error (.protocol "outbound queue closed")))
  else if s.hasRoom then
    { s with queue := s.queue ++ [ticket.request] }.addCall (.registered ticket .queued)
  else
    s.addCall (.registered ticket .waiting)

/-- Makes a call. It must find the client running and its parameters writable before it takes a
number; it is refused if the registry is closed. -/
def issue (s : Session) (order : Order) : Session :=
  match s.lifecycle, order.params with
  | .running, some params =>
    let (id, ids) := s.ids.take
    match s.registry.register id with
    | .error _ => { s with ids }.addCall (.refused .shutDown)
    | .ok (slot, registry) =>
      { s with ids, registry }.enqueue
        { request := ⟨id, order.method, params⟩, shape := order.shape, slot, issuedAt := s.clock,
          window := s.window }
  | .running, none => s.addCall (.refused .serialization)
  | _, _ => s.addCall (.refused .shutDown)

/-- The caller gives a call up, named by its place in the order of issue. -/
def abandon (s : Session) (place : Nat) : Session :=
  match s.calls[place]? with
  | some (.registered ticket phase) =>
    if phase.isLive then
      { s with
        calls := s.calls.set place (.registered ticket .abandoned)
        registry := s.unregister ticket }
    else s
  | _ => s

/-! ## The counterparty and the clock -/

/-- Changes the input stream. -/
def onInput (s : Session) (f : Input → Input) : Session :=
  { s with intake := { s.intake with input := f s.intake.input } }

/-- Something that is done to a client. -/
inductive Command where
  | start
  | shutDown
  | setTimeout (timeout : Span)
  | issue (order : Order)
  | abandon (place : Nat)
  /-- The counterparty sends bytes. -/
  | send (bs : Bytes)
  /-- The counterparty closes its end. -/
  | endInput
  /-- The next read fails that finds nothing. -/
  | failInput (reason : String)
  /-- The counterparty takes so many bytes more. -/
  | grant (n : Nat)
  /-- A write fails that has no room. -/
  | failOutput (reason : String)
  | failFlush (reason : String)
  | failClose (reason : String)
  /-- So many milliseconds pass. Nothing else happens while they do, so every deadline on the way is
  due at their end alike. -/
  | advance (millis : Nat)

/-- The immediate effect of a command. -/
def apply (s : Session) : Command → Session
  | .start =>
    match s.start with
    | .ok started => started
    | .error _ => s.declineStreams
  | .shutDown => s.shutDown
  | .setTimeout timeout => s.setTimeout timeout
  | .issue order => s.issue order
  | .abandon place => s.abandon place
  | .send bs => s.onInput fun i => { i with arrived := i.arrived ++ bs }
  | .endInput => s.onInput fun i => { i with ended := true }
  | .failInput reason => s.onInput fun i => { i with failure := some reason }
  | .grant n => { s with output := { s.output with room := s.output.room.map (· + n) } }
  | .failOutput reason => { s with output := { s.output with failure := some reason } }
  | .failFlush reason => { s with output := { s.output with flushFailure := some reason } }
  | .failClose reason => { s with output := { s.output with closeFailure := some reason } }
  | .advance millis => { s with clock := s.clock + millis }

end PipeCall.Session
