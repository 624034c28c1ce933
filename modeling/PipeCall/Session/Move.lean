import PipeCall.Session.Command

/-!
# How a client goes on by itself

A `Move` is one thing that a client can do without anything being done to it. A move that is not
possible gives nothing. `Move.order` is the order in which a client on one thread that is left alone
prefers them: calls that are settled or out of time end first, the writer empties its queue before it
is filled again, the queue is filled before the writer goes on, and a shutdown goes on when nothing
else can. Among other tasks the moves come in other orders, and calls get their turns one by one
(`turn?`); nothing is then left to do that would not come in this order (`turn?_of_rest`).
-/

namespace PipeCall.Session

/-- One thing that a client can do by itself. -/
inductive Move where
  /-- A call takes its settlement. -/
  | deliver
  /-- A call's time is up. -/
  | expire
  /-- A call that waits for room finds that there is no writer any more. -/
  | refuse
  /-- The writer takes a request, or goes on with one, or shuts the output down. -/
  | write
  /-- The calls that wait for room take what there is. -/
  | refill
  /-- The call in this place gets its turn. -/
  | turn (place : Nat)
  /-- The reader takes a frame, or reads, or stops. -/
  | read
  /-- The reply in this place of those on their way gets to the registry. -/
  | resolve (place : Nat)
  /-- The reader lets the input go. -/
  | leave
  /-- A shutdown goes on. -/
  | close

/-! ## Calls -/

/-- The settlement that has come for a call. -/
def settlement? (s : Session) (t : Ticket) : Option Settlement :=
  match s.registry.look t.slot with
  | .settled settlement => some settlement
  | _ => none

/-- The first call that is settled ends. -/
def deliver? (s : Session) : Option Session := do
  let spot ← spot? (fun t phase => phase.isLive && (s.settlement? t).isSome) s.calls
  let settlement ← s.settlement? spot.ticket
  pure (s.conclude spot (outcomeOf spot.ticket.shape settlement))

/-- The first call whose time is up ends, if no call has a settlement to take. -/
def expire? (s : Session) : Option Session :=
  if s.deliver?.isSome then none
  else do
    let spot ← spot? (fun t phase => phase.isLive && t.deadline ≤ s.clock) s.calls
    pure (s.conclude spot (.error (.timeout (Span.ofMillis spot.ticket.window))))

/-- The first call that waits for room ends because there is no writer, if no call has a settlement to
take. -/
def refuse? (s : Session) : Option Session :=
  if s.writer.isGone && s.deliver?.isNone then do
    let spot ← spot? (fun _ phase => phase.isWaiting) s.calls
    pure (s.conclude spot (.error (.protocol "outbound queue closed")))
  else none

/-- The first `room` calls that wait are taken into the queue: the calls after that, and the
requests. -/
def letIn : Nat → List Call → List Call × List Request
  | room + 1, .registered ticket .waiting :: rest =>
    let (calls, requests) := letIn room rest
    (.registered ticket .queued :: calls, ticket.request :: requests)
  | room + 1, c :: rest =>
    let (calls, requests) := letIn (room + 1) rest
    (c :: calls, requests)
  | _, calls => (calls, [])

/-- As many calls that wait as there is room for hand their requests to the queue, if no call has a
settlement to take. The writer goes on only after all of them, so it finds them there even if it then
fails. -/
def refill? (s : Session) : Option Session :=
  if s.writer.isAlive && s.deliver?.isNone then
    match letIn (queueCapacity - s.queue.length) s.calls with
    | (_, []) => none
    | (calls, requests) => some { s with calls, queue := s.queue ++ requests }
  else none

/-- The call in a place ends. -/
def endAt (s : Session) (place : Nat) (ticket : Ticket) (outcome : Outcome) : Session :=
  { s with
    calls := s.calls.set place (.registered ticket (.ended outcome))
    registry := s.unregister ticket }

/-- Whether a place in the queue is kept for a call that waits in this place: there are more of them
than calls that wait before it. -/
def keepsRoom (s : Session) (place : Nat) : Bool :=
  s.queue.length + (s.calls.take place).countP Call.isWaiting < queueCapacity

/-- The call in a place gets its turn, whatever the others can do. It takes its settlement if that has
come. Otherwise it ends if it waits for room and there is no writer any more; it hands its request to
the queue if it waits and a place is kept for it; or it ends if its time is up. -/
def turn? (s : Session) (place : Nat) : Option Session :=
  match s.calls[place]? with
  | some (.registered ticket phase) =>
    if !phase.isLive then none
    else
      match s.settlement? ticket with
      | some settlement => some (s.endAt place ticket (outcomeOf ticket.shape settlement))
      | none =>
        if phase.isWaiting && s.writer.isGone then
          some (s.endAt place ticket (.error (.protocol "outbound queue closed")))
        else if phase.isWaiting && s.writer.isAlive && s.keepsRoom place then
          some { s with
            calls := s.calls.set place (.registered ticket .queued)
            queue := s.queue ++ [ticket.request] }
        else if ticket.deadline ≤ s.clock then
          some (s.endAt place ticket (.error (.timeout (Span.ofMillis ticket.window))))
        else none
  | _ => none

/-! ## The writer -/

/-- The writer goes on with a frame. -/
def writeOn (s : Session) (r : Request) (rest : Bytes) : Session :=
  match s.output.send rest with
  | (.done, output) => { s with writer := .ready, output }
  | (.failed reason, output) =>
    { s with writer := .lost, output }.note (.outputFailed r.id r.method reason)
  | (.waiting rest, output) => { s with writer := .writing r rest, output }

/-- One step of the writer. -/
def write? (s : Session) : Option Session :=
  match s.writer, s.queue with
  | .writing r rest, _ => if s.output.isStuck then none else some (s.writeOn r rest)
  | .ready, r :: queue =>
    match r.frame s.limit with
    | .ok frame => some { s with writer := .writing r frame, queue }
    | .error fault => some ({ s with queue }.note (.unsendable r.id r.method fault))
  | .ready, [] =>
    if s.queueClosed then
      some { s with writer := if s.output.closeFailure.isSome then .lost else .closed }
    else none
  | _, _ => none

/-! ## The reader -/

/-- What the reader does with a frame. -/
def dispatch (s : Session) (frame : Bytes) : Session :=
  match Inbound.parse frame with
  | .ok (.reply r) =>
    match r.id.key? with
    | some id => { s with inFlight := s.inFlight ++ [(id, r)] }
    | none => s.note (.stray r.id)
  | .ok (.notification method) => s.note (.notification method)
  | .error .missingId => s.note (.unidentified frame)
  | .error _ => s.note .malformed

/-- One step of the reader while it runs. -/
def read? (s : Session) : Option Session :=
  match s.reader with
  | .running =>
    if s.lifecycle = .shutDown then some { s with reader := .leaving }
    else if maxInFlight ≤ s.inFlight.length then none
    else
      match s.intake.pull with
      | (.frame body, intake) => some ({ s with intake }.dispatch body)
      | (.refused fault, intake) => some ({ s with intake }.note (.unreadable fault))
      | (.buffered, intake) => some { s with intake }
      | (.failed fault, intake) =>
        some ({ s with intake, reader := .leaving }.note (.inputFailed fault))
      | (.ended leftover, intake) =>
        let noted := (leftover.map Event.truncated).toList.foldl note s
        some ({ noted with intake, reader := .leaving }.note .inputEnded)
      | (.waiting, _) => none
  | _ => none

/-- A reply gets to the registry. -/
def resolve? (s : Session) (place : Nat) : Option Session := do
  let (id, reply) ← s.inFlight[place]?
  let (found, registry) := s.registry.resolve id reply
  let s := { s with inFlight := s.inFlight.eraseIdx place, registry }
  pure (s.note (if found then .resolved id else .stray (.number id)))

/-- The reader has no reply left on its way: it drains the registry and lets the input go. -/
def leave? (s : Session) : Option Session :=
  match s.reader, s.inFlight with
  | .leaving, [] =>
    let (released, registry) := s.registry.drain
    let s := { s with reader := .gone, registry }
    some (if released = 0 then s else s.note (.abandoned released))
  | _, _ => none

/-! ## All of them -/

/-- The state after a move, if it is possible. -/
def perform? (s : Session) : Move → Option Session
  | .deliver => s.deliver?
  | .expire => s.expire?
  | .refuse => s.refuse?
  | .write => s.write?
  | .refill => s.refill?
  | .turn place => s.turn? place
  | .read => s.read?
  | .resolve place => s.resolve? place
  | .leave => s.leave?
  | .close => s.close?

/-- The order in which moves are tried. -/
def Move.order : List Move :=
  [.deliver, .expire, .refuse, .write, .refill, .read, .resolve 0, .leave, .close]

/-- The state after the first move that is possible. -/
def next? (s : Session) : Option Session := Move.order.findSome? s.perform?

end PipeCall.Session
