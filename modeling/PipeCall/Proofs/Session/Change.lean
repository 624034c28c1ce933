import PipeCall.Proofs.Registry.Operations
import PipeCall.Proofs.Session.Calls

/-!
# How a client changes

A client changes by a command, or by a move that it makes itself (`Becomes`). `Effect` lists all that
a change can do to the calls and to the registry, with the grounds for it: a call is made, is taken
into the queue, ends or is given up, a reply gets to the registry, the registry is drained, or neither
changes. `Becomes.effect` shows that every change is one of these, so what holds of the calls and
the registry is proved by a case analysis over `Effect` and not over the commands and moves.

The loops and the shutdown leave the calls and the registry alone. Every way one of their steps can
go is a constructor of a relation: `Reads` for the reader, `Writes` for the writer, `Closes` for a
shutdown. The fields that such a step may change are read off it (`read?_frame`, `write?_frame`,
`close?_frame`). `Touches` gives those fields for every cause, so that whatever is not among them is
the same after a change.
-/

namespace PipeCall.Session

/-- Why a client changes. -/
inductive Cause where
  /-- Something is done to it. -/
  | command (c : Command)
  /-- It goes on by itself. -/
  | move (m : Move)

/-- A client becomes another for a cause. -/
def Becomes (s : Session) : Cause → Session → Prop
  | .command c, t => t = s.apply c
  | .move m, t => s.perform? m = some t

/-- What a command makes of a client is a change. -/
theorem becomes_apply (s : Session) (c : Command) : s.Becomes (.command c) (s.apply c) := rfl

/-- So is what a move makes of it. -/
theorem becomes_of_perform? {s t : Session} {m : Move} (h : s.perform? m = some t) :
    s.Becomes (.move m) t := h

/-- What a call is told that finds no writer, or loses it while it waits for room. -/
def noWriter : CallError := .protocol "outbound queue closed"

/-- The ticket of a call that is made now and gets this slot. -/
def ticketFor (s : Session) (order : Order) (params : Json) (slot : Nat) : Ticket where
  request := ⟨s.ids.next, order.method, params⟩
  shape := order.shape
  slot := slot
  issuedAt := s.clock
  window := s.window

/-! ## What the loops leave alone -/

section Frames

variable {s t : Session}

/-- Starting a client, or declining to, changes its lifecycle, the two loops and the events alone. -/
theorem start_frame (s : Session) :
    ∃ lifecycle writer reader events,
      s.apply .start = { s with lifecycle, writer, reader, events } := by
  simp only [apply, start, declineStreams]
  cases s.lifecycle with
  | notStarted => exact ⟨_, _, _, _, rfl⟩
  | running => dsimp only; split <;> exact ⟨_, _, _, _, rfl⟩
  | shutDown => dsimp only; split <;> exact ⟨_, _, _, _, rfl⟩

/-- Making a call changes the numbers, the registry, the calls and the queue alone. -/
theorem issue_frame (s : Session) (order : Order) :
    ∃ ids registry calls queue, s.issue order = { s with ids, registry, calls, queue } := by
  unfold issue
  split
  · dsimp only
    split
    · exact ⟨_, _, _, _, rfl⟩
    · unfold enqueue
      split
      · exact ⟨_, _, _, _, rfl⟩
      · split <;> exact ⟨_, _, _, _, rfl⟩
  · exact ⟨_, _, _, _, rfl⟩
  · exact ⟨_, _, _, _, rfl⟩

/-- Giving a call up changes the calls and the registry alone. -/
theorem abandon_frame (s : Session) (place : Nat) :
    ∃ calls registry, s.abandon place = { s with calls, registry } := by
  unfold abandon
  split
  · split <;> exact ⟨_, _, rfl⟩
  · exact ⟨_, _, rfl⟩

/-- What the reader does with a frame shows in the replies on their way and in the events alone. -/
theorem dispatch_frame (s : Session) (body : Bytes) :
    ∃ inFlight events, s.dispatch body = { s with inFlight, events } := by
  unfold dispatch
  split
  · split
    · exact ⟨_, _, rfl⟩
    · exact ⟨_, _, rfl⟩
  · exact ⟨_, _, rfl⟩
  · exact ⟨_, _, rfl⟩
  · exact ⟨_, _, rfl⟩

/-- The reader may take something: the client is not shut down, and one reply more may be on its way.
-/
structure MayTake (s : Session) : Prop where
  goesOn : s.lifecycle ≠ .shutDown
  room : s.inFlight.length < maxInFlight

/-- What a step of the reader does. -/
inductive Reads (s : Session) : Session → Prop
  /-- The client is shut down, so the reader stops. -/
  | stops (shut : s.lifecycle = .shutDown) : Reads s { s with reader := .leaving }
  /-- It takes a frame. -/
  | frame {body : Bytes} {intake : Frame.Intake} (may : s.MayTake)
      (pulled : s.intake.pull = (.frame body, intake)) : Reads s ({ s with intake }.dispatch body)
  /-- It takes the report of a frame that was too long. -/
  | refused {fault : Fault} {intake : Frame.Intake} (may : s.MayTake)
      (pulled : s.intake.pull = (.refused fault, intake)) :
      Reads s (({ s with intake } : Session).note (.unreadable fault))
  /-- It takes bytes off the input. -/
  | buffered {intake : Frame.Intake} (may : s.MayTake)
      (pulled : s.intake.pull = (.buffered, intake)) : Reads s { s with intake }
  /-- The input has failed, so it stops. -/
  | failed {fault : Fault} {intake : Frame.Intake} (may : s.MayTake)
      (pulled : s.intake.pull = (.failed fault, intake)) :
      Reads s (({ s with intake, reader := .leaving } : Session).note (.inputFailed fault))
  /-- The input is at its end, so it stops, and tells of what is left of a message. -/
  | ended {leftover : Option Nat} {intake : Frame.Intake} (may : s.MayTake)
      (pulled : s.intake.pull = (.ended leftover, intake)) :
      Reads s { s with
        intake
        reader := .leaving
        events := s.events ++ (leftover.map Event.truncated).toList ++ [.inputEnded] }

/-- Every step of the reader is one of these. -/
theorem reads_of_read? (h : s.read? = some t) : s.reader = .running ∧ s.Reads t := by
  unfold read? at h
  split at h
  · rename_i hreader
    refine ⟨hreader, ?_⟩
    split at h
    · rename_i hshut
      obtain rfl := Option.some.inj h
      exact .stops hshut
    · rename_i hgoesOn
      split at h
      · simp at h
      · rename_i hroom
        have may : s.MayTake := ⟨hgoesOn, Nat.not_le.1 hroom⟩
        split at h
        · rename_i body intake hpull
          obtain rfl := Option.some.inj h
          exact .frame may hpull
        · rename_i fault intake hpull
          obtain rfl := Option.some.inj h
          exact .refused may hpull
        · rename_i intake hpull
          obtain rfl := Option.some.inj h
          exact .buffered may hpull
        · rename_i fault intake hpull
          obtain rfl := Option.some.inj h
          exact .failed may hpull
        · rename_i leftover intake hpull
          obtain rfl := Option.some.inj h
          have hended := Reads.ended may hpull
          cases leftover with
          | none => simpa [note] using hended
          | some n => simpa [note] using hended
        · simp at h
  · simp at h

/-- The reader changes its input, its own state, the replies on their way and the events alone. -/
theorem read?_frame (h : s.read? = some t) :
    ∃ intake reader inFlight events, t = { s with intake, reader, inFlight, events } := by
  obtain ⟨-, hreads⟩ := reads_of_read? h
  cases hreads with
  | @frame body intake =>
    obtain ⟨inFlight, events, hd⟩ := dispatch_frame { s with intake } body
    exact ⟨_, _, _, _, hd⟩
  | stops | refused | buffered | failed | ended => exact ⟨_, _, _, _, rfl⟩

/-- What a step of the writer does. -/
inductive Writes (s : Session) : Session → Prop
  /-- It writes a frame to its end. -/
  | sent {r : Request} {rest : Bytes} {output : Output} (writes : s.writer = .writing r rest)
      (room : s.output.isStuck = false) (sends : s.output.send rest = (.done, output)) :
      Writes s { s with writer := .ready, output }
  /-- It fails to write a frame. -/
  | failed {r : Request} {rest : Bytes} {reason : String} {output : Output}
      (writes : s.writer = .writing r rest) (room : s.output.isStuck = false)
      (sends : s.output.send rest = (.failed reason, output)) :
      Writes s (({ s with writer := .lost, output } : Session).note
        (.outputFailed r.id r.method reason))
  /-- It writes some of a frame. -/
  | left {r : Request} {rest behind : Bytes} {output : Output}
      (writes : s.writer = .writing r rest) (room : s.output.isStuck = false)
      (sends : s.output.send rest = (.waiting behind, output)) :
      Writes s { s with writer := .writing r behind, output }
  /-- It takes a request off the queue. -/
  | takes {r : Request} {queue : List Request} {frame : Bytes} (ready : s.writer = .ready)
      (first : s.queue = r :: queue) (framed : r.frame s.limit = .ok frame) :
      Writes s { s with writer := .writing r frame, queue }
  /-- It passes over a request that cannot be written. -/
  | passes {r : Request} {queue : List Request} {fault : Fault} (ready : s.writer = .ready)
      (first : s.queue = r :: queue) (framed : r.frame s.limit = .error fault) :
      Writes s (({ s with queue } : Session).note (.unsendable r.id r.method fault))
  /-- It has nothing left to wait for, and shuts the output down. -/
  | shuts (ready : s.writer = .ready) (empty : s.queue = []) (closed : s.queueClosed = true) :
      Writes s { s with writer := if s.output.closeFailure.isSome then .lost else .closed }

/-- Every step of the writer is one of these. -/
theorem writes_of_write? (h : s.write? = some t) : s.Writes t := by
  unfold write? at h
  split at h
  · rename_i r rest hwriter
    split at h
    · simp at h
    · rename_i hstuck
      have room : s.output.isStuck = false := Bool.eq_false_iff.2 hstuck
      obtain rfl := Option.some.inj h
      unfold writeOn
      split
      · exact .sent hwriter room ‹_›
      · exact .failed hwriter room ‹_›
      · exact .left hwriter room ‹_›
  · rename_i r queue hwriter hqueue
    split at h
    · obtain rfl := Option.some.inj h
      exact .takes hwriter hqueue ‹_›
    · obtain rfl := Option.some.inj h
      exact .passes hwriter hqueue ‹_›
  · rename_i hwriter hqueue
    split at h
    · rename_i hclosed
      obtain rfl := Option.some.inj h
      exact .shuts hwriter hqueue hclosed
    · simp at h
  · simp at h

/-- The writer changes its own state, the output, the queue and the events alone. -/
theorem write?_frame (h : s.write? = some t) :
    ∃ writer output queue events, t = { s with writer, output, queue, events } := by
  cases writes_of_write? h with
  | sent | failed | left | takes | passes | shuts => exact ⟨_, _, _, _, rfl⟩

/-- What a step of a shutdown does. -/
inductive Closes (s : Session) : Session → Prop
  /-- The writer is gone, so it is waited for no longer. -/
  | writerGone {grace deadline : Nat} (waits : s.closing = .writer grace deadline)
      (gone : s.writer.isGone = true) :
      Closes s { s with closing := .reader grace (s.clock + grace) }
  /-- The writer is given up. -/
  | writerOverdue {grace deadline : Nat} (waits : s.closing = .writer grace deadline)
      (stays : s.writer.isGone = false) (overdue : deadline ≤ s.clock) :
      Closes s (({ s with closing := .reader grace (s.clock + grace), writer := .lost } :
        Session).note (.writerOverdue (Span.ofMillis grace)))
  /-- The reader is gone, so the shutdown is over. -/
  | readerGone {grace deadline : Nat} (waits : s.closing = .reader grace deadline)
      (gone : s.reader.isGone = true) : Closes s { s with closing := .finished }
  /-- The reader is given up, and the shutdown is over. -/
  | readerOverdue {grace deadline : Nat} (waits : s.closing = .reader grace deadline)
      (stays : s.reader.isGone = false) (overdue : deadline ≤ s.clock) :
      Closes s (({ s with closing := .finished, reader := .gone } : Session).note
        (.readerOverdue (Span.ofMillis grace)))

/-- Every step of a shutdown is one of these. -/
theorem closes_of_close? (h : s.close? = some t) : s.Closes t := by
  unfold close? at h
  split at h
  · rename_i grace deadline waits
    simp only at h
    split at h
    · rename_i gone
      obtain rfl := Option.some.inj h
      exact .writerGone waits gone
    · rename_i stays
      split at h
      · rename_i overdue
        obtain rfl := Option.some.inj h
        exact .writerOverdue waits (Bool.eq_false_iff.2 stays) overdue
      · simp at h
  · rename_i grace deadline waits
    simp only at h
    split at h
    · rename_i gone
      obtain rfl := Option.some.inj h
      exact .readerGone waits gone
    · rename_i stays
      split at h
      · rename_i overdue
        obtain rfl := Option.some.inj h
        exact .readerOverdue waits (Bool.eq_false_iff.2 stays) overdue
      · simp at h
  · simp at h

/-- A shutdown changes how far it has got, the two loops and the events alone. -/
theorem close?_frame (h : s.close? = some t) :
    ∃ closing writer reader events, t = { s with closing, writer, reader, events } := by
  cases closes_of_close? h with
  | writerGone | writerOverdue | readerGone | readerOverdue => exact ⟨_, _, _, _, rfl⟩

/-- A client that was told to stop while it ran, before its loops know of it. -/
def told (s : Session) : Session :=
  ({ s with
      lifecycle := .shutDown
      registry := s.registry.drain.2
      closing := .writer s.window (s.clock + s.window) } : Session).note (.stopping s.registry.drain.1)

/-- Shutting a client down that runs leaves the loops to their own, unless they are given no time. -/
theorem shutDown_of_running (running : s.lifecycle = .running) (grace : 0 < s.window) :
    s.apply .shutDown = s.told := by
  have hgrace : s.window ≠ 0 := by omega
  simp only [apply, shutDown, running, if_neg hgrace]
  rfl

/-- Shutting a client down that gives its loops no time ends with its shutdown. -/
theorem shutDown_of_no_grace (running : s.lifecycle = .running) (grace : s.window = 0) :
    s.apply .shutDown = (s.told.close?.bind close?).getD s.told := by
  simp only [apply, shutDown, running, if_pos grace]
  rfl

/-- Shutting a client down that does not run releases its calls, and nothing else happens. -/
theorem shutDown_of_ne_running (h : s.lifecycle ≠ .running) :
    s.apply .shutDown = { s with lifecycle := .shutDown, registry := s.registry.drain.2 } := by
  simp only [apply, shutDown]

/-- What holds of a client that was told to stop, and is kept by every step of a shutdown, holds when
it was shut down. -/
theorem shutDown_keeps {P : Session → Prop} (running : s.lifecycle = .running) (first : P s.told)
    (close : ∀ {s t : Session}, P s → s.close? = some t → P t) : P (s.apply .shutDown) := by
  by_cases grace : s.window = 0
  · rw [shutDown_of_no_grace running grace]
    cases hwriter : s.told.close? with
    | none => exact first
    | some t =>
      cases hreader : t.close? with
      | none => simpa [hreader] using first
      | some v => simpa [hreader] using close (close first hwriter) hreader
  · rw [shutDown_of_running running (by omega)]
    exact first

/-- Shutting a client down drains the registry, and changes the lifecycle, the two loops, how far a
shutdown has got and the events besides. -/
theorem shutDown_frame (s : Session) :
    ∃ closing writer reader events, s.apply .shutDown =
      { s with
        lifecycle := .shutDown, registry := s.registry.drain.2, closing, writer, reader, events } := by
  by_cases running : s.lifecycle = .running
  · refine shutDown_keeps (P := fun t => ∃ closing writer reader events, t =
      { s with
        lifecycle := .shutDown, registry := s.registry.drain.2, closing, writer, reader, events })
      running ⟨_, _, _, _, rfl⟩ ?_
    rintro _ t ⟨closing, writer, reader, events, rfl⟩ hclose
    obtain ⟨closing', writer', reader', events', rfl⟩ := close?_frame hclose
    exact ⟨closing', writer', reader', events', rfl⟩
  · exact ⟨_, _, _, _, shutDown_of_ne_running running⟩

/-- A step of a shutdown is made only when one is under way. -/
theorem closing_of_close? (h : s.close? = some t) : s.closing ≠ .none := by
  cases closes_of_close? h with
  | writerGone waits | writerOverdue waits | readerGone waits | readerOverdue waits => simp [waits]

end Frames

/-! ## What the other moves do -/

section Moves

variable {s t : Session}

/-- The first call that is settled takes its settlement. -/
theorem deliver?_eq_some (h : s.deliver? = some t) :
    ∃ spot, spot? (fun t phase => phase.isLive && (s.settlement? t).isSome) s.calls = some spot ∧
      ∃ settlement, s.settlement? spot.ticket = some settlement ∧
        s.conclude spot (outcomeOf spot.ticket.shape settlement) = t := by
  simpa [deliver?, Option.bind_eq_some_iff] using h

/-- The first call whose time is up ends, if no call has a settlement to take. -/
theorem expire?_eq_some (h : s.expire? = some t) :
    s.deliver? = none ∧
      ∃ spot, spot? (fun t phase => phase.isLive && t.deadline ≤ s.clock) s.calls = some spot ∧
        s.conclude spot (.error (.timeout (Span.ofMillis spot.ticket.window))) = t := by
  simpa [expire?, Option.bind_eq_some_iff] using h

/-- The first call that waits for room ends if the writer is gone and no call has a settlement to take.
-/
theorem refuse?_eq_some (h : s.refuse? = some t) :
    s.writer.isGone = true ∧ s.deliver? = none ∧
      ∃ spot, spot? (fun _ phase => phase.isWaiting) s.calls = some spot ∧
        spot.phase = .waiting ∧ s.conclude spot (.error noWriter) = t := by
  unfold refuse? at h
  split at h
  · rename_i hmay
    obtain ⟨hgone, hdeliver⟩ := Bool.and_eq_true_iff.1 hmay
    obtain ⟨spot, hspot, rfl⟩ : ∃ spot,
        spot? (fun _ phase => phase.isWaiting) s.calls = some spot ∧
        s.conclude spot (.error noWriter) = t := by
      simpa [Option.bind_eq_some_iff, noWriter] using h
    obtain ⟨-, htest⟩ := spot?_eq_some hspot
    have hphase : spot.phase = .waiting := by
      cases hp : spot.phase <;> simp [hp, Phase.isWaiting] at htest ⊢
    exact ⟨hgone, Option.isNone_iff_eq_none.1 hdeliver, spot, hspot, hphase, rfl⟩
  · simp at h

/-- Calls that wait are taken into the queue, as many as there is room for, if no call has a settlement
to take. -/
theorem refill?_eq_some (h : s.refill? = some t) :
    s.writer.isAlive = true ∧ s.deliver? = none ∧ (letIn (queueCapacity - s.queue.length) s.calls).2 ≠ [] ∧
      { s with
        calls := (letIn (queueCapacity - s.queue.length) s.calls).1
        queue := s.queue ++ (letIn (queueCapacity - s.queue.length) s.calls).2 } = t := by
  unfold refill? at h
  split at h
  · rename_i hmay
    obtain ⟨halive, hdeliver⟩ := Bool.and_eq_true_iff.1 hmay
    split at h
    · simp at h
    · rename_i calls requests hne heq
      obtain rfl := Option.some.inj h
      rw [heq]
      exact ⟨halive, Option.isNone_iff_eq_none.1 hdeliver, fun hnil => hne hnil, rfl⟩
  · simp at h

/-- A reply on its way gets to the registry. -/
theorem resolve?_eq_some {place : Nat} (h : s.resolve? place = some t) :
    ∃ id reply, s.inFlight[place]? = some (id, reply) ∧
      ({ s with
          inFlight := s.inFlight.eraseIdx place
          registry := (s.registry.resolve id reply).2 } : Session).note
        (if (s.registry.resolve id reply).1 then .resolved id else .stray (.number id)) = t := by
  simpa [resolve?, Option.bind_eq_some_iff] using h

/-- The reader lets the input go, drains the registry, and tells of the calls that it abandons. -/
theorem leave?_eq_some (h : s.leave? = some t) :
    s.reader = .leaving ∧ s.inFlight = [] ∧
      t = { s with
        reader := .gone
        registry := s.registry.drain.2
        events := s.events ++
          if s.registry.size = 0 then [] else [.abandoned s.registry.size] } := by
  unfold leave? at h
  split at h
  · rename_i hreader hflight
    obtain rfl := Option.some.inj h
    refine ⟨hreader, hflight, ?_⟩
    by_cases hnone : s.registry.size = 0
    · rw [if_pos hnone, if_pos hnone, List.append_nil]
      rfl
    · rw [if_neg hnone, if_neg hnone]
      rfl
  · simp at h

end Moves

/-- A call in a spot that ends does so at its place. -/
theorem conclude_eq_endAt {s : Session} {spot : Spot} (calls : spot.calls = s.calls)
    (outcome : Outcome) :
    s.conclude spot outcome = s.endAt spot.before.length spot.ticket outcome := by
  rw [conclude, endAt, spot.put_eq_set, calls]

/-! ## Calls that get their turn -/

/-- Why a call ends by itself with an outcome. -/
inductive Ends (s : Session) (t : Ticket) : Phase → Outcome → Prop where
  /-- Its settlement has come. -/
  | settled {phase : Phase} {settlement : Settlement} (h : s.settlement? t = some settlement) :
      Ends s t phase (outcomeOf t.shape settlement)
  /-- Its time is up, and nothing has come for it. -/
  | expired {phase : Phase} (unsettled : s.settlement? t = none) (late : t.deadline ≤ s.clock) :
      Ends s t phase (.error (.timeout (Span.ofMillis t.window)))
  /-- It waits for room, the writer is gone, and nothing has come for it. -/
  | cutOff (unsettled : s.settlement? t = none) (gone : s.writer.isGone = true) :
      Ends s t .waiting (.error noWriter)

/-- What the turn of the call in a place does. -/
inductive Turns (s : Session) (place : Nat) : Session → Prop
  /-- The call ends. -/
  | ends {ticket : Ticket} {phase : Phase} {outcome : Outcome}
      (stands : s.calls[place]? = some (.registered ticket phase)) (live : phase.isLive = true)
      (grounds : s.Ends ticket phase outcome) : Turns s place (s.endAt place ticket outcome)
  /-- It takes the place in the queue that is kept for it. -/
  | enters {ticket : Ticket} (stands : s.calls[place]? = some (.registered ticket .waiting))
      (unsettled : s.settlement? ticket = none) (alive : s.writer.isAlive = true)
      (room : s.keepsRoom place = true) :
      Turns s place { s with
        calls := s.calls.set place (.registered ticket .queued)
        queue := s.queue ++ [ticket.request] }

section Turned

variable {s t : Session} {place : Nat}

/-- Every turn of a call is one of these. -/
theorem turns_of_turn? (h : s.turn? place = some t) : s.Turns place t := by
  unfold turn? at h
  split at h
  · rename_i ticket phase stands
    split at h
    · simp at h
    · rename_i hlive
      have live : phase.isLive = true := by simpa using hlive
      split at h
      · rename_i settlement hsettled
        obtain rfl := Option.some.inj h
        exact .ends stands live (.settled hsettled)
      · rename_i unsettled
        split at h
        · rename_i hgone
          obtain ⟨hwaiting, hgone⟩ := Bool.and_eq_true_iff.1 hgone
          obtain rfl : phase = .waiting := by cases phase <;> simp [Phase.isWaiting] at hwaiting ⊢
          obtain rfl := Option.some.inj h
          exact .ends stands live (.cutOff unsettled hgone)
        · split at h
          · rename_i hroom
            simp only [Bool.and_eq_true] at hroom
            obtain ⟨⟨hwaiting, halive⟩, hroom⟩ := hroom
            obtain rfl : phase = .waiting := by cases phase <;> simp [Phase.isWaiting] at hwaiting ⊢
            obtain rfl := Option.some.inj h
            exact .enters stands unsettled halive hroom
          · split at h
            · rename_i late
              obtain rfl := Option.some.inj h
              exact .ends stands live (.expired unsettled late)
            · simp at h
  · simp at h

/-- The turn of a call changes the calls, the registry and the queue alone. -/
theorem turn?_frame (h : s.turn? place = some t) :
    ∃ calls registry queue, t = { s with calls, registry, queue } := by
  cases turns_of_turn? h with
  | ends => exact ⟨_, _, _, rfl⟩
  | enters => exact ⟨_, _, _, rfl⟩

/-- If no call can take a settlement, none has come for a call that is still going on. -/
theorem settlement?_of_deliver?_eq_none (h : s.deliver? = none) {ticket : Ticket} {phase : Phase}
    (stands : s.calls[place]? = some (.registered ticket phase)) (live : phase.isLive = true) :
    s.settlement? ticket = none := by
  cases hspot : spot? (fun t phase => phase.isLive && (s.settlement? t).isSome) s.calls with
  | none =>
    have htest := spot?_eq_none hspot stands
    simpa [live] using htest
  | some spot =>
    -- The first call that is settled could take its settlement.
    obtain ⟨-, htest⟩ := spot?_eq_some hspot
    obtain ⟨settlement, hsettled⟩ := Option.isSome_iff_exists.1 (Bool.and_eq_true_iff.1 htest).2
    simp [deliver?, hspot, hsettled] at h

end Turned

section Possible

variable {s : Session} {place : Nat} {ticket : Ticket} {phase : Phase}

/-- If no call can take a settlement, and none can end because its time is up, no call's time is. -/
theorem lt_deadline_of_expire?_eq_none (hdeliver : s.deliver? = none) (hexpire : s.expire? = none)
    (stands : s.calls[place]? = some (.registered ticket phase)) (live : phase.isLive = true) :
    s.clock < ticket.deadline := by
  cases hspot : spot? (fun t phase => phase.isLive && t.deadline ≤ s.clock) s.calls with
  | none =>
    have hfalse := spot?_eq_none hspot stands
    rw [live, Bool.true_and, decide_eq_false_iff_not] at hfalse
    omega
  | some spot => simp [expire?, hdeliver, hspot] at hexpire

/-- A client without a writer refuses the calls that wait for room, if there are any and no call can
take a settlement. -/
theorem refuse?_ne_none (hdeliver : s.deliver? = none) (gone : s.writer.isGone = true)
    (stands : s.calls[place]? = some (.registered ticket .waiting)) : s.refuse? ≠ none := by
  intro hnone
  cases hspot : spot? (fun _ phase => phase.isWaiting) s.calls with
  | none =>
    have hfalse := spot?_eq_none hspot stands
    simp [Phase.isWaiting] at hfalse
  | some spot => simp [refuse?, hdeliver, gone, hspot] at hnone

/-- A place in the queue is kept for a call only if one is free. -/
theorem length_lt_of_keepsRoom (room : s.keepsRoom place = true) :
    s.queue.length < queueCapacity := by
  have hless := of_decide_eq_true room
  omega

/-- A client with a writer takes calls that wait into the queue while there is room, if no call can
take a settlement. -/
theorem refill?_ne_none (hdeliver : s.deliver? = none) (alive : s.writer.isAlive = true)
    (stands : s.calls[place]? = some (.registered ticket .waiting))
    (room : s.queue.length < queueCapacity) : s.refill? ≠ none := by
  intro hnone
  have hroom : 0 < queueCapacity - s.queue.length := by omega
  simp only [refill?, hdeliver, alive, Option.isNone_none, Bool.and_self, if_true] at hnone
  split at hnone
  · rename_i hlet
    exact not_mem_of_letIn_eq_nil hroom (congrArg Prod.snd hlet) ticket (List.mem_of_getElem? stands)
  · simp at hnone

end Possible

/-! ## What a change can touch -/

/-- The fields that a change may set; it leaves the others as they are. -/
inductive Touches (s : Session) : Cause → Session → Prop
  | start {lifecycle writer reader events} :
    Touches s (.command .start) { s with lifecycle, writer, reader, events }
  | shutDown {lifecycle registry closing writer reader events} :
    Touches s (.command .shutDown)
      { s with lifecycle, registry, closing, writer, reader, events }
  | issue {order : Order} {ids registry calls queue} :
    Touches s (.command (.issue order)) { s with ids, registry, calls, queue }
  | abandon {place : Nat} {calls registry} :
    Touches s (.command (.abandon place)) { s with calls, registry }
  | setTimeout {timeout : Span} :
    Touches s (.command (.setTimeout timeout)) { s with window := timeout.millis }
  /-- The counterparty sends, or its end of the input comes or fails. -/
  | onInput {c : Command} {arrived ended failure}
    (sends : (∃ bs, c = .send bs) ∨ c = .endInput ∨ ∃ reason, c = .failInput reason) :
    Touches s (.command c)
      (s.onInput fun i => { i with arrived, ended, failure })
  /-- The counterparty makes room in the output, or the output begins to fail. -/
  | onOutput {c : Command} {room failure flushFailure closeFailure}
    (takes : (∃ n, c = .grant n) ∨ (∃ reason, c = .failOutput reason) ∨
      (∃ reason, c = .failFlush reason) ∨ ∃ reason, c = .failClose reason) :
    Touches s (.command c)
      { s with output := { s.output with room, failure, flushFailure, closeFailure } }
  | advance {millis : Nat} :
    Touches s (.command (.advance millis)) { s with clock := s.clock + millis }
  /-- A call ends with its settlement, at its deadline, or for want of a writer. -/
  | conclude {m : Move} {calls registry} (ends : m = .deliver ∨ m = .expire ∨ m = .refuse) :
    Touches s (.move m) { s with calls, registry }
  | refill {calls queue} : Touches s (.move .refill) { s with calls, queue }
  | turn {place : Nat} {calls registry queue} :
    Touches s (.move (.turn place)) { s with calls, registry, queue }
  | write {writer output queue events} :
    Touches s (.move .write) { s with writer, output, queue, events }
  | read {intake reader inFlight events} :
    Touches s (.move .read) { s with intake, reader, inFlight, events }
  | resolve {place : Nat} {inFlight registry events} :
    Touches s (.move (.resolve place)) { s with inFlight, registry, events }
  | leave {reader registry events} :
    Touches s (.move .leave) { s with reader, registry, events }
  | close {closing writer reader events} :
    Touches s (.move .close) { s with closing, writer, reader, events }

section Touched

variable {s t : Session}

/-- What a command touches. -/
theorem touches_apply (s : Session) (c : Command) : s.Touches (.command c) (s.apply c) := by
  cases c with
  | start => obtain ⟨_, _, _, _, h⟩ := start_frame s; rw [h]; exact .start
  | shutDown => obtain ⟨_, _, _, _, h⟩ := shutDown_frame s; rw [h]; exact .shutDown
  | issue order => obtain ⟨_, _, _, _, h⟩ := issue_frame s order; rw [apply, h]; exact .issue
  | abandon place => obtain ⟨_, _, h⟩ := abandon_frame s place; rw [apply, h]; exact .abandon
  | setTimeout timeout => exact .setTimeout
  | send bs => exact .onInput (Or.inl ⟨bs, rfl⟩)
  | endInput => exact .onInput (Or.inr (Or.inl rfl))
  | failInput reason => exact .onInput (Or.inr (Or.inr ⟨reason, rfl⟩))
  | grant n => exact .onOutput (Or.inl ⟨n, rfl⟩)
  | failOutput reason => exact .onOutput (Or.inr (Or.inl ⟨reason, rfl⟩))
  | failFlush reason => exact .onOutput (Or.inr (Or.inr (Or.inl ⟨reason, rfl⟩)))
  | failClose reason => exact .onOutput (Or.inr (Or.inr (Or.inr ⟨reason, rfl⟩)))
  | advance millis => exact .advance

/-- What a move touches. -/
theorem touches_perform? {m : Move} (h : s.perform? m = some t) : s.Touches (.move m) t := by
  cases m with
  | deliver => obtain ⟨_, _, _, _, rfl⟩ := deliver?_eq_some h; exact .conclude (Or.inl rfl)
  | expire => obtain ⟨_, _, _, rfl⟩ := expire?_eq_some h; exact .conclude (Or.inr (Or.inl rfl))
  | refuse =>
    obtain ⟨_, _, _, _, _, rfl⟩ := refuse?_eq_some h
    exact .conclude (Or.inr (Or.inr rfl))
  | write => obtain ⟨_, _, _, _, rfl⟩ := write?_frame h; exact .write
  | refill => obtain ⟨_, _, _, rfl⟩ := refill?_eq_some h; exact .refill
  | turn place => obtain ⟨_, _, _, rfl⟩ := turn?_frame h; exact .turn
  | read => obtain ⟨_, _, _, _, rfl⟩ := read?_frame h; exact .read
  | resolve place => obtain ⟨_, _, _, rfl⟩ := resolve?_eq_some h; exact .resolve
  | leave => obtain ⟨_, _, rfl⟩ := leave?_eq_some h; exact .leave
  | close => obtain ⟨_, _, _, _, rfl⟩ := close?_frame h; exact .close

/-- Every change touches the fields of its cause alone. -/
theorem Becomes.touches {cause : Cause} (h : s.Becomes cause t) : s.Touches cause t := by
  cases cause with
  | command c =>
    obtain rfl : t = s.apply c := h
    exact touches_apply s c
  | move m => exact touches_perform? h

end Touched

/-! ## What a change does to the calls and the registry -/

/-- Why a call is refused before it takes a number. -/
inductive Refuses (s : Session) (order : Order) : CallError → Prop where
  | notRunning (h : s.lifecycle ≠ .running) : Refuses s order .shutDown
  | unwritable (h : order.params = none) : Refuses s order .serialization

/-- All that a change can do to the calls and to the registry. -/
inductive Effect (s : Session) : Cause → Session → Prop where
  /-- Neither changes. -/
  | still {cause : Cause} {t : Session} (calls : t.calls = s.calls)
      (registry : t.registry = s.registry) (ids : t.ids = s.ids) : Effect s cause t
  /-- A call is refused before it takes a number. -/
  | refused {order : Order} {t : Session} {e : CallError} (grounds : s.Refuses order e)
      (calls : t.calls = s.calls ++ [.refused e]) (registry : t.registry = s.registry)
      (ids : t.ids = s.ids) : Effect s (.command (.issue order)) t
  /-- A call takes a number, and the registry does not register it. -/
  | unregistered {order : Order} {t : Session} {refusal : Registry.Refusal}
      (running : s.lifecycle = .running)
      (turnedAway : s.registry.register s.ids.next = .error refusal)
      (calls : t.calls = s.calls ++ [.refused .shutDown]) (registry : t.registry = s.registry)
      (ids : t.ids = s.ids.take.2) : Effect s (.command (.issue order)) t
  /-- A call is registered, and waits for room or is taken into the queue. -/
  | admitted {order : Order} {t : Session} {params : Json} {slot : Nat} {registry : Registry}
      {phase : Phase} (running : s.lifecycle = .running) (writable : order.params = some params)
      (alive : s.writer.isAlive = true) (live : phase.isLive = true)
      (registered : s.registry.register s.ids.next = .ok (slot, registry))
      (calls : t.calls = s.calls ++ [.registered (s.ticketFor order params slot) phase])
      (registry : t.registry = registry) (ids : t.ids = s.ids.take.2) :
      Effect s (.command (.issue order)) t
  /-- A call is registered and ends at once, because there is no writer. -/
  | lost {order : Order} {t : Session} {params : Json} {slot : Nat} {registry : Registry}
      (running : s.lifecycle = .running) (writable : order.params = some params)
      (dead : s.writer.isAlive = false)
      (registered : s.registry.register s.ids.next = .ok (slot, registry))
      (calls : t.calls =
        s.calls ++ [.registered (s.ticketFor order params slot) (.ended (.error noWriter))])
      (registry : t.registry = (registry.cancel s.ids.next).2.release slot)
      (ids : t.ids = s.ids.take.2) : Effect s (.command (.issue order)) t
  /-- A call ends. -/
  | ended {m : Move} {t : Session} {place : Nat} {ticket : Ticket} {phase : Phase}
      {outcome : Outcome} (stands : s.calls[place]? = some (.registered ticket phase))
      (live : phase.isLive = true) (grounds : s.Ends ticket phase outcome)
      (calls : t.calls = s.calls.set place (.registered ticket (.ended outcome)))
      (registry : t.registry = s.unregister ticket) (ids : t.ids = s.ids) : Effect s (.move m) t
  /-- A call is given up. -/
  | abandoned {t : Session} {place : Nat} {ticket : Ticket} {phase : Phase}
      (stands : s.calls[place]? = some (.registered ticket phase)) (live : phase.isLive = true)
      (calls : t.calls = s.calls.set place (.registered ticket .abandoned))
      (registry : t.registry = s.unregister ticket) (ids : t.ids = s.ids) :
      Effect s (.command (.abandon place)) t
  /-- Calls that waited for room are taken into the queue. -/
  | letIn {t : Session} {room : Nat} (calls : t.calls = (letIn room s.calls).1)
      (registry : t.registry = s.registry) (ids : t.ids = s.ids) : Effect s (.move .refill) t
  /-- A call that waited for room is taken into the queue by its own turn. -/
  | queued {t : Session} {place : Nat} {ticket : Ticket}
      (stands : s.calls[place]? = some (.registered ticket .waiting))
      (calls : t.calls = s.calls.set place (.registered ticket .queued))
      (registry : t.registry = s.registry) (ids : t.ids = s.ids) :
      Effect s (.move (.turn place)) t
  /-- A reply gets to the registry. -/
  | resolved {t : Session} {place id : Nat} {reply : Reply}
      (onTheWay : s.inFlight[place]? = some (id, reply)) (calls : t.calls = s.calls)
      (registry : t.registry = (s.registry.resolve id reply).2) (ids : t.ids = s.ids) :
      Effect s (.move (.resolve place)) t
  /-- The registry is drained. -/
  | drained {cause : Cause} {t : Session}
      (drains : cause = .command .shutDown ∨ cause = .move .leave) (calls : t.calls = s.calls)
      (registry : t.registry = s.registry.drain.2) (ids : t.ids = s.ids) : Effect s cause t

section Effects

variable {s t : Session}

/-- Making a call registers it or refuses it. -/
theorem effect_issue (s : Session) (order : Order) :
    Effect s (.command (.issue order)) (s.issue order) := by
  unfold issue
  split
  · rename_i params hrun hparams
    -- The number is taken off before it is registered; `s.ids.take.1` is `s.ids.next`.
    cases hreg : s.registry.register s.ids.next with
    | error refusal =>
      have hreg' : s.registry.register s.ids.take.1 = .error refusal := hreg
      simp only [hreg']
      exact .unregistered hrun hreg rfl rfl rfl
    | ok r =>
      obtain ⟨slot, registry⟩ := r
      have hreg' : s.registry.register s.ids.take.1 = .ok (slot, registry) := hreg
      simp only [hreg']
      unfold enqueue
      split
      · rename_i hdead
        exact .lost hrun hparams (by simpa using hdead) hreg rfl rfl rfl
      · rename_i halive
        split
        · exact .admitted hrun hparams (by simpa using halive) rfl hreg rfl rfl rfl
        · exact .admitted hrun hparams (by simpa using halive) rfl hreg rfl rfl rfl
  · rename_i hrun hparams
    exact .refused (.unwritable hparams) rfl rfl rfl
  · rename_i hsome hnone
    -- A client that runs is in one of the cases above, whatever the parameters.
    refine .refused (.notRunning fun hrun => ?_) rfl rfl rfl
    cases hparams : order.params with
    | none => exact hnone hrun hparams
    | some params => exact hsome params hrun hparams

/-- What a command does to the calls and the registry. -/
theorem effect_apply (s : Session) (c : Command) : Effect s (.command c) (s.apply c) := by
  cases c with
  | start =>
    obtain ⟨lifecycle, writer, reader, events, h⟩ := start_frame s
    rw [h]
    exact .still rfl rfl rfl
  | shutDown =>
    -- A second shutdown drains a registry that has no entries any more.
    obtain ⟨closing, writer, reader, events, h⟩ := shutDown_frame s
    rw [h]
    exact .drained (Or.inl rfl) rfl rfl rfl
  | issue order => exact effect_issue s order
  | abandon place =>
    simp only [apply, abandon]
    split
    · rename_i ticket phase hplace
      split
      · rename_i hlive
        exact .abandoned hplace hlive rfl rfl rfl
      · exact .still rfl rfl rfl
    · exact .still rfl rfl rfl
  | setTimeout timeout => exact .still rfl rfl rfl
  | send bs => exact .still rfl rfl rfl
  | endInput => exact .still rfl rfl rfl
  | failInput reason => exact .still rfl rfl rfl
  | grant n => exact .still rfl rfl rfl
  | failOutput reason => exact .still rfl rfl rfl
  | failFlush reason => exact .still rfl rfl rfl
  | failClose reason => exact .still rfl rfl rfl
  | advance millis => exact .still rfl rfl rfl

/-- A call in a spot that ends is set at its place. -/
theorem effect_conclude {test : Ticket → Phase → Bool} {spot : Spot} {m : Move}
    {outcome : Outcome} (hspot : spot? test s.calls = some spot)
    (hlive : spot.phase.isLive = true) (hends : s.Ends spot.ticket spot.phase outcome) :
    Effect s (.move m) (s.conclude spot outcome) := by
  obtain ⟨hcalls, -⟩ := spot?_eq_some hspot
  rw [conclude_eq_endAt hcalls]
  exact .ended (hcalls ▸ spot.getElem?_calls) hlive hends rfl rfl rfl

/-- What a move does to the calls and the registry. -/
theorem effect_perform? {m : Move} (h : s.perform? m = some t) : Effect s (.move m) t := by
  cases m with
  | deliver =>
    obtain ⟨spot, hspot, settlement, hsettled, rfl⟩ := deliver?_eq_some h
    obtain ⟨-, htest⟩ := spot?_eq_some hspot
    rw [Bool.and_eq_true] at htest
    exact effect_conclude hspot htest.1 (.settled hsettled)
  | expire =>
    obtain ⟨hdeliver, spot, hspot, rfl⟩ := expire?_eq_some h
    obtain ⟨hcalls, htest⟩ := spot?_eq_some hspot
    rw [Bool.and_eq_true, decide_eq_true_eq] at htest
    have hunsettled := settlement?_of_deliver?_eq_none hdeliver (hcalls ▸ spot.getElem?_calls) htest.1
    exact effect_conclude hspot htest.1 (.expired hunsettled htest.2)
  | refuse =>
    obtain ⟨hgone, hdeliver, spot, hspot, hphase, rfl⟩ := refuse?_eq_some h
    obtain ⟨hcalls, -⟩ := spot?_eq_some hspot
    have hlive : spot.phase.isLive = true := by rw [hphase]; rfl
    have hunsettled := settlement?_of_deliver?_eq_none hdeliver (hcalls ▸ spot.getElem?_calls) hlive
    refine effect_conclude hspot hlive ?_
    rw [hphase]
    exact .cutOff hunsettled hgone
  | write =>
    obtain ⟨writer, output, queue, events, rfl⟩ := write?_frame h
    exact .still rfl rfl rfl
  | refill =>
    obtain ⟨-, -, -, rfl⟩ := refill?_eq_some h
    exact .letIn rfl rfl rfl
  | turn place =>
    cases turns_of_turn? h with
    | ends stands live grounds => exact .ended stands live grounds rfl rfl rfl
    | enters stands => exact .queued stands rfl rfl rfl
  | read =>
    obtain ⟨intake, reader, inFlight, events, rfl⟩ := read?_frame h
    exact .still rfl rfl rfl
  | resolve place =>
    obtain ⟨id, reply, hmem, rfl⟩ := resolve?_eq_some h
    exact .resolved hmem rfl rfl rfl
  | leave =>
    obtain ⟨-, -, rfl⟩ := leave?_eq_some h
    exact .drained (Or.inr rfl) rfl rfl rfl
  | close =>
    obtain ⟨closing, writer, reader, events, rfl⟩ := close?_frame h
    exact .still rfl rfl rfl

/-- Every change is one of the effects. -/
theorem Becomes.effect {cause : Cause} (h : s.Becomes cause t) : Effect s cause t := by
  cases cause with
  | command c =>
    obtain rfl : t = s.apply c := h
    exact effect_apply s c
  | move m => exact effect_perform? h

end Effects

/-! ## What becomes of a call -/

/-- What a change can do to the call in a place. -/
inductive CallChange (s : Session) (cause : Cause) (place : Nat) :
    Option Call → Option Call → Prop where
  | kept {call? : Option Call} : CallChange s cause place call? call?
  /-- It is made, and refused before it takes a number. -/
  | refused {order : Order} {e : CallError} (issued : cause = .command (.issue order))
      (last : place = s.calls.length) (grounds : s.Refuses order e) :
      CallChange s cause place none (some (.refused e))
  /-- It is made, and not registered. -/
  | turnedAway {order : Order} {refusal : Registry.Refusal}
      (issued : cause = .command (.issue order)) (last : place = s.calls.length)
      (running : s.lifecycle = .running)
      (registration : s.registry.register s.ids.next = .error refusal) :
      CallChange s cause place none (some (.refused .shutDown))
  /-- It is made and registered. -/
  | entered {order : Order} {params : Json} {slot : Nat} {r : Registry} {phase : Phase}
      (issued : cause = .command (.issue order)) (last : place = s.calls.length)
      (running : s.lifecycle = .running) (writable : order.params = some params)
      (registration : s.registry.register s.ids.next = .ok (slot, r))
      (live : phase.isLive = true) :
      CallChange s cause place none (some (.registered (s.ticketFor order params slot) phase))
  /-- It is made and registered, and ends at once because there is no writer. -/
  | lost {order : Order} {params : Json} {slot : Nat} {r : Registry}
      (issued : cause = .command (.issue order)) (last : place = s.calls.length)
      (running : s.lifecycle = .running) (writable : order.params = some params)
      (registration : s.registry.register s.ids.next = .ok (slot, r))
      (dead : s.writer.isAlive = false) :
      CallChange s cause place none
        (some (.registered (s.ticketFor order params slot) (.ended (.error noWriter))))
  /-- It has waited for room and is taken into the queue. -/
  | queued {t : Ticket} (admits : cause = .move .refill ∨ cause = .move (.turn place)) :
      CallChange s cause place (some (.registered t .waiting)) (some (.registered t .queued))
  | ended {m : Move} {t : Ticket} {phase : Phase} {outcome : Outcome} (moved : cause = .move m)
      (live : phase.isLive = true) (grounds : s.Ends t phase outcome) :
      CallChange s cause place (some (.registered t phase)) (some (.registered t (.ended outcome)))
  | abandoned {t : Ticket} {phase : Phase} (abandons : cause = .command (.abandon place))
      (live : phase.isLive = true) :
      CallChange s cause place (some (.registered t phase)) (some (.registered t .abandoned))

section CallChanges

variable {s t : Session} {cause : Cause}

/-- A call that is added is the only one that changes. -/
theorem CallChange.of_concat {c : Call} (calls : t.calls = s.calls ++ [c])
    (added : CallChange s cause s.calls.length none (some c)) (place : Nat) :
    CallChange s cause place s.calls[place]? t.calls[place]? := by
  rw [calls]
  rcases Nat.lt_trichotomy place s.calls.length with hlt | rfl | hgt
  · rw [List.getElem?_append_left hlt]
    exact .kept
  · rw [List.getElem?_concat_length, List.getElem?_eq_none_iff.2 (Nat.le_refl _)]
    exact added
  · have hlen : (s.calls ++ [c]).length ≤ place := by simp; omega
    rw [List.getElem?_eq_none_iff.2 hlen, List.getElem?_eq_none_iff.2 (Nat.le_of_lt hgt)]
    exact .kept

/-- A call that is set is the only one that changes. -/
theorem CallChange.of_set {c d : Call} {place : Nat} (stands : s.calls[place]? = some c)
    (calls : t.calls = s.calls.set place d)
    (changed : CallChange s cause place (some c) (some d)) (place' : Nat) :
    CallChange s cause place' s.calls[place']? t.calls[place']? := by
  obtain ⟨hlt, -⟩ := List.getElem?_eq_some_iff.1 stands
  rw [calls, List.getElem?_set]
  by_cases heq : place = place'
  · rw [if_pos heq, if_pos hlt, ← heq, stands]
    exact changed
  · rw [if_neg heq]
    exact .kept

/-- What a change does to the call in a place. -/
theorem Effect.callChange (h : Effect s cause t) (place : Nat) :
    CallChange s cause place s.calls[place]? t.calls[place]? := by
  cases h with
  | still calls _ _ => rw [calls]; exact .kept
  | refused grounds calls _ _ => exact .of_concat calls (.refused rfl rfl grounds) place
  | unregistered running turnedAway calls _ _ =>
    exact .of_concat calls (.turnedAway rfl rfl running turnedAway) place
  | admitted running writable _ live registered calls _ _ =>
    exact .of_concat calls (.entered rfl rfl running writable registered live) place
  | lost running writable dead registered calls _ _ =>
    exact .of_concat calls (.lost rfl rfl running writable registered dead) place
  | ended stands live grounds calls _ _ =>
    exact .of_set stands calls (.ended rfl live grounds) place
  | abandoned stands live calls _ _ => exact .of_set stands calls (.abandoned rfl live) place
  | @letIn _ room calls _ _ =>
    rw [calls]
    rcases getElem?_letIn room s.calls place with heq | ⟨u, hwaits, hqueued⟩
    · rw [heq]
      exact .kept
    · rw [hwaits, hqueued]
      exact .queued (Or.inl rfl)
  | queued stands calls _ _ => exact .of_set stands calls (.queued (Or.inr rfl)) place
  | resolved _ calls _ _ => rw [calls]; exact .kept
  | drained _ calls _ _ => rw [calls]; exact .kept

/-- A registered call stays registered under its ticket. -/
theorem CallChange.registered {call?' : Option Call} {ticket : Ticket} {phase : Phase}
    {place : Nat} (h : CallChange s cause place (some (.registered ticket phase)) call?') :
    ∃ phase', call?' = some (.registered ticket phase') := by
  cases h with
  | kept => exact ⟨phase, rfl⟩
  | queued => exact ⟨_, rfl⟩
  | ended => exact ⟨_, rfl⟩
  | abandoned => exact ⟨_, rfl⟩

end CallChanges

end PipeCall.Session
