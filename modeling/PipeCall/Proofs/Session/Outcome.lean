import PipeCall.Proofs.Session.Origin

/-!
# Every outcome is justified

A call ends by one change at most, and how it ends has its grounds in what happened before
(`Justified`): a result or a failure is that of a reply whose frame named the call and which got to
the registry while the call was registered, a timeout comes when the call's own window has passed and
nothing has settled it, a release comes after a drain, and a call finds no writer only if a write has
failed before the call was taken into the queue. `outcomes_justified` says so of every change of every
course.

The reader dispatches a frame that is a reply by a task of its own, and that task may get its turn
after other calls were made. So a reply that names a number which no call has yet when its frame is
read answers the call that takes the number before the task gets to the registry: what counts is
whether the call is registered when it does (`Change.Answers`). If the client settles after every burst
of commands, no task is left behind when a call is made, and a reply answers only a call that was
registered when its frame was read (`Change.Answers.registered`).
-/

namespace PipeCall.Session

/-! ## Grounds -/

/-- A change makes the call in a place. -/
def Change.IssuesAt (c : Change) (place : Nat) (order : Order) : Prop :=
  c.cause = .command (.issue order) ∧ place = c.before.calls.length

/-- The call in a place was answered by a reply: the frame that some change has taken. -/
def Answered (past : List Change) (c : Change) (place : Nat) (t : Ticket) (reply : Reply) : Prop :=
  (∃ phase, c.before.calls[place]? = some (.registered t phase)) ∧
    ∃ d : Change, d.Answers past t reply

/-- The window that the client had when it made the call has passed since, and all the time until now
the call has waited for its settlement. -/
def TimedOut (past : List Change) (c : Change) (place : Nat) (w : Span) : Prop :=
  ∃ t phase earlier issue since,
    c.before.calls[place]? = some (.registered t phase) ∧ past = earlier ++ issue :: since ∧
      issue.Issues place t ∧ w = Span.ofMillis issue.before.window ∧
      issue.before.clock + issue.before.window ≤ c.before.clock ∧
      ∀ d ∈ since ++ [c], d.before.registry.slots[t.slot]? = some .waiting

/-- The call is made when the client does not run, or after its registry was drained; or the registry
was drained while the call was outstanding. -/
def ShutOut (past : List Change) (c : Change) (place : Nat) : Prop :=
  (∃ order, c.IssuesAt place order ∧ (c.before.lifecycle ≠ .running ∨ ∃ d ∈ past, d.Drains)) ∨
    ∃ t phase, c.before.calls[place]? = some (.registered t phase) ∧
      ∃ d ∈ past, d.Drains ∧ (t.id, t.slot) ∈ d.before.registry.entries

/-- The writer has let the output go since a write has failed, and the call was never taken into the
queue. -/
def CutOff (past : List Change) (c : Change) (place : Nat) : Prop :=
  c.before.writer = .lost ∧
    (∃ id method reason, .outputFailed id method reason ∈ c.before.events) ∧ ¬ Entered past place

/-- What must have happened for a call to come out like this. -/
def Justified (past : List Change) (c : Change) (place : Nat) : Outcome → Prop
  | .ok v => ∃ t reply w, Answered past c place t reply ∧ reply.outcome = .ok w ∧
      t.shape.read? w = some v
  | .error (.server failure) => ∃ t reply, Answered past c place t reply ∧
      reply.outcome = .error failure
  | .error .serialization => (∃ order, c.IssuesAt place order ∧ order.params = none) ∨
      ∃ t reply w, Answered past c place t reply ∧ reply.outcome = .ok w ∧ t.shape.read? w = none
  | .error (.timeout w) => TimedOut past c place w
  | .error .shutDown => ShutOut past c place
  | .error (.protocol reason) => reason = "outbound queue closed" ∧ CutOff past c place
  | .error .alreadyStarted => False

variable {s t : Session} {past : List Change} {u : Setup} {cause : Cause} {place : Nat}

/-! ## The queue -/

/-- A call that waits at most has waited at most before. -/
theorem CallChange.waiting {call? call?' : Option Call} (h : CallChange s cause place call? call?')
    (hafter : ∀ t phase, call?' = some (.registered t phase) → phase = .waiting) :
    ∀ t phase, call? = some (.registered t phase) → phase = .waiting := by
  intro t phase ht
  cases h with
  | kept => exact hafter t phase ht
  | refused | turnedAway | entered | lost => simp at ht
  | queued => exact absurd (hafter _ _ rfl) (by simp)
  | ended => exact absurd (hafter _ _ rfl) (by simp)
  | abandoned => exact absurd (hafter _ _ rfl) (by simp)

/-- A call that waits for room, or that is not there yet, was never taken into the queue. -/
theorem Course.not_entered (course : Course u.fresh past s)
    (h : ∀ t phase, s.calls[place]? = some (.registered t phase) → phase = .waiting) :
    ¬ Entered past place := by
  induction course with
  | nil => rintro ⟨d, hd, -⟩; exact absurd hd List.not_mem_nil
  | @snoc past s t cause course becomes ih =>
    rintro ⟨d, hd, ticket, hqueued⟩
    rcases List.mem_append.1 hd with hd | hd
    · exact ih ((becomes.effect.callChange place).waiting h) ⟨d, hd, ticket, hqueued⟩
    · obtain rfl := List.mem_singleton.1 hd
      exact absurd (h ticket .queued hqueued) (by simp)

/-! ## How calls end -/

/-- An event that tells of the writer is an event. -/
theorem mem_events_of_mem_writerEvents {e : Event} (h : e ∈ s.writerEvents) : e ∈ s.events :=
  (List.mem_filter.1 h).1

/-- While a client runs, it has no writer only if a write has failed. -/
theorem Staged.cutOff (hs : s.Staged) (hrun : s.lifecycle = .running)
    (dead : s.writer.isAlive = false) :
    s.writer = .lost ∧ ∃ id method reason, .outputFailed id method reason ∈ s.events := by
  rcases hs.running hrun with halive | ⟨hlost, id, method, reason, hevent⟩
  · simp [dead] at halive
  · exact ⟨hlost, id, method, reason, mem_events_of_mem_writerEvents hevent⟩

/-- A call that takes its settlement was settled so. -/
theorem Course.justified_settled (course : Course u.fresh past s) {ticket : Ticket} {phase : Phase}
    {settlement : Settlement} (stands : s.calls[place]? = some (.registered ticket phase))
    (hsettled : s.settlement? ticket = some settlement) (cause : Cause) (t : Session) :
    Justified past ⟨s, cause, t⟩ place (outcomeOf ticket.shape settlement) := by
  -- The slot says what has settled the call, and how it ends follows from that and its shape.
  have hby := course.settled stands (settlement?_eq_some_iff.1 hsettled)
  cases settlement with
  | shutDown => exact Or.inr ⟨ticket, phase, stands, hby⟩
  | reply reply =>
    have hanswered : Answered past ⟨s, cause, t⟩ place ticket reply := ⟨⟨phase, stands⟩, hby⟩
    cases ho : reply.outcome with
    | error failure =>
      rw [show outcomeOf ticket.shape (.reply reply) = .error (.server failure) by simp [outcomeOf, ho]]
      exact ⟨ticket, reply, hanswered, ho⟩
    | ok w =>
      cases hread : ticket.shape.read? w with
      | some v =>
        rw [show outcomeOf ticket.shape (.reply reply) = .ok v by simp [outcomeOf, ho, hread]]
        exact ⟨ticket, reply, w, hanswered, ho, hread⟩
      | none =>
        rw [show outcomeOf ticket.shape (.reply reply) = .error .serialization by
          simp [outcomeOf, ho, hread]]
        exact Or.inr ⟨ticket, reply, w, hanswered, ho, hread⟩

/-- A call that times out has waited for all its time. -/
theorem Course.timedOut (course : Course u.fresh past s) {ticket : Ticket} {phase : Phase}
    (stands : s.calls[place]? = some (.registered ticket phase))
    (waits : s.registry.slots[ticket.slot]? = some .waiting) (late : ticket.deadline ≤ s.clock)
    (cause : Cause) (t : Session) :
    TimedOut past ⟨s, cause, t⟩ place (Span.ofMillis ticket.window) := by
  obtain ⟨earlier, issue, since, hpast, hissues, -, hall⟩ := course.issued stands
  refine ⟨ticket, phase, earlier, issue, since, stands, hpast, hissues, by rw [hissues.window], ?_, ?_⟩
  · -- The deadline is that of the clock and the window at the issue.
    rw [Ticket.deadline, hissues.issuedAt, hissues.window] at late
    exact late
  · intro d hd
    rcases List.mem_append.1 hd with hd | hd
    · exact hall waits d hd
    · obtain rfl := List.mem_singleton.1 hd
      exact waits

/-- While a call waits for its settlement the client runs. -/
theorem Sound.running (hs : s.Sound) {ticket : Ticket} {phase : Phase}
    (stands : s.calls[place]? = some (.registered ticket phase))
    (waits : s.registry.slots[ticket.slot]? = some .waiting) : s.lifecycle = .running := by
  cases hl : s.lifecycle with
  | running => rfl
  | notStarted => exact absurd hl (hs.staged.started stands)
  | shutDown =>
    -- The call has an entry, so the registry is open.
    have hentry := (Coherent.mem_entries_iff hs.coheres stands).2 waits
    rw [hs.coheres.numbered.closed (hs.staged.shutDown hl)] at hentry
    exact absurd hentry List.not_mem_nil

/-- A call that ends by a move has its grounds. -/
theorem Course.justified_ended (course : Course u.fresh past s) {ticket : Ticket} {phase : Phase}
    {o : Outcome} (stands : s.calls[place]? = some (.registered ticket phase))
    (live : phase.isLive = true) (grounds : s.Ends ticket phase o) (cause : Cause) (t : Session) :
    Justified past ⟨s, cause, t⟩ place o := by
  have hs := (course.sound (sound_fresh u)).2
  cases grounds with
  | settled hsettled => exact course.justified_settled stands hsettled _ _
  | expired unsettled late =>
    exact course.timedOut stands (waiting_of_unsettled hs.coheres stands live unsettled) late _ _
  | cutOff unsettled gone =>
    have hrun := hs.running stands (waiting_of_unsettled hs.coheres stands live unsettled)
    have hdead : s.writer.isAlive = false := by
      cases hw : s.writer <;> simp [hw, Writer.isGone, Writer.isAlive] at gone ⊢
    obtain ⟨hlost, hfailed⟩ := hs.staged.cutOff hrun hdead
    refine ⟨rfl, hlost, hfailed, course.not_entered fun t' phase' h' => ?_⟩
    rw [stands] at h'
    obtain ⟨-, rfl⟩ := Call.registered.inj (Option.some.inj h')
    rfl

/-- A call that ends has its grounds. -/
theorem Course.justified (course : Course u.fresh past s) (becomes : s.Becomes cause t) {o : Outcome}
    (ends : Change.Concludes ⟨s, cause, t⟩ place o) : Justified past ⟨s, cause, t⟩ place o := by
  obtain ⟨hbefore, hafter⟩ := ends
  have hchange := becomes.effect.callChange place
  simp only [outcomeAt?] at hbefore hafter
  generalize hcall : s.calls[place]? = call? at hchange hbefore
  generalize t.calls[place]? = call?' at hchange hafter
  -- Four of the cases end a call; the others are excluded by what it was before and is after.
  cases hchange with
  | kept => rw [hbefore] at hafter; simp at hafter
  | refused issued last grounds =>
    obtain rfl := Option.some.inj hafter
    cases grounds with
    | notRunning hne => exact Or.inl ⟨_, ⟨issued, last⟩, Or.inl hne⟩
    | unwritable hnone => exact Or.inl ⟨_, ⟨issued, last⟩, hnone⟩
  | turnedAway issued last running registration =>
    obtain rfl := Option.some.inj hafter
    have hclosed := Coherent.closed_of_register_error (course.coheres (coheres_fresh u)) registration
    exact Or.inl ⟨_, ⟨issued, last⟩, Or.inr (course.drained hclosed)⟩
  | entered issued last running writable registration live =>
    rw [Option.bind_some, Call.outcome?_of_isLive live] at hafter
    simp at hafter
  | lost issued last running writable registration dead =>
    obtain rfl := Option.some.inj hafter
    obtain ⟨hlost, hfailed⟩ := course.staged.cutOff running dead
    -- The call was not there before, so it was never in the queue.
    refine ⟨rfl, hlost, hfailed, course.not_entered fun t' phase' h' => ?_⟩
    rw [hcall] at h'
    simp at h'
  | queued admits => simp [Call.outcome?] at hafter
  | ended moved live grounds =>
    obtain rfl := Option.some.inj hafter
    exact course.justified_ended hcall live grounds _ _
  | abandoned abandons live => simp [Call.outcome?] at hafter

/-- If no reply is on its way when a call is made, a call that was answered was registered when the frame
was taken. -/
theorem Change.Answers.registered {d : Change} {t : Ticket} {reply : Reply} (h : d.Answers past t reply)
    (idle : ∀ c ∈ past, ∀ command, c.cause = .command command → c.before.inFlight = []) :
    (t.id, t.slot) ∈ d.before.registry.entries := by
  obtain ⟨earlier, between, e, later, rfl, -, hway, -, hentry | ⟨issue, hissue, place, hissues⟩⟩ := h
  · exact hentry
  · -- A call that is made in between is made while the reply is on its way.
    obtain ⟨order, _, hcause, -⟩ := hissues.made
    have hmem := hway issue hissue
    rw [idle issue (by simp [hissue]) (.issue order) hcause] at hmem
    exact absurd hmem List.not_mem_nil

end PipeCall.Session
