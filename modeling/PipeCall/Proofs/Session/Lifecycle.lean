import PipeCall.Proofs.Session.Outstanding

/-!
# The life of a client and of its writer

A client is started, runs and is shut down, and its writer is there as long as it runs unless a write
has failed. `Staged` says so, and every change keeps it (`Becomes.staged`). Only the start, a step of
the writer and a step of a shutdown touch the writer, what the output has taken and the events that
tell of them (`Becomes.unwritten`). What a change does to the client's stage is `StageChange`, and
what it does to the writer is `WriterChange`.
-/

namespace PipeCall

/-- Whether an event tells of the writer. -/
def Event.isWriters : Event → Bool
  | .unsendable _ _ _ | .outputFailed _ _ _ | .writerOverdue _ => true
  | _ => false

namespace Session

/-- What happened to the writer, in order. -/
def writerEvents (s : Session) : List Event := s.events.filter Event.isWriters

/-- A note of something else tells nothing of the writer. -/
theorem writerEvents_note_of_not {s : Session} {e : Event} (h : e.isWriters = false) :
    (s.note e).writerEvents = s.writerEvents := by
  simp [writerEvents, note, h]

/-- A note of the writer comes last. -/
theorem writerEvents_note {s : Session} {e : Event} (h : e.isWriters = true) :
    (s.note e).writerEvents = s.writerEvents ++ [e] := by
  simp [writerEvents, note, h]

/-- A client has the same writer as before, which has written nothing. -/
structure Unwritten (s t : Session) : Prop where
  limit : t.limit = s.limit
  writer : t.writer = s.writer
  taken : t.output.taken = s.output.taken
  events : t.writerEvents = s.writerEvents

variable {s t v : Session} {cause : Cause}

/-- If the writer has no part in either of two changes, it has none in both. -/
theorem Unwritten.trans (h : s.Unwritten t) (h' : t.Unwritten v) : s.Unwritten v where
  limit := h'.limit.trans h.limit
  writer := h'.writer.trans h.writer
  taken := h'.taken.trans h.taken
  events := h'.events.trans h.events

/-- What the reader does with a frame tells nothing of the writer. -/
theorem writerEvents_dispatch (s : Session) (body : Bytes) :
    (s.dispatch body).writerEvents = s.writerEvents := by
  unfold dispatch
  split
  · split
    · rfl
    · exact writerEvents_note_of_not rfl
  · exact writerEvents_note_of_not rfl
  · exact writerEvents_note_of_not rfl
  · exact writerEvents_note_of_not rfl

/-- The reader tells nothing of the writer. -/
theorem writerEvents_read? (h : s.read? = some t) : t.writerEvents = s.writerEvents := by
  obtain ⟨-, hreads⟩ := reads_of_read? h
  cases hreads with
  | stops | buffered => rfl
  | frame => exact writerEvents_dispatch _ _
  | refused | failed => exact writerEvents_note_of_not rfl
  | @ended leftover =>
    unfold writerEvents
    cases leftover with
    | none => simp [Event.isWriters]
    | some n => simp [Event.isWriters]

/-- A client that is told to stop has the writer that it had. -/
theorem unwritten_told (s : Session) : s.Unwritten s.told :=
  ⟨rfl, rfl, rfl, writerEvents_note_of_not rfl⟩

/-- Shutting a client down that does not run leaves the writer alone. -/
theorem unwritten_shutDown (h : s.lifecycle ≠ .running) : s.Unwritten (s.apply .shutDown) := by
  rw [shutDown_of_ne_running h]
  exact ⟨rfl, rfl, rfl, rfl⟩

/-- Nor does a reply that gets to the registry. -/
theorem writerEvents_resolve? {place : Nat} (h : s.resolve? place = some t) :
    t.writerEvents = s.writerEvents := by
  obtain ⟨_, _, _, rfl⟩ := resolve?_eq_some h
  exact writerEvents_note_of_not (by split <;> rfl)

/-- Nor does a reader that lets the input go. -/
theorem writerEvents_leave? (h : s.leave? = some t) : t.writerEvents = s.writerEvents := by
  obtain ⟨_, _, rfl⟩ := leave?_eq_some h
  unfold writerEvents
  split <;> simp [Event.isWriters]

/-- All but the start, the writer and a shutdown leave the writer alone. -/
theorem Becomes.unwritten (h : s.Becomes cause t) (hstart : cause ≠ .command .start)
    (hshut : cause ≠ .command .shutDown) (hwrite : cause ≠ .move .write)
    (hclose : cause ≠ .move .close) : s.Unwritten t := by
  cases h.touches with
  | start => exact absurd rfl hstart
  | shutDown => exact absurd rfl hshut
  | write => exact absurd rfl hwrite
  | close => exact absurd rfl hclose
  | read => exact ⟨rfl, rfl, rfl, writerEvents_read? h⟩
  | resolve => exact ⟨rfl, rfl, rfl, writerEvents_resolve? h⟩
  | leave => exact ⟨rfl, rfl, rfl, writerEvents_leave? h⟩
  | _ => exact ⟨rfl, rfl, rfl, rfl⟩

/-! ## Stages -/

/-- All but the start and a shutdown leave a client where it is in its life. -/
theorem Becomes.lifecycle (h : s.Becomes cause t) (hstart : cause ≠ .command .start)
    (hshut : cause ≠ .command .shutDown) : t.lifecycle = s.lifecycle := by
  cases h.touches with
  | start => exact absurd rfl hstart
  | shutDown => exact absurd rfl hshut
  | _ => rfl

/-- Starting a client that was started or shut down before leaves it where it is. -/
theorem start_of_ne (h : s.lifecycle ≠ .notStarted) : s.apply .start = s.declineStreams := by
  simp only [apply, start]

/-- Starting a client that was not started before starts its writer. -/
theorem start_of_eq (h : s.lifecycle = .notStarted) :
    s.apply .start =
      ({ s with lifecycle := .running, writer := .ready, reader := .running } : Session).note
        .started := by
  simp only [apply, start, h]

/-- Streams that are declined leave a writer alone that is there. -/
theorem declineStreams_frame (s : Session) :
    s.declineStreams = s ∨ s.writer = .absent ∧
      s.declineStreams = { s with writer := .lost, reader := .gone } := by
  unfold declineStreams
  split
  · rename_i hwriter _
    exact Or.inr ⟨hwriter, rfl⟩
  · exact Or.inl rfl

/-- A client is shut down after a shutdown. -/
theorem lifecycle_shutDown (s : Session) : (s.apply .shutDown).lifecycle = .shutDown := by
  obtain ⟨_, _, _, _, heq⟩ := shutDown_frame s
  rw [heq]

/-- What a change does to where a client is in its life. -/
inductive StageChange (s t : Session) : Cause → Prop
  | kept {cause : Cause} (same : t.lifecycle = s.lifecycle) : StageChange s t cause
  | started (first : s.lifecycle = .notStarted) (runs : t.lifecycle = .running) :
      StageChange s t (.command .start)
  | shutDown (shut : t.lifecycle = .shutDown) : StageChange s t (.command .shutDown)

/-- Every change does one of these. -/
theorem Becomes.stageChange (h : s.Becomes cause t) : StageChange s t cause := by
  by_cases hstart : cause = .command .start
  · obtain rfl := hstart
    obtain rfl : t = s.apply .start := h
    by_cases hfirst : s.lifecycle = .notStarted
    · exact .started hfirst (by rw [start_of_eq hfirst]; rfl)
    · rw [start_of_ne hfirst]
      rcases declineStreams_frame s with heq | ⟨-, heq⟩ <;> exact .kept (by rw [heq])
  · by_cases hshut : cause = .command .shutDown
    · obtain rfl := hshut
      obtain rfl : t = s.apply .shutDown := h
      exact .shutDown (lifecycle_shutDown s)
    · exact .kept (h.lifecycle hstart hshut)

/-- A client gives its writer up, where that is. -/
structure Dropped (s t : Session) : Prop where
  writer : t.writer = .lost
  taken : t.output.taken = s.output.taken

/-- A step of a shutdown leaves the writer alone, or gives it up. -/
theorem unwritten_or_dropped_of_close? (h : s.close? = some t) : s.Unwritten t ∨ s.Dropped t := by
  cases closes_of_close? h with
  | writerGone | readerGone => exact Or.inl ⟨rfl, rfl, rfl, rfl⟩
  | writerOverdue => exact Or.inr ⟨rfl, rfl⟩
  | readerOverdue => exact Or.inl ⟨rfl, rfl, rfl, writerEvents_note_of_not rfl⟩

/-- Shutting a client down leaves the writer alone, or gives it up if the client runs. -/
theorem unwritten_or_dropped_shutDown (s : Session) :
    s.Unwritten (s.apply .shutDown) ∨
      s.lifecycle = .running ∧ s.Dropped (s.apply .shutDown) := by
  by_cases running : s.lifecycle = .running
  · refine shutDown_keeps (P := fun t => s.Unwritten t ∨ s.lifecycle = .running ∧ s.Dropped t)
      running (Or.inl (unwritten_told s)) fun {t v} h hclose => ?_
    rcases h with same | ⟨-, drops⟩ <;> rcases unwritten_or_dropped_of_close? hclose with
      same' | drops'
    · exact Or.inl (same.trans same')
    · exact Or.inr ⟨running, drops'.writer, drops'.taken.trans same.taken⟩
    · exact Or.inr ⟨running, same'.writer.trans drops.writer, same'.taken.trans drops.taken⟩
    · exact Or.inr ⟨running, drops'.writer, drops'.taken.trans drops.taken⟩
  · exact Or.inl (unwritten_shutDown running)

/-- What a change does to the writer. -/
inductive WriterChange (s t : Session) : Cause → Prop
  | kept {cause : Cause} (same : s.Unwritten t) : WriterChange s t cause
  | started (first : s.lifecycle = .notStarted) (runs : t.lifecycle = .running)
    (ready : t.writer = .ready) : WriterChange s t (.command .start)
  /-- The client declines the streams it is offered, as it was shut down before it had any. -/
  | declined (absent : s.writer = .absent) (again : s.lifecycle ≠ .notStarted)
    (drops : s.Dropped t) : WriterChange s t (.command .start)
  | wrote (writes : s.write? = some t) : WriterChange s t (.move .write)
  /-- A client that is shut down gives the writer up at once if it gives it no time. -/
  | cutOff (running : s.lifecycle = .running) (shut : t.lifecycle = .shutDown)
    (drops : s.Dropped t) : WriterChange s t (.command .shutDown)
  /-- A shutdown gives the writer up. -/
  | givenUp (closing : s.closing ≠ .none) (drops : s.Dropped t) : WriterChange s t (.move .close)

/-- Every change does one of these. -/
theorem Becomes.writerChange (h : s.Becomes cause t) : WriterChange s t cause := by
  by_cases hstart : cause = .command .start
  · obtain rfl := hstart
    obtain rfl : t = s.apply .start := h
    by_cases hfirst : s.lifecycle = .notStarted
    · rw [start_of_eq hfirst]
      exact .started hfirst rfl rfl
    · rw [start_of_ne hfirst]
      rcases declineStreams_frame s with heq | ⟨habsent, heq⟩
      · rw [heq]
        exact .kept ⟨rfl, rfl, rfl, rfl⟩
      · rw [heq]
        exact .declined habsent hfirst ⟨rfl, rfl⟩
  · by_cases hwrite : cause = .move .write
    · obtain rfl := hwrite
      exact .wrote h
    · by_cases hclose : cause = .move .close
      · obtain rfl := hclose
        rcases unwritten_or_dropped_of_close? h with same | drops
        · exact .kept same
        · exact .givenUp (closing_of_close? h) drops
      · by_cases hshut : cause = .command .shutDown
        · obtain rfl := hshut
          obtain rfl : t = s.apply .shutDown := h
          rcases unwritten_or_dropped_shutDown s with same | ⟨running, drops⟩
          · exact .kept same
          · exact .cutOff running (lifecycle_shutDown s) drops
        · exact .kept (h.unwritten hstart hshut hwrite hclose)

/-- What a step of the writer leaves: it is there, has failed, or had nothing left to wait for. -/
theorem writer_of_write? (h : s.write? = some t) :
    t.writer.isAlive = true ∨
      (t.writer = .lost ∧ ∃ id method reason, .outputFailed id method reason ∈ t.writerEvents) ∨
      s.queueClosed = true := by
  cases writes_of_write? h with
  | sent | left | takes => exact Or.inl rfl
  | @failed r rest reason output =>
    -- The write has failed, which was noted with the request.
    refine Or.inr (Or.inl ⟨rfl, r.id, r.method, reason, ?_⟩)
    rw [writerEvents_note rfl]
    simp
  | passes ready =>
    refine Or.inl ?_
    show s.writer.isAlive = true
    rw [ready]
    rfl
  | shuts ready empty closed => exact Or.inr (Or.inr closed)

/-- Where a client is in its life tells what its writer is. -/
structure Staged (s : Session) : Prop where
  /-- Only a client that was started registers calls. -/
  started {place : Nat} {ticket : Ticket} {phase : Phase}
    (stands : s.calls[place]? = some (.registered ticket phase)) : s.lifecycle ≠ .notStarted
  absent : s.lifecycle = .notStarted → s.writer = .absent
  /-- While the client runs, the writer is there or has failed. -/
  running : s.lifecycle = .running → s.writer.isAlive = true ∨
    s.writer = .lost ∧ ∃ id method reason, .outputFailed id method reason ∈ s.writerEvents
  shutDown : s.lifecycle = .shutDown → s.registry.closed = true
  closing : s.closing ≠ .none → s.lifecycle = .shutDown

/-- A client that nothing has been done to is at the first stage. -/
theorem staged_fresh {s : Session} (calls : s.calls = []) (lifecycle : s.lifecycle = .notStarted)
    (writer : s.writer = .absent) (closing : s.closing = .none) : s.Staged where
  started stands := by simp [calls] at stands
  absent _ := writer
  running h := by simp [lifecycle] at h
  shutDown h := by simp [lifecycle] at h
  closing h := absurd closing h

/-- A change of anything but the stage and the writer keeps what is known of them. -/
theorem Staged.keep (hs : s.Staged) (h : Effect s cause t) (coherent : s.Coheres)
    (lifecycle : t.lifecycle = s.lifecycle)
    (absent : s.lifecycle = .notStarted → t.writer = .absent)
    (running : s.lifecycle = .running → t.writer.isAlive = true ∨
      t.writer = .lost ∧ ∃ id method reason, .outputFailed id method reason ∈ t.writerEvents)
    (closing : t.closing ≠ .none → s.lifecycle = .shutDown) : t.Staged where
  started {place ticket phase} stands := by
    have hcall := h.callChange place
    rw [stands] at hcall
    rw [lifecycle]
    -- The call was there before, or it is made now by a client that runs.
    rcases hcall.ticket with ⟨phase', hbefore⟩ | ⟨-, hissues⟩
    · exact hs.started hbefore
    · rw [show s.lifecycle = .running from (hissues t).running]
      simp
  absent hfirst := absent (lifecycle ▸ hfirst)
  running hrun := running (lifecycle ▸ hrun)
  shutDown hshut := by
    have hclosed := hs.shutDown (lifecycle ▸ hshut)
    rcases h.closed coherent with heq | ⟨htrue, -⟩
    · rw [heq]
      exact hclosed
    · exact htrue
  closing hclosing := lifecycle ▸ closing hclosing

/-- A client that was not started has no writer after a change that does not start it. -/
theorem Staged.absent_after (hs : s.Staged) (h : s.Becomes cause t)
    (same : t.lifecycle = s.lifecycle) (first : s.lifecycle = .notStarted) :
    t.writer = .absent := by
  cases h.writerChange with
  | kept same => exact same.writer.trans (hs.absent first)
  | started _ runs => simp [runs, first] at same
  | declined _ again => exact absurd first again
  | wrote writes => simp [write?, hs.absent first] at writes
  | cutOff running => simp [first] at running
  | givenUp closing =>
    have hshut := hs.closing closing
    simp [first] at hshut

/-- The writer of a client that goes on running is there after a change, or has failed. -/
theorem Staged.running_after (hs : s.Staged) (h : s.Becomes cause t)
    (same : t.lifecycle = s.lifecycle) (running : s.lifecycle = .running) :
    t.writer.isAlive = true ∨
      t.writer = .lost ∧ ∃ id method reason, .outputFailed id method reason ∈ t.writerEvents := by
  cases h.writerChange with
  | kept same =>
    rw [same.writer, same.events]
    exact hs.running running
  | started first => simp [first] at running
  | declined absent =>
    -- Streams are declined without a writer, which a client that runs has or has lost.
    have halive := hs.running running
    simp [absent, Writer.isAlive] at halive
  | wrote writes =>
    rcases writer_of_write? writes with halive | hlost | hqueue
    · exact Or.inl halive
    · exact Or.inr hlost
    · -- The queue of a client that runs is not closed.
      simp [queueClosed, running] at hqueue
  | cutOff _ shut => simp [shut, running] at same
  | givenUp closing =>
    have hshut := hs.closing closing
    simp [running] at hshut

/-- A shutdown is under way after a change only if it was before, or the client is told to stop. -/
theorem Becomes.closing (h : s.Becomes cause t) (closing : t.closing ≠ .none) :
    s.closing ≠ .none ∨ cause = .command .shutDown := by
  cases h.touches with
  | shutDown => exact Or.inr rfl
  | close => exact Or.inl (closing_of_close? h)
  | _ => exact Or.inl closing

/-- Every change keeps what is known of a client's stage. -/
theorem Becomes.staged (h : s.Becomes cause t) (coherent : s.Coheres) (hs : s.Staged) :
    t.Staged := by
  cases h.stageChange with
  | started first =>
    -- Before its start no shutdown is under way, so none is after it.
    obtain rfl : t = s.apply .start := h
    rw [start_of_eq first]
    refine ⟨fun _ => by simp [note], fun h => by simp [note] at h, fun _ => Or.inl rfl,
      fun h => by simp [note] at h, fun hclosing => ?_⟩
    exact absurd (hs.closing hclosing) (by simp [first])
  | shutDown =>
    obtain rfl : t = s.apply .shutDown := h
    obtain ⟨closing, writer, reader, events, heq⟩ := shutDown_frame s
    rw [heq]
    exact ⟨fun _ => by simp, fun h => by simp at h, fun h => by simp at h, fun _ => rfl,
      fun _ => rfl⟩
  | kept same =>
    refine hs.keep h.effect coherent same (hs.absent_after h same) (hs.running_after h same)
      fun hclosing => ?_
    rcases h.closing hclosing with hbefore | rfl
    · exact hs.closing hbefore
    · obtain rfl : t = s.apply .shutDown := h
      exact same.symm.trans (lifecycle_shutDown s)

/-! ## At every moment -/

/-- The calls agree with the registry, and the writer with the client's stage. -/
structure Sound (s : Session) : Prop where
  coheres : s.Coheres
  staged : s.Staged

/-- A client that nothing has been done to is sound. -/
theorem sound_fresh (u : Setup) : u.fresh.Sound := ⟨coheres_fresh u, staged_fresh rfl rfl rfl rfl⟩

/-- Every change keeps a client sound. -/
theorem Sound.becomes (h : s.Sound) (becomes : s.Becomes cause t) : t.Sound where
  coheres := becomes.effect.coherent h.coheres
  staged := becomes.staged h.coheres h.staged

/-- A client is sound at every moment of a course. -/
theorem Course.sound {h : List Change} (course : Course s h t) (hs : s.Sound) :
    (∀ c ∈ h, c.before.Sound) ∧ t.Sound :=
  course.keeps hs fun _ _ hsound becomes => hsound.becomes becomes

/-- What a client's stage tells holds at every moment. -/
theorem Course.staged {u : Setup} {past : List Change} (course : Course u.fresh past s) : s.Staged :=
  (course.sound (sound_fresh u)).2.staged

/-- The greatest length of a message is what it was set to. -/
theorem Course.limit {u : Setup} {past : List Change} (course : Course u.fresh past s) :
    s.limit = u.limit := by
  induction course with
  | nil => rfl
  | snoc course becomes ih => cases becomes.touches <;> exact ih

end Session

end PipeCall
