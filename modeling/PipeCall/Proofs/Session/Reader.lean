import PipeCall.Proofs.Session.Lifecycle

/-!
# What the reader is doing

The reader is there from the start on, reads until its input ends or the client is shut down, and
then lets the input go as soon as no reply is on its way. Only the start, its own moves and a shutdown
touch it (`Becomes.reader`), and what they do to it is `ReaderChange`. At rest it has not stopped half
way (`reader_of_rest`).
-/

namespace PipeCall.Session

variable {s t : Session} {past : List Change} {u : Setup} {cause : Cause}

/-- Shutting a client down leaves the reader alone, or gives it up if the client runs and gives it no
time. -/
theorem reader_shutDown (s : Session) : (s.apply .shutDown).reader = s.reader ∨
    s.lifecycle = .running ∧ (s.apply .shutDown).reader = .gone := by
  by_cases running : s.lifecycle = .running
  · refine shutDown_keeps
      (P := fun t => t.reader = s.reader ∨ s.lifecycle = .running ∧ t.reader = .gone)
      running (Or.inl rfl) fun h hclose => ?_
    cases closes_of_close? hclose with
    | writerGone | writerOverdue | readerGone => exact h
    | readerOverdue => exact Or.inr ⟨running, rfl⟩
  · rw [shutDown_of_ne_running running]
    exact Or.inl rfl

/-- All but the start, the reader's own moves and a shutdown leave the reader alone. -/
theorem Becomes.reader (h : s.Becomes cause t) (hstart : cause ≠ .command .start)
    (hshut : cause ≠ .command .shutDown) (hread : cause ≠ .move .read)
    (hleave : cause ≠ .move .leave) (hclose : cause ≠ .move .close) : t.reader = s.reader := by
  cases h.touches with
  | start => exact absurd rfl hstart
  | shutDown => exact absurd rfl hshut
  | read => exact absurd rfl hread
  | leave => exact absurd rfl hleave
  | close => exact absurd rfl hclose
  | _ => rfl

/-- A reader that reads was reading, and goes on or stops. -/
theorem reader_of_read? (h : s.read? = some t) :
    s.reader = .running ∧ (t.reader = .running ∨ t.reader = .leaving) := by
  obtain ⟨hreader, hreads⟩ := reads_of_read? h
  refine ⟨hreader, ?_⟩
  cases hreads with
  | @frame body intake =>
    obtain ⟨inFlight, events, heq⟩ := dispatch_frame { s with intake } body
    rw [heq]
    exact Or.inl hreader
  | refused | buffered => exact Or.inl hreader
  | stops | failed | ended => exact Or.inr rfl

/-- What a change does to the reader. -/
inductive ReaderChange (s t : Session) : Cause → Prop
  | kept {cause : Cause} (same : t.reader = s.reader) : ReaderChange s t cause
  | started (first : s.lifecycle = .notStarted) (runs : t.lifecycle = .running)
      (reads : t.reader = .running) : ReaderChange s t (.command .start)
  /-- The client declines the streams it is offered, as it was shut down before it had any. -/
  | declined (absent : s.reader = .absent) (again : s.lifecycle ≠ .notStarted)
      (gone : t.reader = .gone) : ReaderChange s t (.command .start)
  | stopped (reads : s.reader = .running) (stops : t.reader = .leaving) :
      ReaderChange s t (.move .read)
  | left (stopped : s.reader = .leaving) (gone : t.reader = .gone) : ReaderChange s t (.move .leave)
  /-- A client that is shut down gives the reader up at once if it gives it no time. -/
  | cutOff (running : s.lifecycle = .running) (shut : t.lifecycle = .shutDown)
      (gone : t.reader = .gone) : ReaderChange s t (.command .shutDown)
  /-- A shutdown gives the reader up. -/
  | givenUp (closing : s.closing ≠ .none) (gone : t.reader = .gone) : ReaderChange s t (.move .close)

/-- Every change does one of these. -/
theorem Becomes.readerChange (h : s.Becomes cause t) : ReaderChange s t cause := by
  by_cases hstart : cause = .command .start
  · obtain rfl := hstart
    obtain rfl : t = s.apply .start := h
    by_cases hfirst : s.lifecycle = .notStarted
    · rw [start_of_eq hfirst]
      exact .started hfirst rfl rfl
    · rw [start_of_ne hfirst, declineStreams]
      split
      · rename_i habsent
        exact .declined habsent hfirst rfl
      · exact .kept rfl
  · by_cases hread : cause = .move .read
    · obtain rfl := hread
      obtain ⟨hreads, hgoes | hstops⟩ := reader_of_read? h
      · exact .kept (hgoes.trans hreads.symm)
      · exact .stopped hreads hstops
    · by_cases hleave : cause = .move .leave
      · obtain rfl := hleave
        obtain ⟨hleaving, -, rfl⟩ := leave?_eq_some h
        exact .left hleaving rfl
      · by_cases hclose : cause = .move .close
        · obtain rfl := hclose
          have hclosing := closing_of_close? h
          cases closes_of_close? h with
          | writerGone | writerOverdue | readerGone => exact .kept rfl
          | readerOverdue => exact .givenUp hclosing rfl
        · by_cases hshut : cause = .command .shutDown
          · obtain rfl := hshut
            obtain rfl : t = s.apply .shutDown := h
            obtain ⟨_, _, _, _, heq⟩ := shutDown_frame s
            rcases reader_shutDown s with hsame | ⟨hrunning, hgone⟩
            · exact .kept hsame
            · exact .cutOff hrunning (by rw [heq]) hgone
          · exact .kept (h.reader hstart hshut hread hleave hclose)

/-- A reader that is there stays, or lets its input go. -/
theorem Becomes.reader_stays (h : s.Becomes cause t) (hreader : s.reader ≠ .absent) :
    t.reader ≠ .absent := by
  cases h.readerChange with
  | kept same => rw [same]; exact hreader
  | started _ _ reads => simp [reads]
  | declined absent => exact absurd absent hreader
  | stopped _ stops => simp [stops]
  | left _ gone => simp [gone]
  | cutOff _ _ gone => simp [gone]
  | givenUp _ gone => simp [gone]

/-- A client that runs has a writer or has lost it. -/
theorem Staged.writer_ne_absent (h : s.Staged) (running : s.lifecycle = .running) :
    s.writer ≠ .absent := by
  intro habsent
  rcases h.running running with halive | ⟨hlost, -⟩
  · simp [habsent, Writer.isAlive] at halive
  · simp [habsent] at hlost

/-- A client that runs has a reader, or has let it go. -/
theorem Course.reader_ne_absent (course : Course u.fresh past s) (running : s.lifecycle = .running) :
    s.reader ≠ .absent := by
  induction course with
  | nil => simp [Setup.fresh, new] at running
  | @snoc past s t cause course becomes ih =>
    by_cases hrun : s.lifecycle = .running
    · exact becomes.reader_stays (ih hrun)
    · -- Only the start makes a client run that did not.
      cases becomes.stageChange with
      | kept same => exact absurd (same.symm.trans running) hrun
      | started first =>
        obtain rfl : t = s.apply .start := becomes
        rw [start_of_eq first]
        simp [note]
      | shutDown shut => simp [shut] at running

/-- A reader that can do nothing has not stopped half way, and it has stopped if the client was shut
down. -/
theorem reader_of_idle (hread : s.read? = none) (hresolve : s.resolve? 0 = none)
    (hleave : s.leave? = none) :
    s.reader ≠ .leaving ∧ (s.lifecycle = .shutDown → s.reader ≠ .running) := by
  constructor
  · intro hreader
    simp [leave?, hreader, inFlight_of_resolve? hresolve] at hleave
  · intro hshut hreader
    simp [read?, hreader, hshut] at hread

/-- At rest the reader has not stopped half way, and it has stopped if the client was shut down. -/
theorem reader_of_rest (rest : s.next? = none) :
    s.reader ≠ .leaving ∧ (s.lifecycle = .shutDown → s.reader ≠ .running) :=
  reader_of_idle (perform?_of_rest rest .read) (perform?_of_rest rest (.resolve 0))
    (perform?_of_rest rest .leave)

end PipeCall.Session
