import PipeCall.Proofs.Session.Unused

/-!
# The life of a client

A client is started once at most, and is shut down for good. Its stage tells which of the two has
been done to it (`Course.notStarted_iff`, `Course.shutDown_iff`), so a start is refused by a client that
was started or shut down before, and a second shutdown changes nothing. A refused start leaves a client
with the streams that it has (`Course.writer_of_starts`). `lifetime_of_course` says so for every course.
-/

namespace PipeCall.Session

variable {s t : Session} {past later : List Change} {u : Setup} {cause : Cause}

/-! ## Stages -/

/-- One stage of a client's life may follow right on another. -/
inductive Lifecycle.Precedes : Lifecycle → Lifecycle → Prop
  | starts : Precedes .notStarted .running
  | ends : Precedes .running .shutDown
  | neverStarts : Precedes .notStarted .shutDown

/-- A change leaves a client in its stage, or brings it to a later one. -/
theorem Becomes.precedes (h : s.Becomes cause t) :
    t.lifecycle = s.lifecycle ∨ Lifecycle.Precedes s.lifecycle t.lifecycle := by
  cases h.stageChange with
  | kept same => exact Or.inl same
  | started first runs =>
    rw [first, runs]
    exact Or.inr .starts
  | shutDown shut =>
    rw [shut]
    cases s.lifecycle with
    | notStarted => exact Or.inr .neverStarts
    | running => exact Or.inr .ends
    | shutDown => exact Or.inl rfl

/-- A client has been started, or had been shut down before, after a start. -/
theorem lifecycle_start (s : Session) : (s.apply .start).lifecycle ≠ .notStarted := by
  by_cases first : s.lifecycle = .notStarted
  · rw [start_of_eq first]
    simp [note]
  · exact (becomes_apply s .start).started first

/-- A client is shut down exactly if that was done to it. -/
theorem Course.shutDown_iff (course : Course u.fresh past s) :
    s.lifecycle = .shutDown ↔ ∃ d ∈ past, d.cause = .command .shutDown := by
  induction course with
  | nil => simp [Setup.fresh, new]
  | @snoc past s t cause course becomes ih =>
    simp only [List.mem_append, List.mem_singleton, or_and_right, exists_or, exists_eq_left, ← ih]
    constructor
    · intro ht
      cases becomes.stageChange with
      | kept same => exact Or.inl (same.symm.trans ht)
      | started _ runs => simp [runs] at ht
      | shutDown => exact Or.inr rfl
    · rintro (hs | rfl)
      · exact becomes.shutDown_stays hs
      · obtain rfl : t = s.apply .shutDown := becomes
        exact lifecycle_shutDown s

/-- A client is at its first stage exactly if nobody has tried to start it or shut it down. -/
theorem Course.notStarted_iff (course : Course u.fresh past s) :
    s.lifecycle = .notStarted ↔
      ∀ d ∈ past, d.cause ≠ .command .start ∧ d.cause ≠ .command .shutDown := by
  induction course with
  | nil => simp [Setup.fresh, new]
  | @snoc past s t cause course becomes ih =>
    rw [List.forall_mem_append, List.forall_mem_singleton, ← ih]
    constructor
    · intro ht
      refine ⟨?_, ?_, ?_⟩
      · by_contra hs
        exact becomes.started hs ht
      · rintro rfl
        obtain rfl : t = s.apply .start := becomes
        exact lifecycle_start s ht
      · rintro rfl
        obtain rfl : t = s.apply .shutDown := becomes
        simp [lifecycle_shutDown] at ht
    · rintro ⟨hs, hstart, hshut⟩
      cases becomes.stageChange with
      | kept same => exact same.trans hs
      | started => exact absurd rfl hstart
      | shutDown => exact absurd rfl hshut

/-! ## Starts -/

/-- A client starts at its first stage. -/
theorem start_ok (h : s.lifecycle = .notStarted) : s.start = .ok (s.apply .start) := by
  simp only [apply, start, h]

/-- A client refuses to start at any other stage. -/
theorem start_refused (h : s.lifecycle ≠ .notStarted) : s.start = .error .alreadyStarted := by
  simp only [start]

/-- A change starts the client. -/
structure Change.Starts (c : Change) : Prop where
  start : c.cause = .command .start
  ok : c.before.start = .ok c.after

/-- A client starts at its first stage only, and then it runs. -/
theorem Change.Starts.stages {c : Change} (h : c.Starts) :
    c.before.lifecycle = .notStarted ∧ c.after = c.before.apply .start := by
  have hfirst : c.before.lifecycle = .notStarted := by
    by_contra hne
    have hok := h.ok
    rw [start_refused hne] at hok
    simp at hok
  have hok := h.ok
  rw [start_ok hfirst] at hok
  exact ⟨hfirst, (Except.ok.inj hok).symm⟩

/-- A client that has or had an output does not get another. -/
theorem Becomes.writer_stays (h : s.Becomes cause t) (hw : s.writer ≠ .absent) :
    t.writer ≠ .absent := by
  cases h.writerChange with
  | kept same => rw [same.writer]; exact hw
  | started _ _ ready => simp [ready]
  | declined _ _ drops | cutOff _ _ drops | givenUp _ drops => simp [drops.writer]
  | wrote writes => exact writer_ne_absent_of_write? writes

/-- A client that was started keeps the streams that it got then. -/
theorem Course.writer_of_starts (course : Course u.fresh past s) (started : ∃ d ∈ past, d.Starts) :
    s.writer ≠ .absent := by
  obtain ⟨d, hd, starts⟩ := started
  obtain ⟨earlier, since, rfl⟩ := List.append_of_mem hd
  obtain ⟨hfirst, hafter⟩ := starts.stages
  refine (course.since (P := fun t => t.writer ≠ .absent) ?_
    fun becomes hw => becomes.writer_stays hw).2
  rw [hafter, start_of_eq hfirst]
  simp [note]

/-! ## The whole -/

/-- What a client goes through in its life, when the changes `h` have led to `s`. -/
structure Lifetime (h : List Change) (s : Session) : Prop where
  /-- A client stays in its stage, or goes on to one that may follow on it. -/
  stages (c : Change) (hc : c ∈ h) : c.after.lifecycle = c.before.lifecycle ∨
    Lifecycle.Precedes c.before.lifecycle c.after.lifecycle
  /-- Its stage tells what has been done to it. -/
  stage : (s.lifecycle = .notStarted ↔
      ∀ d ∈ h, d.cause ≠ .command .start ∧ d.cause ≠ .command .shutDown) ∧
    (s.lifecycle = .shutDown ↔ ∃ d ∈ h, d.cause = .command .shutDown)
  /-- A client starts if nobody has tried to start it or shut it down before, and refuses otherwise. -/
  starts (past : List Change) (c : Change) (later : List Change) (split : h = past ++ c :: later)
    (start : c.cause = .command .start) :
    (c.Starts ↔ ∀ d ∈ past, d.cause ≠ .command .start ∧ d.cause ≠ .command .shutDown) ∧
      (¬ c.Starts → c.before.start = .error .alreadyStarted)
  /-- It starts once at most. -/
  once (past : List Change) (c : Change) (later : List Change) (split : h = past ++ c :: later)
    (starts : c.Starts) (d : Change) (hd : d ∈ later) : ¬ d.Starts
  /-- A client that was started is not changed by a start that it refuses. One that was not lets the
  streams go that it is offered, and never reads from them or writes to them. -/
  refused (past : List Change) (c : Change) (later : List Change) (split : h = past ++ c :: later)
    (start : c.cause = .command .start) (refused : ¬ c.Starts) :
    ((∃ d ∈ past, d.Starts) → c.after = c.before) ∧
      ((∀ d ∈ past, ¬ d.Starts) →
        (c.after = c.before ∨ c.after = { c.before with writer := .lost, reader := .gone }) ∧
          Untouched (past ++ c :: later) ∧ s.output.taken = [])
  /-- A second shutdown changes nothing. -/
  again (c : Change) (hc : c ∈ h) (stop : c.cause = .command .shutDown)
    (shut : c.before.lifecycle = .shutDown) : c.after = c.before
  /-- A client that was shut down refuses every start and every call. -/
  terminal (past : List Change) (c : Change) (later : List Change) (split : h = past ++ c :: later)
    (stop : c.cause = .command .shutDown) (d : Change) (hd : d ∈ later) :
    (d.cause = .command .start → d.before.start = .error .alreadyStarted) ∧
      ∀ order, d.cause = .command (.issue order) →
        d.after = d.before.addCall (.refused .shutDown)
  /-- A client that is shut down right after its start reads nothing and writes nothing. If it gives
  its loops time it shuts the output down, or tries to, and lets the input go before the clock moves,
  unless the writer is given up before it has had its turn: that happens only when the time has passed,
  and never to a client that does first what it can. If it gives its loops no time both streams are let
  go at once, as they are. -/
  at_once (past : List Change) (a b : Change) (later : List Change)
    (split : h = past ++ a :: b :: later) (starts : a.Starts)
    (stop : b.cause = .command .shutDown) :
    Untouched h ∧ s.output.taken = [] ∧
      (0 < b.before.window →
        ((∀ c ∈ later, c.cause = .move .close → c.before.writer.isGone = true) →
          s.settle.WoundUp ∧ s.settle.clock = s.clock) ∧
        ∀ c ∈ later, c.cause = .move .close → c.before.writer.isGone = false →
          b.before.clock + b.before.window ≤ c.before.clock ∧ ¬ c.before.Makes .close c.after) ∧
      (b.before.window = 0 →
        b.after.writer = .lost ∧ b.after.reader = .gone ∧ b.after.closing = .finished ∧
          b.after.output = a.before.output ∧ b.after.intake = a.before.intake)

/-- Only a start makes a client start. -/
theorem Change.starts_iff {c : Change} (becomes : c.before.Becomes c.cause c.after)
    (start : c.cause = .command .start) : c.Starts ↔ c.before.lifecycle = .notStarted := by
  constructor
  · exact fun starts => starts.stages.1
  · intro first
    rw [start] at becomes
    have hafter : c.after = c.before.apply .start := becomes
    exact ⟨start, by rw [hafter]; exact start_ok first⟩

/-- A client that has never started has read nothing and written nothing. -/
theorem Course.untouched_of_not_starts (course : Course u.fresh past s)
    (never : ∀ d ∈ past, ¬ d.Starts) : Untouched past ∧ s.Unused ∧ s.lifecycle ≠ .running := by
  induction course with
  | nil => exact ⟨by simp [Untouched], unused_fresh u, by simp [Setup.fresh, new]⟩
  | @snoc past s t cause course becomes ih =>
    obtain ⟨huntouched, hunused, hresting⟩ := ih fun d hd => never d (List.mem_append_left _ hd)
    refine ⟨?_, hunused.becomes course.staged hresting becomes, fun running => ?_⟩
    · intro d hd m hm
      rcases List.mem_append.1 hd with hd | hd
      · exact huntouched d hd m hm
      · obtain rfl := List.mem_singleton.1 hd
        obtain rfl : cause = .move m := hm
        exact (hunused.perform? course.staged hresting becomes).2
    · -- A client that runs now and did not before has started.
      cases becomes.stageChange with
      | kept same => exact hresting (same.symm.trans running)
      | started first =>
        obtain rfl : t = s.apply .start := becomes
        exact never ⟨s, .command .start, s.apply .start⟩ (by simp) ⟨rfl, start_ok first⟩
      | shutDown shut => simp [shut] at running

/-- A client that was shut down stays so. -/
theorem Course.shutDown_since (course : Course s later t) (shut : s.lifecycle = .shutDown)
    {d : Change} (hd : d ∈ later) : d.before.lifecycle = .shutDown :=
  (course.keeps (P := fun t => t.lifecycle = .shutDown) shut
    fun _ _ h becomes => becomes.shutDown_stays h).1 d hd

/-- Nobody starts a client again that has been started. -/
theorem Course.once {c d : Change} (course : Course u.fresh (past ++ c :: later) s)
    (starts : c.Starts) (hd : d ∈ later) : ¬ d.Starts := by
  intro starts'
  obtain ⟨-, hafter⟩ := starts.stages
  -- The client is past its first stage after a start.
  have hstarted := (course.since (P := fun t => t.lifecycle ≠ .notStarted)
    (by rw [hafter]; exact lifecycle_start _) fun becomes h => becomes.started h).1 d hd
  exact hstarted starts'.stages.1

/-- A client that refuses to start lets the streams go that it has no use for. -/
theorem Change.refused {c : Change} (becomes : c.before.Becomes c.cause c.after)
    (start : c.cause = .command .start) (refused : c.before.lifecycle ≠ .notStarted) :
    c.after = c.before.declineStreams := by
  rw [start] at becomes
  rw [← start_of_ne refused]
  exact becomes

/-- A client that refuses to start, though it has never been started, was shut down before it was, and
never starts. -/
theorem Course.not_starts_of_refused {c : Change} (course : Course u.fresh (past ++ c :: later) s)
    (refused : c.before.lifecycle ≠ .notStarted) (never : ∀ d ∈ past, ¬ d.Starts) :
    ∀ d ∈ past ++ c :: later, ¬ d.Starts := by
  obtain ⟨hpast, hbecomes, hlater⟩ := course.split
  obtain ⟨-, -, hresting⟩ := hpast.untouched_of_not_starts never
  have hshut : c.before.lifecycle = .shutDown := by
    cases hl : c.before.lifecycle with
    | notStarted => exact absurd hl refused
    | running => exact absurd hl hresting
    | shutDown => rfl
  intro d hd starts
  rcases List.mem_append.1 hd with hd | hd
  · exact never d hd starts
  · rcases List.mem_cons.1 hd with rfl | hd
    · exact refused starts.stages.1
    · have hstays := hlater.shutDown_since (hbecomes.shutDown_stays hshut) hd
      simp [starts.stages.1] at hstays

/-- A client that was shut down right after its start is not used, neither before nor afterwards. -/
theorem Course.untouched_at_once {a : Change} {m v : Session}
    (course : Course u.fresh (past ++ a :: ⟨m, .command .shutDown, v⟩ :: later) s)
    (starts : a.Starts) :
    a.after = m ∧ m.Unused ∧ Untouched (past ++ a :: ⟨m, .command .shutDown, v⟩ :: later) ∧
      s.Unused := by
  obtain ⟨hfirst, hstart⟩ := starts.stages
  rw [← List.singleton_append, ← List.append_assoc] at course
  obtain ⟨hbefore, hbecomes, hlater⟩ := course.split
  obtain ⟨hpast, -, hlast⟩ := hbefore.split_concat
  have hm : a.after = m := hlast
  have hunused : m.Unused := by
    rw [← hm, hstart]
    exact (hpast.unused hfirst).apply .start (Or.inl (by simp [hfirst]))
  have hv : v = m.apply .shutDown := hbecomes
  have hsound := (hbefore.sound (sound_fresh u)).2
  obtain ⟨huntouched, hend⟩ := hlater.untouched (hsound.becomes hbecomes)
    (by rw [hv]; exact lifecycle_shutDown m) (by rw [hv]; exact hunused.apply .shutDown (Or.inr rfl))
  refine ⟨hm, hunused, fun d hd k hk => ?_, hend⟩
  -- Before the start nothing is read or written either.
  obtain ⟨hearlier, -⟩ := hpast.untouched_of_not_starts fun d hd hs =>
    (hpast.notStarted_iff.1 hfirst d hd).1 hs.start
  rcases List.mem_append.1 hd with hd | hd
  · exact hearlier d hd k hk
  · rcases List.mem_cons.1 hd with rfl | hd
    · simp [starts.start] at hk
    · rcases List.mem_cons.1 hd with rfl | hd
      · simp at hk
      · exact huntouched d hd k hk

/-- What a client that has just started is. -/
theorem Change.Starts.fresh {a : Change} (starts : a.Starts) :
    a.after.lifecycle = .running ∧ a.after.writer = .ready ∧ a.after.reader = .running ∧
      a.after.output = a.before.output ∧ a.after.intake = a.before.intake := by
  obtain ⟨hfirst, hstart⟩ := starts.stages
  rw [hstart, start_of_eq hfirst]
  exact ⟨rfl, rfl, rfl, rfl, rfl⟩

/-- A writer that has nothing to write is given up only when its time has passed, and not by a client
that does first what it can. -/
theorem Course.given_up {c : Change} {v : Session}
    (course : Course u.fresh (past ++ ⟨s, .command .shutDown, v⟩ :: later) t)
    (running : s.lifecycle = .running) (unused : s.Unused) (hc : c ∈ later)
    (closes : c.cause = .move .close) (stays : c.before.writer.isGone = false) :
    s.clock + s.window ≤ c.before.clock ∧ ¬ c.before.Makes .close c.after := by
  obtain ⟨hpast, hbecomes, hlater⟩ := course.split
  obtain ⟨hbefore, -⟩ := course.stopped running
  obtain ⟨hsound, hstopped⟩ := hbefore c hc
  have hv : v = s.apply .shutDown := hbecomes
  obtain ⟨earlier, rest, rfl⟩ := List.append_of_mem hc
  obtain ⟨hearlier, hclose, -⟩ := hlater.split
  obtain ⟨-, hunused⟩ := hearlier.untouched ((hpast.sound (sound_fresh u)).2.becomes hbecomes)
    (by rw [hv]; exact lifecycle_shutDown s) (by rw [hv]; exact unused.apply .shutDown (Or.inr rfl))
  rw [closes] at hclose
  have halive := Writer.isAlive_of_not_isGone hstopped.writer stays
  refine ⟨(hstopped.close_of_alive halive hclose).1, fun makes => ?_⟩
  simp [hstopped.isGone_of_makes hsound hunused makes] at stays

/-- A client is never started twice, is shut down for good, and is not used at all when it is shut down
before it was started or right after it. -/
theorem lifetime_of_course {h : List Change} (course : Course u.fresh h s) : Lifetime h s := by
  constructor
  case stages => exact fun c hc => (course.becomes hc).precedes
  case stage => exact ⟨course.notStarted_iff, course.shutDown_iff⟩
  case starts =>
    rintro past c later rfl start
    obtain ⟨hpast, hbecomes, -⟩ := course.split
    rw [Change.starts_iff hbecomes start, hpast.notStarted_iff]
    refine ⟨Iff.rfl, fun hnot => start_refused ?_⟩
    rw [Ne, hpast.notStarted_iff]
    exact hnot
  case once =>
    rintro past c later rfl starts d hd
    exact course.once starts hd
  case refused =>
    rintro past c later rfl start refused
    obtain ⟨hpast, hbecomes, -⟩ := course.split
    rw [Change.starts_iff hbecomes start] at refused
    rw [Change.refused hbecomes start refused]
    constructor
    · intro started
      rcases declineStreams_frame c.before with heq | ⟨habsent, -⟩
      · exact heq
      · exact absurd habsent (hpast.writer_of_starts started)
    · intro never
      obtain ⟨huntouched, hunused, -⟩ :=
        course.untouched_of_not_starts (course.not_starts_of_refused refused never)
      refine ⟨?_, huntouched, hunused.taken⟩
      rcases declineStreams_frame c.before with heq | ⟨-, heq⟩
      · exact Or.inl heq
      · exact Or.inr heq
  case again =>
    intro c hc stop shut
    obtain ⟨_, hearlier, hbecomes⟩ := course.of_mem hc
    rw [stop] at hbecomes
    have hafter : c.after = c.before.apply .shutDown := hbecomes
    rw [hafter]
    exact shutDown_again (hearlier.coheres (coheres_fresh u)) hearlier.staged shut
  case terminal =>
    rintro past c later rfl stop d hd
    obtain ⟨-, hbecomes, hlater⟩ := course.split
    have hshut : c.after.lifecycle = .shutDown := by
      rw [stop] at hbecomes
      rw [show c.after = c.before.apply .shutDown from hbecomes]
      exact lifecycle_shutDown _
    have hstays := hlater.shutDown_since hshut hd
    refine ⟨fun _ => start_refused (by simp [hstays]), fun order issued => ?_⟩
    have hissues := hlater.becomes hd
    rw [issued] at hissues
    rw [show d.after = d.before.issue order from hissues]
    exact issue_of_ne_running (by simp [hstays]) order
  case at_once =>
    rintro past a ⟨m, cause, v⟩ later rfl starts rfl
    obtain ⟨rfl, hunused, huntouched, hend⟩ := course.untouched_at_once starts
    obtain ⟨hrunning, hready, hreads, houtput, hintake⟩ := starts.fresh
    have hstopped := course
    rw [← List.singleton_append, ← List.append_assoc] at hstopped
    refine ⟨huntouched, hend.taken, fun grace => ⟨fun waits => ?_, fun c hc closes stays => ?_⟩,
      fun grace => ?_⟩
    · exact ⟨hstopped.winds_up hrunning hready hunused grace waits, clock_settle s⟩
    · exact hstopped.given_up hrunning hunused hc closes stays
    · obtain ⟨-, hbecomes, -⟩ := hstopped.split
      obtain ⟨hwriter, hreader, hclosing, houtput', hintake'⟩ :=
        shutDown_of_unused hrunning hready hreads grace
      rw [show v = a.after.apply .shutDown from hbecomes]
      exact ⟨hwriter, hreader, hclosing, houtput'.trans houtput, hintake'.trans hintake⟩

/-! ## Starting and shutting down in one go -/

/-- Waiting for the deadline of a shutdown is a course. -/
theorem course_passDeadline (s : Session) : ∃ later, Course s later s.passDeadline := by
  unfold passDeadline
  split
  · exact course_step s _
  · exact course_step s _
  · exact ⟨[], .nil⟩

/-- A client that is started and shut down at once has both done to it, one right after the other. -/
theorem course_startAndStop (s : Session) :
    ∃ later, Course s (⟨s, .command .start, s.apply .start⟩ ::
      ⟨s.apply .start, .command .shutDown, (s.apply .start).apply .shutDown⟩ :: later)
      s.startAndStop := by
  have hboth : Course s _ ((s.apply .start).apply .shutDown) :=
    (Course.nil.snoc (becomes_apply s .start)).snoc (becomes_apply (s.apply .start) .shutDown)
  obtain ⟨moves, hmoves, -⟩ := course_run ((s.apply .start).apply .shutDown).work
    ((s.apply .start).apply .shutDown)
  have hstep : Course s _ (s.step [.start, .shutDown]) := hboth.append hmoves
  unfold startAndStop
  split
  · exact ⟨moves, hstep⟩
  · -- The two loops are waited for one after the other.
    obtain ⟨first, hfirst⟩ := course_passDeadline (s.step [.start, .shutDown])
    obtain ⟨second, hsecond⟩ := course_passDeadline (s.step [.start, .shutDown]).passDeadline
    have hall := (hstep.append hfirst).append hsecond
    simp only [List.append_assoc] at hall
    exact ⟨_, hall⟩

/-- A client that is started and shut down in one go refuses what is done to it afterwards: a start, a
call and another shutdown. -/
theorem lifetime_of_course_started_and_stopped :
    ∃ h, Course Setup.sample.fresh h
        ([[.start], [.issue .sample], [.shutDown]].foldl step Setup.sample.fresh.startAndStop) ∧
      Lifetime h
        ([[.start], [.issue .sample], [.shutDown]].foldl step Setup.sample.fresh.startAndStop) ∧
      Setup.sample.fresh.startAndStop.writer = .closed ∧
      ([[.start], [.issue .sample], [.shutDown]].foldl step
        Setup.sample.fresh.startAndStop).outcomeAt? 0 = some (.error .shutDown) := by
  obtain ⟨_, hstopped⟩ := course_startAndStop Setup.sample.fresh
  obtain ⟨_, hstarted⟩ := course_step Setup.sample.fresh.startAndStop [.start]
  obtain ⟨_, hissued⟩ := course_step (Setup.sample.fresh.startAndStop.step [.start]) [.issue .sample]
  obtain ⟨_, hagain⟩ :=
    course_step ((Setup.sample.fresh.startAndStop.step [.start]).step [.issue .sample]) [.shutDown]
  have hall := ((hstopped.append hstarted).append hissued).append hagain
  exact ⟨_, hall, lifetime_of_course hall, rfl, rfl⟩

/-- A client that gives its loops no time does not shut its output down, though nothing keeps it from
that: it lets both streams go before the writer gets to do anything. -/
theorem output_let_go_without_time :
    let s := (Setup.fresh { Setup.sample with timeout := .ofMillis 0 }).startAndStop
    s.writer = .lost ∧ s.output.closeFailure = none ∧ s.lifecycle = .shutDown :=
  ⟨rfl, rfl, rfl⟩

end PipeCall.Session
