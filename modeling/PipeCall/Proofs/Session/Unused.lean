import PipeCall.Proofs.Session.Answer
import PipeCall.Proofs.Session.EndOfInput
import PipeCall.Proofs.Session.Shutdown

/-!
# Clients that are not used

As long as a client does not run it registers no call, reads nothing and writes nothing (`Unused`), and
a client that was shut down before it was used never is (`Course.untouched`). When it is shut down
right after its start, and gives its loops time, it has nothing to wait for: it shuts its output down
and lets its input go (`Course.winds_up`). If it gives them none, both are let go as they are
(`shutDown_of_unused`).
-/

namespace PipeCall.Session

variable {s t v : Session} {past later : List Change} {u : Setup} {cause : Cause}

/-! ## What keeps a client from being used -/

/-- The client has registered no call, has nothing to write and nothing on its way to the registry, and
has written nothing. -/
structure Unused (s : Session) : Prop where
  calls (ticket : Ticket) (phase : Phase) : .registered ticket phase ∉ s.calls
  queue : s.queue = []
  inFlight : s.inFlight = []
  taken : s.output.taken = []
  writer (r : Request) (rest : Bytes) : s.writer ≠ .writing r rest
  reader : s.lifecycle = .notStarted → s.reader = .absent

/-- The client reads nothing and writes nothing. -/
def Untouched (changes : List Change) : Prop :=
  ∀ d ∈ changes, ∀ m, d.cause = .move m →
    d.after.intake = d.before.intake ∧ d.after.output = d.before.output

/-- A client that nothing has been done to is not used. -/
theorem unused_fresh (u : Setup) : u.fresh.Unused where
  calls _ _ := List.not_mem_nil
  queue := rfl
  inFlight := rfl
  taken := rfl
  writer _ _ h := nomatch h
  reader _ := rfl

namespace Unused

/-- No call that was registered passes a test. -/
theorem spot?_eq_none (h : s.Unused) (test : Ticket → Phase → Bool) : spot? test s.calls = none :=
  spot?_eq_none_of fun ticket phase hmem => absurd hmem (h.calls ticket phase)

/-- A step of a shutdown uses nothing. -/
theorem close? (h : s.Unused) (started : s.lifecycle ≠ .notStarted) (hclose : s.close? = some t) :
    t.Unused ∧ t.intake = s.intake ∧ t.output = s.output := by
  cases closes_of_close? hclose with
  | writerGone | readerGone | readerOverdue =>
    exact ⟨⟨h.calls, h.queue, h.inFlight, h.taken, h.writer, fun hfirst => absurd hfirst started⟩,
      rfl, rfl⟩
  | writerOverdue =>
    exact ⟨⟨h.calls, h.queue, h.inFlight, h.taken, by simp [note],
      fun hfirst => absurd hfirst started⟩, rfl, rfl⟩

/-- What is done to a client that does not run does not use it, and neither does a shutdown. -/
theorem apply (h : s.Unused) (c : Command) (resting : s.lifecycle ≠ .running ∨ c = .shutDown) :
    (s.apply c).Unused := by
  cases c with
  | start =>
    by_cases first : s.lifecycle = .notStarted
    · rw [start_of_eq first]
      exact ⟨h.calls, h.queue, h.inFlight, h.taken, by simp [note], by simp [note]⟩
    · rw [start_of_ne first]
      rcases declineStreams_frame s with heq | ⟨-, heq⟩
      · rw [heq]
        exact h
      · rw [heq]
        exact ⟨h.calls, h.queue, h.inFlight, h.taken, by simp, fun hfirst => absurd hfirst first⟩
  | shutDown =>
    by_cases running : s.lifecycle = .running
    · refine (shutDown_keeps (P := fun t => t.lifecycle ≠ .notStarted ∧ t.Unused) running ?_ ?_).2
      · exact ⟨by simp [told, note],
          h.calls, h.queue, h.inFlight, h.taken, h.writer, by simp [told, note]⟩
      · rintro v t ⟨hstarted, hunused⟩ hclose
        exact ⟨(becomes_of_perform? (m := .close) hclose).started hstarted,
          (hunused.close? hstarted hclose).1⟩
    · rw [shutDown_of_ne_running running]
      exact ⟨h.calls, h.queue, h.inFlight, h.taken, h.writer, by simp⟩
  | issue order =>
    -- The call is refused.
    rw [Session.apply, issue_of_ne_running (resting.resolve_right (by simp))]
    refine ⟨fun ticket phase hmem => ?_, h.queue, h.inFlight, h.taken, h.writer, h.reader⟩
    rcases List.mem_append.1 hmem with hmem | hmem
    · exact h.calls ticket phase hmem
    · simp at hmem
  | abandon place =>
    -- There is no call to give up.
    have hsame : s.abandon place = s := by
      unfold abandon
      split
      · rename_i ticket phase hplace
        exact absurd (List.mem_of_getElem? hplace) (h.calls ticket phase)
      · rfl
    rw [Session.apply, hsame]
    exact h
  | _ => exact ⟨h.calls, h.queue, h.inFlight, h.taken, h.writer, h.reader⟩

/-- What a client does by itself that does not run does not use it. -/
theorem perform? (h : s.Unused) (hs : s.Staged) (resting : s.lifecycle ≠ .running) {m : Move}
    (hm : s.perform? m = some t) : t.Unused ∧ t.intake = s.intake ∧ t.output = s.output := by
  cases m with
  | deliver =>
    obtain ⟨spot, hspot, -⟩ := deliver?_eq_some hm
    simp [h.spot?_eq_none] at hspot
  | expire =>
    obtain ⟨-, spot, hspot, -⟩ := expire?_eq_some hm
    simp [h.spot?_eq_none] at hspot
  | refuse =>
    obtain ⟨-, -, spot, hspot, -⟩ := refuse?_eq_some hm
    simp [h.spot?_eq_none] at hspot
  | write =>
    -- The writer has no frame to write, and none to take off the queue.
    cases writes_of_write? hm with
    | sent writes | failed writes | left writes => exact absurd writes (h.writer _ _)
    | takes _ first | passes _ first => simp [h.queue] at first
    | shuts =>
      refine ⟨⟨h.calls, h.queue, h.inFlight, h.taken, ?_, h.reader⟩, rfl, rfl⟩
      simp only
      split <;> simp
  | refill =>
    -- There is no call that waits for room.
    obtain ⟨-, -, hne, -⟩ := refill?_eq_some hm
    obtain ⟨front, back, hcalls, hlet⟩ := letIn_eq (queueCapacity - s.queue.length) s.calls
    rw [hlet] at hne
    obtain ⟨r, hr⟩ := List.exists_mem_of_ne_nil _ hne
    obtain ⟨c, hc, hrequest⟩ := List.mem_filterMap.1 hr
    obtain ⟨ticket, rfl, -⟩ := Call.waitingRequest?_eq_some.1 hrequest
    exact absurd (by rw [hcalls]; exact List.mem_append_left _ hc) (h.calls ticket .waiting)
  | turn place =>
    cases turns_of_turn? hm with
    | ends stands | enters stands =>
      exact absurd (List.mem_of_getElem? stands) (h.calls _ _)
  | read =>
    -- The reader runs only after the start.
    obtain ⟨hreader, hreads⟩ := reads_of_read? hm
    have hshut : s.lifecycle = .shutDown := by
      cases hl : s.lifecycle with
      | notStarted => simp [h.reader hl] at hreader
      | running => exact absurd hl resting
      | shutDown => rfl
    cases hreads with
    | stops =>
      exact ⟨⟨h.calls, h.queue, h.inFlight, h.taken, h.writer, by simp [hshut]⟩, rfl, rfl⟩
    | frame may | refused may | buffered may | failed may | ended may =>
      exact absurd hshut may.goesOn
  | resolve place =>
    obtain ⟨id, reply, hplace, -⟩ := resolve?_eq_some hm
    simp [h.inFlight] at hplace
  | leave =>
    obtain ⟨hreader, -, rfl⟩ := leave?_eq_some hm
    refine ⟨⟨h.calls, h.queue, h.inFlight, h.taken, h.writer, fun hfirst => ?_⟩, rfl, rfl⟩
    simp [h.reader hfirst] at hreader
  | close =>
    have hstage := hs.closing (closing_of_close? hm)
    exact h.close? (by simp [hstage]) hm

/-- No change uses a client that does not run. -/
theorem becomes (h : s.Unused) (hs : s.Staged) (resting : s.lifecycle ≠ .running)
    (becomes : s.Becomes cause t) : t.Unused := by
  cases cause with
  | command c =>
    obtain rfl : t = s.apply c := becomes
    exact h.apply c (Or.inl resting)
  | move m => exact (h.perform? hs resting becomes).1

end Unused

/-- A client is not used before its start. -/
theorem Course.unused (course : Course u.fresh past s) (first : s.lifecycle = .notStarted) :
    s.Unused := by
  induction course with
  | nil => exact unused_fresh u
  | @snoc past s t cause course becomes ih =>
    have hbefore : s.lifecycle = .notStarted := by
      by_contra hstarted
      exact becomes.started hstarted first
    exact (ih hbefore).becomes course.staged (by simp [hbefore]) becomes

/-- A client that was shut down before it was used is never used. -/
theorem Course.untouched (course : Course s later t) (hs : s.Sound) (shut : s.lifecycle = .shutDown)
    (unused : s.Unused) : Untouched later ∧ t.Unused := by
  obtain ⟨hall, -, -, hend⟩ := course.keeps
    (P := fun t => t.Sound ∧ t.lifecycle = .shutDown ∧ t.Unused) ⟨hs, shut, unused⟩
    fun _ _ h becomes => ⟨h.1.becomes becomes, becomes.shutDown_stays h.2.1,
      h.2.2.becomes h.1.staged (by simp [h.2.1]) becomes⟩
  refine ⟨fun d hd m hm => ?_, hend⟩
  obtain ⟨hsound, hshut, hunused⟩ := hall d hd
  have becomes := course.becomes hd
  rw [hm] at becomes
  exact (hunused.perform? hsound.staged (by simp [hshut]) becomes).2

/-! ## Started and shut down at once -/

/-- A writer that has nothing to write waits, or has shut the output down, or has tried to. -/
def Idles (s : Session) : Prop :=
  s.writer = .ready ∨ s.writer = .closed ∨
    s.writer = .lost ∧ s.output.closeFailure.isSome = true

/-- An output that cannot be shut down stays so. -/
theorem closeFailure_apply (h : s.output.closeFailure.isSome = true) (c : Command) :
    (s.apply c).output.closeFailure.isSome = true := by
  cases c with
  | start => obtain ⟨_, _, _, _, heq⟩ := start_frame s; rw [heq]; exact h
  | shutDown => obtain ⟨_, _, _, _, heq⟩ := shutDown_frame s; rw [heq]; exact h
  | issue order => obtain ⟨_, _, _, _, heq⟩ := issue_frame s order; rw [apply, heq]; exact h
  | abandon place => obtain ⟨_, _, heq⟩ := abandon_frame s place; rw [apply, heq]; exact h
  | failClose reason => rfl
  | _ => exact h

/-- A writer that has nothing to write shuts the output down, or tries to. -/
theorem Unused.idles_of_write? (h : s.Unused) (hwrite : s.write? = some t) : t.Idles := by
  cases writes_of_write? hwrite with
  | sent writes | failed writes | left writes => exact absurd writes (h.writer _ _)
  | takes _ first | passes _ first => simp [h.queue] at first
  | shuts =>
    by_cases hfailure : s.output.closeFailure.isSome = true
    · exact Or.inr (Or.inr ⟨if_pos hfailure, hfailure⟩)
    · exact Or.inr (Or.inl (if_neg hfailure))

/-- A writer that has nothing to write after a shutdown goes on idling, unless it is given up. -/
theorem Stopped.idles (h : s.Stopped t) (hs : t.Sound) (unused : t.Unused) (idles : t.Idles)
    (becomes : t.Becomes cause v) (waits : cause = .move .close → t.writer.isGone = true) :
    v.Idles := by
  cases cause with
  | command c =>
    have same := h.unwritten becomes (by simp) (by simp)
    obtain rfl : v = t.apply c := becomes
    rw [Idles, same.writer]
    rcases idles with hready | hclosed | ⟨hlost, hfailure⟩
    · exact Or.inl hready
    · exact Or.inr (Or.inl hclosed)
    · exact Or.inr (Or.inr ⟨hlost, closeFailure_apply hfailure c⟩)
  | move m =>
    obtain ⟨-, -, houtput⟩ := unused.perform? hs.staged (by simp [h.lifecycle]) becomes
    by_cases hwrite : m = .write
    · obtain rfl := hwrite
      exact unused.idles_of_write? becomes
    · have hsame : v.writer = t.writer := by
        by_cases hclose : m = .close
        · obtain rfl := hclose
          cases closes_of_close? becomes with
          | writerGone | readerGone | readerOverdue => rfl
          | writerOverdue _ stays => simp [waits rfl] at stays
        · exact (becomes.unwritten (by simp) (by simp) (by simpa using hwrite)
            (by simpa using hclose)).writer
      rw [Idles, hsame, houtput]
      exact idles

/-- A client that goes on with a shutdown only when it can do nothing else does not give a writer up that
has nothing to write: only the output could hold it up. -/
theorem Stopped.isGone_of_makes (h : s.Stopped t) (hs : t.Sound) (unused : t.Unused)
    (makes : t.Makes .close v) : t.writer.isGone = true := by
  cases halive : t.writer.isAlive with
  | true =>
    obtain ⟨-, -, -, hheld⟩ := h.overdue hs makes.perform? halive
    obtain ⟨⟨r, rest, hwriting⟩, -⟩ := hheld makes
    exact absurd hwriting (unused.writer r rest)
  | false => exact Writer.isGone_of_not_isAlive h.writer halive

/-- The client has shut its output down, or has tried to, and has let its input go, and its shutdown is
over. -/
structure WoundUp (s : Session) : Prop where
  writer : s.writer = .closed ∨ s.writer = .lost ∧ s.output.closeFailure.isSome = true
  reader : s.reader = .gone
  closing : s.closing = .finished

/-- At rest a client that was shut down has wound up, if its writer idles. -/
theorem Stopped.woundUp (h : s.Stopped t) (hs : t.Sound) (unused : t.Unused) (idles : t.Idles)
    (rest : t.next? = none) : t.WoundUp := by
  -- Nothing holds the writer up, so the shutdown is over.
  have hfinished : t.closing = .finished := by
    rcases h.over_or_heldUp hs rest with hfinished | ⟨⟨r, rest, hwriting⟩, -⟩
    · exact hfinished
    · exact absurd hwriting (unused.writer r rest)
  have hgone : t.writer.isGone = true := by
    rcases h.waits with hwaits | ⟨hgone, -⟩
    · simp [hfinished] at hwaits
    · exact hgone
  refine ⟨?_, ?_, hfinished⟩
  · rcases idles with hready | hclosed | hlost
    · simp [hready, Writer.isGone] at hgone
    · exact Or.inl hclosed
    · exact Or.inr hlost
  · obtain ⟨hleaving, hrunning⟩ := reader_of_rest rest
    cases hr : t.reader with
    | absent => exact absurd hr h.reader
    | running => exact absurd hr (hrunning h.lifecycle)
    | leaving => exact absurd hr hleaving
    | gone => rfl

/-- What is known of a client that was shut down before it was used, as long as its writer is not given
up. -/
structure Winds (s t : Session) : Prop where
  stopped : s.Stopped t
  sound : t.Sound
  unused : t.Unused
  idles : t.Idles

/-- It stays known until the writer is given up. -/
theorem Winds.keeps (h : Winds s t) (course : Course t later v)
    (waits : ∀ c ∈ later, c.cause = .move .close → Winds s c.before → c.before.writer.isGone = true) :
    Winds s v :=
  (course.keeps (P := Winds s) h fun c hc h becomes =>
    ⟨h.stopped.becomes h.sound becomes, h.sound.becomes becomes,
      h.unused.becomes h.sound.staged (by simp [h.stopped.lifecycle]) becomes,
      h.stopped.idles h.sound h.unused h.idles becomes fun hclose => waits c hc hclose h⟩).2

/-- A client that was shut down before it was used, and gives its loops time, shuts its output down and
lets its input go when it settles, unless it has given its writer up before. -/
theorem Course.winds_up (course : Course u.fresh (past ++ ⟨s, .command .shutDown, v⟩ :: later) t)
    (running : s.lifecycle = .running) (ready : s.writer = .ready) (unused : s.Unused)
    (grace : 0 < s.window)
    (waits : ∀ c ∈ later, c.cause = .move .close → c.before.writer.isGone = true) :
    t.settle.WoundUp := by
  obtain ⟨hpast, hbecomes, hlater⟩ := course.split
  have hfirst : Winds s v := by
    have hv : v = s.apply .shutDown := hbecomes
    have hstopped := stopped_of_shutDown hpast running
    have hsound := (hpast.sound (sound_fresh u)).2.becomes hbecomes
    have hunused := unused.apply .shutDown (Or.inr rfl)
    rw [← hv] at hstopped hunused
    refine ⟨hstopped, hsound, hunused, Or.inl ?_⟩
    rw [hv, shutDown_of_running running grace]
    exact ready
  have hwinds := hfirst.keeps hlater fun c hc hclose _ => waits c hc hclose
  -- A client that settles goes on with the shutdown only when it can do nothing else.
  obtain ⟨moves, hsettled, hmakes⟩ := course_run t.work t
  have hend := hwinds.keeps hsettled fun c hc hclose h => by
    obtain ⟨m, hm, makes⟩ := hmakes c hc
    rw [hclose] at hm
    obtain rfl := Cause.move.inj hm
    exact h.stopped.isGone_of_makes h.sound h.unused makes
  exact hend.stopped.woundUp hend.sound hend.unused hend.idles (next?_settle t)

/-- A client that is shut down right after its start, and gives its loops no time, lets both streams go
before anything is done with them. -/
theorem shutDown_of_unused (running : s.lifecycle = .running) (writer : s.writer = .ready)
    (reader : s.reader = .running) (grace : s.window = 0) :
    (s.apply .shutDown).writer = .lost ∧ (s.apply .shutDown).reader = .gone ∧
      (s.apply .shutDown).closing = .finished ∧ (s.apply .shutDown).output = s.output ∧
      (s.apply .shutDown).intake = s.intake := by
  -- First the writer is given up, and then the reader.
  have hwriter : s.told.close? = some (({ s.told with
      closing := .reader 0 s.clock, writer := .lost } : Session).note
        (.writerOverdue (Span.ofMillis 0))) := by
    simp [close?, told, note, writer, grace, Writer.isGone]
  rw [shutDown_of_no_grace running grace, hwriter, Option.bind_some]
  have hreader : s.told.reader.isGone = false := by
    rw [show s.told.reader = s.reader from rfl, reader]
    rfl
  simp [close?, note, hreader, show s.told.clock = s.clock from rfl,
    show s.told.output = s.output from rfl, show s.told.intake = s.intake from rfl]

end PipeCall.Session
