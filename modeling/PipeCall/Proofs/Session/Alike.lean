import PipeCall.Proofs.Session.EndOfInput
import PipeCall.Proofs.Session.Hearing

/-!
# Clients that go on alike

Two clients are `Alike` if they have the same core, the same reader and the same replies on their
way, and what they still read of their input is the same: what is to come is, and the next result
of their decoders, or neither will ever read again (`Deaf`). Whatever is done to both, and whatever
moves they make, they stay alike (`Alike.apply`, `Alike.settle`).
-/

namespace PipeCall.Session

open PipeCall.Frame (heard)

variable {s t : Session} {cause : Cause}

/-! ## Clients that read no more -/

/-- The client reads no more of its input: it was started, and its reader does not run, or stops
before it reads. -/
def Deaf (s : Session) : Prop :=
  s.lifecycle ≠ .notStarted ∧ (s.reader = .running → s.lifecycle = .shutDown)

/-- A client was not started, or it runs with its reader reading, or it reads no more. -/
theorem reads_cases (s : Session) :
    s.lifecycle = .notStarted ∨ (s.lifecycle = .running ∧ s.reader = .running) ∨ s.Deaf := by
  cases hlifecycle : s.lifecycle with
  | notStarted => exact Or.inl rfl
  | running =>
    by_cases hreader : s.reader = .running
    · exact Or.inr (Or.inl ⟨rfl, hreader⟩)
    · exact Or.inr (Or.inr ⟨by simp [hlifecycle], fun hrun => absurd hrun hreader⟩)
  | shutDown => exact Or.inr (Or.inr ⟨by simp [hlifecycle], fun _ => hlifecycle⟩)

/-- A reader that runs after a change has run before, if the client was started. -/
theorem Becomes.reader_ran (h : s.Becomes cause t) (started : s.lifecycle ≠ .notStarted)
    (hrun : t.reader = .running) : s.reader = .running := by
  cases h.readerChange with
  | kept same => exact same.symm.trans hrun
  | started first => exact absurd first started
  | declined _ _ gone => simp [gone] at hrun
  | stopped reads => exact reads
  | left _ gone => simp [gone] at hrun
  | cutOff _ _ gone => simp [gone] at hrun
  | givenUp _ gone => simp [gone] at hrun

/-- A client that reads no more never does again. -/
theorem Becomes.deaf (h : s.Becomes cause t) (hs : s.Deaf) : t.Deaf :=
  ⟨h.started hs.1, fun hrun => h.shutDown_stays (hs.2 (h.reader_ran hs.1 hrun))⟩

/-- It settles as one that reads no more. -/
theorem Deaf.settle (h : s.Deaf) : s.settle.Deaf :=
  (leads_settle s).keeps (fun becomes => becomes.deaf) h

/-! ## Commands -/

/-- What a command does to the input. -/
def Command.feeds : Command → Input → Input
  | .send bs, i => { i with arrived := i.arrived ++ bs }
  | .endInput, i => { i with ended := true }
  | .failInput reason, i => { i with failure := some reason }
  | _, i => i

/-- A command changes the input, and nothing that the reader has made of it. -/
theorem intake_apply (s : Session) (c : Command) :
    (s.apply c).intake = { s.intake with input := c.feeds s.intake.input } := by
  cases c with
  | start => obtain ⟨_, _, _, _, h⟩ := start_frame s; rw [h]; rfl
  | shutDown => obtain ⟨_, _, _, _, h⟩ := shutDown_frame s; rw [h]; rfl
  | issue order => obtain ⟨_, _, _, _, h⟩ := issue_frame s order; rw [apply, h]; rfl
  | abandon place => obtain ⟨_, _, h⟩ := abandon_frame s place; rw [apply, h]; rfl
  | _ => rfl

/-- Clients with the same core and the same reader differ in their input, the replies on their way
and their events alone. -/
theorem exists_side (core : t.core = s.core) (reader : t.reader = s.reader) :
    ∃ intake inFlight events, t = { s with intake, inFlight, events } := by
  refine ⟨t.intake, t.inFlight, t.events, ?_⟩
  cases s
  cases t
  simp_all [Session.core]

/-- A step of a shutdown sees the core and the reader alone. -/
theorem core_close? (core : t.core = s.core) (reader : t.reader = s.reader) :
    Option.Rel (fun v w => w.core = v.core ∧ w.reader = v.reader) s.close? t.close? := by
  obtain ⟨intake, inFlight, events, rfl⟩ := exists_side core reader
  unfold close?
  dsimp only
  split
  · split
    · exact .some ⟨rfl, rfl⟩
    · split
      · exact .some ⟨rfl, rfl⟩
      · exact .none
  · split
    · exact .some ⟨rfl, rfl⟩
    · split
      · exact .some ⟨rfl, rfl⟩
      · exact .none
  · exact .none

/-- Handing a request to the queue sees the core alone. -/
theorem core_enqueue (core : t.core = s.core) (reader : t.reader = s.reader) (ticket : Ticket) :
    (t.enqueue ticket).core = (s.enqueue ticket).core ∧
      (t.enqueue ticket).reader = (s.enqueue ticket).reader := by
  obtain ⟨intake, inFlight, events, rfl⟩ := exists_side core reader
  have hroom : hasRoom { s with intake, inFlight, events } = s.hasRoom := rfl
  unfold enqueue
  rw [hroom]
  dsimp only
  split
  · exact ⟨rfl, rfl⟩
  · cases s.hasRoom <;> exact ⟨rfl, rfl⟩

/-- What a command does to the core and the reader depends on these alone. -/
theorem core_apply (core : t.core = s.core) (reader : t.reader = s.reader) (c : Command) :
    (t.apply c).core = (s.apply c).core ∧ (t.apply c).reader = (s.apply c).reader := by
  obtain ⟨intake, inFlight, events, rfl⟩ := exists_side core reader
  cases c with
  | start =>
    by_cases hfirst : s.lifecycle = .notStarted
    · rw [start_of_eq hfirst, start_of_eq (s := { s with intake, inFlight, events }) hfirst]
      exact ⟨rfl, rfl⟩
    · rw [start_of_ne hfirst, start_of_ne (s := { s with intake, inFlight, events }) hfirst]
      simp only [declineStreams]
      split <;> exact ⟨rfl, rfl⟩
  | shutDown =>
    let t : Session := { s with intake, inFlight, events }
    by_cases running : s.lifecycle = .running
    · by_cases grace : s.window = 0
      · -- Both shutdowns end at once, by the same two steps.
        rw [shutDown_of_no_grace running grace, shutDown_of_no_grace (s := t) running grace]
        have htold : t.told.core = s.told.core ∧ t.told.reader = s.told.reader := ⟨rfl, rfl⟩
        have hwriter := core_close? htold.1 htold.2
        generalize s.told.close? = v?, t.told.close? = w? at hwriter ⊢
        cases hwriter with
        | none => exact htold
        | @some v w hnext =>
          have hreader := core_close? hnext.1 hnext.2
          simp only [Option.bind_some]
          generalize v.close? = v?, w.close? = w? at hreader ⊢
          cases hreader with
          | none => exact htold
          | some hlast => exact hlast
      · have hgrace : 0 < s.window := Nat.pos_of_ne_zero grace
        rw [shutDown_of_running running hgrace, shutDown_of_running (s := t) running hgrace]
        exact ⟨rfl, rfl⟩
    · rw [shutDown_of_ne_running running, shutDown_of_ne_running (s := t) running]
      exact ⟨rfl, rfl⟩
  | issue order =>
    simp only [apply, issue]
    split
    · split
      · exact ⟨rfl, rfl⟩
      · exact core_enqueue (by rfl) (by rfl) _
    · exact ⟨rfl, rfl⟩
    · exact ⟨rfl, rfl⟩
  | abandon place =>
    simp only [apply, abandon]
    split
    · split <;> exact ⟨rfl, rfl⟩
    · exact ⟨rfl, rfl⟩
  | _ => exact ⟨rfl, rfl⟩

/-! ## Clients that are alike -/

/-- Two clients are the same to their callers and on the wire, and go on being so by themselves. -/
structure Alike (s t : Session) : Prop where
  core : t.core = s.core
  reader : t.reader = s.reader
  inFlight : t.inFlight = s.inFlight
  /-- What they will read is the same, or they read no more. -/
  reads : s.Deaf ∨
    t.intake.input = s.intake.input ∧ t.intake.decoder.next = s.intake.decoder.next

/-- The same command leaves clients alike. -/
theorem Alike.apply (h : Alike s t) (c : Command) : Alike (s.apply c) (t.apply c) := by
  obtain ⟨hcore, hreader⟩ := core_apply h.core h.reader c
  refine ⟨hcore, hreader, by rw [inFlight_apply, inFlight_apply, h.inFlight], ?_⟩
  rcases h.reads with hdeaf | ⟨hinput, hnext⟩
  · exact Or.inl ((becomes_apply s c).deaf hdeaf)
  · rw [intake_apply, intake_apply]
    exact Or.inr ⟨by simp only [hinput], hnext⟩

/-- All that a client is but for its input and its events. -/
def side (s : Session) : Session × Reader × List (Nat × Reply) := (s.core, s.reader, s.inFlight)

/-- Only a read changes the input or the decoder. -/
theorem intake_of_perform? {m : Move} (h : s.perform? m = some t) (hm : m ≠ .read) :
    t.intake = s.intake := by
  cases touches_perform? h with
  | read => exact absurd rfl hm
  | _ => rfl

/-- A move other than a read sees all but the input and the events, and nothing else. -/
theorem Alike.map_side (h : Alike s t) {m : Move} (hm : m ∈ Move.order) (hread : m ≠ .read) :
    (s.perform? m).map side = (t.perform? m).map side := by
  rw [Move.order_eq, List.mem_append] at hm
  rcases hm with hm | hm
  · -- A core move sees the core alone, and leaves the rest.
    have hmap : (s.perform? m).map Session.core = (t.perform? m).map Session.core := by
      rw [← core_perform? hm s, ← core_perform? hm t, h.core]
    cases hs : s.perform? m with
    | none =>
      rw [hs, Option.map_none, eq_comm, Option.map_eq_none_iff] at hmap
      rw [hmap]
    | some s' =>
      rw [hs, Option.map_some, eq_comm, Option.map_eq_some_iff] at hmap
      obtain ⟨t', ht, hcore⟩ := hmap
      obtain ⟨-, hreader, hflight⟩ := side_of_perform? hm hs
      obtain ⟨-, hreader', hflight'⟩ := side_of_perform? hm ht
      rw [ht, Option.map_some, Option.map_some, side, side, hcore, hreader, hreader', h.reader,
        hflight, hflight', h.inFlight]
  · -- The others see what is on its way and the reader besides.
    simp only [List.mem_cons, List.not_mem_nil, or_false] at hm
    obtain ⟨intake, inFlight, events, rfl⟩ := exists_side h.core h.reader
    obtain rfl : inFlight = s.inFlight := h.inFlight
    rcases hm with rfl | rfl | rfl | rfl
    · exact absurd rfl hread
    · simp only [perform?, resolve?]
      cases s.inFlight[0]? <;> rfl
    · simp only [perform?, leave?]
      split
      · split <;> rfl
      · rfl
    · simp only [perform?, close?]
      split
      · split
        · rfl
        · split <;> rfl
      · split
        · rfl
        · split <;> rfl
      · rfl

/-- What is pulled depends on the input and on the next result of the decoder. -/
theorem pull_congr {k l : Frame.Intake} (input : l.input = k.input)
    (next : l.decoder.next = k.decoder.next) : l.pull = k.pull := by
  simp only [Frame.Intake.pull, input, next]

/-- Reading leaves clients alike. -/
theorem Alike.read? (h : Alike s t) : Option.Rel Alike s.read? t.read? := by
  obtain ⟨k, inFlight, events, rfl⟩ := exists_side h.core h.reader
  obtain rfl : inFlight = s.inFlight := h.inFlight
  simp only [Session.read?]
  split
  · rename_i hreader
    split
    · rename_i hshut
      exact .some ⟨rfl, rfl, rfl, Or.inl ⟨by simp [hshut], fun _ => hshut⟩⟩
    · rename_i hlifecycle
      split
      · exact .none
      · -- The reader reads, so the same is to be read.
        have hpull : k.pull = s.intake.pull := by
          rcases h.reads with hdeaf | ⟨hinput, hnext⟩
          · exact absurd (hdeaf.2 hreader) hlifecycle
          · exact pull_congr hinput hnext
        rw [hpull]
        rcases s.intake.pull with ⟨p, l⟩
        cases p with
        | frame body =>
          obtain ⟨hcore, hintake, hread, hflight⟩ := dispatch_eq { s with intake := l } body
          obtain ⟨hcore', hintake', hread', hflight'⟩ :=
            dispatch_eq { s with intake := l, events := events } body
          refine .some ⟨hcore'.trans hcore.symm, hread'.trans hread.symm,
            hflight'.trans hflight.symm, Or.inr ?_⟩
          rw [hintake, hintake']
          exact ⟨rfl, rfl⟩
        | refused fault => exact .some ⟨rfl, rfl, rfl, Or.inr ⟨rfl, rfl⟩⟩
        | buffered => exact .some ⟨rfl, rfl, rfl, Or.inr ⟨rfl, rfl⟩⟩
        | failed fault => exact .some ⟨rfl, rfl, rfl, Or.inr ⟨rfl, rfl⟩⟩
        | ended leftover => cases leftover <;> exact .some ⟨rfl, rfl, rfl, Or.inr ⟨rfl, rfl⟩⟩
        | waiting => exact .none
  · exact .none

/-- The same move leaves clients alike, and is possible for both or for none. -/
theorem Alike.perform? (h : Alike s t) {m : Move} (hm : m ∈ Move.order) :
    Option.Rel Alike (s.perform? m) (t.perform? m) := by
  by_cases hread : m = .read
  · rw [hread]
    exact h.read?
  · have hmap := h.map_side hm hread
    cases hs : s.perform? m with
    | none =>
      rw [hs, Option.map_none, eq_comm, Option.map_eq_none_iff] at hmap
      rw [hmap]
      exact .none
    | some s' =>
      rw [hs, Option.map_some, eq_comm, Option.map_eq_some_iff] at hmap
      obtain ⟨t', ht, hside⟩ := hmap
      simp only [side, Prod.mk.injEq] at hside
      rw [ht]
      refine .some ⟨hside.1, hside.2.1, hside.2.2, ?_⟩
      rw [intake_of_perform? hs hread, intake_of_perform? ht hread]
      exact h.reads.imp_left (becomes_of_perform? hs).deaf

/-- Clients that are alike make the same move next. -/
theorem Alike.next? (h : Alike s t) : Option.Rel Alike s.next? t.next? := by
  have hall : ∀ m ∈ Move.order, Option.Rel Alike (s.perform? m) (t.perform? m) :=
    fun m hm => h.perform? hm
  -- Both try the moves in the same order.
  unfold Session.next?
  generalize Move.order = moves at hall
  induction moves with
  | nil => exact .none
  | cons m moves ih =>
    obtain ⟨hm, hmoves⟩ := List.forall_mem_cons.1 hall
    rw [List.findSome?_cons, List.findSome?_cons]
    generalize s.perform? m = s' at hm
    generalize t.perform? m = t' at hm
    cases hm with
    | some halike => exact .some halike
    | none => exact ih hmoves

/-- Clients that are alike settle alike. -/
theorem Alike.settle (h : Alike s t) : Alike s.settle t.settle := by
  -- They move in lockstep, so the fuel that is enough for both takes both to rest.
  have hrun : ∀ (fuel : Nat) {s t : Session}, Alike s t → Alike (run fuel s) (run fuel t) := by
    intro fuel
    induction fuel with
    | zero => exact fun h => h
    | succ fuel ih =>
      intro s t h
      have hnext := h.next?
      rw [run, run]
      generalize s.next? = s' at hnext
      generalize t.next? = t' at hnext
      cases hnext with
      | some halike => exact ih halike
      | none => exact h
  have hboth := hrun (max s.work t.work) h
  rw [run_of_work_le (Nat.le_max_left _ _), run_of_work_le (Nat.le_max_right _ _)] at hboth
  exact hboth

/-- Clients that are alike take a step alike. -/
theorem Alike.step (h : Alike s t) (commands : List Command) :
    Alike (s.step commands) (t.step commands) := by
  have hcommands : Alike (commands.foldl Session.apply s) (commands.foldl Session.apply t) := by
    induction commands generalizing s t with
    | nil => exact h
    | cons c commands ih => exact ih (h.apply c)
  exact hcommands.settle

end PipeCall.Session
