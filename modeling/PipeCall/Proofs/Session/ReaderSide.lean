import PipeCall.Proofs.Session.Alike

/-!
# The reader's side of a client

What the reader does depends on the clock, on its input and on the replies on their way, but not on
the calls, the queue, the writer or the output. `readerSide` is that part of a client. It goes on by
itself (`Autonomous`): whatever the client does leaves it as it is or is its own next step, so two
clients that show the same of it show the same again when they have settled (`Autonomous.steps`).
-/

namespace PipeCall.Session

variable {s t : Session} {cause : Cause}

/-! ## Parts that go on by themselves -/

/-- A part `f` of a client goes on by itself, as long as the client is as it should be: a command does
to it what `given` says, and a move leaves it alone or makes its `next` step. -/
structure Autonomous {α : Type} (fit : Session → Prop) (f : Session → α) (next : α → Option α)
    (given : Command → α → α) : Prop where
  stays {s t : Session} {cause : Cause} (h : fit s) (becomes : s.Becomes cause t) : fit t
  command {s : Session} (c : Command) (h : fit s) : f (s.apply c) = given c (f s)
  move {s t : Session} {m : Move} (h : fit s) (makes : s.Makes m t) :
    f t = f s ∨ next (f s) = some (f t)
  /-- It can go on only if the client can. -/
  rest {s : Session} (h : fit s) (rest : s.next? = none) : next (f s) = none

namespace Autonomous

variable {α : Type} {fit : Session → Prop} {f : Session → α} {next : α → Option α}
  {given : Command → α → α}

/-- On the way of a client the part makes its own steps. -/
theorem leads (h : Autonomous fit f next given) (hs : fit s) (leads : s.Leads t) :
    fit t ∧ Relation.ReflTransGen (fun a b => next a = some b) (f s) (f t) := by
  induction leads with
  | refl => exact ⟨hs, .refl⟩
  | tail _ hnext ih =>
    obtain ⟨hfit, hway⟩ := ih
    obtain ⟨m, hmakes⟩ := next?_eq_some_iff.1 hnext
    have hm := hmakes.perform?
    refine ⟨h.stays hfit (becomes_of_perform? hm), ?_⟩
    rcases h.move hfit hmakes with heq | hstep
    · rw [heq]
      exact hway
    · exact hway.tail hstep

/-- Clients that show the same of the part show the same when they have settled. -/
theorem settle (h : Autonomous fit f next given) (hs : fit s) (ht : fit t) (same : f s = f t) :
    f s.settle = f t.settle := by
  obtain ⟨hs', hway⟩ := h.leads hs (leads_settle s)
  obtain ⟨ht', hway'⟩ := h.leads ht (leads_settle t)
  have hlast := h.rest hs' (next?_settle s)
  have hlast' := h.rest ht' (next?_settle t)
  rw [← same] at hway'
  -- The steps of the part are determined, so one way goes on where the other ends, and both end.
  have hunique : Relator.RightUnique fun a b => next a = some b := fun a b c hb hc =>
    Option.some.inj (hb.symm.trans hc)
  rcases Relation.ReflTransGen.total_of_right_unique hunique hway hway' with hon | hon
  · rcases hon.cases_head with heq | ⟨_, hnext, -⟩
    · exact heq
    · simp [hlast] at hnext
  · rcases hon.cases_head with heq | ⟨_, hnext, -⟩
    · exact heq.symm
    · simp [hlast'] at hnext

/-- They are as they should be then. -/
theorem fit_settle (h : Autonomous fit f next given) (hs : fit s) : fit s.settle :=
  (h.leads hs (leads_settle s)).1

/-- They show the same after the same commands. -/
theorem commands (h : Autonomous fit f next given) (hs : fit s) (ht : fit t) (same : f s = f t)
    (commands : List Command) :
    fit (commands.foldl apply s) ∧ fit (commands.foldl apply t) ∧
      f (commands.foldl apply s) = f (commands.foldl apply t) := by
  induction commands generalizing s t with
  | nil => exact ⟨hs, ht, same⟩
  | cons c commands ih =>
    have hnext : f (s.apply c) = f (t.apply c) := by rw [h.command c hs, h.command c ht, same]
    exact ih (h.stays hs (becomes_apply s c)) (h.stays ht (becomes_apply t c)) hnext

/-- They show the same after the same steps. -/
theorem steps (h : Autonomous fit f next given) (hs : fit s) (ht : fit t) (same : f s = f t)
    (steps : List (List Command)) : f (steps.foldl step s) = f (steps.foldl step t) := by
  induction steps generalizing s t with
  | nil => exact same
  | cons commands steps ih =>
    obtain ⟨hs', ht', hcommands⟩ := h.commands hs ht same commands
    exact ih (h.fit_settle hs') (h.fit_settle ht') (h.settle hs' ht' hcommands)

/-- They show the same after the same steps from where they have settled. -/
theorem settled_steps (h : Autonomous fit f next given) (hs : fit s) (ht : fit t) (same : f s = f t)
    (steps : List (List Command)) : f (steps.foldl step s.settle) = f (steps.foldl step t.settle) :=
  h.steps (h.fit_settle hs) (h.fit_settle ht) (h.settle hs ht same) steps

end Autonomous

/-! ## The reader's side -/

/-- A client without its calls, its registry and its writer. -/
def readerSide (s : Session) : Session where
  window := s.window
  clock := s.clock
  lifecycle := s.lifecycle
  reader := s.reader
  intake := s.intake
  inFlight := s.inFlight

/-- The moves that the reader has a part in, in their order. -/
def Move.reading : List Move := [.read, .resolve 0, .leave]

/-- The next of the moves that the reader has a part in. -/
def readerNext? (s : Session) : Option Session := (Move.reading.findSome? s.perform?).map readerSide

/-- A sound client that has its reader, or had it. -/
structure Equipped (s : Session) : Prop where
  sound : s.Sound
  reader : s.reader ≠ .absent

/-- A client stays equipped. -/
theorem Equipped.becomes (h : s.Equipped) (becomes : s.Becomes cause t) : t.Equipped :=
  ⟨h.sound.becomes becomes, becomes.reader_stays h.reader⟩

/-- What the reader does with a frame is a matter of its side. -/
theorem readerSide_dispatch (s : Session) (body : Bytes) :
    (s.readerSide.dispatch body).readerSide = (s.dispatch body).readerSide := by
  unfold dispatch
  split
  · split <;> rfl
  · rfl
  · rfl
  · rfl

/-- A step of the reader is a matter of its side. -/
theorem readerSide_read? (s : Session) : s.readerSide.read?.map readerSide = s.read?.map readerSide := by
  simp only [read?, show s.readerSide.reader = s.reader from rfl,
    show s.readerSide.lifecycle = s.lifecycle from rfl, show s.readerSide.inFlight = s.inFlight from rfl,
    show s.readerSide.intake = s.intake from rfl]
  split
  · split
    · rfl
    · split
      · rfl
      · split
        · rename_i body intake _
          exact congrArg some (readerSide_dispatch { s with intake } body)
        · rfl
        · rfl
        · rfl
        · rename_i leftover _ _
          cases leftover <;> rfl
        · rfl
  · rfl

/-- So is a reply that gets to the registry. -/
theorem readerSide_resolve? (s : Session) (place : Nat) :
    (s.readerSide.resolve? place).map readerSide = (s.resolve? place).map readerSide := by
  simp only [resolve?, show s.readerSide.inFlight = s.inFlight from rfl]
  cases s.inFlight[place]? <;> rfl

/-- So is every move that the reader has a part in. -/
theorem readerSide_perform? {m : Move} (hm : m ∈ Move.reading) (s : Session) :
    (s.readerSide.perform? m).map readerSide = (s.perform? m).map readerSide := by
  simp only [Move.reading, List.mem_cons, List.not_mem_nil, or_false] at hm
  rcases hm with rfl | rfl | rfl
  · exact readerSide_read? s
  · exact readerSide_resolve? s 0
  · simp only [perform?, leave?, show s.readerSide.inFlight = s.inFlight from rfl,
      show s.readerSide.reader = s.reader from rfl]
    split
    · simp only [Option.map_some]
      split <;> split <;> rfl
    · rfl

/-- The side of a client has the same next step as the client itself. -/
theorem readerNext?_readerSide (s : Session) : readerNext? s.readerSide = readerNext? s :=
  map_findSome?_congr fun _ hm => readerSide_perform? hm s

/-- The replies get to the registry in their order. -/
theorem Makes.resolve_first {p : Nat} (h : s.Makes (.resolve p) t) : p = 0 := by
  obtain ⟨preferred, others, heq, -, -⟩ := h
  have hmem : Move.resolve p ∈ Move.order := by simp [heq]
  simpa [Move.order] using hmem

/-- A client that makes a move in which the reader has a part has no other to make before. -/
theorem Makes.reading {m : Move} (h : s.Makes m t) (hm : m ∈ Move.reading) :
    s.Calm ∧ Move.reading.findSome? s.perform? = some t := by
  have hcore : ∀ n ∈ Move.core, s.perform? n = none := by
    simp only [Move.reading, List.mem_cons, List.not_mem_nil, or_false] at hm
    intro n hn
    rcases hm with rfl | rfl | rfl
    · exact h.preferred (show Move.order = Move.core ++ .read :: _ from rfl) (by simp [Move.core]) n hn
    · exact h.preferred (show Move.order = (Move.core ++ [.read]) ++ .resolve 0 :: _ from rfl)
        (by simp [Move.core]) n (List.mem_append_left _ hn)
    · exact h.preferred (show Move.order = (Move.core ++ [.read, .resolve 0]) ++ .leave :: _ from rfl)
        (by simp [Move.core]) n (List.mem_append_left _ hn)
  have hcalm : s.Calm := List.findSome?_eq_none_iff.2 hcore
  refine ⟨hcalm, ?_⟩
  have hnext : s.next? = (Move.reading ++ [Move.close]).findSome? s.perform? := hcalm.next?
  rw [next?_eq_some_iff.2 ⟨m, h⟩, List.findSome?_append] at hnext
  cases hreading : Move.reading.findSome? s.perform? with
  | none =>
    have hnone := List.findSome?_eq_none_iff.1 hreading m hm
    simp [h.perform?] at hnone
  | some v =>
    rw [hreading] at hnext
    exact hnext.symm

/-- A move that the reader has a part in is the next step of the client's side. -/
theorem Makes.readerNext? {m : Move} (h : s.Makes m t) (hm : m ∈ Move.reading) :
    readerNext? s.readerSide = some t.readerSide := by
  obtain ⟨-, hreading⟩ := h.reading hm
  rw [readerNext?_readerSide, Session.readerNext?, hreading, Option.map_some]

/-- No other move changes the side. -/
theorem Makes.readerSide {m : Move} (h : s.Makes m t) (hs : s.Equipped) (hm : m ∉ Move.reading) :
    t.readerSide = s.readerSide := by
  have hperform := h.perform?
  cases m with
  | deliver | expire | refuse | write | refill | turn => cases touches_perform? hperform <;> rfl
  | read => exact absurd (by simp [Move.reading]) hm
  | resolve place =>
    obtain rfl := h.resolve_first
    exact absurd (by simp [Move.reading]) hm
  | leave => exact absurd (by simp [Move.reading]) hm
  | close =>
    have hclosing := closing_of_close? hperform
    cases closes_of_close? hperform with
    | writerGone | writerOverdue | readerGone => rfl
    | readerOverdue waits stays overdue =>
      -- A shutdown does not get to this before the reader has let the input go.
      have hnone := h.preferred (show Move.order = Move.order.dropLast ++ [.close] from rfl)
        (by simp [Move.order])
      obtain ⟨hleaving, hrunning⟩ := reader_of_idle (hnone .read (by simp [Move.order]))
        (hnone (.resolve 0) (by simp [Move.order])) (hnone .leave (by simp [Move.order]))
      have hshut := hs.sound.staged.closing hclosing
      have habsent := hs.reader
      cases hreader : s.reader with
      | absent => exact absurd hreader habsent
      | running => exact absurd hreader (hrunning hshut)
      | leaving => exact absurd hreader hleaving
      | gone => simp [hreader, Reader.isGone] at stays

/-- A shutdown that waits for the reader, and whose time is up, goes on and leaves no reader. -/
theorem readerSide_close? (waits : s.closing = .reader 0 s.clock) :
    ∃ t, s.close? = some t ∧ t.readerSide = { s.readerSide with reader := .gone } := by
  unfold close?
  rw [waits]
  dsimp only
  split
  · rename_i gone
    refine ⟨_, rfl, ?_⟩
    have hreader : s.reader = .gone := by
      cases hreader : s.reader <;> simp [hreader, Reader.isGone] at gone ⊢
    rw [← hreader]
    rfl
  · rw [if_pos (Nat.le_refl _)]
    exact ⟨_, rfl, rfl⟩

/-- Shutting a client down that gives its loops no time takes its reader away. -/
theorem readerSide_shutDown (running : s.lifecycle = .running) (grace : s.window = 0) :
    (s.apply .shutDown).readerSide =
      { s.readerSide with lifecycle := .shutDown, reader := .gone } := by
  have hwriter : ∃ t, s.told.close? = some t ∧ t.closing = .reader 0 t.clock ∧
      t.readerSide = { s.readerSide with lifecycle := .shutDown } := by
    unfold close?
    rw [show s.told.closing = .writer 0 s.clock by simp [told, note, grace]]
    dsimp only
    split
    · exact ⟨_, rfl, rfl, rfl⟩
    · rw [if_pos (show s.clock ≤ s.told.clock from Nat.le_refl _)]
      exact ⟨_, rfl, rfl, rfl⟩
  -- First the writer is given up, and then the reader.
  obtain ⟨t, hclose, hwaits, hside⟩ := hwriter
  obtain ⟨v, hclose', hside'⟩ := readerSide_close? hwaits
  rw [shutDown_of_no_grace running grace, hclose, Option.bind_some, hclose', Option.getD_some,
    hside', hside]

/-- What a command does to the side is a matter of the side. -/
theorem readerSide_apply (h : s.reader ≠ .absent) (c : Command) :
    (s.apply c).readerSide = (s.readerSide.apply c).readerSide := by
  cases c with
  | start =>
    by_cases first : s.lifecycle = .notStarted
    · rw [start_of_eq first, start_of_eq (s := s.readerSide) first]
      rfl
    · -- A client that has a reader declines no streams.
      have hkeeps : ∀ v : Session, v.reader = s.reader → v.declineStreams = v := by
        intro v hv
        unfold declineStreams
        split
        · rename_i habsent
          exact absurd (hv.symm.trans habsent) h
        · rfl
      rw [start_of_ne first, start_of_ne (s := s.readerSide) first, hkeeps s rfl,
        hkeeps s.readerSide rfl]
      rfl
  | shutDown =>
    by_cases running : s.lifecycle = .running
    · by_cases grace : s.window = 0
      · rw [readerSide_shutDown running grace,
          readerSide_shutDown (s := s.readerSide) running grace]
        rfl
      · rw [shutDown_of_running running (Nat.pos_of_ne_zero grace),
          shutDown_of_running (s := s.readerSide) running (Nat.pos_of_ne_zero grace)]
        rfl
    · rw [shutDown_of_ne_running running, shutDown_of_ne_running (s := s.readerSide) running]
      rfl
  | issue order =>
    obtain ⟨_, _, _, _, h⟩ := issue_frame s order
    obtain ⟨_, _, _, _, h'⟩ := issue_frame s.readerSide order
    rw [apply, apply, h, h']
    rfl
  | abandon place =>
    obtain ⟨_, _, h⟩ := abandon_frame s place
    obtain ⟨_, _, h'⟩ := abandon_frame s.readerSide place
    rw [apply, apply, h, h']
    rfl
  | _ => rfl

/-- The reader's side of a client goes on by itself. -/
theorem autonomous_readerSide :
    Autonomous Equipped readerSide readerNext? fun c v => (v.apply c).readerSide where
  stays h becomes := h.becomes becomes
  command c h := readerSide_apply h.reader c
  move {s t m} h makes := by
    by_cases hm : m ∈ Move.reading
    · exact Or.inr (makes.readerNext? hm)
    · exact Or.inl (makes.readerSide h hm)
  rest {s} h rest := by
    have hnone : Move.reading.findSome? s.perform? = none :=
      List.findSome?_eq_none_iff.2 fun m _ => perform?_of_rest rest m
    rw [readerNext?_readerSide, readerNext?, hnone, Option.map_none]

end PipeCall.Session
