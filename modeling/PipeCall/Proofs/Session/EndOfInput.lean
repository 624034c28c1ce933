import PipeCall.Proofs.Session.Reader
import PipeCall.Proofs.Session.Release

/-!
# The end of the input

When the input of a client that runs ends or fails (`Change.EndsInput`), the reader waits for the
replies that are on their way, drains the registry and lets the input go. A call whose reply was handed
over while it was outstanding gets a reply, in whatever order the replies reach the registry
(`Handled`), unless it ends or the client is shut down while the reply is still on its way: the drain
comes only when none is. Every other call that is outstanding at the drain is released by it, and a
call that is made later finds the registry closed. `afterInput_of_course` says so for every course.
-/

namespace PipeCall.Session

variable {s t : Session} {h past later : List Change} {d e : Change} {u : Setup} {cause : Cause}
  {place : Nat} {ticket : Ticket} {R : Reply → Prop}

/-! ## Calls whose reply was handed over -/

/-- A reply that names a call is on its way to the registry. -/
def Expects (s : Session) (ticket : Ticket) : Prop := ∃ r, (ticket.id, r) ∈ s.inFlight

/-- What is in store for a call that is still going on, after a reply to it was handed over: a reply is
on its way, or is in the call's slot, unless the client was shut down before it got there. -/
inductive Awaited (R : Reply → Prop) (later : List Change) (s : Session) (ticket : Ticket) : Prop where
  | coming {r : Reply} (onTheWay : (ticket.id, r) ∈ s.inFlight)
      (waits : s.registry.slots[ticket.slot]? = some .waiting)
  | here {r : Reply} (handed : R r)
      (settled : s.registry.slots[ticket.slot]? = some (.settled (.reply r)))
  | shutDown {c : Change} (since : c ∈ later) (shuts : c.cause = .command .shutDown)
      (early : c.before.Expects ticket)
      (settled : s.registry.slots[ticket.slot]? = some (.settled .shutDown))

/-- How a call can come out after a reply to it was handed over: with a reply, unless it times out,
loses the writer while it waits for room, or the client is shut down, each while a reply is still on
its way. -/
inductive Answer (R : Reply → Prop) (later : List Change) (place : Nat) (ticket : Ticket) :
    Outcome → Prop where
  | reply {r : Reply} (handed : R r) :
    Answer R later place ticket (outcomeOf ticket.shape (.reply r))
  | timedOut {c : Change} (since : c ∈ later)
      (ends : c.Concludes place (.error (.timeout (Span.ofMillis ticket.window))))
      (early : c.before.Expects ticket) :
    Answer R later place ticket (.error (.timeout (Span.ofMillis ticket.window)))
  | cutOff {c : Change} (since : c ∈ later) (ends : c.Concludes place (.error noWriter))
      (early : c.before.Expects ticket) : Answer R later place ticket (.error noWriter)
  | shutDown {c : Change} (since : c ∈ later) (shuts : c.cause = .command .shutDown)
      (early : c.before.Expects ticket) : Answer R later place ticket (.error .shutDown)

/-- A reply to the call in a place was handed over, and `later` has happened since. -/
structure Handled (R : Reply → Prop) (later : List Change) (s : Session) (place : Nat)
    (ticket : Ticket) : Prop where
  stands : ∃ phase, s.calls[place]? = some (.registered ticket phase)
  live {phase : Phase} (stands : s.calls[place]? = some (.registered ticket phase))
    (live : phase.isLive = true) : Awaited R later s ticket
  ended {outcome : Outcome} (stands : s.calls[place]? = some (.registered ticket (.ended outcome))) :
    Answer R later place ticket outcome

/-- What is in store for a call stays in store as long as the call goes on. -/
theorem Awaited.becomes (h : Awaited R later s ticket) (hs : s.Sound) (becomes : s.Becomes cause t)
    (since : ⟨s, cause, t⟩ ∈ later) (hid : ticket.id = ticket.slot + 1)
    (handed : ∀ r, (ticket.id, r) ∈ s.inFlight → R r) {phase : Phase}
    (stands : t.calls[place]? = some (.registered ticket phase)) (live : phase.isLive = true) :
    Awaited R later t ticket := by
  have heffect := becomes.effect
  cases h with
  | here hR settled => exact .here hR (heffect.settled_of_live hs.coheres settled stands live)
  | shutDown hmem shuts early settled =>
    exact .shutDown hmem shuts early (heffect.settled_of_live hs.coheres settled stands live)
  | @coming r onTheWay waits =>
    have hslot := heffect.slotChange hs.coheres ticket.slot
    rw [waits] at hslot
    generalize hafter : t.registry.slots[ticket.slot]? = slot? at hslot
    cases hslot with
    | kept =>
      rcases becomes.mem_inFlight onTheWay with hmem | ⟨place, rfl, hplace⟩
      · exact .coming hmem hafter
      · -- A reply that gets to the registry does not leave its slot waiting.
        obtain ⟨id, reply, hfound, rfl⟩ := resolve?_eq_some becomes
        rw [hplace] at hfound
        obtain ⟨rfl, rfl⟩ := Prod.mk.inj (Option.some.inj hfound)
        simp only [note] at hafter
        rw [hs.coheres.numbered.getElem?_slots_resolve, if_pos hid, waits] at hafter
        simp [Slot.deliver] at hafter
    | replied resolves reached =>
      rw [← hid] at reached
      exact .here (handed _ (List.mem_of_getElem? reached)) hafter
    | drained drains =>
      rcases drains with rfl | rfl
      · exact .shutDown since rfl ⟨r, onTheWay⟩ hafter
      · -- The reader does not drain the registry while a reply is on its way.
        obtain ⟨-, hnone, -⟩ := leave?_eq_some becomes
        rw [hnone] at onTheWay
        exact absurd onTheWay List.not_mem_nil
    | dropped =>
      obtain ⟨slot, hfit, hfits⟩ := Coherent.fits (heffect.coherent hs.coheres) stands
      rw [hafter] at hfit
      obtain rfl := Option.some.inj hfit
      rw [show phase.isLive = false from hfits] at live
      simp at live

/-- A reply is on its way to a call that has no settlement to take. -/
theorem Awaited.expects (h : Awaited R later s ticket) (unsettled : s.settlement? ticket = none) :
    s.Expects ticket := by
  cases h with
  | coming onTheWay => exact ⟨_, onTheWay⟩
  | here _ settled | shutDown _ _ _ settled =>
    rw [settlement?_eq_some_iff.2 settled] at unsettled
    simp at unsettled

/-- A call that ends takes what was in store for it, or ends while a reply is on its way. -/
theorem Awaited.answer {phase : Phase} {outcome : Outcome} (h : Awaited R later s ticket)
    (grounds : s.Ends ticket phase outcome) (since : ⟨s, cause, t⟩ ∈ later)
    (ends : Change.Concludes ⟨s, cause, t⟩ place outcome) : Answer R later place ticket outcome := by
  cases grounds with
  | settled hsettled =>
    rw [settlement?_eq_some_iff] at hsettled
    cases h with
    | coming _ waits =>
      -- Its slot waits, so there is no settlement to take.
      rw [waits] at hsettled
      simp at hsettled
    | here handed settled =>
      rw [settled] at hsettled
      obtain rfl := Slot.settled.inj (Option.some.inj hsettled)
      exact .reply handed
    | shutDown hmem shuts early settled =>
      rw [settled] at hsettled
      obtain rfl := Slot.settled.inj (Option.some.inj hsettled)
      exact .shutDown hmem shuts early
  | expired unsettled => exact .timedOut since ends (h.expects unsettled)
  | cutOff unsettled => exact .cutOff since ends (h.expects unsettled)

/-- A call whose reply was handed over keeps to that, whatever happens. -/
theorem Handled.becomes (h : Handled R later s place ticket) (hs : s.Sound)
    (becomes : s.Becomes cause t) (since : ⟨s, cause, t⟩ ∈ later)
    (handed : ∀ r, (ticket.id, r) ∈ s.inFlight → R r) : Handled R later t place ticket := by
  obtain ⟨phase, hstands⟩ := h.stands
  have hid := Coherent.id_of_stands hs.coheres hstands
  have hchange := becomes.effect.callChange place
  rw [hstands] at hchange
  refine ⟨hchange.registered, ?_, ?_⟩
  · -- A call that goes on after the change did so before.
    intro phase' stands live
    have hlive : phase.isLive = true := by
      rw [stands] at hchange
      cases hchange with
      | kept => exact live
      | queued => rfl
      | ended => simp [Phase.isLive] at live
      | abandoned => simp [Phase.isLive] at live
    exact (h.live hstands hlive).becomes hs becomes since hid handed stands live
  · intro outcome stands
    rw [stands] at hchange
    cases hchange with
    | kept => exact h.ended hstands
    | ended moved live grounds =>
      have hends : Change.Concludes ⟨s, cause, t⟩ place outcome :=
        ⟨by simp [outcomeAt?, hstands, Call.outcome?_of_isLive live], by simp [outcomeAt?, stands]⟩
      exact (h.live hstands live).answer grounds since hends

/-- A call that is outstanding when a reply to it is handed over keeps to that. -/
theorem Course.handled {reply : Reply} (course : Course u.fresh (past ++ d :: later) s)
    (hands : d.HandsOver ticket.id reply)
    (outstanding : (ticket.id, ticket.slot) ∈ d.before.registry.entries) {phase : Phase}
    (stands : s.calls[place]? = some (.registered ticket phase)) :
    Handled (fun r => ∃ d' ∈ past ++ d :: later, d'.HandsOver ticket.id r) later s place ticket := by
  obtain ⟨hfirst, hbecomes, hrest⟩ := course.split
  have hbefore := (hfirst.sound (sound_fresh u)).2
  have hs := (course.sound (sound_fresh u)).2
  have hread : d.before.read? = some d.after := by
    rw [hands.reads] at hbecomes
    exact hbecomes
  obtain ⟨intake, reader, inFlight, events, hafter⟩ := read?_frame hread
  have hslot := (hbefore.coheres.numbered.mem_entries.1 outstanding).2
  obtain ⟨phase', hstood⟩ := hrest.stood hs.coheres (hbefore.becomes hbecomes).coheres stands
    (by rw [hafter]; exact hslot)
  have hstart : Handled (fun r => ∃ d' ∈ past ++ d :: later, d'.HandsOver ticket.id r) later d.after
      place ticket := by
    refine ⟨⟨phase', hstood⟩, fun _ _ => ?_, fun hended => ?_⟩
    · refine .coming (r := reply) ?_ (by rw [hafter]; exact hslot)
      rw [hands.added]
      simp
    · -- Its slot waits, so it has not ended.
      obtain ⟨slot, hfit, hfits⟩ := Coherent.fits hbefore.coheres (by rw [hafter] at hended; exact hended)
      rw [hslot] at hfit
      obtain rfl := Option.some.inj hfit
      simp [Phase.Fits, Phase.isLive] at hfits
  refine (hrest.keeps (P := fun t => t.Sound ∧ Handled
    (fun r => ∃ d' ∈ past ++ d :: later, d'.HandsOver ticket.id r) later t place ticket)
    ⟨hbefore.becomes hbecomes, hstart⟩ ?_).2.2
  rintro c hc ⟨hsound, hhandled⟩ becomes
  refine ⟨hsound.becomes becomes, hhandled.becomes hsound becomes hc fun r hr => ?_⟩
  -- Whatever is on its way before a later change was handed over by an earlier one.
  obtain ⟨first, behind, rfl⟩ := List.append_of_mem hc
  have hcourse := (hfirst.snoc hbecomes).append (hrest.split).1
  obtain ⟨earlier, d', between, heq, hands', -⟩ := hcourse.inFlight_handed hr
  have hd' : d' ∈ past ++ [⟨d.before, d.cause, d.after⟩] ++ first := by simp [heq]
  exact ⟨d', by simp only [List.mem_append, List.mem_cons, List.not_mem_nil, or_false] at hd' ⊢; tauto,
    hands'⟩

/-! ## The reader stops -/

/-- The reader finds the input at its end, or failed, while the client runs. -/
structure Change.EndsInput (e : Change) : Prop where
  reads : e.cause = .move .read
  running : e.before.lifecycle = .running
  ended : (∃ fault intake, e.before.intake.pull = (.failed fault, intake)) ∨
    ∃ leftover intake, e.before.intake.pull = (.ended leftover, intake)

/-- The reader of a client that runs stops exactly if the input is at its end or has failed. -/
theorem leaving_iff_of_read? (h : s.read? = some t) (running : s.lifecycle = .running) :
    t.reader = .leaving ↔ Change.EndsInput ⟨s, .move .read, t⟩ := by
  obtain ⟨hreader, hreads⟩ := reads_of_read? h
  -- With a frame, a fault or bytes the reader goes on, and the input is not at its end.
  have hgoes {p : Frame.Intake.Pulled} {intake : Frame.Intake} (hpull : s.intake.pull = (p, intake))
      (hsame : t.reader = s.reader) (hfailed : ∀ fault, p ≠ .failed fault)
      (hended : ∀ leftover, p ≠ .ended leftover) :
      t.reader = .leaving ↔ Change.EndsInput ⟨s, .move .read, t⟩ := by
    constructor
    · intro hleaving
      simp [hsame, hreader] at hleaving
    · intro hends
      rcases hends.ended with ⟨fault, k, hk⟩ | ⟨leftover, k, hk⟩
      · exact absurd (congrArg Prod.fst (hpull.symm.trans hk)) (hfailed fault)
      · exact absurd (congrArg Prod.fst (hpull.symm.trans hk)) (hended leftover)
  cases hreads with
  | stops shut => simp [running] at shut
  | @frame body intake may hpull =>
    obtain ⟨_, _, heq⟩ := dispatch_frame { s with intake } body
    exact hgoes hpull (by rw [heq]) (by simp) (by simp)
  | refused may hpull | buffered may hpull => exact hgoes hpull rfl (by simp) (by simp)
  | @failed fault intake may hpull =>
    exact ⟨fun _ => ⟨rfl, running, Or.inl ⟨fault, intake, hpull⟩⟩, fun _ => rfl⟩
  | @ended leftover intake may hpull =>
    exact ⟨fun _ => ⟨rfl, running, Or.inr ⟨leftover, intake, hpull⟩⟩, fun _ => rfl⟩

/-- The reader has stopped. When it has let the input go, the registry is closed. -/
structure Stops (s : Session) : Prop where
  reader : s.reader = .leaving ∨ s.reader = .gone
  closed : s.reader = .gone → s.registry.closed = true
  started : s.lifecycle ≠ .notStarted

/-- A client that was started stays started. -/
theorem Becomes.started (h : s.Becomes cause t) (hs : s.lifecycle ≠ .notStarted) :
    t.lifecycle ≠ .notStarted := by
  cases h.stageChange with
  | kept same => rw [same]; exact hs
  | started first => exact absurd first hs
  | shutDown shut => simp [shut]

/-- A reader that has stopped reads no more. -/
theorem Stops.becomes (h : s.Stops) (hs : s.Sound) (becomes : s.Becomes cause t) : t.Stops := by
  have hstays := becomes.effect.closed_stays hs.coheres
  have hstarted := becomes.started h.started
  cases becomes.readerChange with
  | kept same =>
    exact ⟨by rw [same]; exact h.reader, fun hgone => hstays (h.closed (same ▸ hgone)), hstarted⟩
  | started first => exact absurd first h.started
  | declined absent => rcases h.reader with heq | heq <;> simp [heq] at absent
  | stopped reads => rcases h.reader with heq | heq <;> simp [heq] at reads
  | left _ gone =>
    obtain ⟨-, -, rfl⟩ := leave?_eq_some becomes
    exact ⟨Or.inr gone, fun _ => rfl, hstarted⟩
  | cutOff _ shut gone =>
    exact ⟨Or.inr gone, fun _ => (hs.becomes becomes).staged.shutDown shut, hstarted⟩
  | givenUp closing gone =>
    -- Only a shutdown gives the reader up, and that has closed the registry.
    have hclosed := hs.staged.shutDown (hs.staged.closing closing)
    exact ⟨Or.inr gone, fun _ => hstays hclosed, hstarted⟩

/-- At the end of the input the reader stops, and the client goes on running. -/
theorem Change.EndsInput.after (ends : e.EndsInput) (becomes : e.before.Becomes e.cause e.after) :
    e.after.reader = .leaving ∧ e.after.lifecycle = .running ∧ e.after.clock = e.before.clock := by
  have hread : e.before.read? = some e.after := by
    rw [ends.reads] at becomes
    exact becomes
  have hleaving := (leaving_iff_of_read? hread ends.running).2 ⟨rfl, ends.running, ends.ended⟩
  obtain ⟨_, _, _, _, hafter⟩ := read?_frame hread
  exact ⟨hleaving, by rw [hafter]; exact ends.running, by rw [hafter]⟩

/-- A reader that waits for the replies on their way has stopped. -/
theorem stops_of_leaving (leaving : s.reader = .leaving) (running : s.lifecycle = .running) :
    s.Stops where
  reader := Or.inl leaving
  closed hgone := by rw [leaving] at hgone; simp at hgone
  started := by simp [running]

/-- A client that runs goes on running until it is shut down. -/
theorem Becomes.running_stays (h : s.Becomes cause t) (hs : s.lifecycle = .running)
    (hshut : cause ≠ .command .shutDown) : t.lifecycle = .running := by
  cases h.stageChange with
  | kept same => rw [same, hs]
  | started _ runs => exact runs
  | shutDown => exact absurd rfl hshut

/-- A reader that waits for the replies on their way does so until it lets the input go, as long as
the client runs. -/
theorem Becomes.leaving_stays (h : s.Becomes cause t) (hs : s.Sound)
    (running : s.lifecycle = .running) (leaving : s.reader = .leaving)
    (hshut : cause ≠ .command .shutDown) (hleave : cause ≠ .move .leave) :
    t.reader = .leaving := by
  cases h.readerChange with
  | kept same => rw [same, leaving]
  | started first => simp [running] at first
  | declined absent => simp [leaving] at absent
  | stopped reads => simp [leaving] at reads
  | left => exact absurd rfl hleave
  | cutOff => exact absurd rfl hshut
  | givenUp closing =>
    -- No shutdown goes on while the client runs.
    have hshut := hs.staged.closing closing
    simp [running] at hshut

/-- The input was let go, and nothing from it is on its way. -/
structure Silent (s : Session) : Prop where
  reader : s.reader = .gone
  inFlight : s.inFlight = []
  started : s.lifecycle ≠ .notStarted

/-- When the input was let go nothing more is read from it, and nothing gets to the registry. -/
theorem Silent.not_read (h : s.Silent) (becomes : s.Becomes cause t) :
    cause ≠ .move .read ∧ ∀ place, cause ≠ .move (.resolve place) := by
  constructor
  · rintro rfl
    obtain ⟨hrunning, -⟩ := reader_of_read? becomes
    simp [h.reader] at hrunning
  · rintro place rfl
    obtain ⟨id, reply, hplace, -⟩ := resolve?_eq_some becomes
    simp [h.inFlight] at hplace

/-- An input that was let go stays so. -/
theorem Silent.becomes (h : s.Silent) (becomes : s.Becomes cause t) : t.Silent := by
  obtain ⟨hread, hresolve⟩ := h.not_read becomes
  refine ⟨?_, by rw [becomes.inFlight hread hresolve, h.inFlight], becomes.started h.started⟩
  cases becomes.readerChange with
  | kept same => rw [same, h.reader]
  | started first => exact absurd first h.started
  | declined _ _ gone => exact gone
  | stopped reads => exact absurd rfl hread
  | left _ gone => exact gone
  | cutOff _ _ gone => exact gone
  | givenUp _ gone => exact gone

/-! ## After a drain -/

/-- A drain leaves the calls, and closes the registry. -/
theorem Change.Drains.after (h : e.Drains) (becomes : e.before.Becomes e.cause e.after) :
    e.after.calls = e.before.calls ∧ e.after.registry = e.before.registry.drain.2 := by
  rcases h with hcause | hcause
  · rw [hcause] at becomes
    obtain ⟨_, _, _, _, heq⟩ := shutDown_frame e.before
    rw [show e.after = e.before.apply .shutDown from becomes, heq]
    exact ⟨rfl, rfl⟩
  · rw [hcause] at becomes
    obtain ⟨-, -, heq⟩ := leave?_eq_some becomes
    rw [heq]
    exact ⟨rfl, rfl⟩

/-- The registry is closed from a drain on. -/
theorem Change.Drains.closed (drains : e.Drains) (becomes : e.before.Becomes e.cause e.after)
    (he : e.before.Sound) (course : Course e.after h s) :
    ∀ c ∈ h, c.before.Sound ∧ c.before.registry.closed = true := by
  obtain ⟨-, hregistry⟩ := drains.after becomes
  have hclosed : e.after.registry.closed = true := by rw [hregistry]; rfl
  exact (course.keeps (P := fun t => t.Sound ∧ t.registry.closed = true)
    ⟨he.becomes becomes, hclosed⟩ fun c _ h becomes =>
      ⟨h.1.becomes becomes, becomes.effect.closed_stays h.1.coheres h.2⟩).1

/-- A call that is outstanding at a drain is released by it. -/
theorem Change.Drains.released {phase : Phase} (drains : e.Drains)
    (becomes : e.before.Becomes e.cause e.after) (he : e.before.Sound) (course : Course e.after h s)
    (stands : e.before.calls[place]? = some (.registered ticket phase))
    (outstanding : (ticket.id, ticket.slot) ∈ e.before.registry.entries) :
    s.Released place ticket := by
  obtain ⟨hcalls, hregistry⟩ := drains.after becomes
  have hwaits := (Coherent.mem_entries_iff he.coheres stands).1 outstanding
  have hfirst := released_of_drained he.coheres stands hwaits hcalls hregistry
  exact (course.keeps (P := fun t => t.Sound ∧ t.Released place ticket)
    ⟨he.becomes becomes, hfirst⟩ fun c _ h becomes =>
      ⟨h.1.becomes becomes, h.2.keep h.1.coheres becomes⟩).2.2

/-- A call that is made when the registry is closed is refused: if its parameters can be written it
may take a number, and nothing else happens. -/
theorem issue_of_closed (closed : s.registry.closed = true) (order : Order) :
    ∃ ids, s.issue order = ({ s with ids } : Session).addCall
      (.refused (if s.lifecycle = .running ∧ order.params = none then .serialization else .shutDown)) := by
  by_cases hrunning : s.lifecycle = .running
  · cases hparams : order.params with
    | none =>
      have hissue : s.issue order = s.addCall (.refused .serialization) := by
        simp only [issue, hrunning, hparams]
      exact ⟨s.ids, by rw [if_pos ⟨hrunning, rfl⟩]; exact hissue⟩
    | some params =>
      have hregister : s.registry.register s.ids.take.1 = .error .closed :=
        Registry.register_of_closed closed
      exact ⟨s.ids.take.2, by simp [issue, hrunning, hparams, hregister]⟩
  · exact ⟨s.ids, by simp [issue_of_ne_running hrunning, hrunning]⟩

/-! ## Along a course -/

/-- Moves alone take no time. -/
theorem Course.clock_of_moves (course : Course s h t)
    (moves : ∀ c ∈ h, ∃ m, c.cause = .move m) : t.clock = s.clock := by
  refine (course.keeps (P := fun v => v.clock = s.clock) rfl fun c hc hclock becomes => ?_).2
  obtain ⟨m, hm⟩ := moves c hc
  rw [hm] at becomes
  rw [clock_of_perform? becomes, hclock]

/-- A client that runs goes on running, unless it is shut down. -/
theorem Course.running_or_shutDown (course : Course s h t) (running : s.lifecycle = .running) :
    t.lifecycle = .running ∨
      t.lifecycle = .shutDown ∧ ∃ c ∈ h, c.cause = .command .shutDown := by
  refine (course.keeps (P := fun v => v.lifecycle = .running ∨
    v.lifecycle = .shutDown ∧ ∃ c ∈ h, c.cause = .command .shutDown) (Or.inl running)
    fun c hc hstage becomes => ?_).2
  rcases hstage with hrun | ⟨hshut, hcommand⟩
  · by_cases hcause : c.cause = .command .shutDown
    · refine Or.inr ⟨?_, c, hc, hcause⟩
      rw [hcause] at becomes
      obtain ⟨_, _, _, _, heq⟩ := shutDown_frame c.before
      rw [show c.after = c.before.apply .shutDown from becomes, heq]
    · exact Or.inl (becomes.running_stays hrun hcause)
  · exact Or.inr ⟨becomes.shutDown_stays hshut, hcommand⟩

/-- A reader that waited for the replies on their way and does so no longer has drained the registry,
or the client was shut down. -/
theorem Course.exists_drains (course : Course s h t) (hs : s.Sound) (running : s.lifecycle = .running)
    (leaving : s.reader = .leaving) (left : t.reader ≠ .leaving) : ∃ l ∈ h, l.Drains := by
  -- Without a drain the reader would still be waiting.
  by_contra hnone
  have hstill := (course.keeps (P := fun v => v.Sound ∧ v.lifecycle = .running ∧ v.reader = .leaving)
    ⟨hs, running, leaving⟩ fun c hc h becomes => by
      have hshut : c.cause ≠ .command .shutDown := fun heq => hnone ⟨c, hc, Or.inl heq⟩
      have hleave : c.cause ≠ .move .leave := fun heq => hnone ⟨c, hc, Or.inr heq⟩
      exact ⟨h.1.becomes becomes, becomes.running_stays h.2.1 hshut,
        becomes.leaving_stays h.1 h.2.1 h.2.2 hshut hleave⟩).2
  exact left hstill.2.2

/-- Nothing from an input that was let go reaches a call. -/
theorem Course.silent (course : Course s h t) (silent : s.Silent) :
    ∀ c ∈ h, c.cause ≠ .move .read ∧ ∀ place, c.cause ≠ .move (.resolve place) := by
  intro c hc
  have hsilent := (course.keeps (P := Silent) silent fun c _ h becomes => h.becomes becomes).1 c hc
  exact hsilent.not_read (course.becomes hc)

/-- At rest a call whose reply was handed over has ended, with a reply or for a reason that excuses it,
unless it was given up. -/
theorem Handled.ended_of_rest {phase : Phase} (h : Handled R later s place ticket) (hs : s.Sound)
    (rest : s.next? = none) (stands : s.calls[place]? = some (.registered ticket phase)) :
    phase = .abandoned ∨ ∃ o, phase = .ended o ∧ Answer R later place ticket o := by
  have hdead : phase.isLive = false := by
    by_contra hlive
    have live := eq_true_of_ne_false hlive
    have hwaits := waiting_of_deliver?_eq_none hs.coheres (deliver?_of_rest rest) stands live
    -- It waits for a reply that is on its way, but none is.
    cases h.live stands live with
    | coming onTheWay =>
      rw [inFlight_of_rest rest] at onTheWay
      exact List.not_mem_nil onTheWay
    | here _ settled => simp [hwaits] at settled
    | shutDown _ _ _ settled => simp [hwaits] at settled
  cases phase with
  | waiting => simp [Phase.isLive] at hdead
  | queued => simp [Phase.isLive] at hdead
  | ended o => exact Or.inr ⟨o, rfl, h.ended stands⟩
  | abandoned => exact Or.inl rfl

/-! ## The whole -/

/-- What follows from the end of the input of a client that runs, when the changes `later` have led to
`s` since. -/
structure AfterInput (past : List Change) (e : Change) (later : List Change) (s : Session) : Prop where
  /-- Moves alone, which take no time, lead to rest. -/
  settles : ∃ moves, Course e.after (later ++ moves) s.settle ∧
    (∀ c ∈ moves, ∃ m, c.cause = .move m) ∧ s.settle.next? = none ∧ s.settle.clock = s.clock
  at_once : (∀ c ∈ later, ∃ m, c.cause = .move m) → s.clock = e.before.clock
  lifecycle : s.lifecycle = .running ∨
    s.lifecycle = .shutDown ∧ ∃ c ∈ later, c.cause = .command .shutDown
  /-- At rest the registry was drained, the input was let go, and no call is still going on. -/
  closed (rest : s.next? = none) : s.reader = .gone ∧ s.registry.closed = true ∧
    s.registry.size = 0 ∧ s.liveTickets = [] ∧ ∃ l ∈ later, l.Drains
  /-- A call that was outstanding when a reply to it was handed over has ended with a reply that was
  handed over, unless it was given up; or else it timed out, or lost the writer while it waited for
  room, or the client was shut down, while a reply to it was still on its way. -/
  answered (rest : s.next? = none) (earlier : List Change) (d : Change) (since : List Change)
    (split : past ++ e :: later = earlier ++ d :: since) (place : Nat)
    (ticket : Ticket) (phase : Phase) (reply : Reply) (hands : d.HandsOver ticket.id reply)
    (outstanding : (ticket.id, ticket.slot) ∈ d.before.registry.entries)
    (stands : s.calls[place]? = some (.registered ticket phase)) :
    phase = .abandoned ∨ ∃ o, phase = .ended o ∧
      Answer (fun r => ∃ d' ∈ past ++ e :: later, d'.HandsOver ticket.id r) since place ticket o
  /-- A call that was outstanding at a drain has ended with it, unless it was given up. -/
  released (rest : s.next? = none) (l : Change) (hl : l ∈ later) (drains : l.Drains) (place : Nat)
    (ticket : Ticket) (phase : Phase)
    (stands : l.before.calls[place]? = some (.registered ticket phase))
    (outstanding : (ticket.id, ticket.slot) ∈ l.before.registry.entries) :
    s.calls[place]? = some (.registered ticket (.ended (.error .shutDown))) ∨
      s.calls[place]? = some (.registered ticket .abandoned)
  /-- No call is outstanding after a drain, and one that is made is refused: nothing changes but the
  next number. A call whose parameters cannot be written is refused for that, while the client runs. -/
  refused (before after : List Change) (l : Change) (split : later = before ++ l :: after)
    (drains : l.Drains) (c : Change) (hc : c ∈ after) :
    c.before.registry.closed = true ∧ c.before.registry.size = 0 ∧
      ∀ order, c.cause = .command (.issue order) → ∃ ids, c.after =
        ({ c.before with ids } : Session).addCall (.refused
          (if c.before.lifecycle = .running ∧ order.params = none then .serialization else .shutDown))
  /-- When the reader has let the input go nothing from it reaches a call. -/
  silent (before after : List Change) (l : Change) (split : later = before ++ l :: after)
    (leaves : l.cause = .move .leave) (c : Change) (hc : c ∈ after) :
    c.cause ≠ .move .read ∧ ∀ place, c.cause ≠ .move (.resolve place)

/-- After the end of the input, in whatever order the moves are made, every call to which a reply was
handed over in time gets a reply, every other call is released, and the registry takes no more calls. -/
theorem afterInput_of_course (course : Course u.fresh (past ++ e :: later) s) (ends : e.EndsInput) :
    AfterInput past e later s := by
  obtain ⟨hpast, hbecomes, hlater⟩ := course.split
  obtain ⟨-, hbefore⟩ := hpast.sound (sound_fresh u)
  have hafter := hbefore.becomes hbecomes
  obtain ⟨hsound, hs⟩ := hlater.sound hafter
  obtain ⟨hleaving, hrunning, hclock⟩ := ends.after hbecomes
  have hstopped := hlater.keeps (P := fun t => t.Sound ∧ t.Stops)
    ⟨hafter, stops_of_leaving hleaving hrunning⟩ fun c _ h becomes =>
      ⟨h.1.becomes becomes, h.2.becomes h.1 becomes⟩
  -- A later change, and what comes behind it.
  have hchange : ∀ {before after : List Change} {l : Change}, later = before ++ l :: after →
      l.before.Sound ∧ l.before.Becomes l.cause l.after ∧ Course l.after after s := by
    rintro before after l rfl
    obtain ⟨-, hl, hrest⟩ := hlater.split
    exact ⟨hsound l (by simp), hl, hrest⟩
  constructor
  case settles =>
    obtain ⟨moves, hcourse, hmoves⟩ := course_run s.work s
    refine ⟨moves, hlater.append hcourse, fun c hc => ?_, next?_settle s, clock_settle s⟩
    obtain ⟨m, hm, -⟩ := hmoves c hc
    exact ⟨m, hm⟩
  case at_once => exact fun hmoves => (hlater.clock_of_moves hmoves).trans hclock
  case lifecycle => exact hlater.running_or_shutDown hrunning
  case closed =>
    intro rest
    obtain ⟨hnot, -⟩ := reader_of_rest rest
    have hgone : s.reader = .gone := hstopped.2.2.reader.resolve_left hnot
    have hclosed := hstopped.2.2.closed hgone
    have hsize := hs.coheres.size_of_closed hclosed
    refine ⟨hgone, hclosed, hsize, ?_, hlater.exists_drains hafter hrunning hleaving hnot⟩
    rw [hs.coheres.size_eq, outstanding_of_deliver?_eq_none (deliver?_of_rest rest)] at hsize
    exact List.eq_nil_of_length_eq_zero hsize
  case answered =>
    intro rest earlier d since split place ticket phase reply hands outstanding stands
    rw [split] at course ⊢
    exact (course.handled hands outstanding stands).ended_of_rest hs rest stands
  case released =>
    intro rest l hl drains place ticket phase stands outstanding
    obtain ⟨before, after, hsplit⟩ := List.append_of_mem hl
    obtain ⟨hlsound, hlbecomes, hrest⟩ := hchange hsplit
    exact (drains.released hlbecomes hlsound hrest stands outstanding).ended hs.coheres
      (deliver?_of_rest rest)
  case refused =>
    intro before after l hsplit drains c hc
    obtain ⟨hlsound, hlbecomes, hrest⟩ := hchange hsplit
    obtain ⟨hcsound, hclosed⟩ := drains.closed hlbecomes hlsound hrest c hc
    refine ⟨hclosed, hcsound.coheres.size_of_closed hclosed, fun order issued => ?_⟩
    have hcbecomes := hrest.becomes hc
    rw [issued] at hcbecomes
    rw [show c.after = c.before.issue order from hcbecomes]
    exact issue_of_closed hclosed order
  case silent =>
    intro before after l hsplit leaves
    obtain ⟨-, hlbecomes, hrest⟩ := hchange hsplit
    have hstarted := (hstopped.1 l (by rw [hsplit]; simp)).2.started
    rw [leaves] at hlbecomes
    obtain ⟨-, hflight, heq⟩ := leave?_eq_some hlbecomes
    exact hrest.silent (by rw [heq]; exact ⟨rfl, hflight, hstarted⟩)

/-! ## Where the input ended -/

/-- A client that runs stops reading only at the end of its input. -/
theorem Becomes.endsInput (h : s.Becomes cause t) (hs : s.Sound)
    (reading : s.lifecycle = .running → s.reader = .running) (running : t.lifecycle = .running)
    (stopped : t.reader ≠ .running) : Change.EndsInput ⟨s, cause, t⟩ := by
  cases h.stageChange with
  | started first =>
    obtain rfl : t = s.apply .start := h
    rw [start_of_eq first] at stopped
    exact absurd rfl stopped
  | shutDown shut => simp [shut] at running
  | kept same =>
    have hrunning := same.symm.trans running
    have hreading := reading hrunning
    cases h.readerChange with
    | kept same => exact absurd (same.trans hreading) stopped
    | started _ _ reads => exact absurd reads stopped
    | declined absent => simp [hreading] at absent
    | stopped _ stops => exact (leaving_iff_of_read? h hrunning).1 stops
    | left stopped => simp [hreading] at stopped
    | cutOff _ shut => simp [shut] at running
    | givenUp closing =>
      have hshut := hs.staged.closing closing
      simp [hrunning] at hshut

/-- The input of a client that runs and reads no more has ended. -/
theorem Course.exists_endsInput (course : Course u.fresh h s) (running : s.lifecycle = .running)
    (stopped : s.reader ≠ .running) : ∃ past e later, h = past ++ e :: later ∧ e.EndsInput := by
  induction course with
  | nil => simp [Setup.fresh, new] at running
  | @snoc past s t cause course becomes ih =>
    by_cases hstill : s.lifecycle = .running → s.reader = .running
    · have hs := (course.sound (sound_fresh u)).2
      exact ⟨past, _, [], rfl, becomes.endsInput hs hstill running stopped⟩
    · -- It was running before the last change, and had stopped reading.
      have hrun : s.lifecycle = .running := by
        by_contra hnot
        exact hstill fun heq => absurd heq hnot
      obtain ⟨past, e, later, rfl, ends⟩ := ih hrun fun heq => hstill fun _ => heq
      exact ⟨past, e, later ++ [⟨s, cause, t⟩], by simp, ends⟩

/-- Of two calls, one gets the reply that comes right before the end of the input, and the other is
released. -/
theorem afterInput_of_course_reply_and_release :
    ∃ past e later s, Course Setup.sample.fresh (past ++ e :: later) s ∧ e.EndsInput ∧
      AfterInput past e later s ∧ s.next? = none ∧ s.registry.closed = true ∧
      s.outcomeAt? 0 = some (.ok (.bool true)) ∧ s.outcomeAt? 1 = some (.error .shutDown) := by
  obtain ⟨h, course, rest⟩ := exists_course Setup.sample
    [[.start], [.issue .sample, .issue .sample], [.send sampleReply, .endInput]]
  obtain ⟨past, e, later, rfl, ends⟩ := course.exists_endsInput rfl (fun hreading => nomatch hreading)
  have hafter := afterInput_of_course course ends
  exact ⟨past, e, later, _, course, ends, hafter, rest, (hafter.closed rest).2.1, rfl, rfl⟩

/-- A call whose parameters cannot be written is not told of the end of the input, though the registry
is closed and the client runs: it ends because of its parameters. -/
theorem unwritable_after_input :
    ([[.start], [.endInput]].foldl step Setup.sample.fresh).lifecycle = .running ∧
      ([[.start], [.endInput]].foldl step Setup.sample.fresh).registry.closed = true ∧
      ([[.start], [.endInput], [.issue ⟨"m", none, .value⟩]].foldl step
        Setup.sample.fresh).outcomeAt? 0 = some (.error .serialization) :=
  ⟨rfl, rfl, rfl⟩

end PipeCall.Session
