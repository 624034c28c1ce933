import PipeCall.Proofs.Session.Outcome

/-!
# Calls that a drain has released

A drain of the registry settles every call that is outstanding, and closes the registry for good.
`Released` says of a call what the drain has made of it: it holds the news that no reply can come, or
has ended with it, unless its caller gave it up before taking it. Nothing that happens later changes
that (`Released.keep`), as a call that gets its turn takes its settlement before it looks at the time
or at the writer. A client whose registry is closed and that has no settlement left to take has no
call that is still going on (`Coheres.not_live_of_closed`).
-/

namespace PipeCall.Session

variable {s t : Session} {past : List Change} {u : Setup} {cause : Cause} {place : Nat}
  {ticket : Ticket} {phase : Phase}

/-! ## Closed registries -/

/-- A client that was shut down stays so. -/
theorem Becomes.shutDown_stays (h : s.Becomes cause t) (hs : s.lifecycle = .shutDown) :
    t.lifecycle = .shutDown := by
  cases h.stageChange with
  | kept same => rw [same, hs]
  | started first => simp [hs] at first
  | shutDown shut => exact shut

/-- A registry that was closed stays so. -/
theorem Effect.closed_stays (h : Effect s cause t) (hs : s.Coheres)
    (closed : s.registry.closed = true) : t.registry.closed = true := by
  rcases h.closed hs with heq | ⟨htrue, -⟩
  · rw [heq]; exact closed
  · exact htrue

/-- A closed registry is empty. -/
theorem Coheres.size_of_closed (hs : s.Coheres) (closed : s.registry.closed = true) :
    s.registry.size = 0 := by
  rw [Registry.size, hs.numbered.closed closed, List.length_nil]

/-- If the registry is closed and no call can take its settlement, no call is still going on. -/
theorem Coheres.not_live_of_closed (hs : s.Coheres) (closed : s.registry.closed = true)
    (hdeliver : s.deliver? = none) (stands : s.calls[place]? = some (.registered ticket phase)) :
    phase.isLive = false := by
  cases hlive : phase.isLive with
  | false => rfl
  | true =>
    have hwaits := waiting_of_deliver?_eq_none hs hdeliver stands hlive
    have hentry := (Coherent.mem_entries_iff hs stands).2 hwaits
    rw [hs.numbered.closed closed] at hentry
    exact absurd hentry List.not_mem_nil

/-- Then none waits for room either. -/
theorem Coheres.refill?_eq_none_of_closed (hs : s.Coheres) (closed : s.registry.closed = true)
    (hdeliver : s.deliver? = none) : s.refill? = none := by
  cases hrefill : s.refill? with
  | none => rfl
  | some t =>
    obtain ⟨-, -, hne, -⟩ := refill?_eq_some hrefill
    obtain ⟨front, back, hcalls, hlet⟩ := letIn_eq (queueCapacity - s.queue.length) s.calls
    rw [hlet] at hne
    obtain ⟨r, hr⟩ := List.exists_mem_of_ne_nil _ hne
    obtain ⟨c, hc, hrequest⟩ := List.mem_filterMap.1 hr
    obtain ⟨waiter, rfl, -⟩ := Call.waitingRequest?_eq_some.1 hrequest
    have hmem : Call.registered waiter .waiting ∈ s.calls := by
      rw [hcalls]
      exact List.mem_append_left _ hc
    obtain ⟨place, hplace⟩ := List.getElem?_of_mem hmem
    exact absurd (hs.not_live_of_closed closed hdeliver hplace) (by simp [Phase.isLive])

/-- Then nothing more can come into the queue of a client that was shut down. -/
theorem Coheres.queueClosed (hs : s.Coheres) (closed : s.registry.closed = true)
    (hdeliver : s.deliver? = none) (shut : s.lifecycle = .shutDown) : s.queueClosed = true := by
  have hall : ∀ c ∈ s.calls, c.isLive = false := by
    intro c hc
    cases c with
    | refused e => rfl
    | registered ticket phase =>
      obtain ⟨place, hplace⟩ := List.getElem?_of_mem hc
      exact hs.not_live_of_closed closed hdeliver hplace
  simpa [Session.queueClosed, shut] using hall

/-- A call that is made when the client does not run is refused, and nothing else happens. -/
theorem issue_of_ne_running (h : s.lifecycle ≠ .running) (order : Order) :
    s.issue order = s.addCall (.refused .shutDown) := by
  unfold issue
  split <;> simp_all

/-! ## What a drain makes of a call -/

/-- The call is released: it holds the news that no reply can come, or has ended with it, unless it was
given up. -/
def Released (s : Session) (place : Nat) (ticket : Ticket) : Prop :=
  ∃ phase, s.calls[place]? = some (.registered ticket phase) ∧
    match phase with
    | .waiting | .queued => s.registry.slots[ticket.slot]? = some (.settled .shutDown)
    | .ended outcome => outcome = .error .shutDown
    | .abandoned => True

/-- A live call is released if its slot says so. -/
theorem released_of_settled (stands : s.calls[place]? = some (.registered ticket phase))
    (live : phase.isLive = true)
    (settled : s.registry.slots[ticket.slot]? = some (.settled .shutDown)) :
    s.Released place ticket := by
  refine ⟨phase, stands, ?_⟩
  cases phase with
  | waiting => exact settled
  | queued => exact settled
  | ended => simp [Phase.isLive] at live
  | abandoned => trivial

/-- A drain releases every call that is outstanding. -/
theorem released_of_drained (hs : s.Coheres)
    (stands : s.calls[place]? = some (.registered ticket phase))
    (waits : s.registry.slots[ticket.slot]? = some .waiting) (calls : t.calls = s.calls)
    (registry : t.registry = s.registry.drain.2) : t.Released place ticket := by
  obtain ⟨slot, hslot, hfits⟩ := Coherent.fits hs stands
  rw [waits] at hslot
  obtain rfl := Option.some.inj hslot
  have hafter : t.calls[place]? = some (.registered ticket phase) := by rw [calls]; exact stands
  refine released_of_settled hafter hfits ?_
  rw [registry, hs.numbered.getElem?_slots_drain, waits]
  rfl

/-- A slot that was settled stays so until its call is over. -/
theorem SlotChange.settled {k : Nat} {slot? : Option Slot} {settlement : Settlement}
    (h : SlotChange s cause k (some (.settled settlement)) slot?) :
    slot? = some (.settled settlement) ∨ slot? = some .dropped := by
  cases h with
  | kept => exact Or.inl rfl
  | dropped => exact Or.inr rfl

/-- The slot of a call that was settled and is still going on is settled in the same way. -/
theorem Effect.settled_of_live (h : Effect s cause t) (hs : s.Coheres) {settlement : Settlement}
    (settled : s.registry.slots[ticket.slot]? = some (.settled settlement))
    (stands : t.calls[place]? = some (.registered ticket phase)) (live : phase.isLive = true) :
    t.registry.slots[ticket.slot]? = some (.settled settlement) := by
  have hslot := h.slotChange hs ticket.slot
  rw [settled] at hslot
  rcases hslot.settled with hsame | hdropped
  · exact hsame
  · obtain ⟨slot, hfit, hfits⟩ := Coherent.fits (h.coherent hs) stands
    rw [hdropped] at hfit
    obtain rfl := Option.some.inj hfit
    rw [show phase.isLive = false from hfits] at live
    simp at live

/-- What is settled cannot time out, nor be told that there is no writer. -/
theorem Ends.settlement {outcome : Outcome} {settlement : Settlement}
    (h : s.Ends ticket phase outcome)
    (settled : s.registry.slots[ticket.slot]? = some (.settled settlement)) :
    outcome = outcomeOf ticket.shape settlement := by
  rw [← settlement?_eq_some_iff] at settled
  cases h with
  | settled h =>
    rw [settled] at h
    obtain rfl := Option.some.inj h
    rfl
  | expired unsettled | cutOff unsettled => simp [settled] at unsettled

/-- A call that is released stays released. -/
theorem Released.keep (h : s.Released place ticket) (hs : s.Coheres) (becomes : s.Becomes cause t) :
    t.Released place ticket := by
  obtain ⟨phase, hstands, hphase⟩ := h
  have heffect := becomes.effect
  have hsettled : phase.isLive = true →
      s.registry.slots[ticket.slot]? = some (.settled .shutDown) := by
    intro hlive
    cases phase with
    | waiting => exact hphase
    | queued => exact hphase
    | ended => simp [Phase.isLive] at hlive
    | abandoned => simp [Phase.isLive] at hlive
  have hchange := heffect.callChange place
  rw [hstands] at hchange
  generalize hafter : t.calls[place]? = call?' at hchange
  cases hchange with
  | kept =>
    cases hlive : phase.isLive with
    | true =>
      exact released_of_settled hafter hlive
        (heffect.settled_of_live hs (hsettled hlive) hafter hlive)
    | false =>
      cases phase with
      | waiting => simp [Phase.isLive] at hlive
      | queued => simp [Phase.isLive] at hlive
      | ended outcome => exact ⟨_, hafter, hphase⟩
      | abandoned => exact ⟨_, hafter, trivial⟩
  | queued admits =>
    exact released_of_settled hafter rfl (heffect.settled_of_live hs (hsettled rfl) hafter rfl)
  | ended moved live grounds => exact ⟨_, hafter, grounds.settlement (hsettled live)⟩
  | abandoned abandons live => exact ⟨_, hafter, trivial⟩

/-- When no call can take its settlement, a call that was released has ended so, or was given up. -/
theorem Released.ended (h : s.Released place ticket) (hs : s.Coheres) (hdeliver : s.deliver? = none) :
    s.calls[place]? = some (.registered ticket (.ended (.error .shutDown))) ∨
      s.calls[place]? = some (.registered ticket .abandoned) := by
  obtain ⟨phase, hstands, hphase⟩ := h
  have hwaits := waiting_of_deliver?_eq_none hs hdeliver hstands
  cases phase with
  | waiting => rw [hphase] at hwaits; simp [Phase.isLive] at hwaits
  | queued => rw [hphase] at hwaits; simp [Phase.isLive] at hwaits
  | ended outcome =>
    obtain rfl : outcome = .error .shutDown := hphase
    exact Or.inl hstands
  | abandoned => exact Or.inr hstands

end PipeCall.Session
