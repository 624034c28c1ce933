import PipeCall.Proofs.Registry.Numbered
import PipeCall.Proofs.Session.Change

/-!
# The calls and the registry agree

`Coherent` relates the calls of a client to its registry. The calls have the slots of the registry in
order of issue; the slot of a call that is still going on waits or is settled, and that of any other
call is dropped. Since a registry has an entry for exactly the slots that wait
(`Registry.Numbered`), this tells for every call whether it is outstanding. Every effect keeps it
(`Effect.coherent`), and `Effect.slotChange` says what a change can do to a slot: a slot is
made for a call, is settled once, by a reply or a drain, and is dropped in the end.
-/

namespace PipeCall.Session

/-- Whether a call in a phase can have a slot like this. -/
def Phase.Fits (phase : Phase) : Slot → Prop
  | .waiting | .settled _ => phase.isLive = true
  | .dropped => phase.isLive = false
  | .closed => False

/-- The calls agree with the registry and with the number of the next call. -/
structure Coherent (calls : List Call) (r : Registry) (next : Nat) : Prop where
  numbered : r.Numbered
  /-- The calls have the slots in order of issue. -/
  slots : (ticketsOf calls).map Ticket.slot = List.range r.slots.length
  id_eq : ∀ t ∈ ticketsOf calls, t.id = t.slot + 1
  fits {place : Nat} {t : Ticket} {phase : Phase}
    (stands : calls[place]? = some (.registered t phase)) :
    ∃ slot, r.slots[t.slot]? = some slot ∧ phase.Fits slot
  lt_next : r.slots.length < next
  /-- No number is lost before the registry is closed. -/
  next_eq : r.closed = false → next = r.slots.length + 1

namespace Coherent

variable {calls : List Call} {r : Registry} {next : Nat} {place : Nat} {t : Ticket} {phase : Phase}

/-- Without calls the registry is empty and the first number is one. -/
theorem empty : Coherent [] {} 1 where
  numbered := Registry.numbered_empty
  slots := rfl
  id_eq := by simp [ticketsOf]
  fits h := by simp at h
  lt_next := Nat.zero_lt_one
  next_eq _ := rfl

/-- The number of a registered call is that of its slot, counted from one. -/
theorem id_of_stands (h : Coherent calls r next)
    (stands : calls[place]? = some (.registered t phase)) : t.id = t.slot + 1 :=
  h.id_eq t (mem_ticketsOf.2 ⟨place, phase, stands⟩)

/-- A registered call has a slot. -/
theorem slot_lt (h : Coherent calls r next)
    (stands : calls[place]? = some (.registered t phase)) : t.slot < r.slots.length := by
  obtain ⟨slot, hslot, -⟩ := h.fits stands
  obtain ⟨hlt, -⟩ := List.getElem?_eq_some_iff.1 hslot
  exact hlt

/-- A slot is that of a registered call. -/
theorem exists_of_slot_lt (h : Coherent calls r next) {k : Nat} (hk : k < r.slots.length) :
    ∃ (place : Nat) (t : Ticket) (phase : Phase),
      calls[place]? = some (.registered t phase) ∧ t.slot = k := by
  have hmem : k ∈ (ticketsOf calls).map Ticket.slot := by
    rw [h.slots]
    exact List.mem_range.2 hk
  obtain ⟨t, ht, rfl⟩ := List.mem_map.1 hmem
  obtain ⟨place, phase, hstands⟩ := mem_ticketsOf.1 ht
  exact ⟨place, t, phase, hstands, rfl⟩

/-- A call that was registered later has a later slot. -/
theorem slot_lt_slot (h : Coherent calls r next) {place' : Nat} {t' : Ticket} {phase' : Phase}
    (stands : calls[place]? = some (.registered t phase))
    (stands' : calls[place']? = some (.registered t' phase')) (hlt : place < place') :
    t.slot < t'.slot := by
  have hpair : ((ticketsOf calls).map Ticket.slot).Pairwise (· < ·) := by
    rw [h.slots]
    exact List.pairwise_lt_range
  rw [List.pairwise_map, ticketsOf, List.pairwise_filterMap, List.pairwise_iff_getElem] at hpair
  obtain ⟨hp, hcall⟩ := List.getElem?_eq_some_iff.1 stands
  obtain ⟨hp', hcall'⟩ := List.getElem?_eq_some_iff.1 stands'
  exact hpair place place' hp hp' hlt t (by rw [hcall]; rfl) t' (by rw [hcall']; rfl)

/-- What is made of registered calls is in the order of their numbers. -/
theorem pairwise_filterMap (h : Coherent calls r next) {α : Type} {f : Call → Option α}
    {key : α → Nat}
    (hf : ∀ c a, f c = some a → ∃ t phase, c = .registered t phase ∧ t.id = key a) :
    (calls.filterMap f).Pairwise (fun a b => key a < key b) := by
  rw [List.pairwise_filterMap, List.pairwise_iff_getElem]
  intro i j hi hj hlt a ha b hb
  obtain ⟨t, phase, hc, hta⟩ := hf _ _ ha
  obtain ⟨t', phase', hc', htb⟩ := hf _ _ hb
  have hstands : calls[i]? = some (.registered t phase) := by rw [List.getElem?_eq_getElem hi, hc]
  have hstands' : calls[j]? = some (.registered t' phase') := by
    rw [List.getElem?_eq_getElem hj, hc']
  have hslot := h.slot_lt_slot hstands hstands' hlt
  have hid := h.id_of_stands hstands
  have hid' := h.id_of_stands hstands'
  omega

/-- Two calls with one slot are one. -/
theorem place_unique (h : Coherent calls r next) {place' : Nat} {t' : Ticket} {phase' : Phase}
    (stands : calls[place]? = some (.registered t phase))
    (stands' : calls[place']? = some (.registered t' phase')) (heq : t.slot = t'.slot) :
    place = place' := by
  rcases Nat.lt_trichotomy place place' with hlt | hsame | hgt
  · have hslot := h.slot_lt_slot stands stands' hlt
    omega
  · exact hsame
  · have hslot := h.slot_lt_slot stands' stands hgt
    omega

/-- A call whose slot waits is still going on, and it is outstanding. -/
theorem mem_entries_iff (h : Coherent calls r next)
    (stands : calls[place]? = some (.registered t phase)) :
    (t.id, t.slot) ∈ r.entries ↔ r.slots[t.slot]? = some .waiting := by
  rw [h.numbered.mem_entries]
  exact ⟨fun hmem => hmem.2, fun hw => ⟨h.id_of_stands stands, hw⟩⟩

/-! ## What keeps them in agreement -/

/-- A call that is not registered is none of the registry's. -/
theorem refuse (h : Coherent calls r next) (e : CallError) :
    Coherent (calls ++ [.refused e]) r next where
  numbered := h.numbered
  slots := by
    rw [ticketsOf_append, show ticketsOf [.refused e] = [] from rfl, List.append_nil]
    exact h.slots
  id_eq := by
    rw [ticketsOf_append, show ticketsOf [.refused e] = [] from rfl, List.append_nil]
    exact h.id_eq
  fits {place t phase} stands := by
    have hlt : place < calls.length := by
      by_cases hlt : place < calls.length
      · exact hlt
      · rw [List.getElem?_append_right (by omega)] at stands
        cases hk : place - calls.length with
        | zero => simp [hk] at stands
        | succ k => simp [hk] at stands
    rw [List.getElem?_append_left hlt] at stands
    exact h.fits stands
  lt_next := h.lt_next
  next_eq := h.next_eq

/-- A closed registry may lose a number. -/
theorem skip (h : Coherent calls r next) (hclosed : r.closed = true) :
    Coherent calls r (next + 1) where
  numbered := h.numbered
  slots := h.slots
  id_eq := h.id_eq
  fits := h.fits
  lt_next := Nat.lt_succ_of_lt h.lt_next
  next_eq hopen := by simp [hclosed] at hopen

/-- The next number is turned away by a closed registry only. -/
theorem closed_of_register_error (h : Coherent calls r next) {refusal : Registry.Refusal}
    (hreg : r.register next = .error refusal) : r.closed = true := by
  cases hclosed : r.closed with
  | true => rfl
  | false =>
    rw [h.next_eq hclosed, h.numbered.register hclosed] at hreg
    simp at hreg

/-- The next number is registered by an open registry, in a new slot. -/
theorem register_eq (h : Coherent calls r next) {slot : Nat} {r' : Registry}
    (hreg : r.register next = .ok (slot, r')) :
    r.closed = false ∧ slot = r.slots.length ∧ next = r.slots.length + 1 ∧
      r' = { r with
        entries := r.entries ++ [(r.slots.length + 1, r.slots.length)]
        slots := r.slots ++ [.waiting] } := by
  by_cases hclosed : r.closed = true
  · rw [Registry.register_of_closed hclosed] at hreg
    simp at hreg
  · rw [Bool.not_eq_true] at hclosed
    have hnext := h.next_eq hclosed
    rw [hnext, h.numbered.register hclosed] at hreg
    obtain ⟨rfl, rfl⟩ := Prod.mk.inj (Except.ok.inj hreg)
    exact ⟨hclosed, rfl, hnext, rfl⟩

/-- A call that is registered waits for its settlement. -/
theorem enter (h : Coherent calls r next) {r' : Registry}
    (hreg : r.register next = .ok (t.slot, r')) (hid : t.id = next) (live : phase.isLive = true) :
    Coherent (calls ++ [.registered t phase]) r' (next + 1) := by
  obtain ⟨hopen, hslot, hnext, rfl⟩ := h.register_eq hreg
  have htickets : ticketsOf (calls ++ [.registered t phase]) = ticketsOf calls ++ [t] :=
    ticketsOf_append _ _
  refine ⟨h.numbered.add hopen, ?_, ?_, ?_, ?_, ?_⟩
  · rw [htickets, List.map_append, h.slots]
    simp [List.range_succ, hslot]
  · intro u hu
    rw [htickets] at hu
    rcases List.mem_append.1 hu with hu | hu
    · exact h.id_eq u hu
    · obtain rfl := List.mem_singleton.1 hu
      omega
  · intro place u phase' stands
    by_cases hlt : place < calls.length
    · -- A call that was there before has its slot before the new one.
      rw [List.getElem?_append_left hlt] at stands
      obtain ⟨slot, hu, hfits⟩ := h.fits stands
      refine ⟨slot, ?_, hfits⟩
      rw [List.getElem?_append_left (h.slot_lt stands)]
      exact hu
    · rw [List.getElem?_append_right (by omega)] at stands
      cases hk : place - calls.length with
      | zero =>
        rw [hk] at stands
        obtain ⟨rfl, rfl⟩ := Call.registered.inj (Option.some.inj stands)
        exact ⟨.waiting, by simp [hslot], live⟩
      | succ k => simp [hk] at stands
  · simp only [List.length_append, List.length_singleton]
    omega
  · intro _
    simp only [List.length_append, List.length_singleton]
    omega

/-- A call that is over leaves the registry. -/
theorem finish (h : Coherent calls r next) (stands : calls[place]? = some (.registered t phase))
    {ended : Phase} (hended : ended.isLive = false) :
    Coherent (calls.set place (.registered t ended)) ((r.cancel t.id).2.release t.slot) next := by
  have hid := h.id_of_stands stands
  have hlen : ((r.cancel t.id).2.release t.slot).slots.length = r.slots.length := by simp
  have hleave : ∀ k : Nat, ((r.cancel t.id).2.release t.slot).slots[k]? =
      if t.slot = k then r.slots[k]?.map fun _ => .dropped else r.slots[k]? := by
    rw [hid]
    exact h.numbered.getElem?_slots_leave
  refine ⟨?_, ?_, ?_, ?_, ?_, ?_⟩
  · rw [hid]
    exact h.numbered.leave
  · rw [ticketsOf_set stands, hlen]
    exact h.slots
  · rw [ticketsOf_set stands]
    exact h.id_eq
  · intro place' u phase' stands'
    rw [List.getElem?_set] at stands'
    by_cases heq : place = place'
    · -- The call that is over: its slot is dropped.
      obtain ⟨hlt, -⟩ := List.getElem?_eq_some_iff.1 stands
      rw [if_pos heq, if_pos hlt] at stands'
      obtain ⟨rfl, rfl⟩ := Call.registered.inj (Option.some.inj stands')
      obtain ⟨slot, hslot, -⟩ := h.fits stands
      exact ⟨.dropped, by rw [hleave, if_pos rfl, hslot]; rfl, hended⟩
    · -- Any other call has another slot, which stays as it is.
      rw [if_neg heq] at stands'
      have hne : t.slot ≠ u.slot := fun hsame => heq (h.place_unique stands stands' hsame)
      obtain ⟨slot, hslot, hfits⟩ := h.fits stands'
      exact ⟨slot, by rw [hleave, if_neg hne]; exact hslot, hfits⟩
  · rw [hlen]
    exact h.lt_next
  · rw [hlen]
    simpa using h.next_eq

/-- Calls that are taken into the queue are still going on. -/
theorem takes_in (h : Coherent calls r next) {calls' : List Call}
    (tickets : ticketsOf calls' = ticketsOf calls)
    (places : ∀ place : Nat, calls'[place]? = calls[place]? ∨
      ∃ t, calls[place]? = some (.registered t .waiting) ∧
        calls'[place]? = some (.registered t .queued)) : Coherent calls' r next where
  numbered := h.numbered
  slots := by rw [tickets]; exact h.slots
  id_eq := by rw [tickets]; exact h.id_eq
  fits {place t phase} stands := by
    rcases places place with heq | ⟨u, hwaits, hqueued⟩
    · rw [heq] at stands
      exact h.fits stands
    · rw [hqueued] at stands
      obtain ⟨rfl, rfl⟩ := Call.registered.inj (Option.some.inj stands)
      -- Waiting for room and being queued are both live, so they fit the same slots.
      obtain ⟨slot, hslot, hfits⟩ := h.fits hwaits
      exact ⟨slot, hslot, by cases slot <;> exact hfits⟩
  lt_next := h.lt_next
  next_eq := h.next_eq

/-- A settlement that reaches some slots reaches those of calls that are still going on. -/
theorem deliver (h : Coherent calls r next) {r' : Registry} (numbered : r'.Numbered)
    (len : r'.slots.length = r.slots.length) (closed : r'.closed = false → r.closed = false)
    (slots : ∀ k : Nat, r'.slots[k]? = r.slots[k]? ∨
      ∃ s, r'.slots[k]? = r.slots[k]?.map (Slot.deliver s)) :
    Coherent calls r' next where
  numbered := numbered
  slots := by rw [len]; exact h.slots
  id_eq := h.id_eq
  fits {place t phase} stands := by
    obtain ⟨slot, hslot, hfits⟩ := h.fits stands
    rcases slots t.slot with heq | ⟨s, heq⟩
    · exact ⟨slot, by rw [heq]; exact hslot, hfits⟩
    · -- A slot that takes a settlement has waited, and both fit a call that is still going on.
      refine ⟨slot.deliver s, by rw [heq, hslot]; rfl, ?_⟩
      cases slot <;> exact hfits
  lt_next := by rw [len]; exact h.lt_next
  next_eq hopen := by rw [len]; exact h.next_eq (closed hopen)

end Coherent

/-- The calls of a client agree with its registry and with its next number. -/
def Coheres (s : Session) : Prop := Coherent s.calls s.registry s.ids.next

variable {s t : Session} {cause : Cause}

/-- Every change keeps the calls and the registry in agreement. -/
theorem Effect.coherent (h : Effect s cause t) (hs : s.Coheres) : t.Coheres := by
  unfold Coheres at hs ⊢
  cases h with
  | still calls registry ids => rw [calls, registry, ids]; exact hs
  | refused _ calls registry ids => rw [calls, registry, ids]; exact hs.refuse _
  | unregistered _ turnedAway calls registry ids =>
    rw [calls, registry, ids]
    exact (hs.skip (hs.closed_of_register_error turnedAway)).refuse _
  | admitted _ _ _ live registered calls registry ids =>
    rw [calls, registry, ids]
    exact hs.enter registered rfl live
  | @lost order _ params slot _ _ _ _ registered calls registry ids =>
    rw [calls, registry, ids]
    -- The call is there for a moment before it ends.
    let ticket := s.ticketFor order params slot
    have hentered : Coherent (s.calls ++ [.registered ticket .waiting]) _ (s.ids.next + 1) :=
      hs.enter registered rfl rfl
    have hended : (Phase.ended (.error noWriter)).isLive = false := rfl
    have hfinish := hentered.finish List.getElem?_concat_length hended
    rw [List.set_append_right _ _ (Nat.le_refl _), Nat.sub_self] at hfinish
    exact hfinish
  | ended stands _ _ calls registry ids =>
    rw [calls, registry, ids]
    exact hs.finish stands rfl
  | abandoned stands _ calls registry ids =>
    rw [calls, registry, ids]
    exact hs.finish stands rfl
  | letIn calls registry ids =>
    rw [calls, registry, ids]
    exact hs.takes_in (ticketsOf_letIn _ _) (getElem?_letIn _ _)
  | queued stands calls registry ids =>
    rw [calls, registry, ids]
    exact hs.takes_in (ticketsOf_set stands _) (getElem?_set_queued stands)
  | @resolved _ _ id reply _ calls registry ids =>
    rw [calls, registry, ids]
    -- Only the slot of the call that the reply names takes it.
    refine hs.deliver (hs.numbered.resolve reply) (by simp) (by simp) fun k => ?_
    rw [hs.numbered.getElem?_slots_resolve]
    split
    · exact Or.inr ⟨_, rfl⟩
    · exact Or.inl rfl
  | drained _ calls registry ids =>
    rw [calls, registry, ids]
    refine hs.deliver hs.numbered.drain (by simp) (by simp) fun k => ?_
    exact Or.inr ⟨_, hs.numbered.getElem?_slots_drain k⟩

/-- A change closes the registry by draining it, and never opens it. -/
theorem Effect.closed (h : Effect s cause t) (hs : s.Coheres) :
    t.registry.closed = s.registry.closed ∨
      t.registry.closed = true ∧ (cause = .command .shutDown ∨ cause = .move .leave) := by
  cases h with
  | still _ registry _ => rw [registry]; exact Or.inl rfl
  | refused _ _ registry _ => rw [registry]; exact Or.inl rfl
  | unregistered _ _ _ registry _ => rw [registry]; exact Or.inl rfl
  | admitted _ _ _ _ registered _ registry _ =>
    obtain ⟨-, -, -, rfl⟩ := Coherent.register_eq hs registered
    rw [registry]
    exact Or.inl rfl
  | lost _ _ _ registered _ registry _ =>
    obtain ⟨-, -, -, rfl⟩ := Coherent.register_eq hs registered
    rw [registry]
    exact Or.inl (by simp)
  | ended _ _ _ _ registry _ => rw [registry]; exact Or.inl (by simp [unregister])
  | abandoned _ _ _ registry _ => rw [registry]; exact Or.inl (by simp [unregister])
  | letIn _ registry _ | queued _ _ registry _ => rw [registry]; exact Or.inl rfl
  | resolved _ _ registry _ => rw [registry]; exact Or.inl (by simp)
  | drained drains _ registry _ => rw [registry]; exact Or.inr ⟨by simp, drains⟩

/-! ## What becomes of a slot -/

/-- What a change can do to a slot. -/
inductive SlotChange (s : Session) (cause : Cause) (k : Nat) : Option Slot → Option Slot → Prop where
  | kept {slot? : Option Slot} : SlotChange s cause k slot? slot?
  /-- It is made for a call, and waits. -/
  | made {order : Order} (issued : cause = .command (.issue order)) :
      SlotChange s cause k none (some .waiting)
  /-- A reply gets to it. -/
  | replied {place : Nat} {reply : Reply} (resolves : cause = .move (.resolve place))
      (onTheWay : s.inFlight[place]? = some (k + 1, reply)) :
      SlotChange s cause k (some .waiting) (some (.settled (.reply reply)))
  /-- The registry is drained. -/
  | drained (drains : cause = .command .shutDown ∨ cause = .move .leave) :
      SlotChange s cause k (some .waiting) (some (.settled .shutDown))
  /-- Its call is over. -/
  | dropped {slot? : Option Slot} : SlotChange s cause k slot? (some .dropped)

/-- A call that leaves the registry changes its own slot alone. -/
theorem Coheres.slotChange_unregister (hs : s.Coheres) {place : Nat} {ticket : Ticket}
    {phase : Phase} (stands : s.calls[place]? = some (.registered ticket phase)) (k : Nat) :
    SlotChange s cause k s.registry.slots[k]? (s.unregister ticket).slots[k]? := by
  have hlt := Coherent.slot_lt hs stands
  rw [unregister, Coherent.id_of_stands hs stands, hs.numbered.getElem?_slots_leave]
  split
  · rename_i heq
    rw [← heq, List.getElem?_eq_getElem hlt]
    exact .dropped
  · exact .kept

/-- A registration makes a slot and leaves the others. -/
theorem Coheres.slotChange_register (hs : s.Coheres) {order : Order} {slot : Nat} {r : Registry}
    (hreg : s.registry.register s.ids.next = .ok (slot, r)) (k : Nat) :
    SlotChange s (.command (.issue order)) k s.registry.slots[k]? r.slots[k]? := by
  obtain ⟨-, -, -, rfl⟩ := Coherent.register_eq hs hreg
  rcases Nat.lt_trichotomy k s.registry.slots.length with hlt | heq | hgt
  · rw [List.getElem?_append_left hlt]
    exact .kept
  · rw [heq, List.getElem?_concat_length, List.getElem?_eq_none_iff.2 (Nat.le_refl _)]
    exact .made rfl
  · have hlen : (s.registry.slots ++ [Slot.waiting]).length ≤ k := by simp; omega
    have hnone : (s.registry.slots ++ [Slot.waiting])[k]? = none := List.getElem?_eq_none_iff.2 hlen
    rw [hnone, List.getElem?_eq_none_iff.2 (Nat.le_of_lt hgt)]
    exact .kept

/-- What a change does to a slot. -/
theorem Effect.slotChange (h : Effect s cause t) (hs : s.Coheres) (k : Nat) :
    SlotChange s cause k s.registry.slots[k]? t.registry.slots[k]? := by
  cases h with
  | still _ registry _ => rw [registry]; exact .kept
  | refused _ _ registry _ => rw [registry]; exact .kept
  | unregistered _ _ _ registry _ => rw [registry]; exact .kept
  | admitted _ _ _ _ registered _ registry _ => rw [registry]; exact hs.slotChange_register registered k
  | @lost order _ params slot r running _ _ registered _ registry _ =>
    rw [registry]
    -- The slot is made and dropped by one change, so it does not wait after it.
    obtain ⟨hopen, hslot, hnext, hr⟩ := Coherent.register_eq hs registered
    have hnumbered : r.Numbered := by rw [hr]; exact hs.numbered.add hopen
    rw [hnext, ← hslot, hnumbered.getElem?_slots_leave]
    split
    · rename_i heq
      have hlt : k < r.slots.length := by rw [hr]; simp; omega
      rw [List.getElem?_eq_getElem hlt]
      exact .dropped
    · exact hs.slotChange_register registered k
  | ended stands _ _ _ registry _ => rw [registry]; exact hs.slotChange_unregister stands k
  | abandoned stands _ _ registry _ => rw [registry]; exact hs.slotChange_unregister stands k
  | letIn _ registry _ | queued _ _ registry _ => rw [registry]; exact .kept
  | @resolved _ _ id reply onTheWay _ registry _ =>
    rw [registry, hs.numbered.getElem?_slots_resolve]
    split
    · rename_i hid
      rw [hid] at onTheWay
      by_cases hw : s.registry.slots[k]? = some .waiting
      · rw [hw]
        exact .replied rfl onTheWay
      · rw [Slot.map_deliver_of_ne hw]
        exact .kept
    · exact .kept
  | drained drains _ registry _ =>
    rw [registry, hs.numbered.getElem?_slots_drain]
    by_cases hw : s.registry.slots[k]? = some .waiting
    · rw [hw]
      exact .drained drains
    · rw [Slot.map_deliver_of_ne hw]
      exact .kept

/-- A slot that waits after a change has waited before it, or is new. -/
theorem SlotChange.waiting {k : Nat} {slot? : Option Slot}
    (h : SlotChange s cause k slot? (some .waiting)) : slot? = some .waiting ∨ slot? = none := by
  cases h with
  | kept => exact Or.inl rfl
  | made issued => exact Or.inr rfl

end PipeCall.Session
