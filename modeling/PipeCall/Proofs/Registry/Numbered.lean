import PipeCall.Proofs.Registry.Operations

/-!
# Registries of numbered calls

A client numbers its calls from one on and registers each once, so the call with the slot `k` has the
number `k + 1`. `Registry.Numbered` says that such a registry has an entry for exactly the slots that
wait. Every operation of a client keeps it, and with it each operation has one equation for all
slots (`getElem?_slots_resolve`, `getElem?_slots_leave`, `getElem?_slots_drain`).
-/

namespace PipeCall

namespace Slot

/-- Nothing is delivered to a slot that does not wait. -/
theorem map_deliver_of_ne {slot? : Option Slot} (h : slot? ≠ some .waiting) (s : Settlement) :
    slot?.map (deliver s) = slot? := by
  cases slot? with
  | none => rfl
  | some slot =>
    cases slot with
    | waiting => exact absurd rfl h
    | settled | closed | dropped => rfl

/-- A slot that something was delivered to does not wait. -/
theorem map_deliver_ne_waiting (slot? : Option Slot) (s : Settlement) :
    slot?.map (deliver s) ≠ some .waiting := by
  cases slot? with
  | none => simp
  | some slot => cases slot <;> simp [deliver]

end Slot

namespace Registry

/-- Calls leave a registry in which each has an entry exactly as long as its slot waits. -/
structure Numbered (r : Registry) : Prop where
  /-- The entries are in the order of their calls. -/
  ordered : r.ids.Pairwise (· < ·)
  mem_entries {id slot : Nat} :
    (id, slot) ∈ r.entries ↔ id = slot + 1 ∧ r.slots[slot]? = some .waiting
  closed : r.closed = true → r.entries = []

/-- An empty registry has an entry for every slot that waits. -/
theorem numbered_empty : Numbered {} where
  ordered := List.Pairwise.nil
  mem_entries := by simp
  closed _ := rfl

namespace Numbered

variable {r : Registry} {id slot : Nat}

/-- No call has two entries. -/
theorem nodup_ids (h : r.Numbered) : r.ids.Nodup := h.ordered.imp Nat.ne_of_lt

/-- The number of an outstanding call is that of a slot that waits. -/
theorem mem_ids (h : r.Numbered) :
    id ∈ r.ids ↔ ∃ slot, id = slot + 1 ∧ r.slots[slot]? = some .waiting := by
  unfold ids
  rw [List.mem_map]
  constructor
  · rintro ⟨⟨id', slot⟩, hmem, rfl⟩
    exact ⟨slot, h.mem_entries.1 hmem⟩
  · rintro ⟨slot, hslot⟩
    exact ⟨(id, slot), h.mem_entries.2 hslot, rfl⟩

/-- The next number is not outstanding. -/
theorem next_not_mem (h : r.Numbered) : r.slots.length + 1 ∉ r.ids := by
  rw [h.mem_ids]
  rintro ⟨slot, hid, hslot⟩
  obtain ⟨hlt, -⟩ := List.getElem?_eq_some_iff.1 hslot
  omega

/-! ## Registering -/

/-- An open registry registers the next number. -/
theorem register (h : r.Numbered) (hopen : r.closed = false) :
    r.register (r.slots.length + 1) =
      .ok (r.slots.length,
        { r with
          entries := r.entries ++ [(r.slots.length + 1, r.slots.length)]
          slots := r.slots ++ [.waiting] }) :=
  register_of_open hopen h.next_not_mem

/-- The next number that is registered waits. -/
theorem add (h : r.Numbered) (hopen : r.closed = false) :
    Numbered { r with
      entries := r.entries ++ [(r.slots.length + 1, r.slots.length)]
      slots := r.slots ++ [.waiting] } where
  ordered := by
    simp only [ids, List.map_append, List.map_cons, List.map_nil]
    refine List.pairwise_append.2 ⟨h.ordered, List.pairwise_singleton _ _, fun id hid next hnext => ?_⟩
    obtain ⟨slot, rfl, hslot⟩ := h.mem_ids.1 hid
    obtain ⟨hlt, -⟩ := List.getElem?_eq_some_iff.1 hslot
    obtain rfl := List.mem_singleton.1 hnext
    omega
  mem_entries {id slot} := by
    simp only [List.mem_append, List.mem_singleton, Prod.mk.injEq, h.mem_entries]
    by_cases hlt : slot < r.slots.length
    · rw [List.getElem?_append_left hlt]
      constructor
      · rintro (hmem | ⟨-, rfl⟩)
        · exact hmem
        · omega
      · exact Or.inl
    · by_cases heq : slot = r.slots.length
      · simp [heq]
      · have hnone : r.slots[slot]? = none := List.getElem?_eq_none_iff.2 (by omega)
        have hnone' : (r.slots ++ [.waiting])[slot]? = none := List.getElem?_eq_none_iff.2 (by
          rw [List.length_append, List.length_singleton]
          omega)
        simp [hnone, hnone', heq]
  closed hclosed := by
    rw [show r.closed = true from hclosed] at hopen
    simp at hopen

/-! ## Removing -/

/-- A call that leaves takes its entry along if its slot waits no longer. -/
theorem of_remove (h : r.Numbered) {next : Registry}
    (entries : next.entries = (r.remove id).entries) (closed : next.closed = r.closed)
    (waits : ∀ k, next.slots[k]? = some .waiting ↔ id ≠ k + 1 ∧ r.slots[k]? = some .waiting) :
    next.Numbered where
  ordered := by
    unfold ids
    rw [entries]
    exact h.ordered.sublist (List.filter_sublist.map _)
  mem_entries {id' slot} := by
    rw [entries, mem_entries_remove, h.mem_entries, waits]
    constructor
    · rintro ⟨⟨rfl, hslot⟩, hne⟩
      exact ⟨rfl, Ne.symm hne, hslot⟩
    · rintro ⟨rfl, hne, hslot⟩
      exact ⟨⟨rfl, hslot⟩, Ne.symm hne⟩
  closed hclosed := by
    rw [closed] at hclosed
    rw [entries, remove, h.closed hclosed]
    rfl

/-- A reply reaches the slot of the call it names if that waits, and no other. -/
theorem getElem?_slots_resolve (h : r.Numbered) (reply : Reply) (k : Nat) :
    (r.resolve id reply).2.slots[k]? =
      if id = k + 1 then r.slots[k]?.map (Slot.deliver (.reply reply)) else r.slots[k]? := by
  by_cases hmem : (id, k) ∈ r.entries
  · -- The call is outstanding, and its entry leads to its slot.
    have hslot := (slotOf?_eq_some_iff h.nodup_ids).2 hmem
    obtain ⟨hid, -⟩ := h.mem_entries.1 hmem
    rw [slots_resolve_of_some hslot, List.getElem?_modify, if_pos hid]
    simp
  · rw [getElem?_slots_resolve_of_ne reply hmem]
    split
    · -- The call is not outstanding, so its slot does not wait, and takes nothing.
      rename_i hid
      have hne : r.slots[k]? ≠ some .waiting := fun hw => hmem (h.mem_entries.2 ⟨hid, hw⟩)
      exact (Slot.map_deliver_of_ne hne _).symm
    · rfl

/-- Resolving a call keeps an entry for every slot that waits. -/
theorem resolve (h : r.Numbered) (reply : Reply) : (r.resolve id reply).2.Numbered := by
  refine h.of_remove (entries_resolve reply) (closed_resolve reply) fun k => ?_
  rw [h.getElem?_slots_resolve]
  split
  · rename_i hid
    have hne := Slot.map_deliver_ne_waiting r.slots[k]? (.reply reply)
    simp [hid, hne]
  · rename_i hid
    simp [hid]

/-- A call that leaves drops its slot, and no other. -/
theorem getElem?_slots_leave (h : r.Numbered) (k : Nat) :
    ((r.cancel (slot + 1)).2.release slot).slots[k]? =
      if slot = k then r.slots[k]?.map fun _ => .dropped else r.slots[k]? := by
  rw [getElem?_slots_release]
  split
  · rename_i heq
    -- Cancelling may close the slot first, but not make or drop one.
    have hlen : (r.cancel (slot + 1)).2.slots.length = r.slots.length := length_slots_cancel
    by_cases hlt : k < r.slots.length
    · have hlt' : k < (r.cancel (slot + 1)).2.slots.length := by omega
      rw [List.getElem?_eq_getElem hlt, List.getElem?_eq_getElem hlt']
      rfl
    · rw [List.getElem?_eq_none_iff.2 (by omega), List.getElem?_eq_none_iff.2 (by omega)]
  · rename_i hne
    refine getElem?_slots_cancel_of_ne fun hmem => hne ?_
    obtain ⟨hid, -⟩ := h.mem_entries.1 hmem
    omega

/-- A call that leaves keeps an entry for every slot that waits. -/
theorem leave (h : r.Numbered) : ((r.cancel (slot + 1)).2.release slot).Numbered := by
  refine h.of_remove (by rw [entries_release, entries_cancel]) (by simp) fun k => ?_
  rw [h.getElem?_slots_leave]
  split
  · rename_i heq
    cases r.slots[k]? <;> simp [heq]
  · rename_i hne
    have hne' : slot + 1 ≠ k + 1 := by omega
    exact ⟨fun hw => ⟨hne', hw⟩, fun hw => hw.2⟩

/-! ## Draining -/

/-- A drain tells every caller who waits that no reply comes. -/
theorem getElem?_slots_drain (h : r.Numbered) (k : Nat) :
    r.drain.2.slots[k]? = r.slots[k]?.map (Slot.deliver .shutDown) := by
  rw [Registry.getElem?_slots_drain]
  split
  · rfl
  · rename_i hmem
    refine (Slot.map_deliver_of_ne (fun hw => hmem ?_) _).symm
    exact List.mem_map.2 ⟨(k + 1, k), h.mem_entries.2 ⟨rfl, hw⟩, rfl⟩

/-- A drained registry has no entries, and no slot waits. -/
theorem drain (h : r.Numbered) : r.drain.2.Numbered where
  ordered := List.Pairwise.nil
  mem_entries {id slot} := by
    rw [h.getElem?_slots_drain, entries_drain]
    have hne := Slot.map_deliver_ne_waiting r.slots[slot]? .shutDown
    exact ⟨fun hmem => absurd hmem List.not_mem_nil, fun hw => absurd hw.2 hne⟩
  closed _ := rfl

/-- A registry that was drained is not changed by another drain. -/
theorem drain_of_closed (h : r.Numbered) (closed : r.closed = true) : r.drain.2 = r := by
  have hentries := h.closed closed
  cases r
  simp_all [Registry.drain]

end Numbered

end Registry

end PipeCall
