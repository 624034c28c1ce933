import PipeCall.Registry

/-!
# What the registry's operations do

One equation for each operation and each of the registry's parts: its entries, its slots, and whether
it takes registrations. A registration is refused (`refusal?`) or enters the call (`enter`), and a
resolution and a cancellation both remove their call and differ only in what becomes of its slot
(`expel`). Every operation but `register` only removes entries, and none changes a slot that it is not
about; `getElem?_slots_drain` says the same of `drain`, which is about every slot that has an entry.
-/

namespace PipeCall

namespace Slot

/-- A slot takes the first settlement only. -/
theorem deliver_deliver (s t : Settlement) (slot : Slot) :
    deliver s (deliver t slot) = deliver t slot := by
  cases slot <;> rfl

end Slot

namespace Registry

variable {r : Registry} {id slot : Nat}

/-! ## Looking up -/

/-- A call has no slot exactly if it is not outstanding. -/
theorem slotOf?_eq_none_iff : r.slotOf? id = none ↔ id ∉ r.ids := by
  unfold slotOf? ids
  rw [List.lookup_eq_none_iff, List.mem_map]
  constructor
  · rintro h ⟨e, he, rfl⟩
    exact absurd (h e he) (by simp)
  · intro h e he
    have hne : id ≠ e.1 := by
      rintro rfl
      exact h ⟨e, he, rfl⟩
    simpa using hne

/-- A call's slot is in its entry. -/
theorem mem_entries_of_slotOf? (h : r.slotOf? id = some slot) : (id, slot) ∈ r.entries := by
  obtain ⟨before, after, heq, -⟩ := List.lookup_eq_some_iff.1 h
  rw [heq]
  simp

/-- If no call has two entries, the slot in an entry is the call's slot. -/
theorem slotOf?_eq_some_iff (hnodup : r.ids.Nodup) :
    r.slotOf? id = some slot ↔ (id, slot) ∈ r.entries := by
  refine ⟨mem_entries_of_slotOf?, fun h => ?_⟩
  obtain ⟨before, after, heq⟩ := List.append_of_mem h
  refine List.lookup_eq_some_iff.2 ⟨before, after, heq, fun e he => ?_⟩
  rw [ids, heq, List.map_append, List.nodup_append] at hnodup
  have hne := hnodup.2.2 e.1 (List.mem_map_of_mem he) id (by simp)
  simpa using hne.symm

/-! ## Registering -/

/-- Why a registry refuses to register a call, if it does. -/
def refusal? (r : Registry) (id : Nat) : Option Refusal :=
  if r.closed then some .closed
  else if id ∈ r.ids then some (.duplicate id)
  else none

/-- The registry with one more call. -/
def enter (r : Registry) (id : Nat) : Registry :=
  { r with entries := r.entries ++ [(id, r.slots.length)], slots := r.slots ++ [.waiting] }

/-- A closed registry refuses every call for that. -/
theorem refusal?_of_closed (h : r.closed = true) : r.refusal? id = some .closed := if_pos h

/-- An open registry refuses a call that is outstanding. -/
theorem refusal?_of_mem (hopen : r.closed = false) (hmem : id ∈ r.ids) :
    r.refusal? id = some (.duplicate id) := by
  rw [refusal?, if_neg (by simp [hopen]), if_pos hmem]

/-- An open registry refuses no other call. -/
theorem refusal?_eq_none_iff : r.refusal? id = none ↔ r.closed = false ∧ id ∉ r.ids := by
  unfold refusal?
  cases r.closed <;> simp

/-- A registration that is not refused enters the call, with the next slot. -/
theorem register_eq (r : Registry) (id : Nat) :
    r.register id =
      match r.refusal? id with
      | some refusal => .error refusal
      | none => .ok (r.slots.length, r.enter id) := by
  unfold register
  cases hclosed : r.closed with
  | true =>
    rw [refusal?_of_closed hclosed]
    rfl
  | false =>
    by_cases hmem : id ∈ r.ids
    · have hsome : (r.slotOf? id).isSome = true := by
        rw [Option.isSome_iff_ne_none]
        exact fun hnone => slotOf?_eq_none_iff.1 hnone hmem
      rw [refusal?_of_mem hclosed hmem, hsome]
      rfl
    · rw [refusal?_eq_none_iff.2 ⟨hclosed, hmem⟩, slotOf?_eq_none_iff.2 hmem, enter, hclosed]
      rfl

/-- A registration succeeds if the registry is open and the call is not outstanding. It adds an
entry and a slot of its own. -/
theorem register_of_open (hopen : r.closed = false) (hfresh : id ∉ r.ids) :
    r.register id = .ok (r.slots.length, r.enter id) := by
  rw [register_eq, refusal?_eq_none_iff.2 ⟨hopen, hfresh⟩]

/-- A closed registry takes no registration. -/
theorem register_of_closed (h : r.closed = true) : r.register id = .error .closed := by
  rw [register_eq, refusal?_of_closed h]

/-! ## Removing -/

/-- An entry is left by the removal of another call. -/
theorem mem_entries_remove {e : Nat × Nat} :
    e ∈ (r.remove id).entries ↔ e ∈ r.entries ∧ e.1 ≠ id := by
  simp [remove]

/-- Removing a call that is not outstanding changes nothing. -/
theorem remove_of_not_mem (h : id ∉ r.ids) : r.remove id = r := by
  have hall : r.entries.filter (fun e => e.1 ≠ id) = r.entries := by
    refine List.filter_eq_self.2 fun e he => ?_
    simp only [decide_eq_true_eq]
    rintro rfl
    exact h (List.mem_map_of_mem he)
  rw [remove, hall]

/-- Removing a call that was new when it was entered leaves the entries as they were before. -/
theorem entries_remove_enter (h : id ∉ r.ids) : ((r.enter id).remove id).entries = r.entries := by
  have hkept := congrArg entries (remove_of_not_mem h)
  simp only [remove, enter, List.filter_append] at hkept ⊢
  rw [hkept]
  simp

/-- Removes the entry of a call, and does something to its slot; tells whether there was one. -/
def expel (r : Registry) (id : Nat) (f : Slot → Slot) : Bool × Registry :=
  match r.slotOf? id with
  | some slot => (true, (r.remove id).updateSlot slot f)
  | none => (false, r)

/-- Removing a call tells whether it was outstanding. -/
theorem expel_found (f : Slot → Slot) : (r.expel id f).1 = decide (id ∈ r.ids) := by
  unfold expel
  cases hslot : r.slotOf? id with
  | none => simp [slotOf?_eq_none_iff.1 hslot]
  | some slot => simp [ids, List.mem_map_of_mem (mem_entries_of_slotOf? hslot)]

/-- Removing a call removes its entry and no other. -/
theorem entries_expel (f : Slot → Slot) : (r.expel id f).2.entries = (r.remove id).entries := by
  unfold expel
  cases h : r.slotOf? id with
  | some slot => rfl
  | none => rw [remove_of_not_mem (slotOf?_eq_none_iff.1 h)]

@[simp] theorem closed_expel (f : Slot → Slot) : (r.expel id f).2.closed = r.closed := by
  unfold expel
  split <;> rfl

@[simp] theorem length_slots_expel (f : Slot → Slot) :
    (r.expel id f).2.slots.length = r.slots.length := by
  unfold expel
  split <;> simp [updateSlot, remove]

/-- Something is done to the slot of the call. -/
theorem slots_expel_of_some (h : r.slotOf? id = some slot) (f : Slot → Slot) :
    (r.expel id f).2.slots = r.slots.modify slot f := by
  rw [expel, h]
  rfl

/-- Removing a call that is not outstanding changes nothing. -/
theorem expel_of_none (h : r.slotOf? id = none) (f : Slot → Slot) : r.expel id f = (false, r) := by
  rw [expel, h]

/-- A slot that has no entry of the call stays as it is. -/
theorem getElem?_slots_expel_of_not_mem {k : Nat} (f : Slot → Slot) (h : (id, k) ∉ r.entries) :
    (r.expel id f).2.slots[k]? = r.slots[k]? := by
  cases hs : r.slotOf? id with
  | none => rw [expel_of_none hs]
  | some slot =>
    have hne : slot ≠ k := by
      rintro rfl
      exact h (mem_entries_of_slotOf? hs)
    rw [slots_expel_of_some hs, List.getElem?_modify]
    simp [hne]

/-- If no call has two entries, something is done to the slot in the call's entry, and to no other.
-/
theorem getElem?_slots_expel (hnodup : r.ids.Nodup) (f : Slot → Slot) (k : Nat) :
    (r.expel id f).2.slots[k]? =
      if (id, k) ∈ r.entries then r.slots[k]?.map f else r.slots[k]? := by
  split
  · rename_i hmem
    rw [slots_expel_of_some ((slotOf?_eq_some_iff hnodup).2 hmem), List.getElem?_modify]
    simp
  · rename_i hmem
    exact getElem?_slots_expel_of_not_mem f hmem

/-! ## Resolving and cancelling -/

/-- Resolving a call is removing it and delivering the reply. -/
theorem resolve_eq_expel (reply : Reply) :
    r.resolve id reply = r.expel id (Slot.deliver (.reply reply)) := rfl

/-- Cancelling a call is removing it and closing its slot. -/
theorem cancel_eq_expel : r.cancel id = r.expel id Slot.close := rfl

/-- Resolving a call removes its entry. -/
theorem entries_resolve (reply : Reply) :
    (r.resolve id reply).2.entries = (r.remove id).entries := entries_expel _

/-- Cancelling a call removes its entry. -/
theorem entries_cancel : (r.cancel id).2.entries = (r.remove id).entries := entries_expel _

/-- Resolving a call delivers the reply to its slot. -/
theorem slots_resolve_of_some (h : r.slotOf? id = some slot) (reply : Reply) :
    (r.resolve id reply).2.slots = r.slots.modify slot (Slot.deliver (.reply reply)) :=
  slots_expel_of_some h _

/-- Resolving a call that is not outstanding changes nothing. -/
theorem resolve_of_none (h : r.slotOf? id = none) (reply : Reply) :
    r.resolve id reply = (false, r) := expel_of_none h _

@[simp] theorem closed_resolve (reply : Reply) : (r.resolve id reply).2.closed = r.closed :=
  closed_expel _

@[simp] theorem closed_cancel : (r.cancel id).2.closed = r.closed := closed_expel _

@[simp] theorem length_slots_resolve (reply : Reply) :
    (r.resolve id reply).2.slots.length = r.slots.length := length_slots_expel _

@[simp] theorem length_slots_cancel : (r.cancel id).2.slots.length = r.slots.length :=
  length_slots_expel _

/-- A slot whose call is not resolved stays as it is. -/
theorem getElem?_slots_resolve_of_ne {k : Nat} (reply : Reply) (h : (id, k) ∉ r.entries) :
    (r.resolve id reply).2.slots[k]? = r.slots[k]? := getElem?_slots_expel_of_not_mem _ h

/-- A slot whose call is not cancelled stays as it is. -/
theorem getElem?_slots_cancel_of_ne {k : Nat} (h : (id, k) ∉ r.entries) :
    (r.cancel id).2.slots[k]? = r.slots[k]? := getElem?_slots_expel_of_not_mem _ h

/-! ## Giving a slot up -/

@[simp] theorem entries_release : (r.release slot).entries = r.entries := rfl

@[simp] theorem closed_release : (r.release slot).closed = r.closed := rfl

@[simp] theorem length_slots_release : (r.release slot).slots.length = r.slots.length := by
  simp [release, updateSlot]

/-- A slot that was given up is dropped, and the others stay as they are. -/
theorem getElem?_slots_release (k : Nat) :
    (r.release slot).slots[k]? =
      if slot = k then r.slots[k]?.map fun _ => .dropped else r.slots[k]? := by
  simp only [release, updateSlot, List.getElem?_modify]
  by_cases h : slot = k <;> simp [h]

/-! ## Draining -/

@[simp] theorem entries_drain : r.drain.2.entries = [] := rfl

@[simp] theorem closed_drain : r.drain.2.closed = true := rfl

/-- Delivering to several slots one after another delivers to each of them. -/
theorem getElem?_slots_foldl_deliver (s : Settlement) (entries : List (Nat × Nat)) (k : Nat) :
    (entries.foldl (fun r e => r.updateSlot e.2 (Slot.deliver s)) r).slots[k]? =
      if k ∈ entries.map Prod.snd then r.slots[k]?.map (Slot.deliver s) else r.slots[k]? := by
  induction entries generalizing r with
  | nil => simp
  | cons e entries ih =>
    rw [List.foldl_cons, ih]
    simp only [updateSlot, List.getElem?_modify, List.map_cons, List.mem_cons]
    by_cases he : e.2 = k
    · by_cases hk : k ∈ entries.map Prod.snd
      · simp only [he, hk, or_true, if_true, Option.map_eq_map, Option.map_map]
        congr 1
        funext slot
        exact Slot.deliver_deliver s s slot
      · simp [he, hk]
    · have hne : ¬k = e.2 := fun h => he h.symm
      by_cases hk : k ∈ entries.map Prod.snd
      · simp only [he, hk, or_true, if_true, if_false]
        simp
      · simp only [he, hk, hne, or_false, if_false]
        simp

/-- A drain settles every slot that has an entry, and leaves the others. -/
theorem getElem?_slots_drain (k : Nat) :
    r.drain.2.slots[k]? =
      if k ∈ r.entries.map Prod.snd then r.slots[k]?.map (Slot.deliver .shutDown)
      else r.slots[k]? :=
  getElem?_slots_foldl_deliver .shutDown r.entries k

@[simp] theorem length_slots_drain : r.drain.2.slots.length = r.slots.length := by
  have hfold : ∀ entries : List (Nat × Nat), ∀ r : Registry,
      (entries.foldl (fun r e => r.updateSlot e.2 (Slot.deliver .shutDown)) r).slots.length =
        r.slots.length := by
    intro entries
    induction entries with
    | nil => intro r; rfl
    | cons e entries ih =>
      intro r
      rw [List.foldl_cons, ih]
      simp [updateSlot]
  exact hfold r.entries r

end Registry

end PipeCall
