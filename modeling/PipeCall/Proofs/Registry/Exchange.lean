import Mathlib.Data.List.Perm.Basic
import Mathlib.Logic.Equiv.Basic
import PipeCall.Proofs.Registry.Ledger
import PipeCall.Proofs.Session.Change

/-!
# Operations on different calls in either order

What is done to one call does not depend on what is done to another, so registrations, resolutions
and cancellations of two calls may change places. Two registrations give each other's numbers to their
slots; but for that everything is the same (`Swaps`). Hence the order in which a batch of replies
reaches the registry does not matter (`foldl_settle_perm`), and a reader may let them go in any order.
-/

namespace PipeCall.Registry

/-- The call that is registered, resolved or cancelled. -/
def Op.call? : Op → Option Nat
  | .register id | .resolve id _ | .cancel id => some id
  | _ => none

/-- The same answer when slots are numbered in another way. -/
def Answer.renumber (σ : Equiv.Perm Nat) : Answer → Answer
  | .made slot => .made (σ slot)
  | answer => answer

/-- A registry is like another but for the numbers of its slots. -/
structure Renumbered (σ : Equiv.Perm Nat) (r r' : Registry) : Prop where
  closed : r'.closed = r.closed
  /-- The same calls are outstanding, and each has the same slot. -/
  entries : r'.entries.Perm (r.entries.map fun e => (e.1, σ e.2))
  /-- In each slot is the same. -/
  slots (k : Nat) : r'.slots[σ k]? = r.slots[k]?

/-- Two operations may change places: whichever comes first, both answer the same and leave the same
behind, but for the numbers of the slots that they make. -/
structure Swaps (r : Registry) (x y : Op) (σ : Equiv.Perm Nat) : Prop where
  left : ((r.perform y).2.perform x).1 = (r.perform x).1.renumber σ
  right : (r.perform y).1 = ((r.perform x).2.perform y).1.renumber σ
  after : Renumbered σ ((r.perform x).2.perform y).2 ((r.perform y).2.perform x).2
  /-- A slot that is there before keeps its number. -/
  old {k : Nat} : k < r.slots.length → σ k = k

variable {r r' : Registry} {x y op : Op} {id i j k : Nat} {f : Slot → Slot}
  {σ : Equiv.Perm Nat} {h : List Step}

namespace Renumbered

/-- A registry is like itself. -/
theorem refl (r : Registry) : Renumbered (Equiv.refl Nat) r r where
  closed := rfl
  entries := by simp
  slots _ := rfl

/-- The other registry is like the one. -/
theorem symm (hr : Renumbered σ r r') : Renumbered σ.symm r' r where
  closed := hr.closed.symm
  entries := by
    have hmap := hr.entries.map fun e : Nat × Nat => (e.1, σ.symm e.2)
    simp only [List.map_map, Function.comp_def, Equiv.symm_apply_apply, List.map_id'] at hmap
    exact hmap.symm
  slots k := by rw [← hr.slots, Equiv.apply_symm_apply]

/-- The same calls are outstanding. -/
theorem ids (hr : Renumbered σ r r') : r'.ids.Perm r.ids := by
  have hmap := hr.entries.map Prod.fst
  rwa [List.map_map] at hmap

end Renumbered

@[simp] theorem Answer.renumber_refl (answer : Answer) :
    answer.renumber (Equiv.refl Nat) = answer := by
  cases answer <;> rfl

@[simp] theorem Answer.renumber_symm (answer : Answer) :
    (answer.renumber σ).renumber σ.symm = answer := by
  cases answer <;> simp [renumber]

namespace Swaps

/-- If two operations may change places, so may the same two. -/
theorem symm (hs : Swaps r x y σ) : Swaps r y x σ.symm where
  left := by rw [hs.right, Answer.renumber_symm]
  right := by rw [hs.left, Answer.renumber_symm]
  after := hs.after.symm
  old hlt := by rw [Equiv.symm_apply_eq, hs.old hlt]

/-- Two operations may change places if each answers the same after the other and they leave the same
registry. -/
theorem of_eq (left : ((r.perform y).2.perform x).1 = (r.perform x).1)
    (right : (r.perform y).1 = ((r.perform x).2.perform y).1)
    (after : ((r.perform x).2.perform y).2 = ((r.perform y).2.perform x).2) :
    Swaps r x y (Equiv.refl Nat) where
  left := by rw [left, Answer.renumber_refl]
  right := by rw [right, Answer.renumber_refl]
  after := after ▸ Renumbered.refl _
  old _ := rfl

end Swaps

/-! ## Registering -/

/-- Whether a call is outstanding does not depend on what is done to another. -/
theorem mem_ids_perform (hcall : op.call? = some j) (hne : i ≠ j) :
    i ∈ (r.perform op).2.ids ↔ i ∈ r.ids := by
  have hends : op.ends i = false := by
    cases op with
    | register => rfl
    | resolve | cancel =>
      obtain rfl := Option.some.inj hcall
      exact beq_eq_false_iff_ne.2 hne
    | drain | poll | release => simp [Op.call?] at hcall
  have hregister : ∀ slot, Step.mk op (r.perform op).1 ≠ ⟨.register i, .made slot⟩ := by
    intro slot hstep
    obtain ⟨rfl, -⟩ := Step.mk.inj hstep
    exact hne (Option.some.inj hcall)
  simp only [ids, List.mem_map, Prod.exists, exists_and_right, exists_eq_right,
    mem_entries_perform, hends, and_true, hregister, or_false]

/-- Whether a registration is refused does not depend on what is done to another call. -/
theorem refusal?_perform (hcall : op.call? = some j) (hne : i ≠ j) :
    (r.perform op).2.refusal? i = r.refusal? i := by
  have hclosed : (r.perform op).2.closed = r.closed := by
    have hdrain : op ≠ .drain := by
      rintro rfl
      simp [Op.call?] at hcall
    rw [Bool.eq_iff_iff, closed_perform]
    simp [hdrain]
  simp only [refusal?, hclosed, mem_ids_perform hcall hne]

/-- A registration that is refused may change places with anything that is done to another call. -/
theorem swaps_of_refusal {refusal : Refusal} (hrefusal : r.refusal? i = some refusal)
    (hcall : op.call? = some j) (hne : i ≠ j) : Swaps r (.register i) op (Equiv.refl Nat) := by
  have hnext := (refusal?_perform (r := r) hcall hne).trans hrefusal
  refine .of_eq ?_ ?_ ?_ <;> rw [perform_of_refusal hrefusal] <;> rw [perform_of_refusal hnext]

/-- Two calls that are entered one after the other give each other's numbers to their slots. -/
theorem renumbered_enter (hr : r.Linked) (i j : Nat) :
    Renumbered (Equiv.swap r.slots.length (r.slots.length + 1)) ((r.enter i).enter j)
      ((r.enter j).enter i) where
  closed := rfl
  entries := by
    -- The entries that were there keep their slots.
    have hkept : (r.entries.map fun e =>
        (e.1, Equiv.swap r.slots.length (r.slots.length + 1) e.2)) = r.entries := by
      refine List.map_congr_left (fun e he => ?_) |>.trans (List.map_id _)
      have hlt := hr.slot_lt he
      exact Prod.ext rfl (Equiv.swap_apply_of_ne_of_ne (by omega) (by omega))
    simp only [enter, List.length_append, List.length_singleton, List.map_append, List.map_cons,
      List.map_nil, Equiv.swap_apply_left, Equiv.swap_apply_right, hkept, List.append_assoc,
      List.singleton_append]
    exact List.Perm.append_left _ (List.Perm.swap _ _ _)
  slots k := by
    have hslots : ∀ i j, ((r.enter i).enter j).slots = r.slots ++ [.waiting, .waiting] :=
      fun i j => by simp [enter]
    rw [hslots, hslots]
    -- Both new slots wait, so it does not matter which call each is of.
    rcases Nat.lt_trichotomy k r.slots.length with hlt | rfl | hgt
    · rw [Equiv.swap_apply_of_ne_of_ne (by omega) (by omega)]
    · rw [Equiv.swap_apply_left, List.getElem?_append_right (Nat.le_add_right _ _),
        List.getElem?_append_right (Nat.le_refl _)]
      simp
    · by_cases hk : k = r.slots.length + 1
      · rw [hk, Equiv.swap_apply_right, List.getElem?_append_right (Nat.le_add_right _ _),
          List.getElem?_append_right (Nat.le_refl _)]
        simp
      · rw [Equiv.swap_apply_of_ne_of_ne (by omega) hk]

/-- Two registrations that are not refused may change places. -/
theorem swaps_register (hr : r.Linked) (hi : r.refusal? i = none) (hj : r.refusal? j = none)
    (hne : i ≠ j) :
    Swaps r (.register i) (.register j) (Equiv.swap r.slots.length (r.slots.length + 1)) := by
  have hi' : (r.perform (.register j)).2.refusal? i = none := (refusal?_perform rfl hne).trans hi
  have hj' : (r.perform (.register i)).2.refusal? j = none :=
    (refusal?_perform rfl hne.symm).trans hj
  have hlen : ∀ id, (r.enter id).slots.length = r.slots.length + 1 := fun id => by simp [enter]
  rw [perform_of_not_refused hj] at hi'
  rw [perform_of_not_refused hi] at hj'
  exact {
    left := by
      rw [perform_of_not_refused hj, perform_of_not_refused hi', perform_of_not_refused hi]
      simp [Answer.renumber, hlen]
    right := by
      rw [perform_of_not_refused hi, perform_of_not_refused hj', perform_of_not_refused hj]
      simp [Answer.renumber, hlen]
    after := by
      rw [perform_of_not_refused hi, perform_of_not_refused hj', perform_of_not_refused hj,
        perform_of_not_refused hi']
      exact renumbered_enter hr i j
    old := fun hlt => Equiv.swap_apply_of_ne_of_ne (by omega) (by omega) }

/-! ## Removing -/

/-- Registries with the same parts are the same. -/
theorem eq_of_parts (closed : r.closed = r'.closed) (entries : r.entries = r'.entries)
    (slots : ∀ k : Nat, r.slots[k]? = r'.slots[k]?) : r = r' := by
  obtain ⟨_, _, _⟩ := r
  obtain ⟨_, _, _⟩ := r'
  obtain rfl : _ = _ := closed
  obtain rfl : _ = _ := entries
  obtain rfl : _ = _ := List.ext_getElem? slots
  rfl

/-- Calls with different numbers may be removed in either order. -/
theorem expel_comm (hr : r.Linked) (hne : i ≠ j) (f g : Slot → Slot) :
    ((r.expel i f).2.expel j g).2 = ((r.expel j g).2.expel i f).2 := by
  have hnodup : ∀ id f, (r.expel id f).2.ids.Nodup := fun id f => by
    rw [ids, entries_expel]
    exact hr.nodup_ids.sublist (List.filter_sublist.map _)
  refine eq_of_parts (by simp) ?_ fun k => ?_
  · simp only [entries_expel, remove, List.filter_filter, Bool.and_comm]
  · have hi : (i, k) ∈ (r.expel j g).2.entries ↔ (i, k) ∈ r.entries := by
      rw [entries_expel, mem_entries_remove, and_iff_left hne]
    have hj : (j, k) ∈ (r.expel i f).2.entries ↔ (j, k) ∈ r.entries := by
      rw [entries_expel, mem_entries_remove, and_iff_left hne.symm]
    simp only [getElem?_slots_expel (hnodup _ _), getElem?_slots_expel hr.nodup_ids, hi, hj]
    -- No slot has entries of both calls.
    by_cases hmem : (i, k) ∈ r.entries
    · have hmem' : (j, k) ∉ r.entries := fun hmem' => hne (hr.eq_of_mem hmem hmem')
      simp [hmem, hmem']
    · simp [hmem]

/-- A call may be entered before or after another is removed. -/
theorem expel_enter (hr : r.Linked) (hne : i ≠ j) (f : Slot → Slot) :
    ((r.enter i).expel j f).2 = (r.expel j f).2.enter i := by
  have hslotOf : (r.enter i).slotOf? j = r.slotOf? j := by
    rw [slotOf?, enter, List.lookup_append, slotOf?]
    simp [List.lookup_cons, beq_eq_false_iff_ne.2 hne.symm]
  unfold expel
  rw [hslotOf]
  cases hslot : r.slotOf? j with
  | none => rfl
  | some slot =>
    have hlt := hr.slot_lt (mem_entries_of_slotOf? hslot)
    refine eq_of_parts rfl ?_ fun k => ?_
    · simp [updateSlot, remove, enter, hne]
    · -- The slot of the other call was there before this one was entered.
      simp only [updateSlot, remove, enter, List.getElem?_modify]
      rcases Nat.lt_or_ge k r.slots.length with hk | hk
      · rw [List.getElem?_append_left hk, List.getElem?_append_left (by simpa using hk),
          List.getElem?_modify]
      · have hslot : slot ≠ k := by omega
        rw [List.getElem?_append_right hk, List.getElem?_append_right (by simpa using hk)]
        simp [hslot]

/-- A resolution or a cancellation removes its call. -/
theorem exists_expel (hcall : op.call? = some id) (hop : op ≠ .register id) :
    ∃ (f : Slot → Slot) (answer : Bool → Answer),
      ∀ r : Registry, r.perform op = (answer (r.expel id f).1, (r.expel id f).2) := by
  cases op with
  | register _ =>
    obtain rfl := Option.some.inj hcall
    exact absurd rfl hop
  | resolve _ reply =>
    obtain rfl := Option.some.inj hcall
    exact ⟨Slot.deliver (.reply reply), .resolved, fun _ => rfl⟩
  | cancel _ =>
    obtain rfl := Option.some.inj hcall
    exact ⟨Slot.close, .cancelled, fun _ => rfl⟩
  | drain | poll | release => simp [Op.call?] at hcall

/-- A resolution or a cancellation may change places with a registration of another call. -/
theorem swaps_register_expel (hr : r.Linked) (hi : r.refusal? i = none) (hne : i ≠ j)
    (hcall : op.call? = some j) (hop : op ≠ .register j) :
    Swaps r (.register i) op (Equiv.refl Nat) := by
  have hi' := (refusal?_perform (r := r) hcall hne).trans hi
  have hj : j ∈ (r.perform (.register i)).2.ids ↔ j ∈ r.ids := mem_ids_perform rfl hne.symm
  obtain ⟨f, answer, hperform⟩ := exists_expel hcall hop
  rw [hperform] at hi'
  rw [perform_of_not_refused hi] at hj
  refine .of_eq ?_ ?_ ?_
  · rw [hperform, perform_of_not_refused hi', perform_of_not_refused hi, length_slots_expel]
  · rw [perform_of_not_refused hi, hperform, hperform, expel_found, expel_found]
    simp only [hj]
  · rw [perform_of_not_refused hi, hperform, hperform, perform_of_not_refused hi']
    exact expel_enter hr hne f

/-- Resolutions and cancellations of two calls may change places. -/
theorem swaps_expel (hr : r.Linked) (hne : i ≠ j) (hx : x.call? = some i) (hy : y.call? = some j)
    (hx' : x ≠ .register i) (hy' : y ≠ .register j) : Swaps r x y (Equiv.refl Nat) := by
  have hi := mem_ids_perform (r := r) hy hne
  have hj := mem_ids_perform (r := r) hx hne.symm
  obtain ⟨f, answer, hperform⟩ := exists_expel hx hx'
  obtain ⟨g, answer', hperform'⟩ := exists_expel hy hy'
  rw [hperform'] at hi
  rw [hperform] at hj
  refine .of_eq ?_ ?_ ?_
  · simp only [hperform, hperform', expel_found, hi]
  · simp only [hperform, hperform', expel_found, hj]
  · rw [hperform, hperform', hperform', hperform]
    exact expel_comm hr hne f g

/-- What is done to two calls may change places. -/
theorem exists_swaps (hr : r.Linked) (hx : x.call? = some i) (hy : y.call? = some j) (hne : i ≠ j) :
    ∃ σ, Swaps r x y σ := by
  by_cases hregister : x = .register i
  · subst hregister
    cases hi : r.refusal? i with
    | some refusal => exact ⟨_, swaps_of_refusal hi hy hne⟩
    | none =>
      by_cases hregister' : y = .register j
      · subst hregister'
        cases hj : r.refusal? j with
        | some refusal => exact ⟨_, (swaps_of_refusal hj hx hne.symm).symm⟩
        | none => exact ⟨_, swaps_register hr hi hj hne⟩
      · exact ⟨_, swaps_register_expel hr hi hne hy hregister'⟩
  · by_cases hregister' : y = .register j
    · subst hregister'
      cases hj : r.refusal? j with
      | some refusal => exact ⟨_, (swaps_of_refusal hj hx hne.symm).symm⟩
      | none => exact ⟨_, (swaps_register_expel hr hj hne.symm hx hregister).symm⟩
    · exact ⟨_, swaps_expel hr hne hx hy hregister hregister'⟩

/-! ## Batches -/

/-- A reply reaches the registry. -/
def settle (r : Registry) (e : Nat × Reply) : Registry := (r.resolve e.1 e.2).2

/-- The replies of a batch to different calls may reach the registry in any order. -/
theorem foldl_settle_perm {xs ys : List (Nat × Reply)} (hperm : xs.Perm ys) (hr : r.Linked)
    (hnodup : (xs.map Prod.fst).Nodup) : xs.foldl settle r = ys.foldl settle r := by
  induction hperm generalizing r with
  | nil => rfl
  | cons e _ ih => exact ih (hr.perform (.resolve e.1 e.2)) (List.nodup_cons.1 hnodup).2
  | swap e e' es =>
    have hne : e'.1 ≠ e.1 := fun heq => by simp [heq] at hnodup
    have hcomm : settle (settle r e') e = settle (settle r e) e' := expel_comm hr hne _ _
    rw [List.foldl_cons, List.foldl_cons, List.foldl_cons, List.foldl_cons, hcomm]
  | trans hxs _ ih ih' =>
    exact (ih hr hnodup).trans (ih' hr ((hxs.map Prod.fst).nodup_iff.1 hnodup))

/-- A client that lets some replies through settles them one after another. -/
theorem exists_order {places : List Nat} {s t : Session}
    (hrun : places.foldlM Session.resolve? s = some t) :
    ∃ order : List (Nat × Reply),
      (order ++ t.inFlight).Perm s.inFlight ∧ t.registry = order.foldl settle s.registry := by
  induction places generalizing s with
  | nil =>
    obtain rfl := Option.some.inj hrun
    exact ⟨[], .refl _, rfl⟩
  | cons place places ih =>
    rw [List.foldlM_cons] at hrun
    obtain ⟨next, hnext, hrun⟩ := Option.bind_eq_some_iff.1 hrun
    obtain ⟨id, reply, hplace, rfl⟩ := Session.resolve?_eq_some hnext
    obtain ⟨order, hperm, hregistry⟩ := ih hrun
    obtain ⟨hlt, hget⟩ := List.getElem?_eq_some_iff.1 hplace
    refine ⟨(id, reply) :: order, ?_, hregistry⟩
    exact (hperm.cons (id, reply)).trans (hget ▸ List.getElem_cons_eraseIdx_perm hlt)

/-- What is done to different calls does not depend on the order. -/
structure OrderFree (r : Registry) : Prop where
  /-- Two operations on different calls may change places. -/
  swaps {x y : Op} {i j : Nat} : x.call? = some i → y.call? = some j → i ≠ j → ∃ σ, Swaps r x y σ
  /-- The same calls are outstanding after both. -/
  outstanding {x y : Op} {i j : Nat} : x.call? = some i → y.call? = some j → i ≠ j →
    ((r.perform x).2.perform y).2.ids.Perm ((r.perform y).2.perform x).2.ids
  /-- A batch of replies to different calls ends with the same settlement in every slot in whatever
  order they come. -/
  batch {xs ys : List (Nat × Reply)} : (xs.map Prod.fst).Nodup → xs.Perm ys →
    xs.foldl settle r = ys.foldl settle r
  /-- A client that has let all the replies through that were on their way to different calls has the
  same registry in whatever order it did. -/
  reader {s t : Session} {places : List Nat} : s.registry = r → (s.inFlight.map Prod.fst).Nodup →
    places.foldlM Session.resolve? s = some t → t.inFlight = [] →
    t.registry = s.inFlight.foldl settle r

/-- Whatever was done to a registry, what is done to different calls does not depend on the order. -/
theorem orderFree_of_history (hist : History h r) : OrderFree r where
  swaps hx hy hne := exists_swaps hist.linked hx hy hne
  outstanding hx hy hne :=
    have ⟨_, hs⟩ := exists_swaps hist.linked hx hy hne
    hs.after.ids.symm
  batch hnodup hperm := foldl_settle_perm hperm hist.linked hnodup
  reader {s t places} hregistry hnodup hrun hdone := by
    obtain ⟨order, hperm, ht⟩ := exists_order hrun
    rw [hdone, List.append_nil] at hperm
    rw [ht, hregistry]
    exact foldl_settle_perm hperm hist.linked ((hperm.map Prod.fst).nodup_iff.2 hnodup)

/-- Of two calls that are outstanding one was given up. Two more registrations give each other's
numbers to their slots, and a client may let the replies to both through in either order. -/
theorem orderFree_of_history_given_up :
    ∃ h r, History h r ∧ OrderFree r ∧ r.ids = [1, 2] ∧ r.look 1 = .missing ∧
      (r.perform (.register 3)).1 = .made 2 ∧
      ((r.perform (.register 4)).2.perform (.register 3)).1 = .made 3 ∧
      ∃ s t : Session, s.registry = r ∧ [1, 0].foldlM Session.resolve? s = some t ∧
        t.inFlight = [] ∧ t.registry.look 0 = .settled (.reply ⟨.number 1, .ok .null⟩) :=
  have hist := History.new |>.step (.register 1) |>.step (.register 2) |>.step (.release 1)
  ⟨_, _, hist, orderFree_of_history hist, rfl, rfl, rfl, rfl,
    { window := 5
      registry := _
      inFlight := [(1, ⟨.number 1, .ok .null⟩), (2, ⟨.number 2, .ok .null⟩)] },
    _, rfl, rfl, rfl, rfl⟩

end PipeCall.Registry
