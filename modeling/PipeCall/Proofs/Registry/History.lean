import Mathlib.Data.List.Induction
import Mathlib.Data.List.Nodup
import PipeCall.Proofs.Registry.Operations

/-!
# What has been done to a registry

A `History` is every operation that was performed on a registry since it was new, each with its
answer. Anything may be done in any order, and a number may be registered again and again.

What one operation does is said once for all of them: `entries_perform` gives the entries after it,
`slotStep_perform` what becomes of a slot. With that every registry with a history is `Linked`: each
entry leads to a slot of its own. `Stands h id slot` says from the history alone that a registration
was made and nothing has ended it, and `History.mem_entries_iff` that the entries are the
registrations that stand.
-/

namespace PipeCall

/-- A slot whose registration is ended takes the settlement that comes with it, or none can come. -/
def Slot.lose : Option Settlement → Slot → Slot
  | some s => deliver s
  | none => close

/-- A slot whose registration was ended does not wait. -/
theorem Slot.lose_ne_waiting (settlement? : Option Settlement) (slot : Slot) :
    slot.lose settlement? ≠ .waiting := by
  cases settlement? <;> cases slot <;> simp [lose, deliver, close]

namespace Registry

/-! ## Operations -/

/-- What can be done to a registry, by those who make and settle calls and by the owners of slots. -/
inductive Op where
  | register (id : Nat)
  | resolve (id : Nat) (reply : Reply)
  | cancel (id : Nat)
  | drain
  | poll (slot : Nat)
  /-- The owner of a slot gives it up. -/
  | release (slot : Nat)

namespace Op

/-- Whether it ends the registration of a call, if there is one. -/
def ends (id : Nat) : Op → Bool
  | .resolve i _ | .cancel i => id == i
  | .drain => true
  | _ => false

/-- What it brings the slots whose registrations it ends. -/
def settlement? : Op → Option Settlement
  | .resolve _ reply => some (.reply reply)
  | .drain => some .shutDown
  | _ => none

/-- Whether it is something that the owner of a slot does with it. -/
def handles (slot : Nat) : Op → Bool
  | .poll k | .release k => k == slot
  | _ => false

end Op

/-- What an operation answers. -/
inductive Answer where
  /-- A registration was made, with this slot. -/
  | made (slot : Nat)
  | refused (refusal : Refusal)
  | resolved (found : Bool)
  | cancelled (found : Bool)
  | drained (released : Nat)
  | looked (look : Look)
  | released

/-- What an operation answers, and the registry after it. -/
def perform (r : Registry) : Op → Answer × Registry
  | .register id =>
    match r.register id with
    | .ok (slot, next) => (.made slot, next)
    | .error refusal => (.refused refusal, r)
  | .resolve id reply => (.resolved (r.resolve id reply).1, (r.resolve id reply).2)
  | .cancel id => (.cancelled (r.cancel id).1, (r.cancel id).2)
  | .drain => (.drained r.drain.1, r.drain.2)
  | .poll slot => (.looked (r.poll slot).1, (r.poll slot).2)
  | .release slot => (.released, r.release slot)

/-- An operation that was performed, with its answer. -/
structure Step where
  op : Op
  answer : Answer

/-- The entry that a step has added, if it was a registration and was not refused. -/
def Step.added? : Step → Option (Nat × Nat)
  | ⟨.register id, .made slot⟩ => some (id, slot)
  | _ => none

/-- A step has added an entry exactly if it was a registration that made a slot. -/
theorem Step.added?_eq_some_iff {step : Step} {id slot : Nat} :
    step.added? = some (id, slot) ↔ step = ⟨.register id, .made slot⟩ := by
  obtain ⟨op, answer⟩ := step
  unfold added?
  constructor
  · intro h
    split at h
    · rename_i heq
      obtain ⟨rfl, rfl⟩ := Prod.mk.inj (Option.some.inj h)
      exact heq
    · simp at h
  · rintro ⟨⟩
    rfl

/-! ## What one operation does -/

variable {r : Registry} {op : Op} {id slot k : Nat}

/-- A registration that is refused changes nothing. -/
theorem perform_of_refusal {refusal : Refusal} (h : r.refusal? id = some refusal) :
    r.perform (.register id) = (.refused refusal, r) := by
  rw [perform, register_eq, h]

/-- A registration that is not refused makes the next slot. -/
theorem perform_of_not_refused (h : r.refusal? id = none) :
    r.perform (.register id) = (.made r.slots.length, r.enter id) := by
  rw [perform, register_eq, h]

/-- Only a registration that is not refused makes a slot, and that is the next one. -/
theorem perform_made (h : (r.perform op).1 = .made slot) :
    slot = r.slots.length ∧
      ∃ id, op = .register id ∧ r.refusal? id = none ∧ (r.perform op).2 = r.enter id := by
  cases op with
  | register id =>
    cases hrefusal : r.refusal? id with
    | some refusal => simp [perform_of_refusal hrefusal] at h
    | none =>
      rw [perform_of_not_refused hrefusal] at h ⊢
      exact ⟨(Answer.made.inj h).symm, id, rfl, hrefusal, rfl⟩
  | _ => simp [perform] at h

/-- An operation removes the entries of the calls that it ends, and a registration that is made adds
its own. -/
theorem entries_perform (r : Registry) (op : Op) :
    (r.perform op).2.entries =
      r.entries.filter (fun e => !op.ends e.1) ++
        (Step.mk op (r.perform op).1).added?.toList := by
  cases op with
  | register id =>
    have hall : r.entries.filter (fun e => !(Op.register id).ends e.1) = r.entries :=
      List.filter_eq_self.2 fun _ _ => rfl
    cases hrefusal : r.refusal? id with
    | some refusal => simp [perform_of_refusal hrefusal, Step.added?, hall]
    | none => simp [perform_of_not_refused hrefusal, Step.added?, hall, enter]
  | resolve id | cancel id =>
    simp only [perform, entries_resolve, entries_cancel, remove, Step.added?, Option.toList_none,
      List.append_nil]
    refine List.filter_congr fun e _ => ?_
    rw [Op.ends, decide_not]
    rfl
  | drain => simp [perform, Step.added?, Op.ends]
  | poll slot => exact (List.append_nil _).trans (List.filter_eq_self.2 fun _ _ => rfl) |>.symm
  | release slot => exact (List.append_nil _).trans (List.filter_eq_self.2 fun _ _ => rfl) |>.symm

/-- An entry is there after an operation if it was there and its call was not ended, or it is added.
-/
theorem mem_entries_perform :
    (id, slot) ∈ (r.perform op).2.entries ↔
      (id, slot) ∈ r.entries ∧ op.ends id = false ∨
        Step.mk op (r.perform op).1 = ⟨.register id, .made slot⟩ := by
  rw [entries_perform, List.mem_append, List.mem_filter, Option.mem_toList,
    Step.added?_eq_some_iff, Bool.not_eq_true']

/-- Only a drain closes a registry, and nothing opens it again. -/
theorem closed_perform : (r.perform op).2.closed = true ↔ r.closed = true ∨ op = .drain := by
  cases op with
  | register id =>
    cases hrefusal : r.refusal? id with
    | some refusal => simp [perform_of_refusal hrefusal]
    | none => simp [perform_of_not_refused hrefusal, enter]
  | drain => simp [perform]
  | _ => simp [perform, poll, updateSlot]

/-- An operation makes one slot at most, the next one, and none is ever lost. -/
theorem lt_length_slots_perform :
    slot < (r.perform op).2.slots.length ↔
      slot < r.slots.length ∨ (r.perform op).1 = .made slot := by
  cases op with
  | register id =>
    cases hrefusal : r.refusal? id with
    | some refusal => simp [perform_of_refusal hrefusal]
    | none =>
      simp only [perform_of_not_refused hrefusal, enter, List.length_append, List.length_singleton,
        Answer.made.injEq]
      omega
  | _ => simp [perform, poll, updateSlot]

/-! ## Entries and slots belong together -/

/-- Every entry leads to a slot of its own that no settlement has come to, and every slot that waits
has an entry. -/
structure Linked (r : Registry) : Prop where
  /-- No call has two entries. -/
  nodup_ids : r.ids.Nodup
  /-- No two entries lead to one slot. -/
  nodup_slots : (r.entries.map Prod.snd).Nodup
  /-- A slot with an entry waits, or its owner has given it up. -/
  waits {id slot : Nat} : (id, slot) ∈ r.entries →
    r.slots[slot]? = some .waiting ∨ r.slots[slot]? = some .dropped
  entered {slot : Nat} : r.slots[slot]? = some .waiting → ∃ id, (id, slot) ∈ r.entries
  closed : r.closed = true → r.entries = []

/-- What an operation does to a slot. -/
inductive SlotStep (r : Registry) (op : Op) (k : Nat) : Option Slot → Option Slot → Prop where
  /-- It is not about this slot. -/
  | kept {slot? : Option Slot} (unended : ∀ id, (id, k) ∈ r.entries → op.ends id = false)
      (unhandled : op.handles k = false) : SlotStep r op k slot? slot?
  | made (made : (r.perform op).1 = .made k) : SlotStep r op k none (some .waiting)
  /-- It ends the slot's registration. -/
  | ended {id : Nat} {slot : Slot} (entry : (id, k) ∈ r.entries) (ends : op.ends id = true) :
      SlotStep r op k (some slot) (some (slot.lose op.settlement?))
  | polled {slot? : Option Slot} (polls : op = .poll k) : SlotStep r op k slot? (slot?.map Slot.take)
  | released {slot? : Option Slot} (releases : op = .release k) :
      SlotStep r op k slot? (slot?.map fun _ => .dropped)

namespace Linked

/-- A slot with an entry was made. -/
theorem slot_lt (hr : r.Linked) (h : (id, slot) ∈ r.entries) : slot < r.slots.length := by
  rcases hr.waits h with hw | hd
  · exact (List.getElem?_eq_some_iff.1 hw).1
  · exact (List.getElem?_eq_some_iff.1 hd).1

/-- A slot has one entry at most. -/
theorem eq_of_mem (hr : r.Linked) {id' : Nat} (h : (id, slot) ∈ r.entries)
    (h' : (id', slot) ∈ r.entries) : id = id' :=
  (Prod.mk.inj (List.inj_on_of_nodup_map hr.nodup_slots h h' rfl)).1

end Linked

/-- A registration makes the next slot and touches no other. -/
theorem slotStep_register (r : Registry) (id k : Nat) :
    SlotStep r (.register id) k r.slots[k]? (r.perform (.register id)).2.slots[k]? := by
  cases hrefusal : r.refusal? id with
  | some refusal =>
    rw [perform_of_refusal hrefusal]
    exact .kept (fun _ _ => rfl) rfl
  | none =>
    have hperform := perform_of_not_refused hrefusal
    rcases Nat.lt_trichotomy k r.slots.length with hlt | rfl | hgt
    · -- The slot was there before.
      rw [hperform, enter, List.getElem?_append_left hlt]
      exact .kept (fun _ _ => rfl) rfl
    · have hanswer : (r.perform (.register id)).1 = .made r.slots.length := by rw [hperform]
      rw [hperform, enter, List.getElem?_concat_length, List.getElem?_eq_none_iff.2 (Nat.le_refl _)]
      exact .made hanswer
    · -- The slot is not made yet.
      have hnone : (r.slots ++ [Slot.waiting])[k]? = none :=
        List.getElem?_eq_none_iff.2 (by rw [List.length_append, List.length_singleton]; omega)
      rw [hperform, enter, hnone, List.getElem?_eq_none_iff.2 (Nat.le_of_lt hgt)]
      exact .kept (fun _ _ => rfl) rfl

/-- An operation that removes a call ends the registration that made its slot, and touches no other
slot. -/
theorem slotStep_expel (hr : r.Linked) (hends : ∀ i, op.ends i = (i == id))
    (unhandled : op.handles k = false)
    (hperform : (r.perform op).2 = (r.expel id (Slot.lose op.settlement?)).2) :
    SlotStep r op k r.slots[k]? (r.perform op).2.slots[k]? := by
  rw [hperform, getElem?_slots_expel hr.nodup_ids]
  split
  · rename_i hmem
    rw [List.getElem?_eq_getElem (hr.slot_lt hmem)]
    exact .ended hmem (by simp [hends])
  · rename_i hmem
    refine .kept (fun id' hid' => ?_) unhandled
    rw [hends, beq_eq_false_iff_ne]
    rintro rfl
    exact hmem hid'

/-- What an operation does to a slot. -/
theorem slotStep_perform (hr : r.Linked) (op : Op) (k : Nat) :
    SlotStep r op k r.slots[k]? (r.perform op).2.slots[k]? := by
  cases op with
  | register id => exact slotStep_register r id k
  | resolve | cancel => exact slotStep_expel hr (fun _ => rfl) rfl rfl
  | drain =>
    rw [perform, getElem?_slots_drain]
    split
    · rename_i hmem
      obtain ⟨⟨id, _⟩, hentry, rfl⟩ := List.mem_map.1 hmem
      rw [List.getElem?_eq_getElem (hr.slot_lt hentry)]
      exact .ended hentry rfl
    · rename_i hmem
      exact .kept (fun id hid => absurd (List.mem_map.2 ⟨(id, k), hid, rfl⟩) hmem) rfl
  | poll slot =>
    by_cases hk : slot = k
    · have hnext : (r.perform (.poll slot)).2.slots[k]? = r.slots[k]?.map Slot.take := by
        simp [perform, poll, updateSlot, hk]
      rw [hnext]
      exact .polled (by rw [hk])
    · have hnext : (r.perform (.poll slot)).2.slots[k]? = r.slots[k]? := by
        simp [perform, poll, updateSlot, hk]
      rw [hnext]
      exact .kept (fun _ _ => rfl) (beq_eq_false_iff_ne.2 hk)
  | release slot =>
    rw [perform, getElem?_slots_release]
    split
    · rename_i hk
      exact .released (by rw [hk])
    · rename_i hk
      exact .kept (fun _ _ => rfl) (beq_eq_false_iff_ne.2 hk)

/-- A slot that waits after an operation is made by it, or has waited and kept its registration. -/
theorem SlotStep.of_waiting {slot? : Option Slot} (h : SlotStep r op k slot? (some .waiting)) :
    (r.perform op).1 = .made k ∨
      slot? = some .waiting ∧ ∀ id, (id, k) ∈ r.entries → op.ends id = false := by
  generalize hnext : some Slot.waiting = next at h
  cases h with
  | kept unended => exact Or.inr ⟨rfl, unended⟩
  | made made => exact Or.inl made
  | ended => exact absurd (Option.some.inj hnext).symm (Slot.lose_ne_waiting _ _)
  | polled polls =>
    obtain ⟨slot, rfl, hslot⟩ := Option.map_eq_some_iff.1 hnext.symm
    refine Or.inr ⟨?_, fun _ _ => by rw [polls]; rfl⟩
    cases slot with
    | waiting => rfl
    | settled | closed | dropped => simp [Slot.take] at hslot
  | released =>
    obtain ⟨_, -, hslot⟩ := Option.map_eq_some_iff.1 hnext.symm
    simp at hslot

/-- A slot whose registration is kept waits after an operation if it has waited, and is dropped if
it was. -/
theorem SlotStep.keeps {slot? next? : Option Slot} (h : SlotStep r op k slot? next?)
    (unended : ∀ id, (id, k) ∈ r.entries → op.ends id = false)
    (hw : slot? = some .waiting ∨ slot? = some .dropped) :
    next? = some .waiting ∨ next? = some .dropped := by
  cases h with
  | kept => exact hw
  | made => simp at hw
  | ended entry ends =>
    rw [unended _ entry] at ends
    simp at ends
  | polled => rcases hw with rfl | rfl <;> simp [Slot.take]
  | released => rcases hw with rfl | rfl <;> simp

namespace Linked

/-- A registration that is made leads to a slot of its own. -/
theorem enter (hr : r.Linked) (h : r.refusal? id = none) : (r.enter id).Linked where
  nodup_ids := by
    have hfresh : id ∉ r.ids := (refusal?_eq_none_iff.1 h).2
    rw [ids, Registry.enter, List.map_append]
    exact List.Nodup.append hr.nodup_ids (List.nodup_singleton _) (List.disjoint_singleton.2 hfresh)
  nodup_slots := by
    rw [Registry.enter, List.map_append]
    refine List.Nodup.append hr.nodup_slots (List.nodup_singleton _) (List.disjoint_singleton.2 ?_)
    intro hmem
    obtain ⟨⟨id', _⟩, hentry, rfl⟩ := List.mem_map.1 hmem
    exact Nat.lt_irrefl _ (hr.slot_lt hentry)
  waits {id' slot} hmem := by
    rcases List.mem_append.1 hmem with hmem | hmem
    · rw [Registry.enter, List.getElem?_append_left (hr.slot_lt hmem)]
      exact hr.waits hmem
    · obtain ⟨-, rfl⟩ := Prod.mk.inj (List.mem_singleton.1 hmem)
      exact Or.inl List.getElem?_concat_length
  entered {slot} hw := by
    rcases Nat.lt_trichotomy slot r.slots.length with hlt | rfl | hgt
    · rw [Registry.enter, List.getElem?_append_left hlt] at hw
      obtain ⟨id', hmem⟩ := hr.entered hw
      exact ⟨id', List.mem_append_left _ hmem⟩
    · exact ⟨id, List.mem_append_right _ (List.mem_singleton.2 rfl)⟩
    · have hlt := (List.getElem?_eq_some_iff.1 hw).1
      rw [Registry.enter, List.length_append, List.length_singleton] at hlt
      omega
  closed hclosed := by
    have hopen : (r.enter id).closed = false := (refusal?_eq_none_iff.1 h).1
    rw [hclosed] at hopen
    simp at hopen

/-- An operation that makes no slot leaves the entries of the calls that it does not end, and what
leads to them. -/
theorem keep (hr : r.Linked) (hnone : (Step.mk op (r.perform op).1).added? = none) :
    (r.perform op).2.Linked := by
  have hentries : (r.perform op).2.entries = r.entries.filter fun e => !op.ends e.1 := by
    rw [entries_perform, hnone, Option.toList_none, List.append_nil]
  have hmem : ∀ {id slot}, (id, slot) ∈ (r.perform op).2.entries ↔
      (id, slot) ∈ r.entries ∧ op.ends id = false := by
    simp [hentries]
  exact {
    nodup_ids := by
      rw [ids, hentries]
      exact hr.nodup_ids.sublist (List.filter_sublist.map _)
    nodup_slots := by
      rw [hentries]
      exact hr.nodup_slots.sublist (List.filter_sublist.map _)
    waits := fun {id slot} hnext => by
      obtain ⟨hbefore, hunended⟩ := hmem.1 hnext
      refine (slotStep_perform hr op slot).keeps (fun id' hentry => ?_) (hr.waits hbefore)
      rw [hr.eq_of_mem hentry hbefore]
      exact hunended
    entered := fun {slot} hw => by
      have hslot := slotStep_perform hr op slot
      rw [hw] at hslot
      rcases hslot.of_waiting with hmade | ⟨hbefore, unended⟩
      · obtain ⟨-, id, rfl, -⟩ := perform_made hmade
        rw [hmade] at hnone
        simp [Step.added?] at hnone
      · obtain ⟨id, hentry⟩ := hr.entered hbefore
        exact ⟨id, hmem.2 ⟨hentry, unended id hentry⟩⟩
    closed := fun hclosed => by
      rw [hentries]
      rcases closed_perform.1 hclosed with hclosed | rfl
      · rw [hr.closed hclosed, List.filter_nil]
      · exact List.filter_eq_nil_iff.2 fun _ _ => by rw [Op.ends]; simp }

/-- Every operation keeps entries and slots together. -/
theorem perform (hr : r.Linked) (op : Op) : (r.perform op).2.Linked := by
  cases hentry : (Step.mk op (r.perform op).1).added? with
  | none => exact hr.keep hentry
  | some e =>
    have hstep := Step.added?_eq_some_iff.1 hentry
    obtain ⟨-, id, -, hrefusal, hnext⟩ := perform_made (congrArg Step.answer hstep)
    rw [hnext]
    exact hr.enter hrefusal

end Linked

/-! ## Histories -/

/-- All that was done to a registry since it was new, in order, and what it is now. -/
inductive History : List Step → Registry → Prop where
  | new : History [] {}
  | step {h : List Step} {r : Registry} (hist : History h r) (op : Op) :
      History (h ++ [⟨op, (r.perform op).1⟩]) (r.perform op).2

/-- A registration was made for the call, with this slot, and nothing has ended it since. -/
def Stands (h : List Step) (id slot : Nat) : Prop :=
  ∃ before after, h = before ++ ⟨.register id, .made slot⟩ :: after ∧
    ∀ step ∈ after, step.op.ends id = false

/-- The registry was drained. -/
def Drained (h : List Step) : Prop := ∃ step ∈ h, step.op = .drain

/-- A slot was made. -/
def Made (h : List Step) (slot : Nat) : Prop := ∃ id, ⟨.register id, .made slot⟩ ∈ h

variable {h : List Step} {step : Step}

/-- A list with a new last element is split at an element before that one, or at it. -/
theorem concat_eq_append_cons {x : Step} {before after : List Step}
    (heq : h ++ [step] = before ++ x :: after) :
    (x = step ∧ before = h ∧ after = []) ∨
      ∃ init, after = init ++ [step] ∧ h = before ++ x :: init := by
  rcases List.eq_nil_or_concat after with rfl | ⟨init, last, rfl⟩
  · obtain ⟨rfl, hlast⟩ := List.append_inj' heq rfl
    exact Or.inl ⟨(List.singleton_inj.1 hlast).symm, rfl, rfl⟩
  · rw [List.concat_eq_append, ← List.cons_append, ← List.append_assoc] at heq
    obtain ⟨rfl, hlast⟩ := List.append_inj' heq rfl
    obtain rfl := List.singleton_inj.1 hlast
    exact Or.inr ⟨init, List.concat_eq_append, rfl⟩

/-- A registration stands after one more step if the step has made it, or it stood and was not ended.
-/
theorem stands_concat :
    Stands (h ++ [step]) id slot ↔
      Stands h id slot ∧ step.op.ends id = false ∨ step = ⟨.register id, .made slot⟩ := by
  constructor
  · rintro ⟨before, after, heq, hafter⟩
    rcases concat_eq_append_cons heq with ⟨hstep, -, -⟩ | ⟨init, rfl, hh⟩
    · exact Or.inr hstep.symm
    · exact Or.inl ⟨⟨before, init, hh, fun s hs => hafter s (by simp [hs])⟩, hafter step (by simp)⟩
  · rintro (⟨⟨before, after, rfl, hafter⟩, hstep⟩ | rfl)
    · refine ⟨before, after ++ [step], by simp, fun s hs => ?_⟩
      rcases List.mem_append.1 hs with hs | hs
      · exact hafter s hs
      · obtain rfl := List.mem_singleton.1 hs
        exact hstep
    · exact ⟨h, [], rfl, by simp⟩

namespace History

/-- Entries and slots belong together at every moment. -/
theorem linked (hist : History h r) : r.Linked := by
  induction hist with
  | new => exact ⟨List.nodup_nil, List.nodup_nil, by simp, by simp, by simp⟩
  | step hist op ih => exact ih.perform op

/-- The entries of a registry are the registrations that stand. -/
theorem mem_entries_iff (hist : History h r) : (id, slot) ∈ r.entries ↔ Stands h id slot := by
  induction hist with
  | new => simp [Stands]
  | step hist op ih => rw [mem_entries_perform, stands_concat, ih]

/-- A registry is closed exactly if it was drained. -/
theorem closed_iff (hist : History h r) : r.closed = true ↔ Drained h := by
  induction hist with
  | new => simp [Drained]
  | step hist op ih =>
    rw [closed_perform, ih]
    simp [Drained, or_and_right, exists_or]

/-- The slots that were made are those that the registry has. -/
theorem made_iff (hist : History h r) : Made h slot ↔ slot < r.slots.length := by
  induction hist with
  | new => simp [Made]
  | @step h r hist op ih =>
    have hconcat : Made (h ++ [⟨op, (r.perform op).1⟩]) slot ↔
        Made h slot ∨ (r.perform op).1 = .made slot := by
      simp only [Made, List.mem_append, exists_or, List.mem_singleton, Step.mk.injEq]
      refine or_congr_right ⟨fun ⟨_, _, hmade⟩ => hmade.symm, fun hmade => ?_⟩
      obtain ⟨-, id, rfl, -⟩ := perform_made hmade
      exact ⟨id, rfl, hmade.symm⟩
    rw [hconcat, ih, lt_length_slots_perform]

end History

end Registry

end PipeCall
