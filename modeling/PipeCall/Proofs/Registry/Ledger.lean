import PipeCall.Proofs.Registry.Fate

/-!
# The books of a registry

A call is outstanding while a registration of it stands, and whether an operation succeeds depends on
nothing else but this and whether the registry was drained. Every registration that is made is
answered for once: it is resolved, cancelled, among those that a drain counts, or outstanding still.
One operation keeps that balance (`size_perform`), so a history does, and `ledger_of_history` has all
of it together.
-/

namespace PipeCall.Registry

/-- A registration of the call was made and nothing has ended it since. -/
def Outstanding (h : List Step) (id : Nat) : Prop := ∃ slot, Stands h id slot

namespace Answer

/-- How many registrations it tells of. -/
@[simp] def madeCount : Answer → Nat
  | .made _ => 1
  | _ => 0

/-- How many resolutions it tells of that found their call. -/
@[simp] def resolvedCount : Answer → Nat
  | .resolved found => if found then 1 else 0
  | _ => 0

/-- How many cancellations it tells of that found their call. -/
@[simp] def cancelledCount : Answer → Nat
  | .cancelled found => if found then 1 else 0
  | _ => 0

/-- How many calls a drain tells of. -/
@[simp] def drainedCount : Answer → Nat
  | .drained count => count
  | _ => 0

end Answer

/-- The sum of what the steps of a history count. -/
def total (count : Answer → Nat) (h : List Step) : Nat :=
  h.foldl (fun sum step => sum + count step.answer) 0

variable {r : Registry} {op : Op} {id slot k : Nat} {h : List Step} {step : Step}

@[simp] theorem total_concat (count : Answer → Nat) :
    total count (h ++ [step]) = total count h + count step.answer := by
  simp [total]

/-! ## One operation -/

/-- If no call has two entries, removing a call takes out its entry and keeps the others. -/
theorem perm_remove (hnodup : r.ids.Nodup) (hmem : (id, slot) ∈ r.entries) :
    r.entries.Perm ((id, slot) :: (r.remove id).entries) := by
  obtain ⟨front, behind, heq⟩ := List.append_of_mem hmem
  have hothers : ∀ e ∈ front ++ behind, e.1 ≠ id := by
    rw [ids, heq, List.map_append, List.map_cons] at hnodup
    obtain ⟨hnot, -⟩ := List.nodup_cons.1 (List.nodup_middle.1 hnodup)
    intro e he hid
    have hmem := List.mem_map_of_mem (f := Prod.fst) he
    rw [List.map_append, hid] at hmem
    exact hnot hmem
  have hkept : (r.remove id).entries = front ++ behind := by
    have hfilter : (front ++ behind).filter (fun e => e.1 ≠ id) = front ++ behind :=
      List.filter_eq_self.2 fun e he => decide_eq_true (hothers e he)
    rw [remove, heq, List.filter_append, List.filter_cons_of_neg (by simp), ← List.filter_append]
    exact hfilter
  rw [hkept, heq]
  exact List.perm_middle

/-- Removing a call that is outstanding leaves one entry less. -/
theorem size_remove (hnodup : r.ids.Nodup) (hmem : id ∈ r.ids) :
    (r.remove id).size + 1 = r.size := by
  obtain ⟨⟨_, slot⟩, hentry, rfl⟩ := List.mem_map.1 hmem
  exact (perm_remove hnodup hentry).length_eq.symm

/-- An operation that only takes entries out leaves no call with two. -/
theorem nodup_ids_of_sublist {r' : Registry} (hnodup : r.ids.Nodup)
    (hsub : r'.entries.Sublist r.entries) : r'.ids.Nodup :=
  hnodup.sublist (hsub.map Prod.fst)

/-- A registration gives no call a second entry. -/
theorem nodup_ids_of_register {r' : Registry} (hnodup : r.ids.Nodup)
    (h : r.register id = .ok (slot, r')) : r'.ids.Nodup := by
  rw [register_eq] at h
  cases hrefusal : r.refusal? id with
  | some refusal => simp [hrefusal] at h
  | none =>
    obtain ⟨-, hnew⟩ := refusal?_eq_none_iff.1 hrefusal
    rw [hrefusal] at h
    obtain ⟨-, rfl⟩ := Prod.mk.inj (Except.ok.inj h)
    have hids : (r.enter id).ids = r.ids.concat id := by simp [ids, enter]
    rw [hids]
    exact hnodup.concat hnew

/-- Removing a call leaves one entry less exactly if it tells that there was one. -/
theorem size_expel (hr : r.Linked) (f : Slot → Slot) :
    (r.expel id f).2.size + (if (r.expel id f).1 then 1 else 0) = r.size := by
  have hsize : (r.expel id f).2.size = (r.remove id).size := by rw [size, size, entries_expel]
  rw [hsize, expel_found]
  by_cases hmem : id ∈ r.ids
  · rw [if_pos (decide_eq_true hmem), size_remove hr.nodup_ids hmem]
  · rw [if_neg (by simpa using hmem), remove_of_not_mem hmem, Nat.add_zero]

/-- What is outstanding after an operation, and what it tells of as ended, was outstanding before or
is made by it. -/
theorem size_perform (hr : r.Linked) (op : Op) :
    (r.perform op).2.size + (r.perform op).1.resolvedCount + (r.perform op).1.cancelledCount +
      (r.perform op).1.drainedCount = r.size + (r.perform op).1.madeCount := by
  cases op with
  | register id =>
    cases hrefusal : r.refusal? id with
    | some refusal => simp [perform_of_refusal hrefusal]
    | none => simp [perform_of_not_refused hrefusal, size, enter]
  | resolve id reply =>
    simpa [perform, resolve_eq_expel] using size_expel hr (Slot.deliver (.reply reply))
  | cancel id => simpa [perform, cancel_eq_expel] using size_expel hr Slot.close
  | drain => simp [perform, size, drain]
  | poll slot => rfl
  | release slot => rfl

/-! ## Histories -/

namespace History

/-- The calls with an entry are those that are outstanding. -/
theorem mem_ids_iff (hist : History h r) : id ∈ r.ids ↔ Outstanding h id := by
  rw [ids, List.mem_map]
  constructor
  · rintro ⟨⟨_, slot⟩, hmem, rfl⟩
    exact ⟨slot, hist.mem_entries_iff.1 hmem⟩
  · rintro ⟨slot, hstands⟩
    exact ⟨(id, slot), hist.mem_entries_iff.2 hstands, rfl⟩

/-- A registry is open as long as it was not drained. -/
theorem open_iff (hist : History h r) : r.closed = false ↔ ¬Drained h := by
  rw [← hist.closed_iff, Bool.not_eq_true]

/-- Every registration that was made is answered for. -/
theorem balance (hist : History h r) :
    total Answer.madeCount h = total Answer.resolvedCount h + total Answer.cancelledCount h +
      total Answer.drainedCount h + r.size := by
  induction hist with
  | new => rfl
  | step hist op ih =>
    have hstep := size_perform hist.linked op
    simp only [total_concat]
    omega

/-- No registration stands in a registry that was drained. -/
theorem removed_of_drained (hist : History h r) (hd : Drained h) (hm : Made h k) :
    ∃ op, Removed h k op := by
  obtain ⟨id, hid⟩ := hm
  refine (hist.stands_or_removed hid).resolve_left fun hstands => ?_
  have hentry := hist.mem_entries_iff.2 hstands
  rw [hist.linked.closed (hist.closed_iff.2 hd)] at hentry
  simp at hentry

end History

/-- What an operation brings the slots whose registrations it ends is a settlement, or it is a
cancellation. -/
theorem Op.settles_or_cancels (hends : op.ends id = true) :
    (∃ s, op.settlement? = some s) ∨ op = .cancel id := by
  cases op with
  | resolve | drain => exact Or.inl ⟨_, rfl⟩
  | cancel i => exact Or.inr (by rw [beq_iff_eq.1 hends])
  | _ => simp [Op.ends] at hends

/-- What has ended a registration ends its call. -/
theorem Removed.ends (hr : Removed h k op) : ∃ id, op.ends id = true := by
  obtain ⟨-, -, -, -, -, id, -, hends⟩ := hr
  exact ⟨id, hends⟩

/-- The books of a registry with this history. -/
structure Ledger (h : List Step) (r : Registry) : Prop where
  /-- A registration is made exactly if the registry was not drained and the call is not outstanding.
  -/
  registers {id : Nat} :
    (∃ slot, (r.perform (.register id)).1 = .made slot) ↔ ¬Drained h ∧ ¬Outstanding h id
  /-- A drained registry refuses every call for that, outstanding or not, and stays as it is. -/
  refuses_drained {id : Nat} : Drained h → r.perform (.register id) = (.refused .closed, r)
  /-- Any other refuses a call that is outstanding, and stays as it is. -/
  refuses_outstanding {id : Nat} : ¬Drained h → Outstanding h id →
    r.perform (.register id) = (.refused (.duplicate id), r)
  /-- A resolution tells whether the call was outstanding. -/
  resolves {id : Nat} {reply : Reply} : (r.resolve id reply).1 = true ↔ Outstanding h id
  /-- A cancellation tells whether the call was outstanding. -/
  cancels {id : Nat} : (r.cancel id).1 = true ↔ Outstanding h id
  /-- Every registration that was made is answered for once. -/
  balance : total Answer.madeCount h = total Answer.resolvedCount h +
    total Answer.cancelledCount h + total Answer.drainedCount h + r.size
  /-- From the first drain on the registry is closed and empty. -/
  drained : Drained h → r.closed = true ∧ r.entries = []
  /-- In a drained registry every slot was settled or has lost its registration. -/
  released {k : Nat} : Drained h → Made h k →
    (∃ op s, Removed h k op ∧ op.settlement? = some s) ∨ ∃ id, Removed h k (.cancel id)
  /-- No owner of a slot waits in a drained registry. -/
  unwaited {k : Nat} : Drained h → (r.poll k).1 ≠ .waiting

/-- Whatever is done to a registry and in whatever order, its books balance. -/
theorem ledger_of_history (hist : History h r) : Ledger h r where
  registers {id} := by
    rw [← hist.open_iff, ← hist.mem_ids_iff, ← refusal?_eq_none_iff]
    constructor
    · rintro ⟨slot, hmade⟩
      obtain ⟨-, _, hop, hrefusal, -⟩ := perform_made hmade
      obtain rfl := Op.register.inj hop
      exact hrefusal
    · intro hrefusal
      exact ⟨_, by rw [perform_of_not_refused hrefusal]⟩
  refuses_drained hd := perform_of_refusal (refusal?_of_closed (hist.closed_iff.2 hd))
  refuses_outstanding hopen hout :=
    perform_of_refusal (refusal?_of_mem (hist.open_iff.2 hopen) (hist.mem_ids_iff.2 hout))
  resolves {id reply} := by
    rw [resolve_eq_expel, expel_found, decide_eq_true_iff, hist.mem_ids_iff]
  cancels {id} := by rw [cancel_eq_expel, expel_found, decide_eq_true_iff, hist.mem_ids_iff]
  balance := hist.balance
  drained hd :=
    have hclosed := hist.closed_iff.2 hd
    ⟨hclosed, hist.linked.closed hclosed⟩
  released {k} hd hm := by
    obtain ⟨op, hr⟩ := hist.removed_of_drained hd hm
    obtain ⟨id, hends⟩ := hr.ends
    rcases Op.settles_or_cancels hends with ⟨s, hs⟩ | rfl
    · exact Or.inl ⟨op, s, hr, hs⟩
    · exact Or.inr ⟨id, hr⟩
  unwaited {k} hd hlook := by
    -- A slot that waits has an entry, and there is none.
    have hw : r.slots[k]? = some .waiting := by
      simp only [poll, look] at hlook
      split at hlook <;> simp_all
    obtain ⟨id, hentry⟩ := hist.linked.entered hw
    rw [hist.linked.closed (hist.closed_iff.2 hd)] at hentry
    simp at hentry

/-- Five registrations are made: one is resolved, one cancelled, and a drain releases the three others,
one of them given up; another of a call that is outstanding is refused, and so is one after the drain.
-/
theorem ledger_of_history_drained :
    ∃ h r, History h r ∧ Ledger h r ∧ Drained h ∧
      total Answer.madeCount h = 5 ∧ total Answer.resolvedCount h = 1 ∧
      total Answer.cancelledCount h = 1 ∧ total Answer.drainedCount h = 3 ∧ r.size = 0 :=
  have hist := History.new
    |>.step (.register 1) |>.step (.register 2) |>.step (.register 2) |>.step (.register 3)
    |>.step (.resolve 1 ⟨.number 1, .ok .null⟩) |>.step (.resolve 1 ⟨.number 1, .ok .null⟩)
    |>.step (.cancel 3) |>.step (.register 1) |>.step (.register 4) |>.step (.release 1)
    |>.step .drain |>.step (.register 5) |>.step .drain
  ⟨_, _, hist, ledger_of_history hist, ⟨_, List.mem_append_right _ (List.mem_singleton.2 rfl), rfl⟩,
    rfl, rfl, rfl, rfl, rfl⟩

end PipeCall.Registry
