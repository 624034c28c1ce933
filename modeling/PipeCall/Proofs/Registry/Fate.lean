import PipeCall.Proofs.Registry.History

/-!
# What becomes of a slot

The registration that made a slot stands until an operation ends it: a resolution or a cancellation
of its call, or a drain. `Removed h slot op` says from the history that `op` was the one. At most one
operation ends a registration (`Removed.unique`), and from then on nothing but what its owner does
changes the slot.

`Content h k slot` derives what is in a slot from the history: the settlement that came with the
operation that ended its registration, if that brought one and its owner has neither taken it nor
given the slot up. It is kept by every operation (`History.content`), and `slotLaw_of_history` reads
off it what an owner can see.
-/

namespace PipeCall.Registry

/-! ## What the history says of a slot -/

/-- A step of the history was like this, given the steps before it. -/
def Occurs (h : List Step) (P : List Step → Step → Prop) : Prop :=
  ∃ before step after, h = before ++ step :: after ∧ P before step

/-- An operation ended the registration that made a slot. -/
def Removed (h : List Step) (slot : Nat) (op : Op) : Prop :=
  Occurs h fun before step =>
    step.op = op ∧ ∃ id, Stands before id slot ∧ op.ends id = true

/-- The owner of a slot has given it up. -/
def GivenUp (h : List Step) (slot : Nat) : Prop :=
  Occurs h fun before step => Made before slot ∧ step.op = .release slot

/-- The owner of a slot has found a settlement in it. -/
def Taken (h : List Step) (slot : Nat) : Prop := ∃ s, ⟨.poll slot, .looked (.settled s)⟩ ∈ h

variable {r : Registry} {op op' : Op} {id slot k : Nat} {h : List Step} {step : Step}
  {P : List Step → Step → Prop}

/-- Something has occurred after one more step if it had before, or the step is like that. -/
theorem occurs_concat : Occurs (h ++ [step]) P ↔ Occurs h P ∨ P h step := by
  constructor
  · rintro ⟨before, x, after, heq, hP⟩
    rcases concat_eq_append_cons heq with ⟨rfl, rfl, -⟩ | ⟨init, -, hh⟩
    · exact Or.inr hP
    · exact Or.inl ⟨before, x, init, hh, hP⟩
  · rintro (⟨before, x, after, rfl, hP⟩ | hP)
    · exact ⟨before, x, after ++ [step], by simp, hP⟩
    · exact ⟨h, step, [], rfl, hP⟩

/-- What has occurred has occurred after later steps too. -/
theorem Occurs.append (ho : Occurs h P) (later : List Step) : Occurs (h ++ later) P := by
  obtain ⟨before, step, after, rfl, hP⟩ := ho
  exact ⟨before, step, after ++ later, by simp, hP⟩

/-- A registration has been ended after one more step if it had before, or it stood and the step ends
it. -/
theorem removed_concat :
    Removed (h ++ [step]) slot op ↔
      Removed h slot op ∨ step.op = op ∧ ∃ id, Stands h id slot ∧ op.ends id = true :=
  occurs_concat

/-- A slot has been given up after one more step if it had before, or the step gives it up. -/
theorem givenUp_concat :
    GivenUp (h ++ [step]) slot ↔ GivenUp h slot ∨ Made h slot ∧ step.op = .release slot :=
  occurs_concat

/-- A settlement has been taken after one more step if it had before, or the step takes it. -/
theorem taken_concat :
    Taken (h ++ [step]) slot ↔
      Taken h slot ∨ ∃ s, step = ⟨.poll slot, .looked (.settled s)⟩ := by
  simp [Taken, exists_or, eq_comm]

/-- What a registration has made is a slot. -/
theorem Stands.made (hs : Stands h id slot) : Made h slot := by
  obtain ⟨before, after, rfl, -⟩ := hs
  exact ⟨id, by simp⟩

/-- A slot that was made stays so. -/
theorem Made.concat (hm : Made h slot) : Made (h ++ [step]) slot := by
  obtain ⟨id, hid⟩ := hm
  exact ⟨id, List.mem_append_left _ hid⟩

/-- A registration that was ended has made a slot. -/
theorem Removed.made (hr : Removed h slot op) : Made h slot := by
  obtain ⟨before, step, after, rfl, -, id, hs, -⟩ := hr
  obtain ⟨id, hid⟩ := hs.made
  exact ⟨id, List.mem_append_left _ hid⟩

/-- A slot that was given up was made. -/
theorem GivenUp.made (hg : GivenUp h slot) : Made h slot := by
  obtain ⟨before, step, after, rfl, ⟨id, hid⟩, -⟩ := hg
  exact ⟨id, List.mem_append_left _ hid⟩

/-! ## A registration is ended once -/

namespace History

/-- A registration that was ended has no entry any more. -/
theorem not_mem_entries (hist : History h r) (hr : Removed h slot op) : (id, slot) ∉ r.entries := by
  induction hist with
  | new =>
    obtain ⟨before, step, after, heq, -⟩ := hr
    simp at heq
  | step hist last ih =>
    rw [mem_entries_perform]
    rintro (⟨hentry, hunended⟩ | hmade)
    · rcases removed_concat.1 hr with hr | ⟨rfl, id', hstands, hends⟩
      · exact ih hr hentry
      · -- The entry is that of the registration that the step ends.
        rw [hist.linked.eq_of_mem hentry (hist.mem_entries_iff.2 hstands), hends] at hunended
        simp at hunended
    · -- The slot that the step makes is new.
      obtain ⟨heq, -⟩ := perform_made (congrArg Step.answer hmade)
      rcases removed_concat.1 hr with hr | ⟨-, id', hstands, -⟩
      · have := hist.made_iff.1 hr.made
        omega
      · have := hist.made_iff.1 hstands.made
        omega

/-- A registration that was ended does not stand. -/
theorem not_stands (hist : History h r) (hr : Removed h slot op) : ¬Stands h id slot :=
  fun hs => hist.not_mem_entries hr (hist.mem_entries_iff.2 hs)

/-- No two operations end one registration. -/
theorem removed_unique (hist : History h r) (hr : Removed h slot op) (hr' : Removed h slot op') :
    op = op' := by
  induction hist with
  | new =>
    obtain ⟨before, step, after, heq, -⟩ := hr
    simp at heq
  | step hist last ih =>
    -- If the last step has ended the registration, that stood until then and was not ended before.
    rcases removed_concat.1 hr with hr | ⟨hop, id, hstands, -⟩
    · rcases removed_concat.1 hr' with hr' | ⟨-, id', hstands', -⟩
      · exact ih hr hr'
      · exact absurd hstands' (hist.not_stands hr)
    · rcases removed_concat.1 hr' with hr' | ⟨hop', -⟩
      · exact absurd hstands (hist.not_stands hr')
      · exact hop.symm.trans hop'

/-- A registration that was made stands or was ended. -/
theorem stands_or_removed (hist : History h r) (hm : ⟨.register id, .made slot⟩ ∈ h) :
    Stands h id slot ∨ ∃ op, Removed h slot op := by
  induction hist with
  | new => simp at hm
  | @step h r hist last ih =>
    rcases List.mem_append.1 hm with hm | hm
    · rcases ih hm with hstands | ⟨op, hr⟩
      · cases hends : last.ends id with
        | true => exact Or.inr ⟨last, removed_concat.2 (Or.inr ⟨rfl, id, hstands, hends⟩)⟩
        | false => exact Or.inl (stands_concat.2 (Or.inl ⟨hstands, hends⟩))
      · exact Or.inr ⟨op, removed_concat.2 (Or.inl hr)⟩
    · exact Or.inl (stands_concat.2 (Or.inr (List.mem_singleton.1 hm).symm))

end History

/-! ## What is in a slot -/

/-- What is in a slot, by the history. -/
inductive Content (h : List Step) (k : Nat) : Slot → Prop where
  | waiting {id : Nat} (held : ¬GivenUp h k) (untaken : ¬Taken h k) (stands : Stands h id k) :
      Content h k .waiting
  | settled {op : Op} {s : Settlement} (held : ¬GivenUp h k) (untaken : ¬Taken h k)
      (removed : Removed h k op) (brings : op.settlement? = some s) : Content h k (.settled s)
  /-- The registration was ended without a settlement. -/
  | lost {op : Op} (held : ¬GivenUp h k) (untaken : ¬Taken h k) (removed : Removed h k op)
      (brings : op.settlement? = none) : Content h k .closed
  | taken (held : ¬GivenUp h k) (taken : Taken h k) : Content h k .closed
  | dropped (givenUp : GivenUp h k) : Content h k .dropped

/-- What ends registrations is nothing that an owner does. -/
theorem Op.handles_of_ends (hends : op.ends id = true) : op.handles k = false := by
  cases op with
  | poll | release => simp [Op.ends] at hends
  | _ => rfl

/-- A slot is given up by its owner only. -/
theorem not_givenUp_concat (unhandled : step.op.handles k = false) (held : ¬GivenUp h k) :
    ¬GivenUp (h ++ [step]) k := by
  rw [givenUp_concat]
  rintro (hgiven | ⟨-, hop⟩)
  · exact held hgiven
  · simp [hop, Op.handles] at unhandled

/-- A settlement is taken by the owner of the slot only. -/
theorem not_taken_concat (unhandled : step.op.handles k = false) (untaken : ¬Taken h k) :
    ¬Taken (h ++ [step]) k := by
  rw [taken_concat]
  rintro (htaken | ⟨s, rfl⟩)
  · exact untaken htaken
  · simp [Op.handles] at unhandled

/-- A step that is not about a slot leaves its content. -/
theorem Content.keep {s : Slot} (hc : Content h k s) (unhandled : step.op.handles k = false)
    (unended : ∀ id, Stands h id k → step.op.ends id = false) : Content (h ++ [step]) k s := by
  cases hc with
  | waiting held untaken stands =>
    exact .waiting (not_givenUp_concat unhandled held) (not_taken_concat unhandled untaken)
      (stands_concat.2 (Or.inl ⟨stands, unended _ stands⟩))
  | settled held untaken removed brings =>
    exact .settled (not_givenUp_concat unhandled held) (not_taken_concat unhandled untaken)
      (removed_concat.2 (Or.inl removed)) brings
  | lost held untaken removed brings =>
    exact .lost (not_givenUp_concat unhandled held) (not_taken_concat unhandled untaken)
      (removed_concat.2 (Or.inl removed)) brings
  | taken held taken =>
    exact .taken (not_givenUp_concat unhandled held) (taken_concat.2 (Or.inl taken))
  | dropped givenUp => exact .dropped (givenUp_concat.2 (Or.inl givenUp))

/-- A slot whose registration a step ends loses it. -/
theorem Content.lose {s : Slot} (hc : Content h k s) (hw : s = .waiting ∨ s = .dropped)
    (stands : Stands h id k) (ends : step.op.ends id = true) :
    Content (h ++ [step]) k (s.lose step.op.settlement?) := by
  have unhandled : step.op.handles k = false := Op.handles_of_ends ends
  have removed : Removed (h ++ [step]) k step.op := removed_concat.2 (Or.inr ⟨rfl, id, stands, ends⟩)
  rcases hw with rfl | rfl
  · cases hc with
    | waiting held untaken =>
      cases hbrings : step.op.settlement? with
      | none =>
        exact .lost (not_givenUp_concat unhandled held) (not_taken_concat unhandled untaken) removed
          hbrings
      | some t =>
        exact .settled (not_givenUp_concat unhandled held) (not_taken_concat unhandled untaken)
          removed hbrings
  · cases hc with
    | dropped givenUp =>
      have hlose : Slot.dropped.lose step.op.settlement? = .dropped := by
        cases step.op.settlement? <;> rfl
      rw [hlose]
      exact .dropped (givenUp_concat.2 (Or.inl givenUp))

/-- What an owner finds who looks into a slot like this. -/
def shown : Slot → Look
  | .waiting => .waiting
  | .settled s => .settled s
  | .closed => .closed
  | .dropped => .missing

/-- A look finds what is in the slot. -/
theorem look_of_slot {s : Slot} (hs : r.slots[k]? = some s) : r.look k = shown s := by
  rw [look, hs]
  cases s <;> rfl

/-- An owner who looks takes the settlement, if there is one. -/
theorem Content.poll {s : Slot} (hc : Content h k s) (hs : r.slots[k]? = some s) :
    Content (h ++ [⟨.poll k, .looked (r.look k)⟩]) k s.take := by
  have hheld : ¬GivenUp h k → ¬GivenUp (h ++ [⟨.poll k, .looked (r.look k)⟩]) k := by
    rw [givenUp_concat]
    rintro held (hgiven | ⟨-, hop⟩)
    · exact held hgiven
    · simp at hop
  have hlook := look_of_slot hs
  cases hc with
  | waiting held untaken stands =>
    refine .waiting (hheld held) ?_ (stands_concat.2 (Or.inl ⟨stands, rfl⟩))
    rw [taken_concat, hlook]
    simpa [shown] using untaken
  | settled held untaken removed brings =>
    exact .taken (hheld held) (taken_concat.2 (Or.inr ⟨_, by rw [hlook]; rfl⟩))
  | lost held untaken removed brings =>
    refine .lost (hheld held) ?_ (removed_concat.2 (Or.inl removed)) brings
    rw [taken_concat, hlook]
    simpa [shown] using untaken
  | taken held taken => exact .taken (hheld held) (taken_concat.2 (Or.inl taken))
  | dropped givenUp => exact .dropped (givenUp_concat.2 (Or.inl givenUp))

namespace History

/-- A slot that a settlement was found in was made. -/
theorem made_of_taken (hist : History h r) (ht : Taken h k) : Made h k := by
  induction hist with
  | new => simp [Taken] at ht
  | @step h r hist op ih =>
    rcases taken_concat.1 ht with ht | ⟨s, hstep⟩
    · exact (ih ht).concat
    · obtain ⟨rfl, hlook⟩ := Step.mk.inj hstep
      refine Made.concat (hist.made_iff.2 (Nat.lt_of_not_le fun hle => ?_))
      simp [perform, Registry.poll, look, List.getElem?_eq_none_iff.2 hle] at hlook

/-- What is in a slot is what the history says. -/
theorem content (hist : History h r) {s : Slot} (hs : r.slots[k]? = some s) : Content h k s := by
  induction hist generalizing s with
  | new => simp at hs
  | @step h r hist op ih =>
    have hslot := slotStep_perform hist.linked op k
    rw [hs] at hslot
    generalize hbefore : r.slots[k]? = before at hslot
    generalize hafter : some s = after at hslot
    cases hslot with
    | kept unended unhandled =>
      exact (ih (hbefore.trans hafter.symm)).keep unhandled fun id hstands =>
        unended id (hist.mem_entries_iff.2 hstands)
    | made made =>
      obtain rfl := Option.some.inj hafter
      obtain ⟨-, id, rfl, -⟩ := perform_made made
      -- The slot is new, so nothing was done to it.
      have hnew : ¬Made h k := by
        rw [hist.made_iff, Nat.not_lt]
        exact List.getElem?_eq_none_iff.1 hbefore
      exact .waiting (not_givenUp_concat rfl fun hgiven => hnew hgiven.made)
        (not_taken_concat rfl fun htaken => hnew (hist.made_of_taken htaken))
        (stands_concat.2 (Or.inr (by rw [made])))
    | @ended id slot entry ends =>
      obtain rfl := Option.some.inj hafter
      refine (ih hbefore).lose ?_ (hist.mem_entries_iff.1 entry) ends
      rcases hist.linked.waits entry with hw | hd
      · exact Or.inl (Option.some.inj (hbefore.symm.trans hw))
      · exact Or.inr (Option.some.inj (hbefore.symm.trans hd))
    | polled polls =>
      obtain ⟨slot, rfl, rfl⟩ := Option.map_eq_some_iff.1 hafter.symm
      rw [polls]
      exact (ih hbefore).poll hbefore
    | released releases =>
      obtain ⟨slot, rfl, rfl⟩ := Option.map_eq_some_iff.1 hafter.symm
      have hlt := (List.getElem?_eq_some_iff.1 hbefore).1
      exact .dropped (givenUp_concat.2 (Or.inr ⟨hist.made_iff.2 hlt, releases⟩))

/-- Who finds a settlement in a slot finds the one that ended its registration. -/
theorem removed_of_look (hist : History h r) {s : Settlement} (hlook : r.look k = .settled s) :
    ¬Taken h k ∧ ∃ op, Removed h k op ∧ op.settlement? = some s := by
  cases hs : r.slots[k]? with
  | none => simp [look, hs] at hlook
  | some slot =>
    have hc := hist.content hs
    rw [look_of_slot hs] at hlook
    cases hc with
    | settled held untaken removed brings =>
      obtain rfl := Look.settled.inj hlook
      exact ⟨untaken, _, removed, brings⟩
    | _ => simp [shown] at hlook

/-- A settlement was taken only if one ended the registration. -/
theorem removed_of_taken (hist : History h r) (ht : Taken h k) :
    ∃ op s, Removed h k op ∧ op.settlement? = some s := by
  induction hist with
  | new => simp [Taken] at ht
  | @step h r hist op ih =>
    rcases taken_concat.1 ht with ht | ⟨s, hstep⟩
    · obtain ⟨op, s, hr, hbrings⟩ := ih ht
      exact ⟨op, s, hr.append _, hbrings⟩
    · obtain ⟨rfl, hlook⟩ := Step.mk.inj hstep
      obtain ⟨-, op, hr, hbrings⟩ := hist.removed_of_look (Answer.looked.inj hlook)
      exact ⟨op, s, hr.append _, hbrings⟩

/-- A slot that was made is in the registry, with the content that the history says. -/
theorem exists_slot (hist : History h r) (hm : Made h k) :
    ∃ slot, r.look k = shown slot ∧ Content h k slot :=
  have hs := List.getElem?_eq_getElem (hist.made_iff.1 hm)
  ⟨_, look_of_slot hs, hist.content hs⟩

/-- Nothing but what its owner does changes a slot whose registration was ended. -/
theorem look_perform (hist : History h r) (hr : Removed h k op) (hother : op'.handles k = false) :
    (r.perform op').2.look k = r.look k := by
  have hslot := slotStep_perform hist.linked op' k
  suffices hsame : (r.perform op').2.slots[k]? = r.slots[k]? by rw [look, look, hsame]
  generalize hbefore : r.slots[k]? = before at hslot ⊢
  generalize (r.perform op').2.slots[k]? = after at hslot ⊢
  cases hslot with
  | kept => rfl
  | made made =>
    have hlt := hist.made_iff.1 hr.made
    exact absurd (List.getElem?_eq_none_iff.1 hbefore) (Nat.not_le_of_lt hlt)
  | ended entry => exact absurd entry (hist.not_mem_entries hr)
  | polled polls => simp [polls, Op.handles] at hother
  | released releases => simp [releases, Op.handles] at hother

/-- What was done before a step is a history, and the step is what the registry did then. -/
theorem split {before after : List Step} (hist : History (before ++ step :: after) r) :
    ∃ r', History before r' ∧ step.answer = (r'.perform step.op).1 := by
  generalize hh : before ++ step :: after = h at hist
  induction hist generalizing after with
  | new => simp at hh
  | @step h r hist op ih =>
    rcases concat_eq_append_cons hh.symm with ⟨rfl, rfl, -⟩ | ⟨init, -, heq⟩
    · exact ⟨r, hist, rfl⟩
    · exact ih heq.symm

/-- A call is registered again only when its last registration was ended. -/
theorem removed_of_again {before after : List Step} {l : Nat}
    (hist : History (before ++ ⟨.register id, .made l⟩ :: after) r)
    (hm : ⟨.register id, .made k⟩ ∈ before) :
    ∃ op, Removed (before ++ ⟨.register id, .made l⟩ :: after) k op := by
  obtain ⟨r', hbefore, hmade⟩ := hist.split
  obtain ⟨-, _, hregister, hrefusal, -⟩ := perform_made hmade.symm
  obtain rfl := Op.register.inj hregister
  have hfresh := (refusal?_eq_none_iff.1 hrefusal).2
  rcases hbefore.stands_or_removed hm with hstands | ⟨op, hr⟩
  · exact absurd (List.mem_map_of_mem (hbefore.mem_entries_iff.2 hstands)) hfresh
  · exact ⟨op, hr.append _⟩

end History

/-! ## What an owner sees -/

/-- What the owners of slots see of a registry with this history. -/
structure SlotLaw (h : List Step) (r : Registry) : Prop where
  /-- A slot gives a settlement once. -/
  once {k : Nat} {s : Settlement} : Taken h k → (r.poll k).1 ≠ .settled s
  /-- A reply is given only if the resolution of a call with this reply ended the slot's own
  registration. -/
  reply {k : Nat} {reply : Reply} : (r.poll k).1 = .settled (.reply reply) →
    ∃ id, Removed h k (.resolve id reply)
  /-- A slot tells of the shutdown only if a drain ended its registration. -/
  shutDown {k : Nat} : (r.poll k).1 = .settled .shutDown → Removed h k .drain
  /-- A settlement that ended a slot's registration is there until the owner takes it or gives the
  slot up. -/
  delivered {k : Nat} {op : Op} {s : Settlement} : Removed h k op → op.settlement? = some s →
    ¬Taken h k → ¬GivenUp h k → (r.poll k).1 = .settled s
  /-- A slot whose registration was cancelled has given nothing, and is closed for whoever holds it.
  -/
  cancelled {k id : Nat} : Removed h k (.cancel id) →
    ¬Taken h k ∧ (¬GivenUp h k → (r.poll k).1 = .closed)
  /-- A registration makes a new slot, and that waits. -/
  fresh {id l : Nat} : (r.perform (.register id)).1 = .made l →
    ¬Made h l ∧ ((r.perform (.register id)).2.poll l).1 = .waiting
  /-- When a call has been registered again, nothing but what its own owner does is seen in the
  earlier slot. -/
  unseen {before after : List Step} {id k l : Nat} {op : Op} :
    h = before ++ ⟨.register id, .made l⟩ :: after → ⟨.register id, .made k⟩ ∈ before →
    op.handles k = false → ((r.perform op).2.poll k).1 = (r.poll k).1
  /-- A call is outstanding, with its slot, until it is resolved, cancelled or drained, given up or
  not. -/
  outstanding {id k : Nat} : r.slotOf? id = some k ↔ Stands h id k
  /-- A slot that was given up is there for nobody. -/
  givenUp {k : Nat} : GivenUp h k → (r.poll k).1 = .missing

/-- A reply is brought by a resolution with it. -/
theorem Op.eq_of_reply {reply : Reply} (h : op.settlement? = some (.reply reply)) :
    ∃ id, op = .resolve id reply := by
  cases op with
  | resolve id reply' =>
    obtain rfl := Settlement.reply.inj (Option.some.inj h)
    exact ⟨id, rfl⟩
  | _ => simp [Op.settlement?] at h

/-- The news of the shutdown is brought by a drain. -/
theorem Op.eq_of_shutDown (h : op.settlement? = some .shutDown) : op = .drain := by
  cases op with
  | drain => rfl
  | _ => simp [Op.settlement?] at h

/-- Whatever is done to a registry and in whatever order, its slots keep to their law. -/
theorem slotLaw_of_history (hist : History h r) : SlotLaw h r where
  once {k s} htaken hlook := (hist.removed_of_look hlook).1 htaken
  reply {k reply} hlook := by
    obtain ⟨-, op, hr, hbrings⟩ := hist.removed_of_look hlook
    obtain ⟨id, rfl⟩ := Op.eq_of_reply hbrings
    exact ⟨id, hr⟩
  shutDown {k} hlook := by
    obtain ⟨-, op, hr, hbrings⟩ := hist.removed_of_look hlook
    obtain rfl := Op.eq_of_shutDown hbrings
    exact hr
  delivered {k op s} hr hbrings huntaken hheld := by
    obtain ⟨slot, hlook, hc⟩ := hist.exists_slot hr.made
    refine hlook.trans ?_
    cases hc with
    | waiting held untaken stands => exact absurd stands (hist.not_stands hr)
    | settled held untaken removed brings =>
      obtain rfl := hist.removed_unique hr removed
      rw [Option.some.inj (brings.symm.trans hbrings)]
      rfl
    | lost held untaken removed brings =>
      obtain rfl := hist.removed_unique hr removed
      simp [hbrings] at brings
    | taken held taken => exact absurd taken huntaken
    | dropped givenUp => exact absurd givenUp hheld
  cancelled {k id} hr := by
    -- No other operation has ended the registration, and this one brought nothing.
    have hbrings : ∀ {op s}, Removed h k op → op.settlement? ≠ some s := by
      intro op s hop
      obtain rfl := hist.removed_unique hr hop
      simp [Op.settlement?]
    refine ⟨fun htaken => ?_, fun hheld => ?_⟩
    · obtain ⟨op, s, hop, hs⟩ := hist.removed_of_taken htaken
      exact hbrings hop hs
    · obtain ⟨slot, hlook, hc⟩ := hist.exists_slot hr.made
      refine hlook.trans ?_
      cases hc with
      | waiting held untaken stands => exact absurd stands (hist.not_stands hr)
      | settled held untaken removed brings => exact absurd brings (hbrings removed)
      | lost | taken => rfl
      | dropped givenUp => exact absurd givenUp hheld
  fresh {id l} hmade := by
    obtain ⟨rfl, id', -, -, hnext⟩ := perform_made hmade
    rw [hist.made_iff, hnext]
    exact ⟨Nat.lt_irrefl _, by simp [poll, look, enter]⟩
  unseen {before after id k l op} heq hm hother := by
    subst heq
    obtain ⟨ended, hr⟩ := hist.removed_of_again hm
    exact hist.look_perform hr hother
  outstanding {id k} := by
    rw [slotOf?_eq_some_iff hist.linked.nodup_ids, hist.mem_entries_iff]
  givenUp {k} hgiven := by
    obtain ⟨slot, hlook, hc⟩ := hist.exists_slot hgiven.made
    refine hlook.trans ?_
    cases hc with
    | waiting held | settled held | lost held | taken held => exact absurd hgiven held
    | dropped => rfl

/-- A number is registered three times: its first slot has the reply of its own resolution, the second
is closed by the cancellation, and the third was given up and is outstanding. -/
theorem slotLaw_of_history_reused_number :
    ∃ h r, History h r ∧ SlotLaw h r ∧
      (r.poll 0).1 = .settled (.reply ⟨.number 7, .ok .null⟩) ∧ (r.poll 1).1 = .closed ∧
      (r.poll 2).1 = .missing ∧ r.slotOf? 7 = some 2 :=
  have hist := History.new
    |>.step (.register 7) |>.step (.resolve 7 ⟨.number 7, .ok .null⟩)
    |>.step (.register 7) |>.step (.cancel 7)
    |>.step (.register 7) |>.step (.release 2)
  ⟨_, _, hist, slotLaw_of_history hist, rfl, rfl, rfl, rfl⟩

end PipeCall.Registry
