import PipeCall.Proofs.Session.Lifecycle

/-!
# Where settlements come from

The reader hands a reply that names a call to a task of its own (`Change.HandsOver`), and that takes
it to the registry when it gets its turn (`Change.Resolves`). A call that is settled by a reply is
registered when the reply gets to the registry. It was registered too when the reply was handed over,
unless it was made in between (`Course.answered`). A call that is settled without a reply was
registered when the registry was drained (`Course.settled`).
-/

namespace PipeCall.Session

/-- The reader has got a reply that names a call, as a frame. -/
structure Change.Dispatches (d : Change) (id : Nat) (reply : Reply) : Prop where
  reads : d.cause = .move .read
  frame : ∃ body intake, d.before.intake.pull = (.frame body, intake) ∧
    Inbound.parse body = .ok (.reply reply)
  key : reply.id.key? = some id

/-- The reader hands a reply over that names a call, and it goes on its way to the registry. -/
structure Change.HandsOver (d : Change) (id : Nat) (reply : Reply) : Prop
    extends d.Dispatches id reply where
  added : d.after.inFlight = d.before.inFlight ++ [(id, reply)]

/-- A reply gets to the registry while the call that it names is registered, and settles it. -/
structure Change.Resolves (e : Change) (t : Ticket) (reply : Reply) : Prop where
  resolves : ∃ place, e.cause = .move (.resolve place) ∧
    e.before.inFlight[place]? = some (t.id, reply)
  registered : (t.id, t.slot) ∈ e.before.registry.entries
  settles : e.after.registry.slots[t.slot]? = some (.settled (.reply reply))

/-- A change releases every registered call: the client is shut down, or its reader ends. -/
def Change.Drains (d : Change) : Prop := d.cause = .command .shutDown ∨ d.cause = .move .leave

/-- A change has taken the frame that answers a call: the reply in it was on its way from then on until
it was resolved, and the call was registered at that time. It was so already when the frame was taken,
or was made while the reply was on its way. -/
def Change.Answers (d : Change) (past : List Change) (t : Ticket) (reply : Reply) : Prop :=
  ∃ earlier between e later, past = earlier ++ d :: between ++ e :: later ∧
    d.HandsOver t.id reply ∧ (∀ c ∈ between, (t.id, reply) ∈ c.before.inFlight) ∧
    e.Resolves t reply ∧ ((t.id, t.slot) ∈ d.before.registry.entries ∨
      ∃ issue ∈ between, ∃ place, issue.Issues place t)

/-- What has settled a call. -/
def SettledBy (past : List Change) (t : Ticket) : Settlement → Prop
  | .reply reply => ∃ d, Change.Answers d past t reply
  | .shutDown => ∃ d ∈ past, d.Drains ∧ (t.id, t.slot) ∈ d.before.registry.entries

/-- A frame has one reply in it, that names one call. -/
theorem Change.Dispatches.unique {d : Change} {id id' : Nat} {r r' : Reply}
    (h : d.Dispatches id r) (h' : d.Dispatches id' r') : id = id' ∧ r = r' := by
  obtain ⟨body, intake, hpull, hparse⟩ := h.frame
  obtain ⟨body', intake', hpull', hparse'⟩ := h'.frame
  rw [hpull] at hpull'
  obtain ⟨hbody, -⟩ := Prod.mk.inj hpull'
  obtain rfl := Frame.Intake.Pulled.frame.inj hbody
  rw [hparse] at hparse'
  obtain rfl := Inbound.reply.inj (Except.ok.inj hparse')
  have hkey := h.key
  rw [h'.key] at hkey
  exact ⟨(Option.some.inj hkey).symm, rfl⟩

variable {s t : Session} {past : List Change} {u : Setup} {cause : Cause}

/-! ## Replies on their way -/

/-- A step of the reader puts at most one reply on its way, which it has taken as a frame. -/
theorem inFlight_read? (h : s.read? = some t) :
    t.inFlight = s.inFlight ∨ ∃ id r, Change.HandsOver ⟨s, .move .read, t⟩ id r := by
  obtain ⟨-, hreads⟩ := reads_of_read? h
  cases hreads with
  | stops | refused | buffered | failed | ended => exact Or.inl rfl
  | @frame body intake may hpull =>
    rcases inFlight_dispatch { s with intake } body with heq | ⟨id, r, hparse, hkey, heq⟩
    · exact Or.inl heq
    · exact Or.inr ⟨id, r, ⟨rfl, ⟨body, intake, hpull, hparse⟩, hkey⟩, heq⟩

/-- Only the reader and the replies that get to the registry change what is on its way. -/
theorem Becomes.inFlight (h : s.Becomes cause t) (hread : cause ≠ .move .read)
    (hresolve : ∀ place, cause ≠ .move (.resolve place)) : t.inFlight = s.inFlight := by
  cases h.touches with
  | read => exact absurd rfl hread
  | resolve => exact absurd rfl (hresolve _)
  | _ => rfl

/-- A reply that is on its way is so after a change, or it is the one that gets to the registry. -/
theorem Becomes.mem_inFlight (h : s.Becomes cause t) {x : Nat × Reply} (hx : x ∈ s.inFlight) :
    x ∈ t.inFlight ∨ ∃ place, cause = .move (.resolve place) ∧ s.inFlight[place]? = some x := by
  by_cases hread : cause = .move .read
  · obtain rfl := hread
    rcases inFlight_read? h with heq | ⟨id, r, hands⟩
    · exact Or.inl (heq ▸ hx)
    · have hadded : t.inFlight = s.inFlight ++ [(id, r)] := hands.added
      rw [hadded]
      exact Or.inl (List.mem_append_left _ hx)
  · by_cases hresolve : ∃ place, cause = .move (.resolve place)
    · obtain ⟨place, rfl⟩ := hresolve
      obtain ⟨_, _, _, rfl⟩ := resolve?_eq_some h
      obtain ⟨i, hi⟩ := List.getElem?_of_mem hx
      by_cases hplace : i = place
      · exact Or.inr ⟨place, rfl, by rw [← hplace, hi]⟩
      · exact Or.inl (List.mem_eraseIdx_iff_getElem?.2 ⟨i, hplace, hi⟩)
    · rw [h.inFlight hread fun place heq => hresolve ⟨place, heq⟩]
      exact Or.inl hx

/-- A reply that is on its way after a change was so before, or the change hands it over. -/
theorem Becomes.handsOver (h : s.Becomes cause t) {id : Nat} {reply : Reply}
    (hmem : (id, reply) ∈ t.inFlight) :
    (id, reply) ∈ s.inFlight ∨ Change.HandsOver ⟨s, cause, t⟩ id reply := by
  by_cases hread : cause = .move .read
  · obtain rfl := hread
    rcases inFlight_read? h with heq | ⟨id', r, hands⟩
    · exact Or.inl (heq ▸ hmem)
    · have hadded : t.inFlight = s.inFlight ++ [(id', r)] := hands.added
      rw [hadded] at hmem
      rcases List.mem_append.1 hmem with hmem | hmem
      · exact Or.inl hmem
      · obtain ⟨rfl, rfl⟩ := Prod.mk.inj (List.mem_singleton.1 hmem)
        exact Or.inr hands
  · by_cases hresolve : ∃ place, cause = .move (.resolve place)
    · obtain ⟨place, rfl⟩ := hresolve
      obtain ⟨_, _, _, rfl⟩ := resolve?_eq_some h
      exact Or.inl (List.mem_of_mem_eraseIdx hmem)
    · rw [h.inFlight hread fun place heq => hresolve ⟨place, heq⟩] at hmem
      exact Or.inl hmem

/-- Every reply that is on its way was handed over, and has been on its way since. -/
theorem Course.inFlight_handed (course : Course u.fresh past s) {id : Nat} {reply : Reply}
    (hmem : (id, reply) ∈ s.inFlight) :
    ∃ earlier d between, past = earlier ++ d :: between ∧ d.HandsOver id reply ∧
      ∀ c ∈ between, (id, reply) ∈ c.before.inFlight := by
  induction course with
  | nil => exact absurd hmem List.not_mem_nil
  | @snoc past s t cause course becomes ih =>
    rcases becomes.handsOver hmem with hbefore | hnow
    · obtain ⟨earlier, d, between, rfl, hands, hway⟩ := ih hbefore
      exact ⟨earlier, d, between ++ [⟨s, cause, t⟩], by simp, hands,
        List.forall_mem_append.2 ⟨hway, List.forall_mem_singleton.2 hbefore⟩⟩
    · exact ⟨past, _, [], rfl, hnow, by simp⟩

/-! ## Settled calls -/

/-- A settled slot was settled by one change, until which it has waited. -/
theorem Course.exists_settles (course : Course u.fresh past s) {k : Nat} {settlement : Settlement}
    (hslot : s.registry.slots[k]? = some (.settled settlement)) :
    ∃ earlier e later, past = earlier ++ e :: later ∧
      e.before.registry.slots[k]? = some .waiting ∧
      e.after.registry.slots[k]? = some (.settled settlement) := by
  induction course with
  | nil => simp [Setup.fresh, new] at hslot
  | @snoc past s t cause course becomes ih =>
    have hchange := becomes.effect.slotChange (course.coheres (coheres_fresh u)) k
    rw [hslot] at hchange
    generalize hbefore : s.registry.slots[k]? = slot? at hchange
    cases hchange with
    | kept =>
      obtain ⟨earlier, e, later, rfl, hwaits, hsettled⟩ := ih hbefore
      exact ⟨earlier, e, later ++ [⟨s, cause, t⟩], by simp, hwaits, hsettled⟩
    | replied | drained => exact ⟨past, _, [], rfl, hbefore, hslot⟩

/-- A call that stands in the end was there, with its ticket, when its slot was. -/
theorem Course.stood {h : List Change} (course : Course t h s) (hs : s.Coheres) (ht : t.Coheres)
    {place : Nat} {ticket : Ticket} {phase : Phase} {slot : Slot}
    (stands : s.calls[place]? = some (.registered ticket phase))
    (there : t.registry.slots[ticket.slot]? = some slot) :
    ∃ phase', t.calls[place]? = some (.registered ticket phase') := by
  obtain ⟨hlt, -⟩ := List.getElem?_eq_some_iff.1 there
  obtain ⟨place', ticket', phase', hstood, hslot⟩ := Coherent.exists_of_slot_lt ht hlt
  obtain ⟨phase'', hstands⟩ := course.registered_stays hstood
  obtain rfl := Coherent.place_unique hs stands hstands hslot.symm
  rw [stands] at hstands
  obtain ⟨rfl, -⟩ := Call.registered.inj (Option.some.inj hstands)
  exact ⟨phase', hstood⟩

/-- A call that is registered when a reply to it is on its way was registered when that was handed
over, or was made since. -/
theorem Course.handed_to_registered (course : Course u.fresh past s) {place : Nat} {t : Ticket}
    {phase : Phase} {reply : Reply} (stands : s.calls[place]? = some (.registered t phase))
    (waits : s.registry.slots[t.slot]? = some .waiting) (hmem : (t.id, reply) ∈ s.inFlight) :
    ∃ earlier d between, past = earlier ++ d :: between ∧ d.HandsOver t.id reply ∧
      (∀ c ∈ between, (t.id, reply) ∈ c.before.inFlight) ∧
      ((t.id, t.slot) ∈ d.before.registry.entries ∨
        ∃ issue ∈ between, ∃ place, issue.Issues place t) := by
  obtain ⟨earlier, d, between, rfl, hands, hway⟩ := course.inFlight_handed hmem
  obtain ⟨first, issue, since, heq, hissues, -, hwaits⟩ := course.issued stands
  refine ⟨earlier, d, between, rfl, hands, hway, ?_⟩
  have hne : d ≠ issue := by
    rintro rfl
    obtain ⟨_, _, hcause, -⟩ := hissues.made
    simp [hands.reads] at hcause
  -- The frame was taken before the call was made, or after it.
  rcases List.append_eq_append_iff.1 heq with ⟨mid, -, hmid⟩ | ⟨mid, -, hmid⟩
  · cases mid with
    | nil => exact absurd (List.cons.inj hmid).1 hne
    | cons c mid =>
      obtain ⟨-, rfl⟩ := List.cons.inj hmid
      exact Or.inr ⟨issue, by simp, place, hissues⟩
  · cases mid with
    | nil => exact absurd (List.cons.inj hmid).1.symm hne
    | cons c mid =>
      obtain ⟨-, rfl⟩ := List.cons.inj hmid
      have hd := ((course.sound (sound_fresh u)).1 d (by simp)).coheres
      exact Or.inl (hd.numbered.mem_entries.2
        ⟨Coherent.id_of_stands (course.coheres (coheres_fresh u)) stands, hwaits waits d (by simp)⟩)

/-- A settled call was settled by a reply that got to the registry while it was registered, or by a
drain. -/
theorem Course.settled (course : Course u.fresh past s) {place : Nat} {ticket : Ticket} {phase : Phase}
    {settlement : Settlement} (stands : s.calls[place]? = some (.registered ticket phase))
    (hslot : s.registry.slots[ticket.slot]? = some (.settled settlement)) :
    SettledBy past ticket settlement := by
  obtain ⟨earlier, e, later, rfl, hwaits, hsettled⟩ := course.exists_settles hslot
  obtain ⟨hfirst, hbecomes, hlater⟩ := course.split
  have hs := course.coheres (coheres_fresh u)
  have he := hfirst.coheres (coheres_fresh u)
  -- The call was there, and registered, when it was settled.
  have hrest : Course e.before (e :: later) s := (Course.nil.snoc hbecomes).append hlater
  obtain ⟨phase', hstood⟩ := hrest.stood hs he stands hwaits
  have hid := Coherent.id_of_stands he hstood
  have hentry := (Coherent.mem_entries_iff he hstood).2 hwaits
  have hchange := hbecomes.effect.slotChange he ticket.slot
  rw [hwaits, hsettled] at hchange
  cases hchange with
  | @replied place reply resolves onTheWay =>
    rw [← hid] at onTheWay
    obtain ⟨first, d, between, rfl, hands, hway, hregistered⟩ :=
      hfirst.handed_to_registered hstood hwaits (List.mem_of_getElem? onTheWay)
    exact ⟨d, first, between, e, later, rfl, hands, hway,
      ⟨⟨place, resolves, onTheWay⟩, hentry, hsettled⟩, hregistered⟩
  | drained drains => exact ⟨e, by simp, drains, hentry⟩

/-- A closed registry was drained. -/
theorem Course.drained (course : Course u.fresh past s) (hclosed : s.registry.closed = true) :
    ∃ d ∈ past, d.Drains := by
  induction course with
  | nil => simp [Setup.fresh, new] at hclosed
  | @snoc past s t cause course becomes ih =>
    rcases becomes.effect.closed (course.coheres (coheres_fresh u)) with heq | ⟨-, hdrains⟩
    · rw [heq] at hclosed
      obtain ⟨d, hd, hdrains⟩ := ih hclosed
      exact ⟨d, List.mem_append_left _ hd, hdrains⟩
    · exact ⟨_, List.mem_append_right _ (List.mem_singleton_self _), hdrains⟩

end PipeCall.Session
