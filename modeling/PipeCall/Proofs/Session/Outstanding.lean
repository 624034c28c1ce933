import Mathlib.Data.List.Sort
import PipeCall.Proofs.Session.Coherence
import PipeCall.Proofs.Session.History

/-!
# The outstanding calls of a client at rest

The calls of a client agree with its registry at every moment of a course (`Course.coheres`), every
registered call was made by one change of it (`Course.issued`), and a call that is over has come out
by one change (`Course.outcomeAt?_eq_some_iff`) or was given up by one (`Course.givenUp`). When nothing
can go on before the clock moves, no call is left that is settled or out of time, and so the registry
has exactly the calls that are still going on (`registry_of_rest`).
-/

namespace PipeCall.Session

/-- The calls of a client that nothing has been done to agree with its registry. -/
theorem coheres_fresh (u : Setup) : u.fresh.Coheres := Coherent.empty

variable {s₀ s t : Session} {past : List Change} {u : Setup} {cause : Cause} {place : Nat}

/-- The calls agree with the registry at every moment. -/
theorem Course.coheres (course : Course s₀ past s) (hs₀ : s₀.Coheres) : s.Coheres :=
  (course.keeps hs₀ fun _ _ hs becomes => becomes.effect.coherent hs).2

/-! ## Making calls -/

/-- A change makes the registered call that stands in a place, with its ticket: the call takes the
window and the clock that the client has then. -/
structure Change.Issues (change : Change) (place : Nat) (t : Ticket) : Prop where
  last : place = change.before.calls.length
  running : change.before.lifecycle = .running
  made : ∃ order params, change.cause = .command (.issue order) ∧ order.params = some params ∧
    change.before.ticketFor order params t.slot = t

namespace Change.Issues

variable {change : Change} {place : Nat} {t : Ticket}

/-- A call is issued at the time of the clock. -/
theorem issuedAt (h : change.Issues place t) : t.issuedAt = change.before.clock := by
  obtain ⟨order, params, -, -, heq⟩ := h.made
  rw [← heq]
  rfl

/-- A call takes the window of its client. -/
theorem window (h : change.Issues place t) : t.window = change.before.window := by
  obtain ⟨order, params, -, -, heq⟩ := h.made
  rw [← heq]
  rfl

end Change.Issues

/-- A registered call was there before a change with the same ticket, or it is made by it. -/
theorem CallChange.ticket {call? : Option Call} {ticket : Ticket} {phase : Phase}
    (h : CallChange s cause place call? (some (.registered ticket phase))) :
    (∃ phase', call? = some (.registered ticket phase')) ∨
      call? = none ∧ ∀ t, Change.Issues ⟨s, cause, t⟩ place ticket := by
  cases h with
  | kept => exact Or.inl ⟨phase, rfl⟩
  | entered issued last running writable =>
    exact Or.inr ⟨rfl, fun _ => ⟨last, running, _, _, issued, writable, rfl⟩⟩
  | lost issued last running writable =>
    -- It has a ticket, though it is over as soon as it is made.
    exact Or.inr ⟨rfl, fun _ => ⟨last, running, _, _, issued, writable, rfl⟩⟩
  | queued admits => exact Or.inl ⟨.waiting, rfl⟩
  | ended moved live grounds => exact Or.inl ⟨_, rfl⟩
  | abandoned abandons live => exact Or.inl ⟨_, rfl⟩

/-- Every registered call was made by a change, and if its slot waits it has waited ever since. -/
theorem Course.issued (course : Course u.fresh past s) {ticket : Ticket} {phase : Phase}
    (stands : s.calls[place]? = some (.registered ticket phase)) :
    ∃ earlier issue since, past = earlier ++ issue :: since ∧ issue.Issues place ticket ∧
      (∃ phase', issue.after.calls[place]? = some (.registered ticket phase')) ∧
      (s.registry.slots[ticket.slot]? = some .waiting →
        ∀ d ∈ since, d.before.registry.slots[ticket.slot]? = some .waiting) := by
  induction course generalizing phase with
  | nil => simp [Setup.fresh, new] at stands
  | @snoc past s t cause course becomes ih =>
    have hs := course.coheres (coheres_fresh u)
    have hcall := becomes.effect.callChange place
    rw [stands] at hcall
    rcases hcall.ticket with ⟨phase', hbefore⟩ | ⟨-, hissues⟩
    · obtain ⟨earlier, issue, since, hpast, hissues, hmade, hwaits⟩ := ih hbefore
      refine ⟨earlier, issue, since ++ [⟨s, cause, t⟩], by simp [hpast], hissues, hmade,
        fun hafter => ?_⟩
      -- The slot is not new, so it waits before the last change too.
      have hslot := becomes.effect.slotChange hs ticket.slot
      rw [hafter] at hslot
      have hw : s.registry.slots[ticket.slot]? = some .waiting := by
        rcases hslot.waiting with hw | hnone
        · exact hw
        · have hlt := Coherent.slot_lt hs hbefore
          rw [List.getElem?_eq_none_iff] at hnone
          omega
      intro d hd
      rcases List.mem_append.1 hd with hd | hd
      · exact hwaits hw d hd
      · obtain rfl := List.mem_singleton.1 hd
        exact hw
    · exact ⟨past, _, [], rfl, hissues t, ⟨phase, stands⟩, by simp⟩

/-- A call that was registered stays so, under its ticket. -/
theorem Course.registered_stays (course : Course s past t) {ticket : Ticket} {phase : Phase}
    (stands : s.calls[place]? = some (.registered ticket phase)) :
    ∃ phase', t.calls[place]? = some (.registered ticket phase') := by
  refine (course.keeps (P := fun v => ∃ phase', v.calls[place]? = some (.registered ticket phase'))
    ⟨phase, stands⟩ fun c _ h becomes => ?_).2
  obtain ⟨phase', hstands⟩ := h
  have hchange := becomes.effect.callChange place
  rw [hstands] at hchange
  exact hchange.registered

/-! ## Calls that are over -/

/-- How the call in a place came out, once it has. -/
def outcomeAt? (s : Session) (place : Nat) : Option Outcome := s.calls[place]?.bind Call.outcome?

/-- A change ends the call in a place. -/
structure Change.Concludes (c : Change) (place : Nat) (o : Outcome) : Prop where
  before : c.before.outcomeAt? place = none
  after : c.after.outcomeAt? place = some o

/-- Its caller has given the call in a place up, while it was still going on. -/
def GivenUp (past : List Change) (place : Nat) : Prop :=
  ∃ d ∈ past, d.cause = .command (.abandon place) ∧
    ∃ ticket phase, d.before.calls[place]? = some (.registered ticket phase) ∧ phase.isLive = true

/-- A call that has come out stays as it is. -/
theorem CallChange.outcome {call? call?' : Option Call} {o : Outcome}
    (h : CallChange s cause place call? call?') (ho : call?.bind Call.outcome? = some o) :
    call?'.bind Call.outcome? = some o := by
  cases h with
  | kept => exact ho
  | refused | turnedAway | entered | lost => simp at ho
  | queued admits => simp [Call.outcome?] at ho
  | ended moved live grounds =>
    rw [Option.bind_some, Call.outcome?_of_isLive live] at ho
    simp at ho
  | abandoned abandons live =>
    rw [Option.bind_some, Call.outcome?_of_isLive live] at ho
    simp at ho

/-- What came out stays. -/
theorem Becomes.outcome {o : Outcome} (h : s.Becomes cause t) (ho : s.outcomeAt? place = some o) :
    t.outcomeAt? place = some o :=
  (h.effect.callChange place).outcome ho

/-- A call has come out like this exactly if a change has ended it so. -/
theorem Course.outcomeAt?_eq_some_iff {o : Outcome} (course : Course u.fresh past s) :
    s.outcomeAt? place = some o ↔
      ∃ earlier c later, past = earlier ++ c :: later ∧ c.Concludes place o := by
  constructor
  · intro ho
    induction course with
    | nil => simp [outcomeAt?, Setup.fresh, new] at ho
    | @snoc past s t cause course becomes ih =>
      cases hbefore : s.outcomeAt? place with
      | some o' =>
        -- It had come out before the last change, in the same way.
        have hsame := becomes.outcome hbefore
        rw [ho] at hsame
        obtain rfl := Option.some.inj hsame
        obtain ⟨earlier, c, later, hpast, hends⟩ := ih hbefore
        exact ⟨earlier, c, later ++ [⟨s, cause, t⟩], by rw [hpast]; simp, hends⟩
      | none => exact ⟨past, _, [], rfl, hbefore, ho⟩
  · rintro ⟨earlier, c, later, rfl, hends⟩
    exact (course.since hends.after fun becomes => becomes.outcome).2

/-- A call that has been given up stays so. -/
theorem CallChange.abandoned_stays {call? : Option Call} {ticket : Ticket}
    (h : CallChange s cause place (some (.registered ticket .abandoned)) call?) :
    call? = some (.registered ticket .abandoned) := by
  cases h with
  | kept => rfl
  | ended moved live => simp [Phase.isLive] at live
  | abandoned abandons live => simp [Phase.isLive] at live

/-- A call is given up exactly by its caller. -/
theorem Course.givenUp_iff (course : Course u.fresh past s) :
    GivenUp past place ↔ ∃ ticket, s.calls[place]? = some (.registered ticket .abandoned) := by
  constructor
  · rintro ⟨d, hd, hcause, ticket, phase, hstands, hlive⟩
    obtain ⟨earlier, later, rfl⟩ := List.append_of_mem hd
    have hbecomes := course.becomes hd
    rw [hcause] at hbecomes
    have hafter : d.after = d.before.abandon place := hbecomes
    have hgiven : d.after.calls[place]? = some (.registered ticket .abandoned) := by
      obtain ⟨hlt, -⟩ := List.getElem?_eq_some_iff.1 hstands
      simp only [hafter, abandon, hstands, hlive, if_true]
      rw [List.getElem?_set, if_pos rfl, if_pos hlt]
    refine ⟨ticket, (course.since (P := fun t => t.calls[place]? = some (.registered ticket .abandoned))
      hgiven fun becomes h => ?_).2⟩
    have hchange := becomes.effect.callChange place
    rw [h] at hchange
    exact hchange.abandoned_stays
  · rintro ⟨ticket, hstands⟩
    induction course with
    | nil => simp [Setup.fresh, new] at hstands
    | @snoc past s t cause course becomes ih =>
      have hchange := becomes.effect.callChange place
      rw [hstands] at hchange
      generalize hbefore : s.calls[place]? = call? at hchange
      cases hchange with
      | kept =>
        obtain ⟨d, hd, hgiven⟩ := ih hbefore
        exact ⟨d, List.mem_append_left _ hd, hgiven⟩
      | entered _ _ _ _ _ live => simp [Phase.isLive] at live
      | abandoned abandons live =>
        exact ⟨_, List.mem_append_right _ (List.mem_singleton_self _), abandons, ticket, _, hbefore,
          live⟩

/-! ## At rest -/

/-- A settlement has come for a call if it is in the call's slot. -/
theorem settlement?_eq_some_iff {ticket : Ticket} {settlement : Settlement} :
    s.settlement? ticket = some settlement ↔
      s.registry.slots[ticket.slot]? = some (.settled settlement) := by
  unfold settlement? Registry.look
  cases hslot : s.registry.slots[ticket.slot]? with
  | none => simp
  | some slot => cases slot <;> simp

/-- A call that is still going on waits for its settlement until that comes. -/
theorem waiting_of_unsettled (hs : s.Coheres) {ticket : Ticket} {phase : Phase}
    (stands : s.calls[place]? = some (.registered ticket phase)) (live : phase.isLive = true)
    (unsettled : s.settlement? ticket = none) : s.registry.slots[ticket.slot]? = some .waiting := by
  obtain ⟨slot, hslot, hfits⟩ := Coherent.fits hs stands
  cases slot with
  | waiting => exact hslot
  | settled settlement => simp [settlement?, Registry.look, hslot] at unsettled
  | closed => exact hfits.elim
  | dropped => rw [show phase.isLive = false from hfits] at live; simp at live

/-- If no call can take its settlement, a call that is still going on waits for it. -/
theorem waiting_of_deliver?_eq_none (hs : s.Coheres) (hdeliver : s.deliver? = none)
    {ticket : Ticket} {phase : Phase} (stands : s.calls[place]? = some (.registered ticket phase))
    (live : phase.isLive = true) : s.registry.slots[ticket.slot]? = some .waiting :=
  waiting_of_unsettled hs stands live (settlement?_of_deliver?_eq_none hdeliver stands live)

/-- At rest no call's time is up. -/
theorem lt_deadline_of_rest (rest : s.next? = none) {ticket : Ticket} {phase : Phase}
    (stands : s.calls[place]? = some (.registered ticket phase)) (live : phase.isLive = true) :
    s.clock < ticket.deadline :=
  lt_deadline_of_expire?_eq_none (deliver?_of_rest rest) (perform?_of_rest rest .expire) stands live

/-- The tickets of the calls that are still going on and have no settlement to take, in order of issue:
the outstanding ones. -/
def outstanding (s : Session) : List Ticket :=
  s.liveTickets.filter fun t => (s.settlement? t).isNone

/-- A ticket is outstanding if it is that of a call at some place that is still going on and has no
settlement to take. -/
theorem mem_outstanding {ticket : Ticket} :
    ticket ∈ s.outstanding ↔ ∃ (place : Nat) (phase : Phase),
      s.calls[place]? = some (.registered ticket phase) ∧ phase.isLive = true ∧
        s.settlement? ticket = none := by
  rw [outstanding, List.mem_filter, mem_liveTickets, Option.isNone_iff_eq_none]
  exact ⟨fun ⟨⟨place, phase, hstands, hlive⟩, hnone⟩ => ⟨place, phase, hstands, hlive, hnone⟩,
    fun ⟨place, phase, hstands, hlive, hnone⟩ => ⟨⟨place, phase, hstands, hlive⟩, hnone⟩⟩

/-- If no call can take its settlement, every call that is still going on is outstanding. -/
theorem outstanding_of_deliver?_eq_none (hdeliver : s.deliver? = none) :
    s.outstanding = s.liveTickets := by
  refine List.filter_eq_self.2 fun ticket hticket => ?_
  obtain ⟨place, phase, hstands, hlive⟩ := mem_liveTickets.1 hticket
  rw [settlement?_of_deliver?_eq_none hdeliver hstands hlive]
  rfl

/-- The registry has the numbers of the outstanding calls. -/
theorem mem_ids_iff (hs : s.Coheres) (id : Nat) :
    id ∈ s.registry.ids ↔ id ∈ s.outstanding.map Ticket.id := by
  rw [hs.numbered.mem_ids, List.mem_map]
  constructor
  · rintro ⟨slot, rfl, hslot⟩
    obtain ⟨hlt, -⟩ := List.getElem?_eq_some_iff.1 hslot
    obtain ⟨place, ticket, phase, hstands, rfl⟩ := Coherent.exists_of_slot_lt hs hlt
    obtain ⟨slot, hticket, hfits⟩ := Coherent.fits hs hstands
    rw [hslot] at hticket
    obtain rfl := Option.some.inj hticket
    have hnone : s.settlement? ticket = none := by simp [settlement?, Registry.look, hslot]
    exact ⟨ticket, mem_outstanding.2 ⟨place, phase, hstands, hfits, hnone⟩,
      Coherent.id_of_stands hs hstands⟩
  · rintro ⟨ticket, hticket, rfl⟩
    obtain ⟨place, phase, hstands, hlive, hnone⟩ := mem_outstanding.1 hticket
    exact ⟨ticket.slot, Coherent.id_of_stands hs hstands, waiting_of_unsettled hs hstands hlive hnone⟩

/-- The numbers of the calls that are still going on are in the order of issue. -/
theorem liveTickets_pairwise (hs : s.Coheres) :
    s.liveTickets.Pairwise fun t t' => t.id < t'.id := by
  refine Coherent.pairwise_filterMap hs fun c t ht => ?_
  obtain ⟨phase, hc, -⟩ := Call.liveTicket?_eq_some.1 ht
  exact ⟨t, phase, hc, rfl⟩

/-- The registry has the numbers of the outstanding calls, in the order of issue. -/
theorem Coheres.ids_eq (hs : s.Coheres) : s.registry.ids = s.outstanding.map Ticket.id := by
  -- Both lists are in order, so it is enough that they have the same members.
  refine List.Pairwise.eq_of_mem_iff hs.numbered.ordered ?_ (mem_ids_iff hs)
  rw [List.pairwise_map]
  exact (liveTickets_pairwise hs).filter _

/-- The registry has as many entries as calls are outstanding. -/
theorem Coheres.size_eq (hs : s.Coheres) : s.registry.size = s.outstanding.length := by
  have hlen := congrArg List.length hs.ids_eq
  rw [List.length_map, Registry.ids, List.length_map] at hlen
  exact hlen

/-- The calls that are still going on are those that were registered and have since neither come out
nor been given up. -/
theorem Course.mem_liveTickets_iff (course : Course u.fresh past s) {ticket : Ticket} :
    ticket ∈ s.liveTickets ↔ ∃ place, ∃ issue ∈ past, issue.Issues place ticket ∧
      (∃ phase, issue.after.calls[place]? = some (.registered ticket phase)) ∧
      (∀ d ∈ past, ∀ o, ¬ d.Concludes place o) ∧ ¬ GivenUp past place := by
  rw [mem_liveTickets]
  constructor
  · rintro ⟨place, phase, hstands, hlive⟩
    obtain ⟨earlier, issue, since, hpast, hissues, hmade, -⟩ := course.issued hstands
    refine ⟨place, issue, by simp [hpast], hissues, hmade, fun d hd o hends => ?_, fun hgiven => ?_⟩
    · obtain ⟨earlier, later, rfl⟩ := List.append_of_mem hd
      have hout := course.outcomeAt?_eq_some_iff.2 ⟨earlier, d, later, rfl, hends⟩
      rw [outcomeAt?, hstands, Option.bind_some, Call.outcome?_of_isLive hlive] at hout
      simp at hout
    · obtain ⟨ticket', hgone⟩ := course.givenUp_iff.1 hgiven
      rw [hstands] at hgone
      obtain ⟨-, rfl⟩ := Call.registered.inj (Option.some.inj hgone)
      simp [Phase.isLive] at hlive
  · rintro ⟨place, issue, hissue, -, ⟨phase, hmade⟩, hnever, hkept⟩
    obtain ⟨earlier, later, rfl⟩ := List.append_of_mem hissue
    obtain ⟨phase', hstands⟩ := course.split.2.2.registered_stays hmade
    refine ⟨place, phase', hstands, ?_⟩
    cases phase' with
    | waiting | queued => rfl
    | ended o =>
      have hout : s.outcomeAt? place = some o := by rw [outcomeAt?, hstands]; rfl
      obtain ⟨earlier', d, later', hpast, hends⟩ := course.outcomeAt?_eq_some_iff.1 hout
      exact absurd hends (hnever d (by simp [hpast]) o)
    | abandoned => exact absurd (course.givenUp_iff.2 ⟨ticket, hstands⟩) hkept

/-- When a client can do nothing more before the clock moves, its registry holds the numbers of
exactly the calls that were registered and are still going on, in order of issue: those that have
neither come out since nor been given up by their callers. The time of each of them, counted from its
issue with the window that the client had then, is still to come, and if the registry is closed there
is no such call. -/
theorem registry_of_rest {h : List Change} (course : Course u.fresh h s) (rest : s.next? = none) :
    s.registry.ids = s.liveTickets.map Ticket.id ∧
      s.registry.size = s.liveTickets.length ∧
      s.registry.ids.Nodup ∧
      (∀ t, t ∈ s.liveTickets ↔ ∃ place, ∃ issue ∈ h, issue.Issues place t ∧
        (∃ phase, issue.after.calls[place]? = some (.registered t phase)) ∧
        (∀ d ∈ h, ∀ o, ¬ d.Concludes place o) ∧ ¬ GivenUp h place) ∧
      (∀ t ∈ s.liveTickets, ∃ (place : Nat) (phase : Phase), ∃ issue ∈ h,
        s.calls[place]? = some (.registered t phase) ∧ issue.Issues place t ∧
          s.clock < issue.before.clock + issue.before.window) ∧
      (s.registry.closed = true → s.liveTickets = []) := by
  have hs := course.coheres (coheres_fresh u)
  have hall := outstanding_of_deliver?_eq_none (deliver?_of_rest rest)
  have hids := hs.ids_eq
  have hsize := hs.size_eq
  rw [hall] at hids hsize
  refine ⟨hids, hsize, hs.numbered.nodup_ids, fun t => course.mem_liveTickets_iff, fun t ht => ?_,
    fun hclosed => ?_⟩
  · obtain ⟨place, phase, hstands, hlive⟩ := mem_liveTickets.1 ht
    obtain ⟨earlier, issue, since, hpast, hissues, -⟩ := course.issued hstands
    have hlt := lt_deadline_of_rest rest hstands hlive
    rw [Ticket.deadline, hissues.issuedAt, hissues.window] at hlt
    exact ⟨place, phase, issue, by simp [hpast], hstands, hissues, hlt⟩
  · have hempty : s.registry.size = 0 := by
      rw [Registry.size, hs.numbered.closed hclosed, List.length_nil]
    exact List.eq_nil_of_length_eq_zero (by omega)

/-- Of three calls the first gets its reply and the second is given up by its caller; the third is left
outstanding. -/
theorem registry_of_rest_third_call :
    ∃ h s, Course Setup.sample.fresh h s ∧ s.next? = none ∧ s.registry.ids = [3] ∧
      s.registry.ids = s.liveTickets.map Ticket.id ∧ s.registry.size = s.liveTickets.length ∧
      (∃ d ∈ h, d.Concludes 0 (.ok (.bool true))) ∧ GivenUp h 1 := by
  obtain ⟨h, course, rest⟩ := exists_course Setup.sample
    [[.start], [.issue .sample, .issue .sample, .issue .sample], [.send sampleReply, .abandon 1]]
  obtain ⟨hids, hsize, -⟩ := registry_of_rest course rest
  obtain ⟨earlier, d, later, hh, hends⟩ := course.outcomeAt?_eq_some_iff.1
    (show outcomeAt? _ 0 = some (.ok (.bool true)) from rfl)
  exact ⟨h, _, course, rest, rfl, hids, hsize, ⟨d, by simp [hh], hends⟩,
    course.givenUp_iff.2 ⟨_, rfl⟩⟩

end PipeCall.Session
