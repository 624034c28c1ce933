import PipeCall.Proofs.Session.Outcome

/-!
# The order of the outbound queue

The requests of all calls that were ever taken into the outbound queue stand in one line, whether the
writer has taken them off it or not (`Line`). A call that comes into the queue goes to the end of the
line. It may do so while a call that was made before it still waits for room: a place that comes free
is kept for a call that waits, but while that has not had its turn there may be further places, which
go to whoever asks first. So two requests stand in the order of their calls' numbers exactly if the
later call has not overtaken the other in this way (`Ahead`). `Line.extend` is what every change comes
down to.
-/

namespace PipeCall.Session

/-- A change takes the call in a place into the queue. -/
structure Change.Enters (c : Change) (place : Nat) (t : Ticket) : Prop where
  after : c.after.calls[place]? = some (.registered t .queued)
  before : c.before.calls[place]? ≠ some (.registered t .queued)

/-- A change takes a call into the queue while another that was made before it waits for room. -/
def Change.Overtakes (c : Change) (r r' : Request) : Prop :=
  ∃ (place place' : Nat) (t t' : Ticket), c.Enters place t ∧ t.request = r ∧
    c.after.calls[place']? = some (.registered t' .waiting) ∧ t'.request = r' ∧ r'.id < r.id

/-- The first of two requests has overtaken the other. -/
def Overtakes (past : List Change) (r r' : Request) : Prop := ∃ c ∈ past, c.Overtakes r r'

/-- The first of two requests comes before the other: its call was made first and not overtaken, or has
overtaken the other. -/
def Ahead (past : List Change) (r r' : Request) : Prop :=
  r.id < r'.id ∧ ¬ Overtakes past r' r ∨ Overtakes past r r'

/-- The requests of the calls that were taken into the queue, in order. -/
structure Line (past : List Change) (s : Session) (line : List Request) : Prop where
  ordered : line.Pairwise (Ahead past)
  mem_iff {r : Request} : r ∈ line ↔ ∃ (place : Nat) (t : Ticket) (phase : Phase),
    s.calls[place]? = some (.registered t phase) ∧ t.request = r ∧ Entered past place

variable {s t : Session} {past later : List Change} {c : Change} {u : Setup} {cause : Cause}
  {place : Nat} {ticket : Ticket} {phase : Phase}

/-- A request that has overtaken another has the greater number. -/
theorem Overtakes.lt {r r' : Request} (h : Overtakes past r r') : r'.id < r.id := by
  obtain ⟨_, _, _, _, _, _, _, _, _, _, hlt⟩ := h
  exact hlt

/-- Two requests of which one comes before the other have different numbers. -/
theorem Ahead.ne {r r' : Request} (h : Ahead past r r') : r.id ≠ r'.id := by
  rcases h with ⟨hlt, -⟩ | hover
  · omega
  · have hlt := hover.lt
    omega

/-- Requests in the order in which they came in are in the order of their numbers exactly if none has
overtaken another. -/
theorem increasing_iff {line : List Request} (ordered : line.Pairwise (Ahead past)) :
    line.Pairwise (fun r r' => r.id < r'.id) ↔
      ∀ r ∈ line, ∀ r' ∈ line, ¬ Overtakes past r r' := by
  constructor
  · intro hincreasing r hr r' hr' hover
    have hlt := hover.lt
    -- The one with the smaller number stands first, and so was not overtaken.
    have hboth := hincreasing.and ordered
    obtain ⟨i, hi, rfl⟩ := List.getElem_of_mem hr
    obtain ⟨j, hj, rfl⟩ := List.getElem_of_mem hr'
    rw [List.pairwise_iff_getElem] at hboth
    rcases Nat.lt_trichotomy i j with hij | rfl | hij
    · have hless := (hboth i j hi hj hij).1
      omega
    · omega
    · rcases (hboth j i hj hi hij).2 with ⟨-, hnot⟩ | hback
      · exact hnot hover
      · have hless := hback.lt
        omega
  · intro hnone
    refine ordered.imp_of_mem fun {r r'} hr hr' hahead => ?_
    rcases hahead with ⟨hlt, -⟩ | hover
    · exact hlt
    · exact absurd hover (hnone r hr r' hr')

/-! ## Calls that wait, and calls that were taken in -/

/-- A call that is in the queue after a change and was not so before has waited for room, or is made by
it. -/
theorem CallChange.of_queued {call? : Option Call}
    (h : CallChange s cause place call? (some (.registered ticket .queued)))
    (hbefore : call? ≠ some (.registered ticket .queued)) :
    call? = none ∨ call? = some (.registered ticket .waiting) := by
  cases h with
  | kept => exact absurd rfl hbefore
  | entered => exact Or.inl rfl
  | queued => exact Or.inr rfl

/-- A call that is in the queue was taken into it. -/
theorem Course.entered (course : Course u.fresh past s)
    (stands : s.calls[place]? = some (.registered ticket .queued)) : Entered past place := by
  cases course with
  | nil => simp [Setup.fresh, new] at stands
  | snoc course becomes =>
    exact ⟨_, List.mem_append_right _ (List.mem_singleton_self _), ticket, stands⟩

/-- A call that was taken into the queue is there. -/
theorem Course.registered_of_entered (course : Course u.fresh past s)
    (entered : Entered past place) :
    ∃ ticket phase, s.calls[place]? = some (.registered ticket phase) := by
  cases hcall : s.calls[place]? with
  | none => exact absurd entered (course.not_entered (by simp [hcall]))
  | some c =>
    cases c with
    | refused e => exact absurd entered (course.not_entered (by simp [hcall]))
    | registered ticket phase => exact ⟨ticket, phase, rfl⟩

/-- A call was taken into the queue up to now if it was so before, or is in the queue now. -/
theorem entered_concat {d : Change} :
    Entered (past ++ [d]) place ↔
      Entered past place ∨ ∃ ticket, d.after.calls[place]? = some (.registered ticket .queued) := by
  unfold Entered
  constructor
  · rintro ⟨c, hc, ticket, hqueued⟩
    rcases List.mem_append.1 hc with hc | hc
    · exact Or.inl ⟨c, hc, ticket, hqueued⟩
    · obtain rfl := List.mem_singleton.1 hc
      exact Or.inr ⟨ticket, hqueued⟩
  · rintro (⟨c, hc, ticket, hqueued⟩ | ⟨ticket, hqueued⟩)
    · exact ⟨c, List.mem_append_left _ hc, ticket, hqueued⟩
    · exact ⟨d, List.mem_append_right _ (List.mem_singleton_self _), ticket, hqueued⟩

/-- A call that is taken into the queue was never so before. -/
theorem Course.not_entered_of_enters (course : Course u.fresh past s) (becomes : s.Becomes cause t)
    (enters : Change.Enters ⟨s, cause, t⟩ place ticket) : ¬ Entered past place := by
  have hchange := becomes.effect.callChange place
  rw [show t.calls[place]? = _ from enters.after] at hchange
  refine course.not_entered fun ticket' phase' hstands => ?_
  rcases hchange.of_queued enters.before with hnone | hwaits
  · simp [hstands] at hnone
  · rw [hstands] at hwaits
    exact (Call.registered.inj (Option.some.inj hwaits)).2

/-- A call that was taken into the queue was so by one change. -/
theorem Course.exists_enters (course : Course u.fresh past s) (entered : Entered past place)
    (stands : s.calls[place]? = some (.registered ticket phase)) :
    ∃ earlier c later, past = earlier ++ c :: later ∧ c.Enters place ticket := by
  induction course generalizing phase with
  | nil =>
    obtain ⟨_, hc, -⟩ := entered
    exact absurd hc List.not_mem_nil
  | @snoc past s t cause course becomes ih =>
    by_cases hbefore : Entered past place
    · obtain ⟨ticket', phase', hstood⟩ := course.registered_of_entered hbefore
      have hchange := becomes.effect.callChange place
      rw [hstood] at hchange
      obtain ⟨phase'', hstands⟩ := hchange.registered
      rw [stands] at hstands
      obtain ⟨rfl, -⟩ := Call.registered.inj (Option.some.inj hstands)
      obtain ⟨earlier, c, later, rfl, henters⟩ := ih hbefore hstood
      exact ⟨earlier, c, later ++ [⟨s, cause, t⟩], by simp, henters⟩
    · -- It is in the queue after the last change, and was not before.
      rcases entered_concat.1 entered with hentered | ⟨ticket', hqueued⟩
      · exact absurd hentered hbefore
      · rw [show t.calls[place]? = _ from stands] at hqueued
        obtain ⟨rfl, rfl⟩ := Call.registered.inj (Option.some.inj hqueued)
        exact ⟨past, _, [], rfl, stands, fun hqueued => hbefore (course.entered hqueued)⟩

/-- A call that waits for room has done so ever since it was made. -/
theorem Course.waited (course : Course s past t)
    (waits : t.calls[place]? = some (.registered ticket .waiting))
    (stood : s.calls[place]? = some (.registered ticket phase)) : phase = .waiting := by
  induction course with
  | nil =>
    rw [stood] at waits
    exact (Call.registered.inj (Option.some.inj waits)).2
  | snoc course becomes ih =>
    obtain ⟨phase', hstands⟩ := course.registered_stays stood
    have hchange := becomes.effect.callChange place
    rw [hstands, waits] at hchange
    obtain rfl : phase' = .waiting := hchange.waiting (by simp) _ _ rfl
    exact ih hstands

/-- A call that is made or taken in later than another that was made after it has been overtaken by
it. -/
theorem Course.overtakes (course : Course u.fresh (past ++ c :: later) s)
    {place' : Nat} {ticket' : Ticket} (enters : c.Enters place ticket)
    (waits : s.calls[place']? = some (.registered ticket' .waiting)) (first : ticket'.id < ticket.id) :
    c.Overtakes ticket.request ticket'.request := by
  obtain ⟨hfirst, hbecomes, hlater⟩ := course.split
  have hs := (course.sound (sound_fresh u)).2.coheres
  have hc := ((hfirst.sound (sound_fresh u)).2.becomes hbecomes).coheres
  -- The call that waits in the end was there already, as its number is the smaller one.
  have hid := Coherent.id_of_stands hc enters.after
  have hid' := Coherent.id_of_stands hs waits
  have hlt := Coherent.slot_lt hc enters.after
  have hslot : ticket'.slot < c.after.registry.slots.length := by omega
  obtain ⟨phase', hstood⟩ := hlater.stood hs hc waits (List.getElem?_eq_getElem hslot)
  obtain rfl := hlater.waited waits hstood
  exact ⟨place, place', ticket, ticket', enters, rfl, hstood, rfl, first⟩

/-- Two registered calls with one request are one. -/
theorem Coheres.place_of_request (hs : s.Coheres) {place' : Nat} {ticket' : Ticket} {phase' : Phase}
    (stands : s.calls[place]? = some (.registered ticket phase))
    (stands' : s.calls[place']? = some (.registered ticket' phase'))
    (same : ticket.request = ticket'.request) : place = place' := by
  have hsame : ticket.id = ticket'.id := congrArg Request.id same
  have hid := Coherent.id_of_stands hs stands
  have hid' := Coherent.id_of_stands hs stands'
  exact Coherent.place_unique hs stands stands' (by omega)

/-- A call that was taken into the queue does not wait for room. -/
theorem Course.not_waiting (course : Course u.fresh past s) (entered : Entered past place)
    (stands : s.calls[place]? = some (.registered ticket phase)) {place' : Nat} {ticket' : Ticket}
    (waits : s.calls[place']? = some (.registered ticket' .waiting)) :
    ticket'.request ≠ ticket.request := by
  intro hsame
  obtain rfl := (course.coheres (coheres_fresh u)).place_of_request waits stands hsame
  refine course.not_entered (fun ticket phase hstands => ?_) entered
  rw [waits] at hstands
  exact (Call.registered.inj (Option.some.inj hstands)).2.symm

/-- A request that comes in now has overtaken another only if it does so now. -/
theorem Course.overtakes_now (course : Course u.fresh past s) (becomes : s.Becomes cause t)
    (enters : Change.Enters ⟨s, cause, t⟩ place ticket) {r : Request}
    (h : Overtakes (past ++ [⟨s, cause, t⟩]) ticket.request r) :
    Change.Overtakes ⟨s, cause, t⟩ ticket.request r := by
  obtain ⟨c, hc, hover⟩ := h
  rcases List.mem_append.1 hc with hc | hc
  · -- It did not come in before.
    obtain ⟨place', _, ticket', _, henters, hrequest, -⟩ := hover
    obtain ⟨earlier, behind, rfl⟩ := List.append_of_mem hc
    obtain ⟨phase', hstood⟩ := (course.split.2.2.snoc becomes).registered_stays henters.after
    have ht := becomes.effect.coherent (course.coheres (coheres_fresh u))
    obtain rfl := ht.place_of_request enters.after hstood hrequest.symm
    exact absurd ⟨c, hc, ticket', henters.after⟩ (course.not_entered_of_enters becomes enters)
  · obtain rfl := List.mem_singleton.1 hc
    exact hover

/-! ## The line along a course -/

namespace Line

variable {line : List Request}

/-- The calls in the line have smaller numbers than the next call. -/
theorem lt_next (h : Line past s line) (hs : s.Coheres) {r : Request} (hr : r ∈ line) :
    r.id < s.ids.next := by
  obtain ⟨place, ticket, phase, hstands, rfl, -⟩ := h.mem_iff.1 hr
  have hid : ticket.request.id = ticket.slot + 1 := Coherent.id_of_stands hs hstands
  have hlt := Coherent.slot_lt hs hstands
  have hnext := hs.lt_next
  omega

/-- A request in the line does not come in again. -/
theorem not_enters (h : Line past s line) (course : Course u.fresh past s)
    (becomes : s.Becomes cause t) (enters : Change.Enters ⟨s, cause, t⟩ place ticket) :
    ticket.request ∉ line := by
  intro hr
  obtain ⟨place', ticket', phase', hstands', hsame, hentered⟩ := h.mem_iff.1 hr
  have hchange := becomes.effect.callChange place'
  rw [hstands'] at hchange
  obtain ⟨phase'', hstood⟩ := hchange.registered
  have ht := becomes.effect.coherent (course.coheres (coheres_fresh u))
  obtain rfl := ht.place_of_request enters.after hstood hsame.symm
  exact course.not_entered_of_enters becomes enters hentered

/-- A request in the line comes before one that comes in now. -/
theorem ahead_of_enters (h : Line past s line) (course : Course u.fresh past s)
    (becomes : s.Becomes cause t) (enters : Change.Enters ⟨s, cause, t⟩ place ticket) {r : Request}
    (hr : r ∈ line) : Ahead (past ++ [⟨s, cause, t⟩]) r ticket.request := by
  have hs := course.coheres (coheres_fresh u)
  have ht := becomes.effect.coherent hs
  obtain ⟨place', ticket', phase', hstands', rfl, hentered⟩ := h.mem_iff.1 hr
  have hchange := becomes.effect.callChange place'
  rw [hstands'] at hchange
  obtain ⟨phase'', hstood⟩ := hchange.registered
  have hid := Coherent.id_of_stands ht enters.after
  have hid' := Coherent.id_of_stands ht hstood
  rcases Nat.lt_trichotomy ticket'.id ticket.id with hlt | heq | hgt
  · refine Or.inl ⟨hlt, fun hover => ?_⟩
    -- The one in the line does not wait any more.
    obtain ⟨_, _, _, _, _, _, hwaits, hsame, -⟩ := course.overtakes_now becomes enters hover
    exact (course.snoc becomes).not_waiting (entered_concat.2 (Or.inl hentered)) hstood hwaits hsame
  · obtain rfl := Coherent.place_unique ht enters.after hstood (by omega)
    exact absurd hentered (course.not_entered_of_enters becomes enters)
  · -- The one that comes in now was made first, and has waited since.
    obtain ⟨earlier, c, behind, rfl, henters⟩ := course.exists_enters hentered hstands'
    have hwaits : s.calls[place]? = some (.registered ticket .waiting) := by
      have hcall := becomes.effect.callChange place
      rw [show t.calls[place]? = _ from enters.after] at hcall
      rcases hcall.of_queued enters.before with hnone | hwaits
      · -- A call that is made now has the greatest number.
        rw [hnone] at hcall
        have hnext := h.lt_next hs hr
        cases hcall with
        | entered =>
          have hnew : s.ids.next < ticket'.id := hgt
          have hold : ticket'.id < s.ids.next := hnext
          omega
      · exact hwaits
    have hover := course.overtakes henters hwaits hgt
    exact Or.inr ⟨c, by simp, hover⟩

/-- Requests that come into the queue are put at the end of the line. -/
theorem extend (h : Line past s line) (course : Course u.fresh past s) (becomes : s.Becomes cause t)
    {added : List Request} (ordered : added.Pairwise (fun r r' => r.id < r'.id))
    (queued : ∀ (place : Nat) (ticket : Ticket),
      t.calls[place]? = some (.registered ticket .queued) →
        s.calls[place]? = some (.registered ticket .queued) ∨ ticket.request ∈ added)
    (enter : ∀ r ∈ added, ∃ (place : Nat) (ticket : Ticket),
      Change.Enters ⟨s, cause, t⟩ place ticket ∧ ticket.request = r) :
    Line (past ++ [⟨s, cause, t⟩]) t (line ++ added) := by
  have hall := course.snoc becomes
  refine ⟨List.pairwise_append.2 ⟨?_, ?_, ?_⟩, fun {r} => ?_⟩
  · -- Neither of two requests in the line comes in now.
    refine h.ordered.imp_of_mem fun {r r'} _ hr' hahead => ?_
    rcases hahead with ⟨hlt, hnot⟩ | ⟨c, hc, hover⟩
    · refine Or.inl ⟨hlt, ?_⟩
      rintro ⟨c, hc, hover⟩
      rcases List.mem_append.1 hc with hc | hc
      · exact hnot ⟨c, hc, hover⟩
      · obtain rfl := List.mem_singleton.1 hc
        obtain ⟨_, _, _, _, henters, rfl, -⟩ := hover
        exact h.not_enters course becomes henters hr'
    · exact Or.inr ⟨c, List.mem_append_left _ hc, hover⟩
  · -- Of two that come in now the first does not wait any more.
    refine ordered.imp_of_mem fun {r r'} hr hr' hlt => Or.inl ⟨hlt, fun hover => ?_⟩
    obtain ⟨place, ticket, henters, rfl⟩ := enter r hr
    obtain ⟨place', ticket', henters', rfl⟩ := enter r' hr'
    obtain ⟨_, _, _, _, _, _, hwaits, hsame, -⟩ := course.overtakes_now becomes henters' hover
    exact hall.not_waiting (hall.entered henters.after) henters.after hwaits hsame
  · intro r hr r' hr'
    obtain ⟨place, ticket, henters, rfl⟩ := enter r' hr'
    exact h.ahead_of_enters course becomes henters hr
  · rw [List.mem_append, h.mem_iff]
    constructor
    · rintro (⟨place, ticket, phase, hstands, hr, hentered⟩ | hr)
      · have hchange := becomes.effect.callChange place
        rw [hstands] at hchange
        obtain ⟨phase', hafter⟩ := hchange.registered
        exact ⟨place, ticket, phase', hafter, hr, entered_concat.2 (Or.inl hentered)⟩
      · obtain ⟨place, ticket, henters, hr⟩ := enter r hr
        exact ⟨place, ticket, .queued, henters.after, hr,
          entered_concat.2 (Or.inr ⟨ticket, henters.after⟩)⟩
    · rintro ⟨place, ticket, phase, hstands, rfl, hentered⟩
      -- A call that was in the line before has kept its ticket.
      have hold : Entered past place →
          ∃ (place : Nat) (t : Ticket) (phase : Phase), s.calls[place]? = some (.registered t phase) ∧
            t.request = ticket.request ∧ Entered past place := by
        intro hentered
        obtain ⟨ticket', phase', hbefore⟩ := course.registered_of_entered hentered
        have hchange := becomes.effect.callChange place
        rw [hbefore] at hchange
        obtain ⟨phase'', hafter⟩ := hchange.registered
        rw [hstands] at hafter
        obtain ⟨rfl, -⟩ := Call.registered.inj (Option.some.inj hafter)
        exact ⟨place, ticket, phase', hbefore, rfl, hentered⟩
      rcases entered_concat.1 hentered with hentered | ⟨ticket', hqueued⟩
      · exact Or.inl (hold hentered)
      · rcases queued place ticket' hqueued with hbefore | hadded
        · exact Or.inl (hold (course.entered hbefore))
        · rw [hstands] at hqueued
          obtain ⟨rfl, -⟩ := Call.registered.inj (Option.some.inj hqueued)
          exact Or.inr hadded

/-- A change that takes no call into the queue leaves the line. -/
theorem keep (h : Line past s line) (course : Course u.fresh past s) (becomes : s.Becomes cause t)
    (queued : ∀ (place : Nat) (ticket : Ticket),
      t.calls[place]? = some (.registered ticket .queued) →
        s.calls[place]? = some (.registered ticket .queued)) :
    Line (past ++ [⟨s, cause, t⟩]) t line := by
  have hextend := h.extend course becomes List.Pairwise.nil
    (fun place ticket hq => Or.inl (queued place ticket hq)) (by simp)
  rw [List.append_nil] at hextend
  exact hextend

end Line

/-! ## What comes into the queue -/

/-- A call that is made is taken into the queue if it finds a place there, or leaves it alone. -/
theorem queue_issue (s : Session) (order : Order) :
    (∃ ticket : Ticket, s.writer.isAlive = true ∧ s.hasRoom = true ∧
      (s.issue order).calls = s.calls ++ [.registered ticket .queued] ∧
      (s.issue order).queue = s.queue ++ [ticket.request]) ∨
    (∃ c, (∀ ticket, c ≠ .registered ticket .queued) ∧
      (∀ ticket, c = .registered ticket .waiting → s.hasRoom = false) ∧
      (s.issue order).calls = s.calls ++ [c] ∧ (s.issue order).queue = s.queue) := by
  unfold issue
  split
  · cases hreg : s.registry.register s.ids.next with
    | error refusal =>
      have hreg' : s.registry.register s.ids.take.1 = .error refusal := hreg
      simp only [hreg']
      exact Or.inr ⟨_, by simp, by simp, rfl, rfl⟩
    | ok r =>
      obtain ⟨slot, registry⟩ := r
      have hreg' : s.registry.register s.ids.take.1 = .ok (slot, registry) := hreg
      simp only [hreg']
      unfold enqueue
      split
      · exact Or.inr ⟨_, by simp, by simp, rfl, rfl⟩
      · rename_i halive
        split
        · rename_i hroom
          exact Or.inl ⟨_, by simpa using halive, hroom, rfl, rfl⟩
        · rename_i hfull
          exact Or.inr ⟨_, by simp, fun _ _ => Bool.eq_false_iff.2 hfull, rfl, rfl⟩
  · exact Or.inr ⟨_, by simp, by simp, rfl, rfl⟩
  · exact Or.inr ⟨_, by simp, by simp, rfl, rfl⟩

/-- A change may take calls into the queue: one is made, or one that waits for room gets its turn. -/
def Cause.Admits (cause : Cause) : Prop :=
  (∃ order, cause = .command (.issue order)) ∨ cause = .move .refill ∨
    ∃ place, cause = .move (.turn place)

/-- Only the writer, the calls that are made and those that wait for room change the queue. -/
theorem Becomes.queue (h : s.Becomes cause t) (hwrite : cause ≠ .move .write)
    (hadmits : ¬ cause.Admits) : t.queue = s.queue := by
  cases h.touches with
  | write => exact absurd rfl hwrite
  | issue => exact absurd (Or.inl ⟨_, rfl⟩) hadmits
  | refill => exact absurd (Or.inr (Or.inl rfl)) hadmits
  | turn => exact absurd (Or.inr (Or.inr ⟨_, rfl⟩)) hadmits
  | _ => rfl

/-- Only the calls that are made and those that wait for room come into the queue. -/
theorem CallChange.queued_before {call? : Option Call}
    (h : CallChange s cause place call? (some (.registered ticket .queued)))
    (hadmits : ¬ cause.Admits) : call? = some (.registered ticket .queued) := by
  cases h with
  | kept => rfl
  | entered issued => exact absurd (Or.inl ⟨_, issued⟩) hadmits
  | queued admits =>
    rcases admits with hrefill | hturn
    · exact absurd (Or.inr (Or.inl hrefill)) hadmits
    · exact absurd (Or.inr (Or.inr ⟨_, hturn⟩)) hadmits

namespace Line

variable {line : List Request}

/-- A change that lets no call into the queue leaves the line. -/
theorem keep_of_ne (h : Line past s line) (course : Course u.fresh past s)
    (becomes : s.Becomes cause t) (hadmits : ¬ cause.Admits) :
    Line (past ++ [⟨s, cause, t⟩]) t line := by
  refine h.keep course becomes fun place ticket hstands => ?_
  have hchange := becomes.effect.callChange place
  rw [hstands] at hchange
  exact hchange.queued_before hadmits

/-- A call that is made goes to the end of the line, or does not come into it. -/
theorem issue (h : Line past s line) (course : Course u.fresh past s) (order : Order) :
    ∃ added, (s.issue order).queue = s.queue ++ added ∧
      (added = [] ∨ s.writer.isAlive = true) ∧
      Line (past ++ [⟨s, .command (.issue order), s.issue order⟩]) (s.issue order)
        (line ++ added) := by
  have becomes : s.Becomes (.command (.issue order)) (s.issue order) := rfl
  rcases queue_issue s order with ⟨ticket, halive, -, hcalls, hqueue⟩ | ⟨c, hc, -, hcalls, hqueue⟩
  · refine ⟨[ticket.request], hqueue, Or.inr halive, h.extend course becomes (by simp) ?_ ?_⟩
    · intro place ticket' hstands
      rw [hcalls, List.getElem?_append] at hstands
      split at hstands
      · exact Or.inl hstands
      · have hmem := List.mem_of_getElem? hstands
        obtain ⟨rfl, -⟩ := Call.registered.inj (List.mem_singleton.1 hmem)
        exact Or.inr (List.mem_singleton_self _)
    · intro r hr
      obtain rfl := List.mem_singleton.1 hr
      exact ⟨s.calls.length, ticket, ⟨by simp [hcalls], by simp⟩, rfl⟩
  · refine ⟨[], by rw [hqueue, List.append_nil], Or.inl rfl, ?_⟩
    rw [List.append_nil]
    refine h.keep course becomes fun place ticket hstands => ?_
    rw [hcalls, List.getElem?_append] at hstands
    split at hstands
    · exact hstands
    · have hmem := List.mem_of_getElem? hstands
      exact absurd (List.mem_singleton.1 hmem).symm (hc ticket)

/-- Calls that wait for room go to the end of the line in the order of issue. -/
theorem letIn (h : Line past s line) (course : Course u.fresh past s)
    (becomes : s.Becomes (.move .refill) t) {room : Nat}
    (hcalls : t.calls = (Session.letIn room s.calls).1) :
    Line (past ++ [⟨s, .move .refill, t⟩]) t (line ++ (Session.letIn room s.calls).2) := by
  have hs := course.coheres (coheres_fresh u)
  obtain ⟨front, back, hsplit, hlet⟩ := letIn_eq room s.calls
  rw [hlet] at hcalls ⊢
  have hplaces : ∀ place : Nat, t.calls[place]? =
      if place < front.length then s.calls[place]?.map Call.enqueued else s.calls[place]? := by
    intro place
    rw [hcalls, hsplit]
    exact getElem?_enqueued_append front back place
  refine h.extend course becomes ?_ ?_ ?_
  · -- Those that are added are in the order of issue.
    have hall : (s.calls.filterMap Call.waitingRequest?).Pairwise (fun r r' => r.id < r'.id) := by
      refine Coherent.pairwise_filterMap hs fun c r hr => ?_
      obtain ⟨ticket, hc, rfl⟩ := Call.waitingRequest?_eq_some.1 hr
      exact ⟨ticket, .waiting, hc, rfl⟩
    rw [hsplit, List.filterMap_append, List.pairwise_append] at hall
    exact hall.1
  · -- A call that is queued now has waited among the first ones, or was queued before.
    intro place ticket hstands
    rw [hplaces] at hstands
    split at hstands
    · rename_i hlt
      obtain ⟨c, hc, henqueued⟩ := Option.map_eq_some_iff.1 hstands
      rcases Call.enqueued_eq_queued henqueued with rfl | rfl
      · refine Or.inr (List.mem_filterMap.2 ⟨.registered ticket .waiting, ?_, rfl⟩)
        rw [hsplit, List.getElem?_append_left hlt] at hc
        exact List.mem_of_getElem? hc
      · exact Or.inl hc
    · exact Or.inl hstands
  · -- What is added are the requests of the first calls that wait for room.
    intro r hr
    obtain ⟨c, hc, hrequest⟩ := List.mem_filterMap.1 hr
    obtain ⟨ticket, rfl, rfl⟩ := Call.waitingRequest?_eq_some.1 hrequest
    obtain ⟨place, hplace⟩ := List.getElem?_of_mem hc
    obtain ⟨hlt, -⟩ := List.getElem?_eq_some_iff.1 hplace
    have hwaits : s.calls[place]? = some (.registered ticket .waiting) := by
      rw [hsplit, List.getElem?_append_left hlt, hplace]
    exact ⟨place, ticket, ⟨by rw [hplaces, if_pos hlt, hwaits]; rfl, by simp [hwaits]⟩, rfl⟩

/-- A call that waits for room and gets its turn goes to the end of the line, or does not come into
it. -/
theorem turn (h : Line past s line) (course : Course u.fresh past s)
    (becomes : s.Becomes (.move (.turn place)) t) :
    ∃ added, t.queue = s.queue ++ added ∧ (added = [] ∨ s.writer.isAlive = true) ∧
      Line (past ++ [⟨s, .move (.turn place), t⟩]) t (line ++ added) := by
  cases turns_of_turn? becomes with
  | @ends ticket phase outcome stands =>
    refine ⟨[], (List.append_nil _).symm, Or.inl rfl, ?_⟩
    rw [List.append_nil]
    refine h.keep course becomes fun place' ticket' hstands => ?_
    simp only [endAt, List.getElem?_set] at hstands
    split at hstands
    · split at hstands <;> simp at hstands
    · exact hstands
  | @enters ticket stands unsettled alive room =>
    obtain ⟨hlt, -⟩ := List.getElem?_eq_some_iff.1 stands
    refine ⟨[ticket.request], rfl, Or.inr alive, h.extend course becomes (by simp) ?_ ?_⟩
    · intro place' ticket' hstands
      simp only [List.getElem?_set] at hstands
      split at hstands
      · obtain ⟨rfl, -⟩ := Call.registered.inj (Option.some.inj hstands)
        exact Or.inr (List.mem_singleton_self _)
      · exact Or.inl hstands
    · intro r hr
      obtain rfl := List.mem_singleton.1 hr
      exact ⟨place, ticket, ⟨by simp [hlt], by simp [stands]⟩, rfl⟩

/-- What comes into the queue goes to the end of the line. -/
theorem takes_in (h : Line past s line) (course : Course u.fresh past s) (becomes : s.Becomes cause t)
    (hadmits : cause.Admits) :
    ∃ added, t.queue = s.queue ++ added ∧ (added = [] ∨ s.writer.isAlive = true) ∧
      Line (past ++ [⟨s, cause, t⟩]) t (line ++ added) := by
  rcases hadmits with ⟨order, rfl⟩ | rfl | ⟨place, rfl⟩
  · obtain rfl : t = s.issue order := becomes
    exact h.issue course order
  · obtain ⟨halive, -, -, heq⟩ := refill?_eq_some becomes
    exact ⟨_, by rw [← heq], Or.inr halive, h.letIn course becomes (by rw [← heq])⟩
  · exact h.turn course becomes

end Line

/-! ## Clients that settle -/

/-- If a call waits for room there is none. -/
def Crowded (s : Session) : Prop :=
  ∀ (place : Nat) (ticket : Ticket), s.calls[place]? = some (.registered ticket .waiting) →
    queueCapacity ≤ s.queue.length

/-- At rest a call waits for room only if there is none. -/
theorem crowded_of_rest (hs : s.Sound) (rest : s.next? = none) : s.Crowded := by
  intro place ticket hwaits
  have hdeliver := deliver?_of_rest rest
  have hrun := hs.running hwaits (waiting_of_deliver?_eq_none hs.coheres hdeliver hwaits rfl)
  rcases hs.staged.running hrun with halive | ⟨hlost, -⟩
  · by_contra hroom
    exact refill?_ne_none hdeliver halive hwaits (by omega) (perform?_of_rest rest .refill)
  · have hgone : s.writer.isGone = true := by rw [hlost]; rfl
    exact absurd (perform?_of_rest rest .refuse) (refuse?_ne_none hdeliver hgone hwaits)

/-- A call that is made finds no room while others wait for it. -/
theorem Crowded.not_hasRoom (h : s.Crowded)
    (waits : s.calls[place]? = some (.registered ticket .waiting)) : s.hasRoom = false := by
  have hfull := h place ticket waits
  exact decide_eq_false (by omega)

/-- Commands do not take requests off the queue. -/
theorem length_queue_apply (s : Session) (c : Command) :
    s.queue.length ≤ (s.apply c).queue.length := by
  have becomes : s.Becomes (.command c) (s.apply c) := rfl
  by_cases hissue : ∃ order, c = .issue order
  · obtain ⟨order, rfl⟩ := hissue
    show s.queue.length ≤ (s.issue order).queue.length
    rcases queue_issue s order with ⟨_, _, _, _, hqueue⟩ | ⟨_, _, _, _, hqueue⟩
    · rw [hqueue, List.length_append]
      omega
    · rw [hqueue]
  · rw [becomes.queue (by simp) (by rintro (⟨order, heq⟩ | heq | ⟨_, heq⟩) <;> simp_all)]

/-- A call that waits for room after a command waited before, or found none. -/
theorem Crowded.apply (h : s.Crowded) (c : Command) : (s.apply c).Crowded := by
  intro place ticket hwaits
  have hlength := length_queue_apply s c
  have becomes : s.Becomes (.command c) (s.apply c) := rfl
  have hchange := becomes.effect.callChange place
  rw [hwaits] at hchange
  generalize hbefore : s.calls[place]? = call? at hchange
  cases hchange with
  | kept =>
    have hfull := h place ticket hbefore
    omega
  | entered issued last =>
    obtain rfl := Cause.command.inj issued
    have hlast : (s.issue _).calls[s.calls.length]? = _ := last ▸ hwaits
    rcases queue_issue s _ with ⟨_, _, _, hcalls, _⟩ | ⟨c, _, hnone, hcalls, _⟩
    · rw [hcalls, List.getElem?_concat_length] at hlast
      simp at hlast
    · rw [hcalls, List.getElem?_concat_length] at hlast
      -- It found no room: the queue is full, or so many calls wait, and then it is full too.
      have hroom := of_decide_eq_false (hnone _ (Option.some.inj hlast))
      by_cases hsome : 0 < s.calls.countP Call.isWaiting
      · obtain ⟨w, hw, hwaiting⟩ := List.countP_pos_iff.1 hsome
        obtain ⟨place', hplace'⟩ := List.getElem?_of_mem hw
        cases w with
        | refused e => simp [Call.isWaiting] at hwaiting
        | registered ticket' phase' =>
          cases phase' with
          | waiting =>
            have hfull := h place' ticket' hplace'
            omega
          | queued | ended | abandoned => simp [Call.isWaiting, Phase.isWaiting] at hwaiting
      · omega

/-- Only a call that is made while there is room, or one that gets its turn alone, overtakes another. -/
theorem Becomes.overtakes (h : s.Becomes cause t) (hs : s.Coheres) {r r' : Request}
    (hover : Change.Overtakes ⟨s, cause, t⟩ r r') :
    ((∃ order, cause = .command (.issue order)) ∧ s.hasRoom = true ∧
      ∃ (place : Nat) (ticket : Ticket), s.calls[place]? = some (.registered ticket .waiting)) ∨
    ∃ place, cause = .move (.turn place) := by
  obtain ⟨place, place', ticket, ticket', henters, rfl, hwaits, rfl, hlt⟩ := hover
  have hafter : t.calls[place]? = some (.registered ticket .queued) := henters.after
  have hbefore : s.calls[place]? ≠ some (.registered ticket .queued) := henters.before
  have hstill : t.calls[place']? = some (.registered ticket' .waiting) := hwaits
  have hchange := h.effect.callChange place
  rw [hafter] at hchange
  by_cases hadmits : cause.Admits
  · rcases hadmits with ⟨order, rfl⟩ | rfl | hturn
    · obtain rfl : t = s.issue order := h
      rcases queue_issue s order with ⟨_, _, hroom, hcalls, _⟩ | ⟨c, hc, _, hcalls, _⟩
      · -- The call that is made comes in, so the one that waits was there before.
        rw [hcalls, List.getElem?_append] at hstill
        split at hstill
        · exact Or.inl ⟨⟨order, rfl⟩, hroom, place', ticket', hstill⟩
        · have hmem := List.mem_of_getElem? hstill
          simp at hmem
      · rw [hcalls, List.getElem?_append] at hafter
        split at hafter
        · exact absurd hafter hbefore
        · have hmem := List.mem_of_getElem? hafter
          exact absurd (List.mem_singleton.1 hmem).symm (hc ticket)
    · -- Those that are let in were made before those that go on waiting.
      obtain ⟨-, -, -, rfl⟩ := refill?_eq_some h
      have hfirst : s.calls[place]? = some (.registered ticket .waiting) := by
        rcases getElem?_letIn (queueCapacity - s.queue.length) s.calls place with
          heq | ⟨w, hfirst, hqueued⟩
        · exact absurd (heq.symm.trans hafter) hbefore
        · obtain ⟨rfl, -⟩ := Call.registered.inj (Option.some.inj (hqueued.symm.trans hafter))
          exact hfirst
      have hplace := place_lt_of_letIn hfirst hafter hstill
      have ht := h.effect.coherent hs
      have hslot := Coherent.slot_lt_slot ht hafter hstill hplace
      have hid := Coherent.id_of_stands ht hafter
      have hid' := Coherent.id_of_stands ht hstill
      have hless : ticket'.id < ticket.id := hlt
      omega
    · exact Or.inr hturn
  · exact absurd (hchange.queued_before hadmits) hbefore

/-- In a step no call overtakes another: the commands find no room while a call waits, and what
follows is the client's own order. -/
theorem course_step_in_turn (hs : s.Sound) (rest : s.next? = none) (commands : List Command) :
    ∃ h, Course s h (s.step commands) ∧ ∀ c ∈ h, ∀ r r', ¬ c.Overtakes r r' := by
  obtain ⟨given, hgiven, hcommands⟩ := course_commands commands s
  obtain ⟨moves, hmoves, hmakes⟩ := course_run (commands.foldl apply s).work (commands.foldl apply s)
  obtain ⟨hbefore, hafter⟩ := hgiven.keeps (P := fun t => t.Sound ∧ t.Crowded)
    ⟨hs, crowded_of_rest hs rest⟩ fun c hc h becomes => by
      obtain ⟨d, hd⟩ := hcommands c hc
      rw [hd] at becomes
      have heq : c.after = c.before.apply d := becomes
      exact ⟨h.1.becomes becomes, heq ▸ h.2.apply d⟩
  refine ⟨_, hgiven.append hmoves, fun c hc r r' hover => ?_⟩
  rcases List.mem_append.1 hc with hc | hc
  · obtain ⟨hsound, hcrowded⟩ := hbefore c hc
    rcases (hgiven.becomes hc).overtakes hsound.coheres hover with
      ⟨-, hroom, _, _, hwaits⟩ | ⟨_, hturn⟩
    · simp [hcrowded.not_hasRoom hwaits] at hroom
    · obtain ⟨d, hd⟩ := hcommands c hc
      simp [hd] at hturn
  · obtain ⟨m, hm, hmake⟩ := hmakes c hc
    have hsound := (hmoves.sound hafter.1).1 c hc
    rcases (hmoves.becomes hc).overtakes hsound.coheres hover with ⟨⟨order, hissue⟩, -⟩ | ⟨p, hturn⟩
    · simp [hm] at hissue
    · rw [hm] at hturn
      exact hmake.ne_turn p (Cause.move.inj hturn)

/-- A client that is given commands and settles, again and again, never lets a call overtake
another. -/
theorem exists_course_in_turn (u : Setup) (steps : List (List Command)) :
    ∃ h, Course u.fresh h (steps.foldl step u.fresh) ∧ ∀ r r', ¬ Overtakes h r r' := by
  obtain ⟨h, hcourse, -, hnone⟩ := exists_course_of_steps u (fun _ _ course rest =>
    course_step_in_turn (course.sound (sound_fresh u)).2 rest) steps
  exact ⟨h, hcourse, fun r r' ⟨c, hc, hover⟩ => hnone c hc r r' hover⟩

end PipeCall.Session
