import PipeCall.Proofs.Session.ReaderSide

/-!
# What a call sees of a client

What becomes of a call that waits for room no longer depends on the reader's side and on the call's own
slot, but not on the other calls, the queue, the writer or the output. `view` is all of it, and it goes
on by itself as the reader's side does (`autonomous_view`): a move of the client leaves it as it is, or
is its next step.
-/

namespace PipeCall.Session

variable {s t : Session} {cause : Cause} {place : Nat} {ticket : Ticket}

/-- What there is to know of a call that waits for room no longer. -/
structure View where
  side : Session
  ticket : Ticket
  /-- The call in its place. -/
  call : Option Call
  /-- Its slot. -/
  slot : Option Slot

/-- What a client shows of the call in a place that has this ticket. -/
def view (s : Session) (place : Nat) (ticket : Ticket) : View where
  side := s.readerSide
  ticket := ticket
  call := s.calls[place]?
  slot := s.registry.slots[ticket.slot]?

namespace View

/-- Whether the call is still going on. -/
def isLive (v : View) : Bool := v.call.any Call.isLive

/-- How the call ends now, if it does: with its settlement if that has come, or because its time is
up. -/
def due? (v : View) : Option Outcome :=
  if v.isLive then
    match v.slot with
    | some (.settled settlement) => some (outcomeOf v.ticket.shape settlement)
    | _ =>
      if v.ticket.deadline ≤ v.side.clock then
        some (.error (.timeout (Span.ofMillis v.ticket.window)))
      else none
  else none

/-- The call comes to be in a phase in which it is over. -/
def leaves (v : View) (phase : Phase) : View :=
  { v with call := some (.registered v.ticket phase), slot := v.slot.map fun _ => .dropped }

/-- What the next step of the reader's side does to the slot. -/
def reach (v : View) : Slot → Slot :=
  match v.side.read?, v.side.inFlight with
  | some _, _ => fun slot => slot
  | none, (id, reply) :: _ =>
    if id = v.ticket.id then Slot.deliver (.reply reply) else fun slot => slot
  | none, [] => Slot.deliver .shutDown

/-- The next step: the call ends, or the reader's side goes on. -/
def next? (v : View) : Option View :=
  match v.due? with
  | some outcome => some (v.leaves (.ended outcome))
  | none => (readerNext? v.side).map fun side => { v with side, slot := v.slot.map v.reach }

/-- What a command does to it. -/
def apply (place : Nat) (c : Command) (v : View) : View :=
  match c with
  | .abandon p => if p = place ∧ v.isLive then v.leaves .abandoned else v
  | .shutDown =>
    { v with
      side := (v.side.apply .shutDown).readerSide
      slot := v.slot.map (Slot.deliver .shutDown) }
  | c => { v with side := (v.side.apply c).readerSide }

end View

/-- Making a call changes no slot that was there before. -/
theorem slots_issue (hs : s.Coheres) {k : Nat} (hk : k < s.registry.slots.length) (order : Order) :
    (s.issue order).registry.slots[k]? = s.registry.slots[k]? := by
  cases effect_issue s order with
  | still _ registry => rw [registry]
  | refused _ _ registry => rw [registry]
  | unregistered _ _ _ registry => rw [registry]
  | admitted _ _ _ _ registered _ registry =>
    obtain ⟨-, -, -, rfl⟩ := Coherent.register_eq hs registered
    rw [registry, List.getElem?_append_left hk]
  | lost _ _ _ registered _ registry =>
    -- The slot that is made and dropped comes after it.
    obtain ⟨hopen, rfl, hnext, rfl⟩ := Coherent.register_eq hs registered
    rw [registry, hnext, (hs.numbered.add hopen).getElem?_slots_leave, if_neg (by omega),
      List.getElem?_append_left hk]
  | drained drains => simp at drains

/-- The call in the place has this ticket, and waits for room no longer. -/
structure Handed (s : Session) (place : Nat) (ticket : Ticket) : Prop extends s.Equipped where
  stands : ∃ phase, s.calls[place]? = some (.registered ticket phase) ∧ phase ≠ .waiting

namespace Handed

/-- The call stays as it should be. -/
theorem becomes (h : s.Handed place ticket) (becomes : s.Becomes cause t) :
    t.Handed place ticket := by
  refine ⟨h.toEquipped.becomes becomes, ?_⟩
  obtain ⟨phase, hstands, hphase⟩ := h.stands
  have hchange := becomes.effect.callChange place
  rw [hstands] at hchange
  generalize t.calls[place]? = call? at hchange ⊢
  cases hchange with
  | kept => exact ⟨phase, rfl, hphase⟩
  | queued => exact absurd rfl hphase
  | ended => exact ⟨_, rfl, by simp⟩
  | abandoned => exact ⟨_, rfl, by simp⟩

/-- A call that leaves the registry shows in its own view alone. -/
theorem view_of_unregister (h : s.Handed place ticket) {p : Nat} {u : Ticket} {phase phase' : Phase}
    (stands : s.calls[p]? = some (.registered u phase)) (side : t.readerSide = s.readerSide)
    (calls : t.calls = s.calls.set p (.registered u phase'))
    (registry : t.registry = s.unregister u) :
    t.view place ticket =
      if p = place then (s.view place ticket).leaves phase' else s.view place ticket := by
  have hcoheres := h.sound.coheres
  have hslot : t.registry.slots[ticket.slot]? =
      if u.slot = ticket.slot then s.registry.slots[ticket.slot]?.map fun _ => .dropped
      else s.registry.slots[ticket.slot]? := by
    rw [registry, unregister, Coherent.id_of_stands hcoheres stands,
      hcoheres.numbered.getElem?_slots_leave]
  obtain ⟨phase₀, hstands, -⟩ := h.stands
  by_cases heq : p = place
  · subst heq
    rw [stands] at hstands
    obtain ⟨rfl, -⟩ := Call.registered.inj (Option.some.inj hstands)
    obtain ⟨hlt, -⟩ := List.getElem?_eq_some_iff.1 stands
    rw [if_pos rfl] at hslot ⊢
    simp only [view, View.leaves, side, hslot, calls, List.getElem?_set_self hlt]
  · have hne : u.slot ≠ ticket.slot := fun hslots =>
      heq (Coherent.place_unique hcoheres stands hstands hslots)
    rw [if_neg hne] at hslot
    rw [if_neg heq]
    simp only [view, side, hslot, calls, List.getElem?_set_ne heq]

/-- A call that ends shows in its own view alone. -/
theorem view_conclude (h : s.Handed place ticket) {test : Ticket → Phase → Bool} {spot : Spot}
    (hspot : spot? test s.calls = some spot) (outcome : Outcome) :
    (s.conclude spot outcome).view place ticket =
      if spot.before.length = place then (s.view place ticket).leaves (.ended outcome)
      else s.view place ticket := by
  obtain ⟨hcalls, -⟩ := spot?_eq_some hspot
  have hstands := spot.getElem?_calls
  rw [hcalls] at hstands
  refine h.view_of_unregister hstands rfl ?_ rfl
  rw [← hcalls]
  exact spot.put_eq_set _

/-- The phase of the call tells whether it is still going on. -/
theorem isLive_view {phase : Phase} (stands : s.calls[place]? = some (.registered ticket phase)) :
    (s.view place ticket).isLive = phase.isLive := by
  simp [View.isLive, view, stands, Call.isLive]

/-- A call that has a settlement is due to end with it. -/
theorem due?_of_settled {phase : Phase} {settlement : Settlement}
    (stands : s.calls[place]? = some (.registered ticket phase)) (live : phase.isLive = true)
    (settled : s.settlement? ticket = some settlement) :
    (s.view place ticket).due? = some (outcomeOf ticket.shape settlement) := by
  have hslot := settlement?_eq_some_iff.1 settled
  rw [View.due?, if_pos (by rw [isLive_view stands, live])]
  simp only [view, hslot]

/-- If no call can take its settlement, a call is due to end only when its time is up. -/
theorem due?_of_waiting {phase : Phase} (h : s.Handed place ticket) (hdeliver : s.deliver? = none)
    (stands : s.calls[place]? = some (.registered ticket phase)) (live : phase.isLive = true) :
    (s.view place ticket).due? =
      if ticket.deadline ≤ s.clock then some (.error (.timeout (Span.ofMillis ticket.window)))
      else none := by
  have hwaits := waiting_of_deliver?_eq_none h.sound.coheres hdeliver stands live
  rw [View.due?, if_pos (by rw [isLive_view stands, live])]
  simp only [view, hwaits]
  rfl

/-- If no call can take its settlement and none is out of time, none is due to end. -/
theorem due?_eq_none (h : s.Handed place ticket) (hdeliver : s.deliver? = none)
    (hexpire : s.expire? = none) : (s.view place ticket).due? = none := by
  obtain ⟨phase, hstands, -⟩ := h.stands
  cases hlive : phase.isLive with
  | false => rw [View.due?, if_neg (by simp [isLive_view hstands, hlive])]
  | true =>
    have hlt := lt_deadline_of_expire?_eq_none hdeliver hexpire hstands hlive
    rw [h.due?_of_waiting hdeliver hstands hlive, if_neg (by omega)]

/-- A step of the reader's side is the next step of the view, if the call is not due to end. -/
theorem next?_of_reading (h : s.Handed place ticket) {m : Move} (makes : s.Makes m t)
    (hm : m ∈ Move.reading) (calls : t.calls[place]? = s.calls[place]?)
    (slots : t.registry.slots[ticket.slot]? =
      s.registry.slots[ticket.slot]?.map (s.view place ticket).reach) :
    (s.view place ticket).next? = some (t.view place ticket) := by
  obtain ⟨hcalm, -⟩ := makes.reading hm
  have hdue := h.due?_eq_none (hcalm.perform? (m := .deliver) (by simp [Move.core]))
    (hcalm.perform? (m := .expire) (by simp [Move.core]))
  have hside : readerNext? (s.view place ticket).side = some t.readerSide := makes.readerNext? hm
  rw [View.next?, hdue, hside]
  simp only [Option.map_some, view, calls, slots]

/-- A call that ends leaves the view as it is, or is the one that is due to end. -/
theorem conclude (h : s.Handed place ticket) {test : Ticket → Phase → Bool} {spot : Spot}
    {phase : Phase} {outcome : Outcome} (hspot : spot? test s.calls = some spot)
    (stands : s.calls[place]? = some (.registered ticket phase))
    (due : spot.ticket = ticket → spot.phase = phase →
      (s.view place ticket).due? = some outcome) :
    (s.conclude spot outcome).view place ticket = s.view place ticket ∨
      (s.view place ticket).next? = some ((s.conclude spot outcome).view place ticket) := by
  rw [h.view_conclude hspot]
  by_cases hplace : spot.before.length = place
  · obtain ⟨hcalls, -⟩ := spot?_eq_some hspot
    have hthere := spot.getElem?_calls
    rw [hcalls, hplace, stands] at hthere
    obtain ⟨hticket, hphase⟩ := Call.registered.inj (Option.some.inj hthere)
    rw [if_pos hplace, View.next?, due hticket.symm hphase.symm]
    exact Or.inr rfl
  · exact Or.inl (if_neg hplace)

/-- A step of the reader is the next step of the view. -/
theorem read (h : s.Handed place ticket) (makes : s.Makes .read t) :
    (s.view place ticket).next? = some (t.view place ticket) := by
  have hmap := readerSide_read? s
  rw [show s.read? = some t from makes.perform?, Option.map_some, Option.map_eq_some_iff] at hmap
  obtain ⟨side, hside, -⟩ := hmap
  obtain ⟨_, _, _, _, ht⟩ := read?_frame makes.perform?
  have hreach : (s.view place ticket).reach = fun slot => slot := by
    simp only [View.reach, view, hside]
  refine h.next?_of_reading makes (by simp [Move.reading]) (by rw [ht]) ?_
  rw [hreach, Option.map_id', ht]

/-- So is a reply that gets to the registry. -/
theorem resolve (h : s.Handed place ticket) (makes : s.Makes (.resolve 0) t) :
    (s.view place ticket).next? = some (t.view place ticket) := by
  obtain ⟨phase, hstands, -⟩ := h.stands
  have hcoheres := h.sound.coheres
  obtain ⟨number, reply, honTheWay, rfl⟩ := resolve?_eq_some makes.perform?
  obtain ⟨others, hflight⟩ : ∃ others, s.readerSide.inFlight = (number, reply) :: others := by
    show ∃ others, s.inFlight = (number, reply) :: others
    cases hflight : s.inFlight with
    | nil => simp [hflight] at honTheWay
    | cons first others =>
      obtain rfl : first = (number, reply) := by simpa [hflight] using honTheWay
      exact ⟨others, rfl⟩
  have hread : s.readerSide.read? = none := by
    have hnone := makes.preferred
      (show Move.order = (Move.core ++ [.read]) ++ .resolve 0 :: _ from rfl)
      (by simp [Move.core]) .read (by simp)
    rw [← Option.map_eq_none_iff, readerSide_read?, Option.map_eq_none_iff]
    exact hnone
  have hreach : (s.view place ticket).reach =
      if number = ticket.slot + 1 then Slot.deliver (.reply reply) else fun slot => slot := by
    simp only [View.reach, view, hread, hflight, Coherent.id_of_stands hcoheres hstands]
  have hslots : (s.registry.resolve number reply).2.slots[ticket.slot]? = _ :=
    hcoheres.numbered.getElem?_slots_resolve reply ticket.slot
  refine h.next?_of_reading makes (by simp [Move.reading]) rfl (hslots.trans ?_)
  rw [hreach]
  split
  · rfl
  · exact Option.map_id'.symm

/-- So is the reader that lets the input go. -/
theorem leave (h : s.Handed place ticket) (makes : s.Makes .leave t) :
    (s.view place ticket).next? = some (t.view place ticket) := by
  obtain ⟨hleaving, hflight, rfl⟩ := leave?_eq_some makes.perform?
  have hread : s.readerSide.read? = none := by
    simp [read?, show s.readerSide.reader = .leaving from hleaving]
  have hreach : (s.view place ticket).reach = Slot.deliver .shutDown := by
    simp only [View.reach, view, hread, show s.readerSide.inFlight = [] from hflight]
  refine h.next?_of_reading makes (by simp [Move.reading]) rfl ?_
  rw [hreach]
  exact h.sound.coheres.numbered.getElem?_slots_drain _

/-- What a client does leaves the view of a call as it is, or is its next step. -/
theorem move (h : s.Handed place ticket) {m : Move} (makes : s.Makes m t) :
    t.view place ticket = s.view place ticket ∨
      (s.view place ticket).next? = some (t.view place ticket) := by
  obtain ⟨phase, hstands, hphase⟩ := h.stands
  have hperform := makes.perform?
  cases m with
  | deliver =>
    obtain ⟨spot, hspot, settlement, hsettled, rfl⟩ := deliver?_eq_some hperform
    obtain ⟨-, htest⟩ := spot?_eq_some hspot
    rw [Bool.and_eq_true] at htest
    refine h.conclude hspot hstands ?_
    rintro rfl rfl
    exact due?_of_settled hstands htest.1 hsettled
  | expire =>
    obtain ⟨hdeliver, spot, hspot, rfl⟩ := expire?_eq_some hperform
    obtain ⟨-, htest⟩ := spot?_eq_some hspot
    rw [Bool.and_eq_true, decide_eq_true_eq] at htest
    refine h.conclude hspot hstands ?_
    rintro rfl rfl
    rw [h.due?_of_waiting hdeliver hstands htest.1, if_pos htest.2]
  | refuse =>
    -- Only a call that waits for room is refused, and this one does not.
    obtain ⟨-, -, spot, hspot, hwaiting, rfl⟩ := refuse?_eq_some hperform
    refine h.conclude hspot hstands ?_
    rintro - rfl
    exact absurd hwaiting hphase
  | write =>
    obtain ⟨_, _, _, _, rfl⟩ := write?_frame hperform
    exact Or.inl rfl
  | refill =>
    obtain ⟨-, -, -, rfl⟩ := refill?_eq_some hperform
    refine Or.inl ?_
    rcases getElem?_letIn (queueCapacity - s.queue.length) s.calls place with heq | ⟨u, hwaits, -⟩
    · simp only [view, heq]
      rfl
    · rw [hstands] at hwaits
      obtain ⟨-, rfl⟩ := Call.registered.inj (Option.some.inj hwaits)
      exact absurd rfl hphase
  | turn p => exact absurd rfl (makes.ne_turn p)
  | read => exact Or.inr (h.read makes)
  | resolve p =>
    obtain rfl := makes.resolve_first
    exact Or.inr (h.resolve makes)
  | leave => exact Or.inr (h.leave makes)
  | close =>
    have hside := makes.readerSide h.toEquipped (by simp [Move.reading])
    obtain ⟨_, _, _, _, rfl⟩ := close?_frame hperform
    refine Or.inl ?_
    simp only [view, hside]

/-- Giving a call up shows in its own view alone. -/
theorem abandon (h : s.Handed place ticket) {phase : Phase}
    (stands : s.calls[place]? = some (.registered ticket phase)) (p : Nat) :
    (s.apply (.abandon p)).view place ticket =
      (s.view place ticket).apply place (.abandon p) := by
  have hlive := isLive_view stands
  simp only [Session.apply, Session.abandon, View.apply]
  split
  · rename_i u phase' hplace
    split
    · rename_i hgoes
      let t : Session := { s with
        calls := s.calls.set p (.registered u .abandoned), registry := s.unregister u }
      rw [h.view_of_unregister (t := t) hplace rfl rfl rfl]
      by_cases heq : p = place
      · subst heq
        rw [stands] at hplace
        obtain ⟨-, rfl⟩ := Call.registered.inj (Option.some.inj hplace)
        rw [if_pos rfl, if_pos ⟨rfl, hlive.trans hgoes⟩]
      · rw [if_neg heq, if_neg fun hboth => heq hboth.1]
    · -- A call that is over cannot be given up.
      rename_i hover
      rw [if_neg]
      rintro ⟨rfl, hgoes⟩
      rw [stands] at hplace
      obtain ⟨-, rfl⟩ := Call.registered.inj (Option.some.inj hplace)
      exact hover (hlive.symm.trans hgoes)
  · rename_i hother
    rw [if_neg]
    rintro ⟨rfl, -⟩
    exact hother _ _ stands

/-- What a command does to the view of a call is a matter of the view. -/
theorem apply (h : s.Handed place ticket) (c : Command) :
    (s.apply c).view place ticket = (s.view place ticket).apply place c := by
  obtain ⟨phase, hstands, -⟩ := h.stands
  have hcoheres := h.sound.coheres
  have hside := readerSide_apply h.reader c
  cases c with
  | start =>
    obtain ⟨_, _, _, _, heq⟩ := start_frame s
    simp only [view, View.apply, hside]
    rw [heq]
  | shutDown =>
    obtain ⟨_, _, _, _, heq⟩ := shutDown_frame s
    simp only [view, View.apply, hside]
    rw [heq, ← hcoheres.numbered.getElem?_slots_drain]
  | issue order =>
    have hcalls : (s.issue order).calls[place]? = s.calls[place]? := by
      have hchange := (effect_issue s order).callChange place
      rw [hstands] at hchange ⊢
      generalize (s.issue order).calls[place]? = call? at hchange ⊢
      cases hchange with
      | kept => rfl
      | queued refills => simp at refills
      | ended moved => simp at moved
      | abandoned abandons => simp at abandons
    have hslot := slots_issue hcoheres (Coherent.slot_lt hcoheres hstands) order
    simp only [view, View.apply, hside]
    rw [show s.apply (.issue order) = s.issue order from rfl, hcalls, hslot]
  | abandon p => exact h.abandon hstands p
  | _ => simp only [view, View.apply, hside]; rfl

/-- At rest the call is not due to end, and neither is the reader's side to go on. -/
theorem rest (h : s.Handed place ticket) (rest : s.next? = none) :
    (s.view place ticket).next? = none := by
  have hdue := h.due?_eq_none (deliver?_of_rest rest) (perform?_of_rest rest .expire)
  have hside : readerNext? (s.view place ticket).side = none :=
    autonomous_readerSide.rest h.toEquipped rest
  rw [View.next?, hdue, hside]
  rfl

end Handed

/-- What a client shows of a call that waits for room no longer goes on by itself. -/
theorem autonomous_view (place : Nat) (ticket : Ticket) :
    Autonomous (Handed · place ticket) (view · place ticket) View.next? (View.apply place) where
  stays h becomes := h.becomes becomes
  command c h := h.apply c
  move h makes := h.move makes
  rest h rest := h.rest rest

end PipeCall.Session
