import PipeCall.Session.Command
import PipeCall.Session.Move

/-!
# The calls of a client

The calls stand in order of issue, and a call is named by its place. A change of one call's phase is
a `List.set` at its place (`Spot.put_eq_set`), and taking waiting calls into the queue changes the
phases of some (`getElem?_letIn`). Neither changes a ticket, so the list of all tickets ever made
out (`ticketsOf`) only grows at its end.
-/

namespace PipeCall.Session

namespace Call

/-- The ticket of a call that was registered. -/
def ticket? : Call → Option Ticket
  | .registered ticket _ => some ticket
  | .refused _ => none

@[simp] theorem ticket?_registered (t : Ticket) (phase : Phase) :
    (Call.registered t phase).ticket? = some t := rfl

@[simp] theorem ticket?_refused (e : CallError) : (Call.refused e).ticket? = none := rfl

@[simp] theorem outcome?_refused (e : CallError) : (Call.refused e).outcome? = some (.error e) := rfl

@[simp] theorem outcome?_ended (t : Ticket) (o : Outcome) :
    (Call.registered t (.ended o)).outcome? = some o := rfl

/-- A call with a live phase has no outcome. -/
theorem outcome?_of_isLive {t : Ticket} {phase : Phase} (h : phase.isLive = true) :
    (Call.registered t phase).outcome? = none := by
  cases phase <;> first | rfl | simp [Phase.isLive] at h

/-- A call that is still going on is registered, in a live phase. -/
theorem liveTicket?_eq_some {c : Call} {t : Ticket} :
    c.liveTicket? = some t ↔ ∃ phase, c = .registered t phase ∧ phase.isLive = true := by
  cases c with
  | refused e => simp [liveTicket?]
  | registered u phase =>
    simp only [liveTicket?, Option.ite_none_right_eq_some, Option.some.injEq, registered.injEq]
    constructor
    · rintro ⟨hlive, rfl⟩
      exact ⟨phase, ⟨rfl, rfl⟩, hlive⟩
    · rintro ⟨phase', ⟨rfl, rfl⟩, hlive⟩
      exact ⟨hlive, rfl⟩

end Call

/-- The tickets of some calls, in order. -/
def ticketsOf (calls : List Call) : List Ticket := calls.filterMap Call.ticket?

@[simp] theorem ticketsOf_append (xs ys : List Call) :
    ticketsOf (xs ++ ys) = ticketsOf xs ++ ticketsOf ys := by
  simp [ticketsOf]

/-- A new phase leaves the tickets as they are. -/
theorem ticketsOf_set {calls : List Call} {place : Nat} {t : Ticket} {phase : Phase}
    (h : calls[place]? = some (.registered t phase)) (phase' : Phase) :
    ticketsOf (calls.set place (.registered t phase')) = ticketsOf calls := by
  induction calls generalizing place with
  | nil => simp at h
  | cons c calls ih =>
    cases place with
    | zero =>
      -- The call that changes is the first, and keeps its ticket.
      obtain rfl : c = .registered t phase := by simpa using h
      rfl
    | succ place =>
      have hstands : calls[place]? = some (.registered t phase) := by simpa using h
      have hrest := ih hstands
      simp only [ticketsOf, List.set_cons_succ, List.filterMap_cons] at hrest ⊢
      rw [hrest]

/-- A ticket is that of a call at some place. -/
theorem mem_ticketsOf {calls : List Call} {t : Ticket} :
    t ∈ ticketsOf calls ↔
      ∃ (place : Nat) (phase : Phase), calls[place]? = some (.registered t phase) := by
  simp only [ticketsOf, List.mem_filterMap]
  constructor
  · rintro ⟨c, hc, ht⟩
    cases c with
    | refused e => simp at ht
    | registered u phase =>
      obtain rfl : u = t := by simpa using ht
      obtain ⟨place, hplace⟩ := List.getElem?_of_mem hc
      exact ⟨place, phase, hplace⟩
  · rintro ⟨place, phase, hplace⟩
    exact ⟨_, List.mem_of_getElem? hplace, rfl⟩

/-- A ticket is live if it is that of a call at some place that is still going on. -/
theorem mem_liveTickets {s : Session} {t : Ticket} :
    t ∈ s.liveTickets ↔
      ∃ (place : Nat) (phase : Phase),
        s.calls[place]? = some (.registered t phase) ∧ phase.isLive = true := by
  simp only [liveTickets, List.mem_filterMap, Call.liveTicket?_eq_some]
  constructor
  · rintro ⟨c, hc, phase, rfl, hlive⟩
    obtain ⟨place, hplace⟩ := List.getElem?_of_mem hc
    exact ⟨place, phase, hplace, hlive⟩
  · rintro ⟨place, phase, hplace, hlive⟩
    exact ⟨_, List.mem_of_getElem? hplace, phase, rfl, hlive⟩

/-! ## Spots -/

/-- The calls around a spot with the call in it. -/
def Spot.calls (spot : Spot) : List Call :=
  spot.before ++ .registered spot.ticket spot.phase :: spot.after

/-- A search finds a registered call that the test holds of. -/
theorem spot?_eq_some {test : Ticket → Phase → Bool} {calls : List Call} {spot : Spot}
    (h : spot? test calls = some spot) :
    spot.calls = calls ∧ test spot.ticket spot.phase = true := by
  induction calls generalizing spot with
  | nil => simp [spot?] at h
  | cons c calls ih =>
    cases c with
    | refused e =>
      rw [spot?] at h
      obtain ⟨rest, hrest, rfl⟩ := Option.map_eq_some_iff.1 h
      obtain ⟨heq, htest⟩ := ih hrest
      exact ⟨by rw [← heq]; rfl, htest⟩
    | registered t phase =>
      rw [spot?] at h
      by_cases htest : test t phase = true
      · rw [if_pos htest] at h
        obtain rfl := Option.some.inj h
        exact ⟨rfl, htest⟩
      · rw [if_neg htest] at h
        obtain ⟨rest, hrest, rfl⟩ := Option.map_eq_some_iff.1 h
        obtain ⟨heq, htest⟩ := ih hrest
        exact ⟨by rw [← heq]; rfl, htest⟩

/-- A search that finds nothing has tried every registered call. -/
theorem spot?_eq_none {test : Ticket → Phase → Bool} {calls : List Call}
    (h : spot? test calls = none) {place : Nat} {t : Ticket} {phase : Phase}
    (hplace : calls[place]? = some (.registered t phase)) : test t phase = false := by
  induction calls generalizing place with
  | nil => simp at hplace
  | cons c calls ih =>
    cases c with
    | refused e =>
      rw [spot?, Option.map_eq_none_iff] at h
      cases place with
      | zero => simp at hplace
      | succ place => exact ih h (by simpa using hplace)
    | registered u ph =>
      rw [spot?] at h
      by_cases htest : test u ph = true
      · simp [htest] at h
      · rw [if_neg htest, Option.map_eq_none_iff] at h
        cases place with
        | zero =>
          obtain ⟨rfl, rfl⟩ : u = t ∧ ph = phase := by simpa using hplace
          simpa using htest
        | succ place => exact ih h (by simpa using hplace)

/-- The call in a spot stands at the place that the calls before it leave. -/
theorem Spot.getElem?_calls (spot : Spot) :
    spot.calls[spot.before.length]? = some (.registered spot.ticket spot.phase) := by
  simp [Spot.calls]

/-- A new phase in a spot is set at its place. -/
theorem Spot.put_eq_set (spot : Spot) (phase : Phase) :
    spot.put phase = spot.calls.set spot.before.length (.registered spot.ticket phase) := by
  simp [Spot.put, Spot.calls]

/-! ## Taking calls into the queue -/

/-- A call as it is once it was taken into the queue. -/
def Call.enqueued : Call → Call
  | .registered t .waiting => .registered t .queued
  | c => c

/-- The request of a call that waits for room. -/
def Call.waitingRequest? : Call → Option Request
  | .registered t .waiting => some t.request
  | _ => none

namespace Call

@[simp] theorem ticket?_enqueued (c : Call) : c.enqueued.ticket? = c.ticket? := by
  cases c with
  | refused e => rfl
  | registered t phase => cases phase <;> rfl

/-- Only a call that waits for room has a request to hand in. -/
theorem waitingRequest?_eq_some {c : Call} {r : Request} :
    c.waitingRequest? = some r ↔ ∃ t, c = .registered t .waiting ∧ t.request = r := by
  cases c with
  | refused e => simp [waitingRequest?]
  | registered t phase => cases phase <;> simp [waitingRequest?]

/-- A call that does not wait for room is left as it is. -/
theorem enqueued_of_ne {c : Call} (h : ∀ t, c ≠ .registered t .waiting) :
    c.enqueued = c ∧ c.waitingRequest? = none := by
  cases c with
  | refused e => exact ⟨rfl, rfl⟩
  | registered t phase =>
    cases phase with
    | waiting => exact absurd rfl (h t)
    | queued | ended | abandoned => exact ⟨rfl, rfl⟩

/-- A call in the queue waited for room before, or was there already. -/
theorem enqueued_eq_queued {c : Call} {t : Ticket} (h : c.enqueued = .registered t .queued) :
    c = .registered t .waiting ∨ c = .registered t .queued := by
  by_cases hwaiting : ∃ u, c = .registered u .waiting
  · obtain ⟨u, rfl⟩ := hwaiting
    obtain ⟨rfl, -⟩ := Call.registered.inj h
    exact Or.inl rfl
  · obtain ⟨hsame, -⟩ := enqueued_of_ne fun u heq => hwaiting ⟨u, heq⟩
    rw [hsame] at h
    exact Or.inr h

/-- No call goes on waiting for room that was taken into the queue. -/
theorem enqueued_ne_waiting (c : Call) (t : Ticket) : c.enqueued ≠ .registered t .waiting := by
  cases c with
  | refused e => simp [enqueued]
  | registered u phase => cases phase <;> simp [enqueued]

end Call

/-- The calls that are taken into the queue are those that wait among the first ones. -/
theorem letIn_eq (room : Nat) (calls : List Call) :
    ∃ front back, calls = front ++ back ∧
      letIn room calls = (front.map Call.enqueued ++ back, front.filterMap Call.waitingRequest?) := by
  fun_induction letIn room calls with
  | case1 room t rest calls requests heq ih =>
    -- There is room, and the first call waits for it.
    obtain ⟨front, back, rfl, hlet⟩ := ih
    rw [heq] at hlet
    obtain ⟨rfl, rfl⟩ := Prod.mk.inj hlet
    exact ⟨.registered t .waiting :: front, back, rfl, rfl⟩
  | case2 room c rest hne calls requests heq ih =>
    -- The first call does not wait, and takes no room.
    obtain ⟨front, back, rfl, hlet⟩ := ih
    rw [heq] at hlet
    obtain ⟨rfl, rfl⟩ := Prod.mk.inj hlet
    obtain ⟨hsame, hnone⟩ := Call.enqueued_of_ne hne
    refine ⟨c :: front, back, rfl, ?_⟩
    rw [List.map_cons, hsame, List.filterMap_cons, hnone]
    rfl
  | case3 => exact ⟨[], _, rfl, rfl⟩

/-- The first calls are taken into the queue, and the others stay as they are. -/
theorem getElem?_enqueued_append (front back : List Call) (place : Nat) :
    (front.map Call.enqueued ++ back)[place]? =
      if place < front.length then (front ++ back)[place]?.map Call.enqueued
      else (front ++ back)[place]? := by
  split
  · rename_i hlt
    rw [List.getElem?_append_left (by simpa using hlt), List.getElem?_append_left hlt,
      List.getElem?_map]
  · rename_i hge
    rw [List.getElem?_append_right (by simpa using hge), List.getElem?_append_right (by omega),
      List.length_map]

/-- Taking calls into the queue changes no ticket. -/
theorem ticketsOf_letIn (room : Nat) (calls : List Call) :
    ticketsOf (letIn room calls).1 = ticketsOf calls := by
  obtain ⟨front, back, rfl, hlet⟩ := letIn_eq room calls
  have hfront : ticketsOf (front.map Call.enqueued) = ticketsOf front := by
    rw [ticketsOf, List.filterMap_map]
    exact congrArg (fun f => front.filterMap f) (funext Call.ticket?_enqueued)
  rw [hlet, ticketsOf_append, ticketsOf_append, hfront]

/-- A call that may be taken into the queue is left as it is, or it waited and is queued then. -/
theorem getElem?_letIn (room : Nat) (calls : List Call) (place : Nat) :
    (letIn room calls).1[place]? = calls[place]? ∨
      ∃ t, calls[place]? = some (.registered t .waiting) ∧
        (letIn room calls).1[place]? = some (.registered t .queued) := by
  obtain ⟨front, back, rfl, hlet⟩ := letIn_eq room calls
  rw [hlet, getElem?_enqueued_append]
  split
  · cases hcall : (front ++ back)[place]? with
    | none => exact Or.inl rfl
    | some c =>
      by_cases hwaiting : ∃ t, c = .registered t .waiting
      · obtain ⟨t, rfl⟩ := hwaiting
        exact Or.inr ⟨t, rfl, rfl⟩
      · obtain ⟨hsame, -⟩ := Call.enqueued_of_ne fun t heq => hwaiting ⟨t, heq⟩
        exact Or.inl (congrArg some hsame)
  · exact Or.inl rfl

/-- A call that goes on waiting stands behind those that are taken into the queue. -/
theorem place_lt_of_letIn {room place place' : Nat} {calls : List Call} {t t' : Ticket}
    (waits : calls[place]? = some (.registered t .waiting))
    (enters : (letIn room calls).1[place]? = some (.registered t .queued))
    (stays : (letIn room calls).1[place']? = some (.registered t' .waiting)) : place < place' := by
  obtain ⟨front, back, rfl, hlet⟩ := letIn_eq room calls
  rw [hlet, getElem?_enqueued_append] at enters stays
  split at enters
  · rename_i hlt
    split at stays
    · obtain ⟨c, -, henqueued⟩ := Option.map_eq_some_iff.1 stays
      exact absurd henqueued (Call.enqueued_ne_waiting c t')
    · omega
  · rw [waits] at enters
    simp at enters

/-- If there is room and no call is taken into the queue, none waits. -/
theorem not_mem_of_letIn_eq_nil {room : Nat} {calls : List Call} (hroom : 0 < room)
    (h : (letIn room calls).2 = []) (t : Ticket) : Call.registered t .waiting ∉ calls := by
  fun_induction letIn room calls with
  | case1 room u rest calls requests heq ih => simp at h
  | case2 room c rest hne calls requests heq ih =>
    rw [heq] at ih
    rintro hmem
    rcases List.mem_cons.1 hmem with hc | hrest
    · exact hne t hc.symm
    · exact ih hroom h hrest
  | case3 room calls _ hne =>
    -- There is room, so the calls are at their end.
    cases calls with
    | nil => exact List.not_mem_nil
    | cons c calls => exact (hne (room - 1) c calls (by omega) rfl).elim

/-- If one call that waits is taken into the queue, the others are left as they are. -/
theorem getElem?_set_queued {calls : List Call} {place : Nat} {t : Ticket}
    (stands : calls[place]? = some (.registered t .waiting)) (place' : Nat) :
    (calls.set place (.registered t .queued))[place']? = calls[place']? ∨
      ∃ u, calls[place']? = some (.registered u .waiting) ∧
        (calls.set place (.registered t .queued))[place']? = some (.registered u .queued) := by
  obtain ⟨hlt, -⟩ := List.getElem?_eq_some_iff.1 stands
  rw [List.getElem?_set]
  by_cases heq : place = place'
  · subst heq
    rw [if_pos rfl, if_pos hlt]
    exact Or.inr ⟨t, stands, rfl⟩
  · rw [if_neg heq]
    exact Or.inl rfl

end PipeCall.Session
