import PipeCall.Proofs.Session.Core

/-!
# Replies taken one after another

`answer s x` is what a client at rest makes of a reply that gets to its registry: the call with the
number that the reply names ends by it, if it is outstanding, and leaves the registry. A client
whose only work is a reply on its way comes to be just that (`exists_leads_answer`).

A reply to a call that is not outstanding changes nothing (`answer_of_not_mem`), and replies to two
calls may be taken in either order (`answer_comm`). So a client makes the same of any replies as of
those of them that name an outstanding call (`foldl_answer_filter`), and the order of replies to
distinct calls makes no difference (`foldl_answer_perm`).
-/

namespace PipeCall

attribute [ext] Registry

/-- A slot that waits is given up. -/
def Slot.abandon : Slot → Slot
  | .waiting => .dropped
  | slot => slot

/-- A registry without the call of this number: its entry is gone, and its slot if it has waited. -/
def Registry.without (r : Registry) (id : Nat) : Registry :=
  { r.remove id with
    slots := r.slots.mapIdx fun k slot => if id = k + 1 then slot.abandon else slot }

namespace Session

/-- A call that is still going on ends by a reply that names it. -/
def Call.answer (x : Nat × Reply) : Call → Call
  | .registered t phase =>
    if phase.isLive = true ∧ t.id = x.1 then
      .registered t (.ended (outcomeOf t.shape (.reply x.2)))
    else .registered t phase
  | c => c

/-- The call that a reply names ends by it and leaves the registry. -/
def answer (s : Session) (x : Nat × Reply) : Session :=
  { s with calls := s.calls.map (Call.answer x), registry := s.registry.without x.1 }

variable {s t : Session} {x y : Nat × Reply}

/-- An answer is a matter of the core. -/
theorem core_answer (s : Session) (x : Nat × Reply) : (s.answer x).core = s.core.answer x := rfl

/-- Answers are a matter of the core. -/
theorem core_foldl_answer (s : Session) (xs : List (Nat × Reply)) :
    (xs.foldl answer s).core = xs.foldl answer s.core := by
  induction xs generalizing s with
  | nil => rfl
  | cons x xs ih => rw [List.foldl_cons, List.foldl_cons, ih, core_answer]

/-- The call that was answered is outstanding no more. -/
theorem ids_answer (s : Session) (x : Nat × Reply) :
    (s.answer x).registry.ids = s.registry.ids.filter (· ≠ x.1) := by
  simp only [answer, Registry.without, Registry.ids, Registry.remove, List.filter_map]
  rfl

/-- A call that is still going on after an answer was so before it, and the reply does not name it.
-/
theorem Call.answer_eq_live {c : Call} {ticket : Ticket} {phase : Phase}
    (h : c.answer x = .registered ticket phase) (live : phase.isLive = true) :
    c = .registered ticket phase ∧ ticket.id ≠ x.1 := by
  cases c with
  | refused e => simp [Call.answer] at h
  | registered u ph =>
    rw [Call.answer] at h
    split at h
    · obtain ⟨rfl, rfl⟩ := Call.registered.inj h
      simp [Phase.isLive] at live
    · rename_i hnot
      obtain ⟨rfl, rfl⟩ := Call.registered.inj h
      exact ⟨rfl, fun heq => hnot ⟨live, heq⟩⟩

/-- A call that is still going on ends by a reply with its number. -/
theorem Call.answer_of_eq {ticket : Ticket} {phase : Phase} (live : phase.isLive = true)
    (hid : ticket.id = x.1) : (Call.registered ticket phase).answer x =
      .registered ticket (.ended (outcomeOf ticket.shape (.reply x.2))) :=
  if_pos ⟨live, hid⟩

/-- No other call changes. -/
theorem Call.answer_of_not {ticket : Ticket} {phase : Phase}
    (h : ¬(phase.isLive = true ∧ ticket.id = x.1)) :
    (Call.registered ticket phase).answer x = .registered ticket phase :=
  if_neg h

/-- A search finds nothing that no registered call passes. -/
theorem spot?_eq_none_of {test : Ticket → Phase → Bool} {calls : List Call}
    (h : ∀ ticket phase, .registered ticket phase ∈ calls → test ticket phase = false) :
    spot? test calls = none := by
  cases hspot : spot? test calls with
  | none => rfl
  | some spot =>
    obtain ⟨hcalls, htest⟩ := spot?_eq_some hspot
    have hmem : Call.registered spot.ticket spot.phase ∈ calls := by
      rw [← hcalls, Spot.calls]
      simp
    rw [h _ _ hmem] at htest
    simp at htest

/-- Answers let no call into the queue that did not get in before. -/
theorem letIn_answer {room : Nat} {calls : List Call} (h : (letIn room calls).2 = []) :
    (letIn room (calls.map (Call.answer x))).2 = [] := by
  fun_induction letIn room calls with
  | case1 room ticket rest calls requests heq ih => simp at h
  | case2 room c rest hne calls requests heq ih =>
    rw [heq] at ih
    have hrest : (letIn (room + 1) (rest.map (Call.answer x))).2 = [] := ih h
    rw [List.map_cons]
    cases c with
    | refused e => exact hrest
    | registered ticket phase =>
      rw [Call.answer]
      split
      · exact hrest
      · cases phase with
        | waiting => exact absurd rfl (hne ticket)
        | queued | ended | abandoned => exact hrest
  | case3 room calls hroom hcons =>
    cases room with
    | zero => simp [letIn]
    | succ room =>
      cases calls with
      | nil => simp [letIn]
      | cons c rest => exact absurd rfl (hcons room c rest rfl)

/-- A client that runs, whose calls agree with its registry, and that has nothing to do but for its
reader. -/
structure Idle (s : Session) : Prop where
  coheres : s.Coheres
  running : s.lifecycle = .running
  calm : s.Calm

namespace Idle

/-- No call can take a settlement. -/
theorem deliver?_eq_none (h : s.Idle) : s.deliver? = none :=
  h.calm.perform? (m := .deliver) (by simp [Move.core])

/-- A call that is still going on waits for its settlement. -/
theorem waits (h : s.Idle) {ticket : Ticket} {phase : Phase}
    (mem : .registered ticket phase ∈ s.calls) (live : phase.isLive = true) :
    s.registry.slots[ticket.slot]? = some .waiting := by
  obtain ⟨place, hplace⟩ := List.getElem?_of_mem mem
  exact waiting_of_deliver?_eq_none h.coheres h.deliver?_eq_none hplace live

/-- A call that is still going on is outstanding. -/
theorem mem_ids (h : s.Idle) {ticket : Ticket} {phase : Phase}
    (mem : .registered ticket phase ∈ s.calls) (live : phase.isLive = true) :
    ticket.id ∈ s.registry.ids := by
  obtain ⟨place, hplace⟩ := List.getElem?_of_mem mem
  have hnone := settlement?_of_deliver?_eq_none h.deliver?_eq_none hplace live
  exact (mem_ids_iff h.coheres ticket.id).2
    (List.mem_map_of_mem (mem_outstanding.2 ⟨place, phase, hplace, live, hnone⟩))

/-- A client is idle by its core. -/
theorem of_core (h : s.Idle) (hcore : t.core = s.core) : t.Idle where
  coheres := by
    have hcoheres : s.core.Coheres := h.coheres
    rw [← hcore] at hcoheres
    exact hcoheres
  running := by
    have hrunning : s.core.lifecycle = .running := h.running
    rw [← hcore] at hrunning
    exact hrunning
  calm := h.calm.of_core hcore

end Idle

/-- A reply to a call that is not outstanding changes nothing. -/
theorem Idle.answer_of_not_mem (h : s.Idle) (hx : x.1 ∉ s.registry.ids) : s.answer x = s := by
  have hcalls : s.calls.map (Call.answer x) = s.calls := by
    refine (List.map_congr_left fun c hc => ?_).trans (List.map_id s.calls)
    cases c with
    | refused e => rfl
    | registered ticket phase =>
      -- A call that is still going on is outstanding, so it has another number.
      refine Call.answer_of_not fun hlive => hx ?_
      rw [← hlive.2]
      exact h.mem_ids hc hlive.1
  have hslots : (s.registry.slots.mapIdx fun k slot => if x.1 = k + 1 then slot.abandon else slot) =
      s.registry.slots := by
    refine List.ext_getElem? fun k => ?_
    rw [List.getElem?_mapIdx]
    cases hslot : s.registry.slots[k]? with
    | none => rfl
    | some slot =>
      rw [Option.map_some]
      split
      · -- The slot does not wait, as its call is not outstanding.
        rename_i hid
        cases slot with
        | waiting =>
          exact absurd (h.coheres.numbered.mem_ids.2 ⟨k, hid, hslot⟩) hx
        | settled | closed | dropped => rfl
      · rfl
  have hregistry : s.registry.without x.1 = s.registry := by
    rw [Registry.without, hslots, Registry.remove_of_not_mem hx]
  rw [answer, hcalls, hregistry]

/-- A call that a reply names leaves the registry as one that took it and ended. -/
theorem Coheres.unregister_resolve (h : s.Coheres) (reply : Reply) {slot : Nat}
    (waits : s.registry.slots[slot]? = some .waiting) :
    (((s.registry.resolve (slot + 1) reply).2.cancel (slot + 1)).2.release slot) =
      s.registry.without (slot + 1) := by
  have hnumbered : (s.registry.resolve (slot + 1) reply).2.Numbered := h.numbered.resolve reply
  have hentries :
      (((s.registry.resolve (slot + 1) reply).2.cancel (slot + 1)).2.release slot).entries =
        (s.registry.without (slot + 1)).entries := by
    rw [Registry.entries_release, Registry.entries_cancel, Registry.remove,
      Registry.entries_resolve, Registry.remove, Registry.without, Registry.remove,
      List.filter_filter]
    exact List.filter_congr fun e _ => Bool.and_self _
  have hslots : (((s.registry.resolve (slot + 1) reply).2.cancel (slot + 1)).2.release slot).slots =
      (s.registry.without (slot + 1)).slots := by
    refine List.ext_getElem? fun k => ?_
    rw [hnumbered.getElem?_slots_leave, h.numbered.getElem?_slots_resolve, Registry.without,
      List.getElem?_mapIdx]
    by_cases heq : slot = k
    · rw [← heq, waits]
      simp [Slot.abandon]
    · have hne : slot + 1 ≠ k + 1 := by omega
      simp [heq]
  have hclosed :
      (((s.registry.resolve (slot + 1) reply).2.cancel (slot + 1)).2.release slot).closed =
        (s.registry.without (slot + 1)).closed := by
    simp [Registry.without, Registry.remove]
  exact Registry.ext hclosed hentries hslots

/-- When a reply to an outstanding call has got to the registry of an idle client, that call is the
one that takes its settlement. -/
theorem Idle.deliver?_of_resolved (h : s.Idle) {id : Nat} {reply : Reply} (ht : t.Coheres)
    (calls : t.calls = s.calls) (registry : t.registry = (s.registry.resolve id reply).2)
    (hid : id ∈ s.registry.ids) :
    ∃ spot : Spot,
      t.deliver? = some (t.conclude spot (outcomeOf spot.ticket.shape (.reply reply))) ∧
      spot.calls = s.calls ∧ spot.phase.isLive = true ∧ spot.ticket.id = id := by
  have hslots : ∀ k : Nat, t.registry.slots[k]? = _ := fun k => by
    rw [registry, h.coheres.numbered.getElem?_slots_resolve]
  have hsome : ∃ v, t.deliver? = some v := by
    rw [← Option.isSome_iff_exists, ← Option.ne_none_iff_isSome]
    intro hnone
    -- The call that the reply names would wait for its settlement, which has come.
    obtain ⟨ticket, hticket, rfl⟩ := List.mem_map.1 ((mem_ids_iff h.coheres id).1 hid)
    obtain ⟨place, phase, hstands, hlive, -⟩ := mem_outstanding.1 hticket
    have hwaits := waiting_of_deliver?_eq_none ht hnone (calls ▸ hstands) hlive
    rw [hslots, if_pos (Coherent.id_of_stands h.coheres hstands),
      h.waits (List.mem_of_getElem? hstands) hlive] at hwaits
    simp [Slot.deliver] at hwaits
  -- Every other call that is still going on waits as before, so it is no other that takes one.
  obtain ⟨v, hv⟩ := hsome
  obtain ⟨spot, hspot, settlement, hsettled, rfl⟩ := deliver?_eq_some hv
  obtain ⟨hspotCalls, htest⟩ := spot?_eq_some hspot
  rw [Bool.and_eq_true] at htest
  rw [calls] at hspotCalls
  have hstands := spot.getElem?_calls
  rw [hspotCalls] at hstands
  have hwaits := h.waits (List.mem_of_getElem? hstands) htest.1
  rw [settlement?_eq_some_iff, hslots] at hsettled
  split at hsettled
  · rename_i heq
    rw [hwaits] at hsettled
    obtain rfl : Settlement.reply reply = settlement := by simpa [Slot.deliver] using hsettled
    refine ⟨spot, hv, hspotCalls, htest.1, ?_⟩
    rw [heq]
    exact Coherent.id_of_stands h.coheres hstands
  · rw [hwaits] at hsettled
    simp at hsettled

/-- A call of an idle client that ends by a reply leaves the calls as the answer does. -/
theorem Idle.put_answer (h : s.Idle) {spot : Spot} {reply : Reply} (calls : spot.calls = s.calls)
    (live : spot.phase.isLive = true) :
    spot.put (.ended (outcomeOf spot.ticket.shape (.reply reply))) =
      s.calls.map (Call.answer (spot.ticket.id, reply)) := by
  have hstands := spot.getElem?_calls
  rw [calls] at hstands
  refine List.ext_getElem? fun place => ?_
  rw [Spot.put_eq_set, calls, List.getElem?_set, List.getElem?_map]
  by_cases heq : spot.before.length = place
  · obtain ⟨hlt, -⟩ := List.getElem?_eq_some_iff.1 hstands
    rw [if_pos heq, if_pos hlt, ← heq, hstands, Option.map_some, Call.answer_of_eq live rfl]
  · rw [if_neg heq]
    cases hcall : s.calls[place]? with
    | none => rfl
    | some c =>
      rw [Option.map_some]
      cases c with
      | refused e => rfl
      | registered ticket phase =>
        -- Another call has another number.
        rw [Call.answer_of_not fun hsame => heq ?_]
        have hid := Coherent.id_of_stands h.coheres hstands
        have hid' := Coherent.id_of_stands h.coheres hcall
        refine Coherent.place_unique h.coheres hstands hcall ?_
        have hnumber : ticket.id = spot.ticket.id := hsame.2
        omega

/-- A reply that gets to the registry of an idle client, and the call that it settles, are an
answer: what the client makes of the reply by its next moves, before it does anything else. -/
theorem Idle.exists_leads_answer (h : s.Idle) (hread : s.read? = none)
    {rest : List (Nat × Reply)} (flight : s.inFlight = x :: rest) :
    ∃ t : Session, Leads s t ∧ t.work < s.work ∧ t.core = s.core.answer x ∧ t.intake = s.intake ∧
      t.reader = s.reader ∧ t.inFlight = rest := by
  obtain ⟨id, reply⟩ := x
  obtain ⟨t, hresolve⟩ : ∃ t, s.resolve? 0 = some t := by simp [resolve?, flight]
  have hnext : s.next? = some t := by
    rw [h.calm.next?]
    simp [perform?, hread, hresolve]
  have hless := work_lt_of_next? hnext
  obtain ⟨_, _, hmem, ht⟩ := resolve?_eq_some hresolve
  rw [flight, List.getElem?_cons_zero, Option.some.injEq, Prod.mk.injEq] at hmem
  obtain ⟨rfl, rfl⟩ := hmem
  have hside : t.intake = s.intake ∧ t.reader = s.reader ∧ t.inFlight = rest := by
    rw [← ht]
    exact ⟨rfl, rfl, by simp [note, flight]⟩
  have hcalls : t.calls = s.calls := by rw [← ht]; rfl
  have hregistry : t.registry = (s.registry.resolve id reply).2 := by rw [← ht]; rfl
  by_cases hid : id ∈ s.registry.ids
  · -- The call that the reply names takes it by the next move.
    have hcoheres : t.Coheres :=
      (becomes_of_perform? (m := .resolve 0) hresolve).effect.coherent h.coheres
    obtain ⟨spot, hdeliver, hspot, hlive, rfl⟩ :=
      h.deliver?_of_resolved hcoheres hcalls hregistry hid
    have hdelivers :
        t.next? = some (t.conclude spot (outcomeOf spot.ticket.shape (.reply reply))) := by
      simp [next?, Move.order, perform?, hdeliver]
    have hstands := spot.getElem?_calls
    rw [hspot] at hstands
    refine ⟨_, (Leads.single hnext).trans (.single hdelivers),
      Nat.lt_trans (work_lt_of_next? hdelivers) hless, ?_, hside⟩
    have hwaits := h.waits (List.mem_of_getElem? hstands) hlive
    have hunregister := h.coheres.unregister_resolve reply hwaits
    rw [← Coherent.id_of_stands h.coheres hstands, ← hregistry] at hunregister
    rw [← ht] at hunregister ⊢
    simp only [conclude, unregister, core, answer, note, h.put_answer hspot hlive] at hunregister ⊢
    rw [hunregister]
  · -- Nothing takes the reply.
    have hsame : s.core.answer (id, reply) = s.core := by
      rw [← core_answer, h.answer_of_not_mem hid]
    refine ⟨t, .single hnext, hless, ?_, hside⟩
    rw [hsame, ← ht, Registry.resolve_of_none (Registry.slotOf?_eq_none_iff.2 hid)]
    rfl

/-- When no call can take its settlement, none times out if none is found whose time is up. -/
theorem expire?_eq_none_iff (hdeliver : s.deliver? = none) : s.expire? = none ↔
    spot? (fun t phase => phase.isLive && t.deadline ≤ s.clock) s.calls = none := by
  unfold expire?
  cases spot? (fun t phase => phase.isLive && t.deadline ≤ s.clock) s.calls <;> simp [hdeliver]

/-- Then no call is told that there is no writer if there is one, or if none waits for room. -/
theorem refuse?_eq_none_iff (hdeliver : s.deliver? = none) : s.refuse? = none ↔
    (s.writer.isGone = true → spot? (fun _ phase => phase.isWaiting) s.calls = none) := by
  unfold refuse?
  cases spot? (fun _ phase => phase.isWaiting) s.calls <;> simp [hdeliver]

/-- The writer waits if it can write no more of its frame, or if its queue is empty and not closed.
-/
theorem write?_eq_none_iff : s.write? = none ↔
    match s.writer, s.queue with
    | .writing _ _, _ => s.output.isStuck = true
    | .ready, _ :: _ => False
    | .ready, [] => s.queueClosed = false
    | _, _ => True := by
  unfold write?
  cases s.writer with
  | writing r rest => simp
  | ready =>
    cases s.queue with
    | nil => simp
    | cons r queue => dsimp only; split <;> simp
  | absent | closed | lost => simp

/-- When no call can take its settlement, none is taken into the queue if there is no writer, or no call
that waits or no room. -/
theorem refill?_eq_none_iff (hdeliver : s.deliver? = none) : s.refill? = none ↔
    (s.writer.isAlive = true → (letIn (queueCapacity - s.queue.length) s.calls).2 = []) := by
  unfold refill?
  cases halive : s.writer.isAlive with
  | true =>
    rcases letIn (queueCapacity - s.queue.length) s.calls with ⟨calls, _ | ⟨r, requests⟩⟩ <;>
      simp [hdeliver]
  | false => simp

/-- A call that is still going on after an answer is not the one that was answered. -/
theorem mem_calls_of_answer {ticket : Ticket} {phase : Phase}
    (mem : .registered ticket phase ∈ (s.answer x).calls) (live : phase.isLive = true) :
    .registered ticket phase ∈ s.calls ∧ ticket.id ≠ x.1 := by
  obtain ⟨c, hc, hanswer⟩ := List.mem_map.1 mem
  obtain ⟨rfl, hne⟩ := Call.answer_eq_live hanswer live
  exact ⟨hc, hne⟩

/-- A search among the calls that are still going on finds nothing after an answer if it found nothing
before. -/
theorem spot?_answer {test : Ticket → Phase → Bool}
    (live : ∀ ticket phase, test ticket phase = true → phase.isLive = true)
    (hnone : spot? test s.calls = none) : spot? test (s.answer x).calls = none := by
  refine spot?_eq_none_of fun ticket phase hmem => ?_
  cases hpass : test ticket phase with
  | false => rfl
  | true =>
    obtain ⟨place, hplace⟩ :=
      List.getElem?_of_mem (mem_calls_of_answer hmem (live _ _ hpass)).1
    exact hpass.symm.trans (spot?_eq_none hnone hplace)

/-- An answer leaves an idle client without a call that can take its settlement. -/
theorem Idle.deliver?_answer (h : s.Idle) (x : Nat × Reply) : (s.answer x).deliver? = none := by
  have hspot : spot? (fun t phase => phase.isLive && ((s.answer x).settlement? t).isSome)
      (s.answer x).calls = none := by
    refine spot?_eq_none_of fun ticket phase hmem => ?_
    cases hphase : phase.isLive with
    | false => rfl
    | true =>
      -- A call that is still going on has another slot, which waits as it did.
      obtain ⟨hbefore, hne⟩ := mem_calls_of_answer hmem hphase
      obtain ⟨place, hplace⟩ := List.getElem?_of_mem hbefore
      have hid := Coherent.id_of_stands h.coheres hplace
      have hslot : (s.answer x).registry.slots[ticket.slot]? = some .waiting := by
        have hother : ¬x.1 = ticket.slot + 1 := fun heq => hne (hid.trans heq.symm)
        simp [answer, Registry.without, List.getElem?_mapIdx, h.waits hbefore hphase, hother]
      simp [settlement?, Registry.look, hslot]
  simp only [deliver?, hspot]
  rfl

/-- An answer leaves an idle client without a core move to make. -/
theorem Idle.calm_answer (h : s.Idle) (x : Nat × Reply) : (s.answer x).Calm := by
  have hdeliver := h.deliver?_eq_none
  have hdeliver' := h.deliver?_answer x
  refine List.findSome?_eq_none_iff.2 fun m hm => ?_
  have hnone := h.calm.perform? hm
  simp only [Move.core, List.mem_cons, List.not_mem_nil, or_false] at hm
  rcases hm with rfl | rfl | rfl | rfl | rfl
  · exact hdeliver'
  · simp only [perform?, expire?_eq_none_iff hdeliver, expire?_eq_none_iff hdeliver'] at hnone ⊢
    exact spot?_answer (fun _ _ htest => (Bool.and_eq_true _ _ ▸ htest).1) hnone
  · simp only [perform?, refuse?_eq_none_iff hdeliver, refuse?_eq_none_iff hdeliver'] at hnone ⊢
    refine fun hgone => spot?_answer (fun _ phase hwaits => ?_) (hnone hgone)
    cases phase <;> simp [Phase.isLive, Phase.isWaiting] at hwaits ⊢
  · -- The queue of a client that runs is not closed, so the writer sees no difference.
    have hqueue : (s.answer x).queueClosed = s.queueClosed := by
      simp [queueClosed, answer, h.running]
    simp only [perform?, write?_eq_none_iff, hqueue] at hnone ⊢
    exact hnone
  · simp only [perform?, refill?_eq_none_iff hdeliver, refill?_eq_none_iff hdeliver'] at hnone ⊢
    exact fun halive => letIn_answer (hnone halive)

/-- An idle client stays idle when it has been answered. -/
theorem Idle.answered (h : s.Idle) (x : Nat × Reply) : (s.answer x).Idle where
  coheres := by
    -- The answer is what the client makes of a reply on its way.
    have hidle : Idle { s with inFlight := [x], reader := .leaving } := h.of_core rfl
    have hflight : ({ s with inFlight := [x], reader := .leaving } : Session).inFlight = [x] := rfl
    obtain ⟨t, hleads, -, hcore, -⟩ := hidle.exists_leads_answer rfl hflight
    have hcoheres : t.Coheres :=
      hleads.keeps (fun becomes hs => becomes.effect.coherent hs) hidle.coheres
    have hanswered : t.core.Coheres := hcoheres
    rw [hcore] at hanswered
    exact hanswered
  running := h.running
  calm := h.calm_answer x

/-! ## Replies in a row -/

/-- An idle client stays idle when it has been answered many times. -/
theorem Idle.foldl_answer (h : s.Idle) (xs : List (Nat × Reply)) : (xs.foldl answer s).Idle := by
  induction xs generalizing s with
  | nil => exact h
  | cons x xs ih => exact ih (h.answered x)

/-- So is every client with the core that the answers leave. -/
theorem Idle.of_answered (h : s.Idle) {xs : List (Nat × Reply)}
    (hcore : t.core = xs.foldl answer s.core) : t.Idle :=
  (h.foldl_answer xs).of_core (hcore.trans (core_foldl_answer s xs).symm)

/-- The calls that are still outstanding after some answers are those that none of them names. -/
theorem ids_foldl_answer (s : Session) (xs : List (Nat × Reply)) :
    (xs.foldl answer s).registry.ids = s.registry.ids.filter fun id => id ∉ xs.map Prod.fst := by
  induction xs generalizing s with
  | nil => simp
  | cons x xs ih =>
    rw [List.foldl_cons, ih, ids_answer, List.filter_filter]
    refine List.filter_congr fun id _ => ?_
    rw [List.map_cons, Bool.eq_iff_iff]
    simp [and_comm]

/-- Among some replies, one to a call that is not outstanding by then makes no difference. -/
theorem Idle.foldl_answer_middle (h : s.Idle) (xs ys : List (Nat × Reply))
    (hx : x.1 ∉ s.registry.ids ∨ x.1 ∈ xs.map Prod.fst) :
    (xs ++ x :: ys).foldl answer s = (xs ++ ys).foldl answer s := by
  have hnot : x.1 ∉ (xs.foldl answer s).registry.ids := by
    rw [ids_foldl_answer, List.mem_filter, decide_eq_true_iff]
    rintro ⟨hmem, hfresh⟩
    exact hx.elim (fun hnot => hnot hmem) hfresh
  rw [List.foldl_append, List.foldl_cons, (h.foldl_answer xs).answer_of_not_mem hnot,
    List.foldl_append]

/-- Only replies to outstanding calls make a difference. -/
theorem Idle.foldl_answer_filter (h : s.Idle) (xs : List (Nat × Reply)) :
    xs.foldl answer s =
      (xs.filter fun x => x.1 ∈ s.registry.ids).foldl answer s := by
  induction xs using List.reverseRecOn with
  | nil => rfl
  | append_singleton xs x ih =>
    rw [List.filter_append, List.foldl_append, List.foldl_append, ih]
    by_cases hx : x.1 ∈ s.registry.ids
    · rw [List.filter_singleton]
      simp [hx]
    · have hnot : x.1 ∉ (xs.foldl answer s).registry.ids := fun hmem => by
        rw [ids_foldl_answer] at hmem
        exact hx (List.mem_filter.1 hmem).1
      rw [← ih, List.foldl_cons, (h.foldl_answer xs).answer_of_not_mem hnot]
      simp [hx]

end Session

end PipeCall
