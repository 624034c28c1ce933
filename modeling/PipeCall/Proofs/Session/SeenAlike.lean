import PipeCall.Proofs.Session.View

/-!
# Clients that some calls cannot tell apart

Two clients are `SeenAlike` to some calls, none of which waits for room, if they have the same reader's
side and each of the calls has the same view in both. Whatever happens to one of them, in whatever
order, the other can go through as well, as far as these calls and the reader are concerned: it is
given the same commands, its reader and the calls take the same turns, and what the others do is left
out (`Course.seenAlike`).
-/

namespace PipeCall.Session

variable {s t s' : Session} {h : List Change} {Q : Nat → Ticket → Prop}

/-- Two clients have the same reader's side, and the same view for each of some calls. -/
structure SeenAlike (Q : Nat → Ticket → Prop) (s t : Session) : Prop where
  equipped : s.Equipped
  equipped' : t.Equipped
  side : s.readerSide = t.readerSide
  handed {place : Nat} {ticket : Ticket} (q : Q place ticket) : s.Handed place ticket
  handed' {place : Nat} {ticket : Ticket} (q : Q place ticket) : t.Handed place ticket
  view {place : Nat} {ticket : Ticket} (q : Q place ticket) :
    s.view place ticket = t.view place ticket

namespace SeenAlike

/-- Either may be named first. -/
theorem symm (h : SeenAlike Q s t) : SeenAlike Q t s :=
  ⟨h.equipped', h.equipped, h.side.symm, h.handed', h.handed, fun q => (h.view q).symm⟩

/-- The same command leaves clients seen alike. -/
theorem apply (h : SeenAlike Q s t) (c : Command) : SeenAlike Q (s.apply c) (t.apply c) where
  equipped := h.equipped.becomes (becomes_apply s c)
  equipped' := h.equipped'.becomes (becomes_apply t c)
  side := by
    rw [readerSide_apply h.equipped.reader, readerSide_apply h.equipped'.reader, h.side]
  handed q := (h.handed q).becomes (becomes_apply s c)
  handed' q := (h.handed' q).becomes (becomes_apply t c)
  view q := by rw [(h.handed q).apply, (h.handed' q).apply, h.view q]

/-- A change of one client that none of the calls sees leaves clients seen alike. -/
theorem unseen (h : SeenAlike Q s t) {cause : Cause} (becomes : s.Becomes cause s')
    (side : s'.readerSide = s.readerSide)
    (view : ∀ {place : Nat} {ticket : Ticket}, Q place ticket →
      s'.view place ticket = s.view place ticket) : SeenAlike Q s' t where
  equipped := h.equipped.becomes becomes
  equipped' := h.equipped'
  side := side.trans h.side
  handed q := (h.handed q).becomes becomes
  handed' := h.handed'
  view q := (view q).trans (h.view q)

/-- A change of either client that changes the same of what they show leaves them seen alike. -/
theorem both {t' : Session} {cause cause' : Cause} (h : SeenAlike Q s t)
    (becomes : s.Becomes cause s') (becomes' : t.Becomes cause' t')
    (side : s'.readerSide = t'.readerSide)
    (view : ∀ {place : Nat} {ticket : Ticket}, Q place ticket →
      s'.view place ticket = t'.view place ticket) : SeenAlike Q s' t' where
  equipped := h.equipped.becomes becomes
  equipped' := h.equipped'.becomes becomes'
  side := side
  handed q := (h.handed q).becomes becomes
  handed' q := (h.handed' q).becomes becomes'
  view := view

end SeenAlike

/-! ## Calls that end -/

/-- A call that waits for room no longer, and has grounds to end, does so when it gets its turn. -/
theorem turn?_of_ends {place : Nat} {ticket : Ticket} {phase : Phase} {outcome : Outcome}
    (stands : s.calls[place]? = some (.registered ticket phase)) (live : phase.isLive = true)
    (handed : phase ≠ .waiting) (grounds : s.Ends ticket phase outcome) :
    s.turn? place = some (s.endAt place ticket outcome) := by
  have hwaiting : phase.isWaiting = false := by
    cases phase <;> simp [Phase.isWaiting] at handed ⊢
  cases grounds with
  | settled settled => simp [turn?, stands, live, settled]
  | expired unsettled late => simp [turn?, stands, live, unsettled, hwaiting, late]
  | cutOff => exact absurd rfl handed

/-- A call that waits for room no longer has the same grounds to end in every client that shows it the
same. -/
theorem Ends.of_view {place : Nat} {ticket : Ticket} {phase : Phase} {outcome : Outcome}
    (grounds : s.Ends ticket phase outcome) (handed : phase ≠ .waiting)
    (view : s.view place ticket = t.view place ticket) : t.Ends ticket phase outcome := by
  have hslot : s.registry.slots[ticket.slot]? = t.registry.slots[ticket.slot]? :=
    congrArg View.slot view
  have hsettlement : t.settlement? ticket = s.settlement? ticket := by
    rw [settlement?, settlement?, Registry.look, Registry.look, hslot]
  have hclock : s.clock = t.clock := congrArg (fun v => v.side.clock) view
  cases grounds with
  | settled settled => exact .settled (hsettlement.trans settled)
  | expired unsettled late => exact .expired (hsettlement.trans unsettled) (hclock ▸ late)
  | cutOff => exact absurd rfl handed

/-- If one of the calls ends, it can end in the other client by its turn; if another call ends, none of
them sees it. -/
theorem SeenAlike.ends (h : SeenAlike Q s t) {m : Move} (hm : s.perform? m = some s')
    (side : s'.readerSide = s.readerSide) {p : Nat} {u : Ticket} {phase : Phase} {outcome : Outcome}
    (stands : s.calls[p]? = some (.registered u phase)) (live : phase.isLive = true)
    (grounds : s.Ends u phase outcome)
    (calls : s'.calls = s.calls.set p (.registered u (.ended outcome)))
    (registry : s'.registry = s.unregister u) :
    SeenAlike Q s' t ∨ ∃ t', t.perform? (.turn p) = some t' ∧ SeenAlike Q s' t' := by
  have hview {place : Nat} {ticket : Ticket} (q : Q place ticket) :=
    (h.handed q).view_of_unregister stands side calls registry
  by_cases hseen : ∃ ticket, Q p ticket
  · obtain ⟨ticket, q⟩ := hseen
    obtain ⟨phase', hstands, hphase⟩ := (h.handed q).stands
    rw [stands] at hstands
    obtain ⟨rfl, rfl⟩ := Call.registered.inj (Option.some.inj hstands)
    -- The other client shows the same call, with the same grounds.
    have hstands' : t.calls[p]? = some (.registered u phase) :=
      (congrArg View.call (h.view q)).symm.trans stands
    have hturn := turn?_of_ends hstands' live hphase (grounds.of_view hphase (h.view q))
    refine Or.inr ⟨_, hturn, h.both (becomes_of_perform? hm)
      (becomes_of_perform? (m := .turn p) hturn) (side.trans h.side) fun q' => ?_⟩
    have hview' := (h.handed' q').view_of_unregister (t := t.endAt p u outcome) hstands' rfl rfl rfl
    rw [hview q', hview', h.view q']
  · refine Or.inl (h.unseen (becomes_of_perform? hm) side fun {place ticket} q => ?_)
    rw [hview q, if_neg]
    rintro rfl
    exact hseen ⟨ticket, q⟩

/-! ## Moves -/

/-- A move that the reader has no part in is one of the calls' ends, which the other client can make as
well, or is not seen by any of them. -/
theorem SeenAlike.core_move (h : SeenAlike Q s t) {m : Move} (hm : s.perform? m = some s')
    (side : s'.readerSide = s.readerSide) (resolve : ∀ p, m ≠ .resolve p) (leave : m ≠ .leave) :
    SeenAlike Q s' t ∨ ∃ n t', t.perform? n = some t' ∧ SeenAlike Q s' t' := by
  have hkept {place : Nat} {ticket : Ticket} (calls : s'.calls[place]? = s.calls[place]?)
      (registry : s'.registry = s.registry) : s'.view place ticket = s.view place ticket := by
    simp only [Session.view, side, calls, registry]
  cases effect_perform? hm with
  | still calls registry =>
    exact Or.inl (h.unseen (becomes_of_perform? hm) side fun _ => hkept (by rw [calls]) registry)
  | ended stands live grounds calls registry =>
    rcases h.ends hm side stands live grounds calls registry with hunseen | ⟨t', hturn, hseen⟩
    · exact Or.inl hunseen
    · exact Or.inr ⟨_, t', hturn, hseen⟩
  | @letIn _ room calls registry =>
    refine Or.inl (h.unseen (becomes_of_perform? hm) side fun {place ticket} q => hkept ?_ registry)
    obtain ⟨phase, hstands, hphase⟩ := (h.handed q).stands
    rw [calls]
    -- The calls that are taken into the queue are others, which waited for room.
    rcases getElem?_letIn room s.calls place with heq | ⟨u, hwaits, -⟩
    · exact heq
    · rw [hstands] at hwaits
      obtain ⟨-, rfl⟩ := Call.registered.inj (Option.some.inj hwaits)
      exact absurd rfl hphase
  | @queued _ p u stands calls registry =>
    refine Or.inl (h.unseen (becomes_of_perform? hm) side fun {place ticket} q => hkept ?_ registry)
    obtain ⟨phase, hstands, hphase⟩ := (h.handed q).stands
    rw [calls, List.getElem?_set_ne]
    rintro rfl
    rw [stands] at hstands
    obtain ⟨-, rfl⟩ := Call.registered.inj (Option.some.inj hstands)
    exact hphase rfl
  | resolved => exact absurd rfl (resolve _)
  | drained drains =>
    rcases drains with hcommand | hleave
    · simp at hcommand
    · exact absurd (Cause.move.inj hleave) leave

/-- A move of either client that leaves the calls alone, and does the same to the slots, leaves them
seen alike. -/
theorem SeenAlike.alike_move {t' : Session} {m : Move} (h : SeenAlike Q s t)
    (hm : s.perform? m = some s') (hm' : t.perform? m = some t')
    (side : s'.readerSide = t'.readerSide) (calls : s'.calls = s.calls) (calls' : t'.calls = t.calls)
    (slots : ∀ k : Nat, s.registry.slots[k]? = t.registry.slots[k]? →
      s'.registry.slots[k]? = t'.registry.slots[k]?) : SeenAlike Q s' t' := by
  refine h.both (becomes_of_perform? hm) (becomes_of_perform? hm') side fun {place ticket} q => ?_
  have hcall : s.calls[place]? = t.calls[place]? := congrArg View.call (h.view q)
  have hslot : s.registry.slots[ticket.slot]? = t.registry.slots[ticket.slot]? :=
    congrArg View.slot (h.view q)
  simp only [Session.view, side, calls, calls', hcall, slots _ hslot]

/-- A step of the reader of one client is one of the other's. -/
theorem SeenAlike.read (h : SeenAlike Q s t) (hread : s.read? = some s') :
    ∃ t', t.perform? .read = some t' ∧ SeenAlike Q s' t' := by
  have hside := readerSide_read? s
  rw [h.side, readerSide_read? t, hread, Option.map_some, Option.map_eq_some_iff] at hside
  obtain ⟨t', hread', hsides⟩ := hside
  obtain ⟨_, _, _, _, hs⟩ := read?_frame hread
  obtain ⟨_, _, _, _, ht⟩ := read?_frame hread'
  refine ⟨t', hread', h.alike_move (m := .read) hread hread' hsides.symm (by rw [hs]) (by rw [ht])
    fun k hslot => ?_⟩
  rw [hs, ht]
  exact hslot

/-- A reply that gets to the registry of one client can get to that of the other. -/
theorem SeenAlike.resolve (h : SeenAlike Q s t) {p : Nat} (hresolve : s.resolve? p = some s') :
    ∃ t', t.perform? (.resolve p) = some t' ∧ SeenAlike Q s' t' := by
  have hside := readerSide_resolve? s p
  rw [h.side, readerSide_resolve? t, hresolve, Option.map_some, Option.map_eq_some_iff] at hside
  obtain ⟨t', hresolve', hsides⟩ := hside
  obtain ⟨id, reply, hplace, hs⟩ := resolve?_eq_some hresolve
  obtain ⟨id', reply', hplace', ht⟩ := resolve?_eq_some hresolve'
  -- It is the same reply in both.
  have hflight := congrArg (fun v : Session => v.inFlight[p]?) h.side
  obtain ⟨rfl, rfl⟩ : id = id' ∧ reply = reply' := by
    have hboth : some (id, reply) = some (id', reply') := hplace.symm.trans (hflight.trans hplace')
    simpa using hboth
  refine ⟨t', hresolve', h.alike_move (m := .resolve p) hresolve hresolve' hsides.symm
    (by rw [← hs]; rfl) (by rw [← ht]; rfl) fun k hslot => ?_⟩
  rw [← hs, ← ht]
  show (s.registry.resolve id reply).2.slots[k]? = (t.registry.resolve id reply).2.slots[k]?
  rw [h.equipped.sound.coheres.numbered.getElem?_slots_resolve,
    h.equipped'.sound.coheres.numbered.getElem?_slots_resolve, hslot]

/-- A reader that lets the input go in one client can do so in the other. -/
theorem SeenAlike.leave (h : SeenAlike Q s t) (hleave : s.leave? = some s') :
    ∃ t', t.perform? .leave = some t' ∧ SeenAlike Q s' t' := by
  have hside := readerSide_perform? (m := .leave) (by simp [Move.reading]) s
  rw [h.side, readerSide_perform? (m := .leave) (by simp [Move.reading]) t,
    show s.perform? .leave = some s' from hleave, Option.map_some, Option.map_eq_some_iff] at hside
  obtain ⟨t', hleave', hsides⟩ := hside
  obtain ⟨-, -, hs⟩ := leave?_eq_some hleave
  obtain ⟨-, -, ht⟩ := leave?_eq_some hleave'
  refine ⟨t', hleave', h.alike_move (m := .leave) hleave hleave' hsides.symm (by rw [hs]) (by rw [ht])
    fun k hslot => ?_⟩
  rw [hs, ht]
  show s.registry.drain.2.slots[k]? = t.registry.drain.2.slots[k]?
  rw [h.equipped.sound.coheres.numbered.getElem?_slots_drain,
    h.equipped'.sound.coheres.numbered.getElem?_slots_drain, hslot]

/-- Whatever move a client makes, short of giving its reader up, one that is seen alike can make a move
that keeps them so, or need not make any. -/
theorem SeenAlike.move (h : SeenAlike Q s t) {m : Move} (hm : s.perform? m = some s')
    (keeps : m = .close → s'.reader = s.reader) :
    SeenAlike Q s' t ∨ ∃ n t', t.perform? n = some t' ∧ SeenAlike Q s' t' := by
  cases m with
  | read => exact Or.inr ⟨_, h.read hm⟩
  | resolve p => exact Or.inr ⟨_, h.resolve hm⟩
  | leave => exact Or.inr ⟨_, h.leave hm⟩
  | close =>
    refine h.core_move hm ?_ (by simp) (by simp)
    have hreader := keeps rfl
    obtain ⟨closing, writer, reader, events, rfl⟩ := close?_frame hm
    obtain rfl : reader = s.reader := hreader
    rfl
  | deliver | expire | refuse | write | refill | turn =>
    refine h.core_move hm ?_ (by simp) (by simp)
    cases touches_perform? hm <;> rfl

/-! ## Courses -/

/-- The reader is not given up. -/
def KeepsReader (h : List Change) : Prop :=
  ∀ c ∈ h, c.cause = .move .close → c.after.reader = c.before.reader

/-- Of two clients that are seen alike, the one can go through all that happens to the other, as far as
the reader and the calls see it. -/
theorem Course.seenAlike (course : Course s h s') (keeps : KeepsReader h)
    (alike : SeenAlike Q s t) :
    ∃ h' t', Course t h' t' ∧ commandsOf h' = commandsOf h ∧ SeenAlike Q s' t' := by
  induction course with
  | nil => exact ⟨[], t, .nil, rfl, alike⟩
  | @snoc past v w cause course becomes ih =>
    obtain ⟨h', t', hcourse, hcommands, hseen⟩ := ih fun c hc => keeps c (List.mem_append_left _ hc)
    cases cause with
    | command c =>
      obtain rfl : w = v.apply c := becomes
      refine ⟨_, _, hcourse.snoc (becomes_apply t' c), ?_, hseen.apply c⟩
      rw [commandsOf_command, commandsOf_command, hcommands]
    | move m =>
      have hkeeps : m = .close → w.reader = v.reader := fun heq =>
        keeps ⟨v, .move m, w⟩ (List.mem_append_right _ (List.mem_singleton_self _)) (heq ▸ rfl)
      rcases hseen.move becomes hkeeps with hstill | ⟨n, t'', hn, hnext⟩
      · exact ⟨h', t', hcourse, by rw [commandsOf_move, hcommands], hstill⟩
      · refine ⟨_, t'', hcourse.snoc (becomes_of_perform? hn), ?_, hnext⟩
        rw [commandsOf_move, commandsOf_move, hcommands]

end PipeCall.Session
