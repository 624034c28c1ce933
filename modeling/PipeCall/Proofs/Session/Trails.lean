import PipeCall.Proofs.Session.Unheard

/-!
# A client on whose way one reply less is

Two clients are the same to their callers, and the second has one reply on its way that the first has
not, or none (`Trails`). Whatever move but a read the second makes, the first can go on so that this
stays so, as long as the reply finds no call when it gets to the registry (`Trails.move`): the first
makes the same move, or none if it is that reply that moves on.
-/

namespace PipeCall.Session

variable {s t t' : Session} {u : Setup} {past : Bytes} {c : Change} {later : List Change} {m : Move}
  {id place : Nat} {extra : Option (Nat × Nat × Reply)} {flight flight' : List (Nat × Reply)}

/-! ## What happens but for the reader -/

/-- The reader reads, or a reply that it has handed over gets to the registry. -/
def Cause.isHearing : Cause → Bool
  | .move .read | .move (.resolve _) => true
  | _ => false

/-- What happens in some changes, in order, but for what the client hears. -/
def doings (changes : List Change) : List Cause :=
  (changes.map Change.cause).filter fun c => !c.isHearing

/-- What happens in one history and then in another. -/
theorem doings_append (changes changes' : List Change) :
    doings (changes ++ changes') = doings changes ++ doings changes' := by
  rw [doings, List.map_append, List.filter_append]
  rfl

/-- Nothing happens by reads. -/
theorem doings_of_reads {changes : List Change} (h : ∀ c ∈ changes, c.cause = .move .read) :
    doings changes = [] := by
  refine List.filter_eq_nil_iff.2 fun cause hcause => ?_
  obtain ⟨c, hc, rfl⟩ := List.mem_map.1 hcause
  simp [h c hc, Cause.isHearing]

/-- What is sent in a change and in those behind it. -/
theorem sent_commandsOf_cons (c : Change) (later : List Change) :
    sent (commandsOf (c :: later)) = c.cause.sent ++ sent (commandsOf later) := by
  obtain ⟨v, cause, w⟩ := c
  cases cause <;> rfl

/-- Nothing happens in a course without changes. -/
theorem Course.eq_of_nil (course : Course s [] t) : t = s := by
  generalize hnil : ([] : List Change) = h at course
  cases course with
  | nil => rfl
  | snoc => simp at hnil

/-- What a client has been sent in a course. -/
theorem Course.reached {h : List Change} (course : Course s h t) (reached : Reached u past s) :
    Reached u (past ++ sent (commandsOf h)) t := by
  induction course with
  | nil =>
    rw [commandsOf, List.filterMap_nil, sent, List.flatMap_nil, List.append_nil]
    exact reached
  | @snoc h v w cause course becomes ih =>
    have hsent : sent (commandsOf (h ++ [⟨v, cause, w⟩])) = sent (commandsOf h) ++ cause.sent := by
      rw [commandsOf, List.filterMap_append, sent, List.flatMap_append]
      congr 1
      exact (sent_commandsOf_cons ⟨v, cause, w⟩ []).trans (List.append_nil _)
    rw [hsent, ← List.append_assoc]
    exact ih.becomes becomes

/-! ## What happens to a reply on its way -/

/-- The reply in this place of those on their way gets to the registry, in these changes, while the
call of this number is outstanding. -/
def Claims (id : Nat) : Nat → List Change → Prop
  | _, [] => False
  | place, c :: later =>
    match c.cause with
    | .move (.resolve p) =>
      if p = place then id ∈ c.before.registry.ids
      else Claims id (if p < place then place - 1 else place) later
    | _ => Claims id place later

/-- Only replies that get to the registry change the places of those on their way. -/
theorem claims_cons (h : ∀ p, c.cause ≠ .move (.resolve p)) :
    Claims id place (c :: later) ↔ Claims id place later := by
  rw [Claims]
  split
  · rename_i p hcause
    exact absurd hcause (h p)
  · exact Iff.rfl

/-- When a reply gets to the registry those behind it move up. -/
theorem claims_cons_resolve {p : Nat} (h : c.cause = .move (.resolve p)) :
    Claims id place (c :: later) ↔
      if p = place then id ∈ c.before.registry.ids
      else Claims id (if p < place then place - 1 else place) later := by
  rw [Claims, h]

/-! ## One reply less -/

/-- The replies on the way of one client are those on the way of the other without one, which is given
with its place, or they are the same. -/
inductive Lacks : Option (Nat × Nat × Reply) → List (Nat × Reply) → List (Nat × Reply) → Prop
  | nothing (flight : List (Nat × Reply)) : Lacks none flight flight
  | one (front back : List (Nat × Reply)) (x : Nat × Reply) :
      Lacks (some (front.length, x)) (front ++ back) (front ++ x :: back)

namespace Lacks

/-- They are no more. -/
theorem length_le (h : Lacks extra flight flight') : flight.length ≤ flight'.length := by
  cases h with
  | nothing => exact Nat.le_refl _
  | one front back x => simp

/-- The same replies may follow. -/
theorem append (h : Lacks extra flight flight') (xs : List (Nat × Reply)) :
    Lacks extra (flight ++ xs) (flight' ++ xs) := by
  cases h with
  | nothing => exact .nothing _
  | one front back x =>
    rw [List.append_assoc, List.append_assoc, List.cons_append]
    exact .one front (back ++ xs) x

/-- Nothing lacks if they are the same. -/
theorem eq_of_none (h : Lacks none flight flight') : flight' = flight := by
  cases h with
  | nothing => rfl

/-- The other may have one more on its way, behind the others. -/
theorem last (flight : List (Nat × Reply)) (x : Nat × Reply) :
    Lacks (some (flight.length, x)) flight (flight ++ [x]) := by
  have hone := Lacks.one flight [] x
  rw [List.append_nil] at hone
  exact hone

/-- If the other has none on its way, neither has the one. -/
theorem of_nil (h : Lacks extra flight []) : extra = none ∧ flight = [] := by
  generalize hnil : ([] : List (Nat × Reply)) = flight' at h
  cases h with
  | nothing => exact ⟨rfl, rfl⟩
  | one front back x => simp at hnil

end Lacks

/-- The reply that one client lacks finds no call in these changes of the other. -/
def Harmless (extra : Option (Nat × Nat × Reply)) (changes : List Change) : Prop :=
  ∀ place x, extra = some (place, x) → ¬Claims x.1 place changes

/-- A reply that no client lacks does no harm. -/
theorem harmless_none (changes : List Change) : Harmless none changes := by
  rintro _ _ h
  simp at h

/-- A change that leaves the replies on their way alone does not matter. -/
theorem Harmless.tail (h : Harmless extra (c :: later)) (hc : ∀ p, c.cause ≠ .move (.resolve p)) :
    Harmless extra later :=
  fun place x heq hclaims => h place x heq ((claims_cons hc).2 hclaims)

/-- Two clients are the same to their callers, and have the same replies on their way, but for one that
the first may lack. -/
structure Trails (extra : Option (Nat × Nat × Reply)) (s t : Session) : Prop where
  core : t.core = s.core
  reader : t.reader = s.reader
  flight : Lacks extra s.inFlight t.inFlight

/-! ## The same move of two clients -/

/-- A reply that gets to the registry changes that, and is on its way no more. -/
theorem resolve?_of_getElem? {x : Nat × Reply} (h : s.inFlight[place]? = some x) :
    ∃ v, s.resolve? place = some v ∧
      v.core = { s.core with registry := (s.registry.resolve x.1 x.2).2 } ∧ v.intake = s.intake ∧
      v.reader = s.reader ∧ v.inFlight = s.inFlight.eraseIdx place := by
  obtain ⟨id, reply⟩ := x
  simp only [resolve?, h, Option.bind_eq_bind, Option.bind_some]
  exact ⟨_, rfl, rfl, rfl, rfl, rfl⟩

/-- One that finds no call there changes nothing but that it is on its way no more. -/
theorem resolve?_of_stray {x : Nat × Reply} (h : s.inFlight[place]? = some x)
    (stray : x.1 ∉ s.registry.ids) :
    ∃ v, s.resolve? place = some v ∧ v.core = s.core ∧ v.intake = s.intake ∧ v.reader = s.reader ∧
      v.inFlight = s.inFlight.eraseIdx place := by
  obtain ⟨v, hv, hcore, hrest⟩ := resolve?_of_getElem? h
  rw [Registry.resolve_of_none (Registry.slotOf?_eq_none_iff.2 stray)] at hcore
  exact ⟨v, hv, hcore, hrest⟩

/-- A reader that has stopped lets the input go when no reply is on its way, and drains the registry. -/
theorem leave?_of_leaving (reader : s.reader = .leaving) (flight : s.inFlight = []) :
    ∃ v, s.leave? = some v ∧ v.core = { s.core with registry := s.registry.drain.2 } ∧
      v.intake = s.intake ∧ v.reader = .gone ∧ v.inFlight = [] := by
  simp only [leave?, reader, flight]
  refine ⟨_, rfl, ?_⟩
  split <;> exact ⟨rfl, rfl, rfl, rfl⟩

/-- When of two clients with the same core and the same reader one makes a move that the reader has no
part in, the other can make it too. -/
theorem perform?_of_core (core : t.core = s.core) (reader : t.reader = s.reader) (hread : m ≠ .read)
    (hresolve : ∀ p, m ≠ .resolve p) (hleave : m ≠ .leave) (becomes : t.perform? m = some t') :
    ∃ s', s.perform? m = some s' ∧ t'.core = s'.core ∧ t'.reader = s'.reader ∧
      s'.intake = s.intake ∧ s'.inFlight = s.inFlight ∧ t'.inFlight = t.inFlight := by
  have hquiet : (s.perform? m).map Session.core = (t.perform? m).map Session.core →
      (∀ {v w : Session}, v.perform? m = some w →
        w.intake = v.intake ∧ w.reader = v.reader ∧ w.inFlight = v.inFlight) →
      ∃ s', s.perform? m = some s' ∧ t'.core = s'.core ∧ t'.reader = s'.reader ∧
        s'.intake = s.intake ∧ s'.inFlight = s.inFlight ∧ t'.inFlight = t.inFlight := by
    intro hmap hside
    rw [becomes, Option.map_some, Option.map_eq_some_iff] at hmap
    obtain ⟨s', hs', hcore⟩ := hmap
    obtain ⟨hintake, hreader, hflight⟩ := hside hs'
    obtain ⟨-, hreader', hflight'⟩ := hside becomes
    exact ⟨s', hs', hcore.symm, hreader'.trans (reader.trans hreader.symm), hintake, hflight, hflight'⟩
  have hmove : m ∈ Move.core → (s.perform? m).map Session.core = (t.perform? m).map Session.core :=
    fun hm => by rw [← core_perform? hm s, ← core_perform? hm t, core]
  cases m with
  | read => exact absurd rfl hread
  | resolve p => exact absurd rfl (hresolve p)
  | leave => exact absurd rfl hleave
  | deliver | expire | refuse | write | refill =>
    exact hquiet (hmove (by simp [Move.core])) (side_of_perform? (by simp [Move.core]))
  | turn place =>
    refine hquiet (by rw [perform?, perform?, ← core_turn? s, ← core_turn? t, core]) fun hturn => ?_
    obtain ⟨_, _, _, rfl⟩ := turn?_frame hturn
    exact ⟨rfl, rfl, rfl⟩
  | close =>
    have hrel := core_close? core reader
    rw [show t.close? = some t' from becomes] at hrel
    generalize hs : s.close? = s? at hrel
    cases hrel with
    | @some s' _ hnext =>
      obtain ⟨_, _, _, _, rfl⟩ := close?_frame hs
      obtain ⟨_, _, _, _, rfl⟩ := close?_frame becomes
      exact ⟨_, hs, hnext.1, hnext.2, rfl, rfl, rfl⟩

/-- If one hands a reply to its registry, the other can do so too, if it has that on its way. -/
theorem resolve?_of_core {q : Nat} (core : t.core = s.core) (reader : t.reader = s.reader)
    (becomes : t.resolve? place = some t') (same : s.inFlight[q]? = t.inFlight[place]?) :
    ∃ s', s.resolve? q = some s' ∧ t'.core = s'.core ∧ t'.reader = s'.reader ∧
      s'.intake = s.intake ∧ s'.inFlight = s.inFlight.eraseIdx q ∧
      t'.inFlight = t.inFlight.eraseIdx place := by
  have hregistry : t.core.registry = s.core.registry := by rw [core]
  obtain ⟨id, reply, hplace, -⟩ := resolve?_eq_some becomes
  obtain ⟨w, hw, hcore', -, hreader', hflight'⟩ := resolve?_of_getElem? hplace
  obtain ⟨v, hv, hcore, hintake, hreader, hflight⟩ := resolve?_of_getElem? (same.trans hplace)
  obtain rfl := Option.some.inj (hw.symm.trans becomes)
  refine ⟨v, hv, ?_, hreader'.trans (reader.trans hreader.symm), hintake, hflight, hflight'⟩
  rw [hcore', hcore, core, show t.registry = s.registry from hregistry]

/-- If the reader of one leaves, that of the other can too, if no reply is on its way. -/
theorem leave?_of_core (core : t.core = s.core) (reader : t.reader = s.reader)
    (becomes : t.leave? = some t') (flight : s.inFlight = []) :
    ∃ s', s.leave? = some s' ∧ t'.core = s'.core ∧ t'.reader = s'.reader ∧ s'.intake = s.intake ∧
      s'.inFlight = [] ∧ t'.inFlight = [] := by
  have hregistry : t.core.registry = s.core.registry := by rw [core]
  obtain ⟨hleaving, hnil, -⟩ := leave?_eq_some becomes
  obtain ⟨w, hw, hcore', -, hreader', hflight'⟩ := leave?_of_leaving hleaving hnil
  obtain ⟨v, hv, hcore, hintake, hreader, hflight⟩ :=
    leave?_of_leaving (reader.symm.trans hleaving) flight
  obtain rfl := Option.some.inj (hw.symm.trans becomes)
  refine ⟨v, hv, ?_, hreader'.trans hreader.symm, hintake, hflight, hflight'⟩
  rw [hcore', hcore, core, show t.registry = s.registry from hregistry]

/-! ## Moves of a client on whose way one reply less is -/

/-- When a reply of the second client gets to the registry, that of the first can too, unless it is the
one that the first lacks. That finds no call, so nothing changes but that it is gone. -/
theorem Trails.resolve (h : Trails extra s t)
    (harmless : Harmless extra (⟨t, .move (.resolve place), t'⟩ :: later))
    (becomes : t.resolve? place = some t') :
    (∃ q s' extra', s.resolve? q = some s' ∧ s'.intake = s.intake ∧ Trails extra' s' t' ∧
      Harmless extra' later ∧ (extra = none → extra' = none)) ∨ Trails none s t' := by
  -- The same reply gets to the registry of the first client from the place that it has there.
  have hsame : ∀ (q : Nat) (extra' : Option (Nat × Nat × Reply)),
      s.inFlight[q]? = t.inFlight[place]? →
      Lacks extra' (s.inFlight.eraseIdx q) (t.inFlight.eraseIdx place) →
      Harmless extra' later → (extra = none → extra' = none) →
        ∃ q s' extra', s.resolve? q = some s' ∧ s'.intake = s.intake ∧ Trails extra' s' t' ∧
          Harmless extra' later ∧ (extra = none → extra' = none) := by
    intro q extra' hq hlacks hharmless hnone
    obtain ⟨s', hs', hcore, hreader, hintake, hflight, hflight'⟩ :=
      resolve?_of_core h.core h.reader becomes hq
    rw [← hflight, ← hflight'] at hlacks
    exact ⟨q, s', extra', hs', hintake, ⟨hcore, hreader, hlacks⟩, hharmless, hnone⟩
  obtain ⟨id, reply, hplace, -⟩ := resolve?_eq_some becomes
  have hlacks := h.flight
  generalize hs : s.inFlight = flight at hlacks hsame
  generalize ht : t.inFlight = flight' at hlacks hplace hsame
  cases hlacks with
  | nothing => exact Or.inl (hsame place none rfl (.nothing _) (harmless_none later) fun h => h)
  | one front back x =>
    have hclaims := harmless front.length x rfl
    rw [claims_cons_resolve rfl] at hclaims
    rcases Nat.lt_trichotomy place front.length with hlt | rfl | hlt
    · -- A reply before it gets there, and it moves up.
      rw [if_neg (by omega), if_pos hlt] at hclaims
      rw [List.eraseIdx_append_of_lt_length hlt] at hsame
      refine Or.inl (hsame place (some (front.length - 1, x)) ?_ ?_ ?_ (by simp))
      · rw [List.getElem?_append_left hlt, List.getElem?_append_left hlt]
      · rw [List.eraseIdx_append_of_lt_length hlt, ← List.length_eraseIdx_of_lt hlt]
        exact .one _ back x
      · rintro _ _ heq
        obtain ⟨rfl, rfl⟩ := Prod.mk.inj (Option.some.inj heq)
        exact hclaims
    · -- It gets there itself.
      rw [if_pos rfl] at hclaims
      obtain rfl : x = (id, reply) := by simpa using hplace
      obtain ⟨w, hw, hcore, -, hreader, hflight⟩ := resolve?_of_stray (ht ▸ hplace) hclaims
      obtain rfl := Option.some.inj (hw.symm.trans becomes)
      refine Or.inr ⟨hcore.trans h.core, hreader.trans h.reader, ?_⟩
      rw [hs, hflight, ht, List.eraseIdx_append_of_length_le (Nat.le_refl _), Nat.sub_self]
      exact .nothing _
    · -- A reply behind it does.
      obtain ⟨p, rfl⟩ : ∃ p, place = front.length + (p + 1) :=
        ⟨place - front.length - 1, by omega⟩
      rw [if_neg (by omega), if_neg (by omega)] at hclaims
      rw [List.eraseIdx_append_of_length_le (by omega), Nat.add_sub_cancel_left,
        List.eraseIdx_cons_succ] at hsame
      refine Or.inl (hsame (front.length + p) (some (front.length, x)) ?_ ?_ ?_ (by simp))
      · rw [List.getElem?_append_right (by omega), List.getElem?_append_right (by omega),
          Nat.add_sub_cancel_left, Nat.add_sub_cancel_left, List.getElem?_cons_succ]
      · rw [List.eraseIdx_append_of_length_le (by omega), Nat.add_sub_cancel_left]
        exact .one front _ x
      · rintro _ _ heq
        obtain ⟨rfl, rfl⟩ := Prod.mk.inj (Option.some.inj heq)
        exact hclaims

/-- When the second client makes a move other than a read, the first can go on so that it is as before:
by the same move, or by none if the move is that of a reply which it lacks. -/
theorem Trails.move (h : Trails extra s t) (harmless : Harmless extra (⟨t, .move m, t'⟩ :: later))
    (hread : m ≠ .read) (becomes : t.perform? m = some t') :
    ∃ moves s' extra', Course s moves s' ∧ doings moves = doings [⟨t, .move m, t'⟩] ∧
      s'.intake = s.intake ∧ Trails extra' s' t' ∧ Harmless extra' later ∧
      (extra = none → extra' = none) := by
  by_cases hresolve : ∃ p, m = .resolve p
  · obtain ⟨p, rfl⟩ := hresolve
    rcases h.resolve harmless becomes with
      ⟨q, s', extra', hs', hintake, htrails, hharmless, hnone⟩ | htrails
    · exact ⟨_, s', extra', Course.nil.snoc (becomes_of_perform? (m := .resolve q) hs'), rfl, hintake,
        htrails, hharmless, hnone⟩
    · exact ⟨[], s, none, .nil, rfl, rfl, htrails, harmless_none later, fun _ => rfl⟩
  · by_cases hleave : m = .leave
    · -- Neither has a reply on its way.
      subst hleave
      have hlacks := h.flight
      rw [(leave?_eq_some becomes).2.1] at hlacks
      obtain ⟨rfl, hnil⟩ := hlacks.of_nil
      obtain ⟨s', hs', hcore, hreader, hintake, hflight, hflight'⟩ :=
        leave?_of_core h.core h.reader becomes hnil
      refine ⟨_, s', none, Course.nil.snoc (becomes_of_perform? (m := .leave) hs'), rfl, hintake,
        ⟨hcore, hreader, ?_⟩, harmless_none later, fun _ => rfl⟩
      rw [hflight, hflight']
      exact .nothing []
    · obtain ⟨s', hs', hcore, hreader, hintake, hflight, hflight'⟩ :=
        perform?_of_core h.core h.reader hread (not_exists.1 hresolve) hleave becomes
      refine ⟨_, s', extra, Course.nil.snoc (becomes_of_perform? hs'), rfl, hintake,
        ⟨hcore, hreader, ?_⟩, harmless.tail fun p => ?_, fun h => h⟩
      · rw [hflight, hflight']
        exact h.flight
      · simpa using not_exists.1 hresolve p

end PipeCall.Session
