import Mathlib.Logic.Relation
import PipeCall.Proofs.Session.Lifecycle

/-!
# A client without its reader's side

What a client does with its calls, its queue and its writer does not depend on its input, on its
reader, or on the replies that are still on their way: these meet the rest only when a reply gets
to the registry or the reader lets the input go. `core` is a client without them, and `coreNext?`
is its next move that needs none of them. Clients with the same core make the same such moves
(`coreNext?_congr`), so both can be led, each with its own input, to where they have none left
(`exists_calm`).
-/

namespace PipeCall.Session

variable {s t v : Session}

/-! ## Moves one after another -/

/-- A client comes to be another by the moves that it makes. -/
def Leads : Session → Session → Prop := Relation.ReflTransGen fun s t => s.next? = some t

namespace Leads

/-- A client is led to itself by no move. -/
theorem refl (s : Session) : Leads s s := Relation.ReflTransGen.refl

/-- The next move leads to where it ends. -/
theorem single (h : s.next? = some t) : Leads s t := Relation.ReflTransGen.single h

/-- Moves that follow on moves are moves. -/
theorem trans (h : Leads s t) (h' : Leads t v) : Leads s v := Relation.ReflTransGen.trans h h'

/-- What every change keeps is kept on the way. -/
theorem keeps {P : Session → Prop} (h : Leads s t)
    (step : ∀ {s t : Session} {m : Move}, s.Becomes (.move m) t → P s → P t) (hs : P s) : P t := by
  induction h with
  | refl => exact hs
  | tail _ hnext ih =>
    obtain ⟨m, _, _, _, _, hm⟩ := next?_eq_some_iff.1 hnext
    exact step hm ih

end Leads

/-- More fuel than work changes nothing. -/
theorem run_of_work_le {fuel : Nat} (h : s.work ≤ fuel) : run fuel s = s.settle := by
  have hmore : ∀ {m n : Nat} {s : Session}, s.work ≤ m → s.work ≤ n → run m s = run n s := by
    intro m
    induction m with
    | zero =>
      intro n s hm _
      cases hnext : s.next? with
      | none => cases n <;> simp [run, hnext]
      | some t => have hless := work_lt_of_next? hnext; omega
    | succ m ih =>
      intro n s hm hn
      cases hnext : s.next? with
      | none => cases n <;> simp [run, hnext]
      | some t =>
        have hless := work_lt_of_next? hnext
        obtain ⟨n, rfl⟩ : ∃ k, n = k + 1 := ⟨n - 1, by omega⟩
        simp only [run, hnext]
        exact ih (by omega) (by omega)
  exact hmore h (Nat.le_refl _)

/-- A client that is led to another settles where that does. -/
theorem Leads.settle (h : Leads s t) : s.settle = t.settle := by
  induction h with
  | refl => rfl
  | @tail t v _ hnext ih =>
    have hless := work_lt_of_next? hnext
    obtain ⟨n, hn⟩ : ∃ k, t.work = k + 1 := ⟨t.work - 1, by omega⟩
    have hsettle : t.settle = run n v := by
      rw [Session.settle, hn, run, hnext]
    rw [ih, hsettle]
    exact run_of_work_le (by omega)

/-- A client settles by its moves. -/
theorem leads_settle (s : Session) : Leads s s.settle := by
  have hrun : ∀ (fuel : Nat) (s : Session), Leads s (run fuel s) := by
    intro fuel
    induction fuel with
    | zero => exact Leads.refl
    | succ fuel ih =>
      intro s
      rw [run]
      cases hnext : s.next? with
      | none => exact Leads.refl s
      | some t => exact (Leads.single hnext).trans (ih t)
  exact hrun _ s

/-- A client at rest has settled. -/
theorem settle_of_rest (h : s.next? = none) : s.settle = s := by
  unfold settle
  cases s.work <;> simp [run, h]

/-! ## The core -/

/-- A client without its input, its reader, the replies on their way and its events. -/
def core (s : Session) : Session :=
  { s with intake := ⟨{}, ⟨0, [], 0, none⟩⟩, reader := .absent, inFlight := [], events := [] }

/-- The moves that the reader has no part in, in their order. -/
def Move.core : List Move := [.deliver, .expire, .refuse, .write, .refill]

/-- They are the ones that are preferred. -/
theorem Move.order_eq : Move.order = Move.core ++ [.read, .resolve 0, .leave, .close] := rfl

/-- The next of the moves that the reader has no part in. -/
def coreNext? (s : Session) : Option Session := Move.core.findSome? s.perform?

/-- The client has no such move to make. -/
def Calm (s : Session) : Prop := s.coreNext? = none

/-- A call that takes its settlement sees the core alone: the slots say which call is settled. -/
theorem core_deliver? (s : Session) : s.core.deliver?.map core = s.deliver?.map core := by
  have hsettlement : s.core.settlement? = s.settlement? := rfl
  simp only [deliver?, hsettlement, show s.core.calls = s.calls from rfl]
  cases spot? (fun t phase => phase.isLive && (s.settlement? t).isSome) s.calls with
  | none => rfl
  | some spot =>
    simp only [Option.bind_eq_bind, Option.bind_some]
    cases s.settlement? spot.ticket <;> rfl

/-- Whether a call can take its settlement is a matter of the core. -/
theorem isSome_deliver?_core (s : Session) : s.core.deliver?.isSome = s.deliver?.isSome := by
  have hmap := congrArg Option.isSome (core_deliver? s)
  rwa [Option.isSome_map, Option.isSome_map] at hmap

/-- Such a move sees the core alone. -/
theorem core_perform? {m : Move} (hm : m ∈ Move.core) (s : Session) :
    (s.core.perform? m).map core = (s.perform? m).map core := by
  have hdeliver := isSome_deliver?_core s
  have hundelivered : s.core.deliver?.isNone = s.deliver?.isNone := by
    rw [← Option.not_isSome, ← Option.not_isSome, hdeliver]
  simp only [Move.core, List.mem_cons, List.not_mem_nil, or_false] at hm
  rcases hm with rfl | rfl | rfl | rfl | rfl
  · exact core_deliver? s
  · simp only [perform?, expire?, hdeliver, show s.core.calls = s.calls from rfl,
      show s.core.clock = s.clock from rfl]
    split
    · rfl
    · cases spot? (fun t phase => phase.isLive && t.deadline ≤ s.clock) s.calls <;> rfl
  · simp only [perform?, refuse?, hundelivered, show s.core.calls = s.calls from rfl,
      show s.core.writer = s.writer from rfl]
    split
    · cases spot? (fun _ phase => phase.isWaiting) s.calls <;> rfl
    · rfl
  · simp only [perform?, write?, show s.core.queue = s.queue from rfl,
      show s.core.writer = s.writer from rfl, show s.core.output = s.output from rfl,
      show s.core.limit = s.limit from rfl, show s.core.queueClosed = s.queueClosed from rfl]
    split
    · split
      · rfl
      · simp only [writeOn, show s.core.output = s.output from rfl, Option.map_some]
        split <;> rfl
    · split <;> rfl
    · split <;> rfl
    · rfl
  · simp only [perform?, refill?, hundelivered, show s.core.calls = s.calls from rfl,
      show s.core.writer = s.writer from rfl, show s.core.queue = s.queue from rfl]
    split
    · split <;> rfl
    · rfl

/-- The turn of a call sees the core alone. -/
theorem core_turn? (s : Session) (place : Nat) :
    (s.core.turn? place).map core = (s.turn? place).map core := by
  have hsettlement : s.core.settlement? = s.settlement? := rfl
  have hroom : s.core.keepsRoom place = s.keepsRoom place := rfl
  simp only [turn?, hsettlement, hroom, show s.core.calls = s.calls from rfl,
    show s.core.writer = s.writer from rfl, show s.core.clock = s.clock from rfl]
  split
  · split
    · rfl
    · split
      · rfl
      · split
        · rfl
        · split
          · rfl
          · split <;> rfl
  · rfl

/-- Such a move leaves the reader's side alone. -/
theorem side_of_perform? {m : Move} (hm : m ∈ Move.core) (h : s.perform? m = some t) :
    t.intake = s.intake ∧ t.reader = s.reader ∧ t.inFlight = s.inFlight := by
  cases touches_perform? h with
  | conclude | refill | turn | write => exact ⟨rfl, rfl, rfl⟩
  | read | resolve | leave | close => simp [Move.core] at hm

/-- Clients that show the same after each of some moves show the same after the next of them. -/
theorem map_findSome?_congr {α : Type} {f : Session → α} {moves : List Move}
    (h : ∀ m ∈ moves, (s.perform? m).map f = (t.perform? m).map f) :
    (moves.findSome? s.perform?).map f = (moves.findSome? t.perform?).map f := by
  rw [List.map_findSome?, List.map_findSome?]
  induction moves with
  | nil => rfl
  | cons m moves ih =>
    obtain ⟨hm, hmoves⟩ := List.forall_mem_cons.1 h
    rw [List.findSome?_cons, List.findSome?_cons, Function.comp_apply, Function.comp_apply, hm,
      ih hmoves]

/-- Clients with the same core make the same core moves. -/
theorem coreNext?_congr (h : s.core = t.core) : s.coreNext?.map core = t.coreNext?.map core :=
  map_findSome?_congr fun m hm => by rw [← core_perform? hm s, ← core_perform? hm t, h]

/-- Whether a client is calm is a matter of its core. -/
theorem Calm.of_core (hs : s.Calm) (h : t.core = s.core) : t.Calm := by
  have hmap := coreNext?_congr h
  rw [show s.coreNext? = none from hs, Option.map_none, Option.map_eq_none_iff] at hmap
  exact hmap

/-- A calm client can make none of the core moves. -/
theorem Calm.perform? (hs : s.Calm) {m : Move} (hm : m ∈ Move.core) : s.perform? m = none :=
  List.findSome?_eq_none_iff.1 hs m hm

/-- Nothing goes before a core move. -/
theorem next?_of_coreNext? (h : s.coreNext? = some t) : s.next? = some t := by
  rw [next?, Move.order_eq, List.findSome?_append,
    show Move.core.findSome? s.perform? = some t from h]
  rfl

/-- A calm client goes on with what its reader has a part in. -/
theorem Calm.next? (hs : s.Calm) :
    s.next? = [Move.read, .resolve 0, .leave, .close].findSome? s.perform? := by
  rw [Session.next?, Move.order_eq, List.findSome?_append,
    show Move.core.findSome? s.perform? = none from hs]
  rfl

/-- A calm client reads next if it can. -/
theorem Calm.makes_read (hs : s.Calm) (h : s.read? = some t) : s.Makes .read t :=
  ⟨Move.core, [.resolve 0, .leave, .close], rfl, fun _ hm => hs.perform? hm, h⟩

/-- A client is led to a calm one, and so is every other with the same core, each with its own side
of the reader. -/
theorem exists_calm (s : Session) :
    ∃ m : Session, m.Calm ∧ ∀ t : Session, t.core = s.core → ∃ n : Session, Leads t n ∧
      n.core = m.core ∧ n.intake = t.intake ∧ n.reader = t.reader ∧ n.inFlight = t.inFlight := by
  induction hn : s.work using Nat.strongRecOn generalizing s with
  | ind n ih =>
    cases hcore : s.coreNext? with
    | none => exact ⟨s, hcore, fun t ht => ⟨t, .refl t, ht, rfl, rfl, rfl⟩⟩
    | some next =>
      have hless := work_lt_of_next? (next?_of_coreNext? hcore)
      obtain ⟨m, hcalm, hall⟩ := ih _ (by omega) next rfl
      refine ⟨m, hcalm, fun t ht => ?_⟩
      -- The other client makes the same move first.
      have hmap := coreNext?_congr ht
      rw [hcore, Option.map_some, Option.map_eq_some_iff] at hmap
      obtain ⟨next', hnext', hcore'⟩ := hmap
      obtain ⟨v, hleads, hv, hintake, hreader, hflight⟩ := hall next' hcore'
      obtain ⟨move, hmove, hperform⟩ := List.exists_of_findSome?_eq_some hnext'
      obtain ⟨hi, hr, hf⟩ := side_of_perform? hmove hperform
      exact ⟨v, (Leads.single (next?_of_coreNext? hnext')).trans hleads, hv, hintake.trans hi,
        hreader.trans hr, hflight.trans hf⟩

end PipeCall.Session
