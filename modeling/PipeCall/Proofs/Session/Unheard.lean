import PipeCall.Proofs.Session.Apart

/-!
# What a client has still to hear

The replies that were sent to a client and that its reader has not handed over are those in the
segments that are unread. Segments that are none do not matter, so these are the replies in many other
byte strings too (`ToHear`). Whenever the reader can read at all, it can read on until it has handed
over the first of them (`ToHear.hear`), or come to the end if there are none (`ToHear.finish`), and that
touches nothing but the replies on their way.
-/

namespace PipeCall.Session

open PipeCall.Frame (Looks Reported findDelimiter? split join heard)
open Bytes (lineFeed)

variable {s t t' : Session} {u : Setup} {limit : Nat} {bs cs past prior rest tail : Bytes}
  {xs : List (Nat × Reply)}

/-! ## Replies in a byte string -/

/-- The replies to numbered calls in the segments of a byte string. -/
def replies (bs : Bytes) : List (Nat × Reply) := (split bs).1.filterMap Inbound.keyed?

/-- Every segment that is a reply to a numbered call is shorter than the limit. -/
def Short (limit : Nat) (bs : Bytes) : Prop := ∀ b ∈ (split bs).1, names b = true → b.length < limit

/-- The replies in two byte strings in a row. -/
theorem replies_append (bs cs : Bytes) :
    replies (bs ++ cs) = replies bs ++ replies ((split bs).2 ++ cs) := by
  rw [replies, Frame.split_append, List.filterMap_append]
  rfl

/-- In two byte strings in a row the segments of both are short. -/
theorem short_append : Short limit (bs ++ cs) ↔ Short limit bs ∧ Short limit ((split bs).2 ++ cs) := by
  rw [Short, Frame.split_append]
  exact List.forall_mem_append

/-- There is no reply in a part of a segment. -/
theorem replies_of_undelimited (h : findDelimiter? tail = none) : replies tail = [] := by
  rw [replies, Frame.split_of_find_none h]
  rfl

/-- A part of what is short is short. -/
theorem Short.part (h : Short limit bs) (hle : cs <+: bs) : Short limit cs := by
  obtain ⟨more, rfl⟩ := hle
  exact (short_append.1 h).1

/-- The replies in some segments and behind them. -/
theorem replies_join {front : List Bytes}
    (hfront : ∀ b ∈ front, findDelimiter? (b ++ [lineFeed]) = none) (bs : Bytes) :
    replies (join front ++ bs) = front.filterMap Inbound.keyed? ++ replies bs := by
  rw [replies, Frame.split_join hfront, List.filterMap_append]
  rfl

/-- Some segments and what is behind them are short. -/
theorem short_join {front : List Bytes}
    (hfront : ∀ b ∈ front, findDelimiter? (b ++ [lineFeed]) = none) :
    Short limit (join front ++ bs) ↔
      (∀ b ∈ front, names b = true → b.length < limit) ∧ Short limit bs := by
  rw [Short, Frame.split_join hfront]
  exact List.forall_mem_append

/-- A reply that is shorter than the limit is heard, and nothing else is. -/
theorem filterMap_heard {b : Bytes} {out : List (Except Fault Bytes)} (reported : Reported limit b out)
    (short : names b = true → b.length < limit) : out.filterMap heard = (Inbound.keyed? b).toList := by
  cases hb : Inbound.keyed? b with
  | none =>
    refine List.filterMap_eq_nil_iff.2 fun r hr => ?_
    rcases reported.own r hr with ⟨rfl, -⟩ | rfl
    · exact hb
    · rfl
  | some x =>
    have hblank : Bytes.blank b = false := by
      cases hblank : Bytes.blank b with
      | false => rfl
      | true => rw [Inbound.keyed?_of_blank hblank] at hb; simp at hb
    rw [reported.ok hblank (short (by simp [names, hb]))]
    simp [heard, hb]

/-- A look at a stream takes the reply that it hears, and no other. -/
theorem replies_of_looks {r : Option (Except Fault Bytes)} (looks : Looks limit bs r rest)
    (short : Short limit bs) :
    replies bs = r.toList.filterMap heard ++ replies rest ∧ Short limit rest := by
  have hskipped : ∀ {skipped : List Bytes},
      (∀ b ∈ skipped, findDelimiter? (b ++ [lineFeed]) = none ∧ Reported limit b []) →
      (∀ b ∈ skipped, names b = true → b.length < limit) →
        skipped.filterMap Inbound.keyed? = [] := by
    intro skipped skips hshort
    refine List.filterMap_eq_nil_iff.2 fun b hb => ?_
    have hnone := filterMap_heard (skips b hb).2 (hshort b hb)
    simpa using hnone.symm
  cases looks with
  | nothing skipped eq skips =>
    have hundivided := fun b hb => (skips b hb).1
    rw [eq, short_join hundivided] at short
    rw [eq, replies_join hundivided, hskipped skips short.1]
    exact ⟨rfl, short.2⟩
  | @result skipped segment _ r eq skips undivided reported =>
    have hundivided := fun b hb => (skips b hb).1
    have hone : ∀ b ∈ [segment], findDelimiter? (b ++ [lineFeed]) = none := by simpa using undivided
    have hsegment : segment ++ Frame.delimiter ++ rest = join [segment] ++ rest := by simp
    rw [eq, hsegment, short_join hundivided, short_join hone] at short
    have hheard := filterMap_heard reported (short.2.1 segment (List.mem_singleton_self _))
    rw [eq, hsegment, replies_join hundivided, hskipped skips short.1, replies_join hone]
    refine ⟨?_, short.2.2⟩
    rw [Option.toList_some, hheard]
    cases hkeyed : Inbound.keyed? segment <;> simp [hkeyed]

/-! ## Replies that a client has still to hear -/

/-- The client has still to hear what is heard of these bytes: the replies in its unread segments are
those in theirs, all shorter than the limit, and the part of a segment behind them is the same. -/
structure ToHear (s : Session) (bs : Bytes) : Prop where
  short : Short s.stream.2 bs
  unread : ∃ unread, s.Unread unread ∧ Short s.stream.2 unread ∧ replies unread = replies bs ∧
    (split unread).2 = (split bs).2

namespace ToHear

/-- A client has to hear what is unread. -/
theorem of_unread (h : s.Unread bs) (short : Short s.stream.2 bs) : s.ToHear bs :=
  ⟨short, bs, h, short, rfl, rfl⟩

/-- It does not matter how the replies come. -/
theorem congr (h : s.ToHear bs) (short : Short s.stream.2 cs) (same : replies bs = replies cs)
    (tail : (split bs).2 = (split cs).2) : s.ToHear cs := by
  obtain ⟨-, unread, hunread, hshort, hreplies, htail⟩ := h
  exact ⟨short, unread, hunread, hshort, hreplies.trans same, htail.trans tail⟩

/-- What a client has still to hear is a matter of its input and its decoder. -/
theorem of_intake (h : s.ToHear bs) (intake : t.intake = s.intake) : t.ToHear bs := by
  have hstream : t.stream = s.stream := by rw [stream, stream, intake]
  obtain ⟨hshort, unread, hunread, hrest⟩ := h
  refine ⟨hstream ▸ hshort, unread, ?_, hstream ▸ hrest⟩
  rw [Unread, intake]
  exact hunread

/-- What a command sends comes behind. -/
theorem apply (h : s.ToHear bs) (c : Command) (short : Short s.stream.2 ((split bs).2 ++ c.sent)) :
    (s.apply c).ToHear (bs ++ c.sent) := by
  have hlimit : (s.apply c).stream.2 = s.stream.2 := by rw [stream, stream, intake_apply]
  obtain ⟨hshort, unread, hunread, hshort', hreplies, htail⟩ := h
  refine ⟨?_, unread ++ c.sent, hunread.apply c, ?_, ?_, ?_⟩
  · rw [hlimit]
    exact short_append.2 ⟨hshort, short⟩
  · rw [hlimit]
    exact short_append.2 ⟨hshort', htail ▸ short⟩
  · rw [replies_append, replies_append bs, hreplies, htail]
  · rw [Frame.split_append, Frame.split_append bs, htail]

end ToHear

/-- A client that has been sent all before the chunk has segments to hear, and nothing else unread. -/
theorem Reached.exists_front (h : Reached u prior s) (between : (split prior).2 = [])
    (short : Short u.limit prior) :
    ∃ front, (∀ b ∈ front, findDelimiter? (b ++ [lineFeed]) = none) ∧ s.Unread (join front) ∧
      s.ToHear (join front) := by
  obtain ⟨hlimit, -, done, held, hprior, hdone, htracks⟩ := h.fed
  have hsplit := Frame.split_join hdone (held ++ s.intake.input.arrived)
  rw [← hprior] at hsplit
  have hjoin := Frame.join_split (held ++ s.intake.input.arrived)
  rw [hsplit] at between
  rw [between, List.append_nil] at hjoin
  have hunread : s.Unread (join (split (held ++ s.intake.input.arrived)).1) :=
    ⟨held, htracks, by rw [hjoin]⟩
  refine ⟨_, fun b hb => Frame.findDelimiter?_segment hb, hunread, .of_unread hunread ?_⟩
  rw [hprior, short_join hdone] at short
  rw [hjoin, show s.stream.2 = u.limit from hlimit]
  exact short.2

/-! ## Reading on -/

/-- A client that runs with its reader reading, from an input that gives something at every read. -/
structure Attentive (s : Session) : Prop where
  running : s.lifecycle = .running
  reads : s.reader = .running
  chunk : 0 < s.intake.input.chunk

/-- It stays so as long as its core, its reader and its stream do. -/
theorem Attentive.of_core (h : s.Attentive) (core : t.core = s.core) (reader : t.reader = s.reader)
    (stream : t.stream = s.stream) : t.Attentive where
  running := by
    have hlifecycle : t.core.lifecycle = s.core.lifecycle := by rw [core]
    exact hlifecycle.trans h.running
  reads := reader.trans h.reads
  chunk := by
    have hchunk : t.stream.1.chunk = s.stream.1.chunk := by rw [stream]
    exact Nat.lt_of_lt_of_eq h.chunk hchunk.symm

/-- A client whose reader runs is attentive, if it is not shut down. -/
theorem Reached.attentive (h : Reached u past t) (chunked : 0 < u.chunk) (reads : t.reader = .running)
    (up : t.lifecycle ≠ .shutDown) : t.Attentive where
  running := by
    cases hlifecycle : t.lifecycle with
    | notStarted =>
      have habsent := h.unstarted hlifecycle
      simp [reads] at habsent
    | running => rfl
    | shutDown => exact absurd hlifecycle up
  reads := reads
  chunk := h.fed.chunk ▸ chunked

/-- A reader takes something only if there is room for a reply. -/
theorem room_of_read? (read : t.read? = some t') (up : t.lifecycle ≠ .shutDown) :
    t.inFlight.length < maxInFlight := by
  obtain ⟨-, hreads⟩ := reads_of_read? read
  cases hreads with
  | stops shut => exact absurd shut up
  | frame may | refused may | buffered may | failed may | ended may => exact may.room

/-- A reader of a client that is shut down stops. -/
theorem read?_of_shutDown (reads : s.reader = .running) (shut : s.lifecycle = .shutDown) :
    s.read? = some { s with reader := .leaving } := by
  simp [read?, reads, shut]

/-- A client that reads no more has nothing to do by a read only if its reader does not run. -/
theorem Deaf.idle (h : t.Deaf) (read : t.read? = none) : t.reader ≠ .running := by
  intro hreads
  simp [read?_of_shutDown hreads (h.2 hreads)] at read

/-- By reads alone a client has handed these replies over, and has these bytes still to hear. -/
structure Hears (s : Session) (xs : List (Nat × Reply)) (rest : Bytes) (moves : List Change)
    (t : Session) : Prop where
  course : Course s moves t
  reads : ∀ c ∈ moves, c.cause = .move .read
  core : t.core = s.core
  reader : t.reader = s.reader
  inFlight : t.inFlight = s.inFlight ++ xs
  stream : t.stream = s.stream
  toHear : t.ToHear rest

/-- A first read by which nothing is heard, and others. -/
theorem Hears.cons {v : Session} {moves : List Change} (read : s.read? = some v)
    (core : v.core = s.core) (reader : v.reader = s.reader) (inFlight : v.inFlight = s.inFlight)
    (stream : v.stream = s.stream) (h : Hears v xs rest moves t) :
    Hears s xs rest (⟨s, .move .read, v⟩ :: moves) t where
  course := (Course.nil.snoc (becomes_of_perform? (m := .read) read)).append h.course
  reads := List.forall_mem_cons.2 ⟨rfl, h.reads⟩
  core := h.core.trans core
  reader := h.reader.trans reader
  inFlight := by rw [h.inFlight, inFlight]
  stream := h.stream.trans stream
  toHear := h.toHear

/-- What is heard by one look is nothing, or the reply in its frame. -/
theorem filterMap_heard_cases (r : Option (Except Fault Bytes)) :
    r.toList.filterMap heard = [] ∨ ∃ body x, r = some (.ok body) ∧ Inbound.keyed? body = some x ∧
      r.toList.filterMap heard = [x] := by
  rcases r with _ | _ | body
  · exact Or.inl rfl
  · exact Or.inl rfl
  · cases hbody : Inbound.keyed? body with
    | none => exact Or.inl (by simp [heard, hbody])
    | some x => exact Or.inr ⟨body, x, rfl, hbody, by simp [heard, hbody]⟩

/-- Whatever a look at the bytes that a client has to hear takes of them, the client can read on until
it has heard that, if it has room for a reply. -/
theorem ToHear.hear {r : Option (Except Fault Bytes)} (h : s.ToHear bs)
    (looks : Looks s.stream.2 bs r rest) (attentive : s.Attentive)
    (room : s.inFlight.length < maxInFlight) :
    ∃ moves t, Hears s (r.toList.filterMap heard) rest moves t := by
  induction hn : s.work using Nat.strongRecOn generalizing s with
  | ind n ih =>
    obtain ⟨hreplies, hshort⟩ := replies_of_looks looks h.short
    rcases filterMap_heard_cases r with hnil | ⟨-, x, -, -, hone⟩
    · -- There is nothing to hear.
      rw [hnil] at hreplies ⊢
      exact ⟨[], s, .nil, by simp, rfl, rfl, (List.append_nil _).symm, rfl,
        h.congr hshort hreplies looks.tail.symm⟩
    · rw [hone] at hreplies
      obtain ⟨unread, hunread, hshort', hsame, htail⟩ := h.unread
      rw [hreplies] at hsame
      cases pulls attentive.running attentive.reads room attentive.chunk hunread with
      | @looks t r' rest' hread looks' core reader inFlight hstream left frame =>
        have hless := work_lt_of_read? hread
        obtain ⟨hreplies', hshort''⟩ := replies_of_looks looks' hshort'
        rw [hsame] at hreplies'
        rw [← hstream] at hshort''
        rcases filterMap_heard_cases r' with hnil | ⟨-, y, -, -, hone'⟩
        · -- Nothing is heard by this read.
          rw [hnil, List.nil_append] at hreplies'
          rw [hnil, List.append_nil] at inFlight
          have htoHear : t.ToHear bs :=
            (of_unread left hshort'').congr (hstream ▸ h.short) (hreplies'.symm.trans hreplies.symm)
              (looks'.tail.trans htail)
          obtain ⟨moves, e, hhears⟩ := ih _ (by omega) htoHear (hstream ▸ looks)
            (attentive.of_core core reader hstream) (inFlight ▸ room) rfl
          exact ⟨_, e, hhears.cons hread core reader inFlight hstream⟩
        · -- The reply is.
          rw [hone'] at hreplies' inFlight
          obtain ⟨rfl, hothers⟩ := List.cons.inj hreplies'
          refine ⟨_, t, Course.nil.snoc (becomes_of_perform? (m := .read) hread), by simp, core, reader,
            inFlight.trans (by rw [hone]), hstream, (of_unread left hshort'').congr ?_ hothers.symm ?_⟩
          · exact hstream ▸ hshort
          · rw [looks'.tail, htail, looks.tail]
      | stops _ _ looks' undelimited | waits _ _ looks' undelimited =>
        -- At the end there is no reply left.
        obtain ⟨hnone, -⟩ := replies_of_looks looks' hshort'
        rw [hsame, replies_of_undelimited undelimited] at hnone
        simp at hnone

/-- A client that has no reply to hear, and room for one, can read on to the end: its reader stops there
if its input does, and waits otherwise. -/
theorem ToHear.finish (h : s.ToHear bs) (none : replies bs = []) (attentive : s.Attentive)
    (room : s.inFlight.length < maxInFlight) :
    ∃ moves t, Course s moves t ∧ (∀ c ∈ moves, c.cause = .move .read) ∧ t.core = s.core ∧
      t.inFlight = s.inFlight ∧
      (s.stream.1.Stops ∧ t.reader = .leaving ∨
        ¬s.stream.1.Stops ∧ t.reader = .running ∧ t.read? = .none) := by
  induction hn : s.work using Nat.strongRecOn generalizing s with
  | ind n ih =>
    obtain ⟨unread, hunread, hshort, hsame, htail⟩ := h.unread
    cases pulls attentive.running attentive.reads room attentive.chunk hunread with
    | @looks t r rest hread looks core reader inFlight hstream left frame =>
      have hless := work_lt_of_read? hread
      obtain ⟨hreplies, hrest⟩ := replies_of_looks looks hshort
      rw [hsame, none, eq_comm, List.append_eq_nil_iff] at hreplies
      rw [← hstream] at hrest
      rw [hreplies.1, List.append_nil] at inFlight
      have htoHear : t.ToHear bs := (of_unread left hrest).congr (hstream ▸ h.short)
        (hreplies.2.trans none.symm) (looks.tail.trans htail)
      obtain ⟨moves, e, hcourse, hreads, hcore, hflight, hend⟩ := ih _ (by omega) htoHear
        (attentive.of_core core reader hstream) (inFlight ▸ room) rfl
      rw [hstream] at hend
      have hfirst : Course s [⟨s, .move .read, t⟩] t :=
        Course.nil.snoc (becomes_of_perform? (m := .read) hread)
      exact ⟨_, e, hfirst.append hcourse, List.forall_mem_cons.2 ⟨rfl, hreads⟩, hcore.trans core,
        hflight.trans inFlight, hend⟩
    | stops hread hstops looks undelimited core reader inFlight =>
      exact ⟨_, _, Course.nil.snoc (becomes_of_perform? (m := .read) hread), by simp, core, inFlight,
        Or.inl ⟨hstops, reader⟩⟩
    | waits hread goes =>
      exact ⟨[], s, .nil, by simp, rfl, rfl, Or.inr ⟨goes, attentive.reads, hread⟩⟩

end PipeCall.Session
