import PipeCall.Proofs.Session.Trails

/-!
# A chunk that only one of two clients is sent

A client goes through a course, in which it is sent a chunk between two frames. Another client can go
through a course in which it is not sent the chunk, everything else is done to it in the same order, and
it does the same in the same order but for what it hears (`without`); and it has the same core then
(`Stage.course`). What the second client does more is to take the chunk. If that is a reply, it is on its
way to the registry for a while, and must not find a call there (`Claims`).

`Spliced` says what the first client has to hear and what the second has unread, `Stage` what they are
at any moment: the same before the chunk comes, `Trails` behind it, until their readers stop.
-/

namespace PipeCall.Session

open PipeCall.Frame (findDelimiter? split join delimiter Whole Looks Reported heard)
open Bytes (lineFeed)

variable {s t t' : Session} {u : Setup} {prior chunk past bs bs' rest : Bytes} {limit : Nat}
  {later : List Change} {m : Move} {extra : Option (Nat × Nat × Reply)}

/-! ## Causes without some of what is sent -/

/-- What sends bytes sends them without those from the place `start` up to the place `stop`. -/
def Command.without (start stop : Nat) : Command → Command
  | .send bs => .send (bs.take start ++ bs.drop stop)
  | c => c

/-- A cause that sends bytes sends them without those from the place `start` up to the place `stop`. -/
def Cause.without (start stop : Nat) : Cause → Cause
  | .command c => .command (c.without start stop)
  | .move m => .move m

/-- Causes without the bytes from the place `start` of the stream up to the place `stop`, if what they
send begins at the place `pos`. -/
def without (start stop : Nat) : Nat → List Cause → List Cause
  | _, [] => []
  | pos, c :: causes =>
    c.without (start - pos) (stop - pos) :: without start stop (pos + c.sent.length) causes

/-- What happens before more happens. -/
theorem without_doings (start stop pos : Nat) (c : Change) (later : List Change) :
    without start stop pos (doings (c :: later)) =
      without start stop pos (doings [c]) ++
        without start stop (pos + c.cause.sent.length) (doings later) := by
  by_cases hearing : c.cause.isHearing
  · have hsent : c.cause.sent = [] := by
      cases hc : c.cause with
      | command d => simp [hc, Cause.isHearing] at hearing
      | move m => rfl
    have hdoings : ∀ changes, doings (c :: changes) = doings changes :=
      fun changes => List.filter_cons_of_neg (by simp [hearing])
    rw [hdoings, hdoings, hsent]
    rfl
  · have hdoings : ∀ changes, doings (c :: changes) = c.cause :: doings changes :=
      fun changes => List.filter_cons_of_pos (by simp [hearing])
    rw [hdoings, hdoings]
    rfl

/-! ## What is unread -/

/-- What the one client has to hear, and what the other has unread that is sent the chunk besides, when
that one has been sent these bytes. -/
inductive Spliced (prior chunk : Bytes) :
    Option (Nat × Nat × Reply) → Bytes → Bytes → Bytes → Prop
  /-- A part of the chunk has been sent. -/
  | within {front : List Bytes} {part more : Bytes} (parts : part ++ more = chunk ++ delimiter)
      (left : more ≠ []) (segments : ∀ b ∈ front, findDelimiter? (b ++ [lineFeed]) = none) :
      Spliced prior chunk none (prior ++ part) (join front) (join front ++ part)
  /-- The chunk has been sent, and bytes behind it. -/
  | whole {front : List Bytes} {after : Bytes}
      (segments : ∀ b ∈ front, findDelimiter? (b ++ [lineFeed]) = none) :
      Spliced prior chunk none (prior ++ (chunk ++ delimiter ++ after)) (join front ++ after)
        (join front ++ (chunk ++ delimiter ++ after))
  /-- The chunk has been taken. -/
  | behind {extra : Option (Nat × Nat × Reply)} {bs after : Bytes}
      (tail : (split bs).2 = (split after).2) :
      Spliced prior chunk extra (prior ++ (chunk ++ delimiter ++ after)) bs bs

namespace Spliced

/-- What the other takes by a look the one may take too, unless that is the chunk. -/
theorem looks {r : Option (Except Fault Bytes)} (h : Spliced prior chunk extra past bs bs')
    (hchunk : Whole chunk) (looks : Looks limit bs' r rest) :
    (∃ rest', Looks limit bs r rest' ∧ Spliced prior chunk extra past rest' rest) ∨
      extra = none ∧ Looks limit bs none rest ∧ past = prior ++ (chunk ++ delimiter ++ rest) ∧
        ∃ x, r = some x ∧ Reported limit chunk [x] := by
  cases h with
  | within parts left segments =>
    obtain ⟨more, hmore, hlooks, rfl⟩ := looks.before_tail segments (hchunk.part left parts)
    exact Or.inl ⟨_, hlooks, .within parts left fun b hb => segments b (hmore b hb)⟩
  | @whole front after segments =>
    rcases looks.position rfl segments hchunk.segment with
      ⟨more, hmore, hlooks, rfl⟩ | ⟨hfront, ⟨x, rfl, hreported, rfl⟩ | hlooks⟩
    · exact Or.inl ⟨_, hlooks.extend after, .whole fun b hb => segments b (hmore b hb)⟩
    · exact Or.inr ⟨rfl, hfront.extend rest, rfl, x, rfl, hreported⟩
    · exact Or.inl ⟨rest, hfront.append hlooks, .behind hlooks.tail⟩
  | behind tail => exact Or.inl ⟨rest, looks, .behind (looks.tail.trans tail)⟩

/-- If the other has come to the end of its bytes, the one has no reply to hear. -/
theorem replies_of_end {tail : Bytes} (h : Spliced prior chunk extra past bs bs') (hchunk : Whole chunk)
    (looks : Looks limit bs' none tail) (undelimited : findDelimiter? tail = none)
    (short : Short limit bs) : replies bs = [] := by
  rcases h.looks hchunk looks with ⟨rest', hlooks, hspliced⟩ | ⟨-, -, -, x, hnone, -⟩
  · obtain ⟨hreplies, -⟩ := replies_of_looks hlooks short
    rw [hreplies]
    cases hspliced with
    | @within front part more parts left segments =>
      -- There is no segment in front of a tail.
      cases front with
      | nil => exact replies_of_undelimited rfl
      | cons b front =>
        rw [Frame.join_cons, List.append_assoc,
          Frame.findDelimiter?_segment_append (segments b List.mem_cons_self)] at undelimited
        simp at undelimited
    | whole segments =>
      exact absurd undelimited (Frame.findDelimiter?_join_append segments hchunk.segment _)
    | behind => exact replies_of_undelimited undelimited
  · simp at hnone

/-- Before the chunk is taken there is nothing that the one lacks. -/
theorem of_extra {extra' : Option (Nat × Nat × Reply)} (h : Spliced prior chunk extra past bs bs')
    (first : extra = none → extra' = none) : Spliced prior chunk extra' past bs bs' := by
  cases h with
  | within parts left segments =>
    rw [first rfl]
    exact .within parts left segments
  | whole segments =>
    rw [first rfl]
    exact .whole segments
  | behind tail => exact .behind tail

/-- A part is shorter than the chunk. -/
theorem length_part_lt {part more : Bytes} (prior : Bytes) (parts : part ++ more = chunk ++ delimiter)
    (left : more ≠ []) : (prior ++ part).length < (prior ++ (chunk ++ delimiter)).length := by
  have hpos := List.length_pos_iff.2 left
  rw [← parts]
  simp only [List.length_append]
  omega

/-- If the chunk has come, what the one has to hear ends as what was sent behind it. -/
theorem tail (h : Spliced prior chunk extra past bs bs')
    (come : (prior ++ (chunk ++ delimiter)).length ≤ past.length) :
    ∃ after, past = prior ++ (chunk ++ delimiter ++ after) ∧ (split bs).2 = (split after).2 := by
  cases h with
  | within parts left segments => exact absurd come (Nat.not_le.2 (length_part_lt prior parts left))
  | whole segments => exact ⟨_, rfl, by rw [Frame.split_join segments]⟩
  | behind tail => exact ⟨_, rfl, tail⟩

/-- Both may be sent the same, if the chunk has come. -/
theorem send (h : Spliced prior chunk extra past bs bs') (cs : Bytes)
    (come : cs = [] ∨ (prior ++ (chunk ++ delimiter)).length ≤ past.length) :
    Spliced prior chunk extra (past ++ cs) (bs ++ cs) (bs' ++ cs) := by
  cases h with
  | @within front part more parts left segments =>
    rcases come with rfl | hlong
    · rw [List.append_nil, List.append_nil, List.append_nil]
      exact .within parts left segments
    · exact absurd hlong (Nat.not_le.2 (length_part_lt prior parts left))
  | @whole front after segments =>
    have hwhole : Spliced prior chunk none (prior ++ (chunk ++ delimiter ++ (after ++ cs)))
        (join front ++ (after ++ cs)) (join front ++ (chunk ++ delimiter ++ (after ++ cs))) :=
      .whole segments
    simpa only [List.append_assoc] using hwhole
  | @behind extra bs after tail =>
    have hbehind : Spliced prior chunk extra (prior ++ (chunk ++ delimiter ++ (after ++ cs)))
        (bs ++ cs) (bs ++ cs) :=
      .behind (by rw [Frame.split_append, Frame.split_append after, tail])
    simpa only [List.append_assoc] using hbehind

end Spliced

/-! ## Two clients at a moment -/

/-- Two clients at a moment when the second has been sent these bytes, of which the first lacks the
chunk. -/
inductive Stage (prior chunk : Bytes) :
    Option (Nat × Nat × Reply) → Bytes → Session → Session → Prop
  /-- The chunk has not begun, and they are one. -/
  | before {s : Session} {past more : Bytes} (eq : past ++ more = prior) :
      Stage prior chunk none past s s
  /-- It has, and the first trails the second. -/
  | trailing {extra : Option (Nat × Nat × Reply)} {past bs bs' : Bytes} {s t : Session}
      (trails : Trails extra s t) (stream : t.stream = s.stream)
      (spliced : Spliced prior chunk extra past bs bs') (toHear : s.ToHear bs)
      (unread : t.Unread bs') : Stage prior chunk extra past s t
  /-- They read no more. -/
  | deaf {extra : Option (Nat × Nat × Reply)} {past : Bytes} {s t : Session}
      (trails : Trails extra s t) (deaf : t.Deaf) : Stage prior chunk extra past s t

/-- They have the same core. -/
theorem Stage.core (h : Stage prior chunk extra past s t) : t.core = s.core := by
  cases h with
  | before => rfl
  | trailing trails => exact trails.core
  | deaf trails => exact trails.core

/-- A move other than a read leaves them so. -/
theorem Stage.move (h : Stage prior chunk extra past s t)
    (harmless : Harmless extra (⟨t, .move m, t'⟩ :: later)) (hread : m ≠ .read)
    (becomes : t.perform? m = some t') :
    ∃ moves s' extra', Course s moves s' ∧ doings moves = doings [⟨t, .move m, t'⟩] ∧
      Stage prior chunk extra' past s' t' ∧ Harmless extra' later := by
  cases h with
  | before eq =>
    exact ⟨_, t', none, Course.nil.snoc (becomes_of_perform? becomes), rfl, .before eq,
      harmless_none later⟩
  | @trailing _ _ bs bs' _ _ trails stream spliced toHear unread =>
    obtain ⟨moves, s', extra', hcourse, hdoings, hintake, htrails, hharmless, hnone⟩ :=
      trails.move harmless hread becomes
    have hintake' := intake_of_perform? becomes hread
    have hstream : t'.stream = s'.stream := by
      rw [Session.stream, Session.stream, hintake, hintake']
      exact stream
    have hunread : t'.Unread bs' := by
      rw [Unread, hintake']
      exact unread
    exact ⟨moves, s', extra', hcourse, hdoings,
      .trailing htrails hstream (spliced.of_extra hnone) (toHear.of_intake hintake) hunread, hharmless⟩
  | deaf trails deaf =>
    obtain ⟨moves, s', extra', hcourse, hdoings, -, htrails, hharmless, -⟩ :=
      trails.move harmless hread becomes
    exact ⟨moves, s', extra', hcourse, hdoings,
      .deaf htrails ((becomes_of_perform? becomes).deaf deaf), hharmless⟩

/-- In this change the client takes the frame of the chunk, behind these bytes of those that it has been
sent by then. -/
def Change.TakesAt (d : Change) (past prior chunk : Bytes) : Prop :=
  d.cause = .move .read ∧ ∃ k, d.before.intake.pull = (.frame chunk, k) ∧
    past = prior ++ (chunk ++ delimiter ++ (k.decoder.buffer ++ k.input.arrived))

/-- If the reader of the second client stops because that is shut down, that of the first does too. -/
theorem Trails.stop (h : Trails extra s t) (shut : t.lifecycle = .shutDown) (read : t.read? = some t') :
    ∃ s', s.read? = some s' ∧ Trails extra s' t' ∧ t'.Deaf := by
  have hreads := (reads_of_read? read).1
  have hlifecycle : t.core.lifecycle = s.core.lifecycle := by rw [h.core]
  obtain rfl := Option.some.inj ((read?_of_shutDown hreads shut).symm.trans read)
  exact ⟨_, read?_of_shutDown (h.reader.symm.trans hreads) (hlifecycle.symm.trans shut),
    ⟨h.core, rfl, h.flight⟩, by simp [shut], by simp⟩

/-- When the first client has heard what the second has, that trails it still. -/
theorem Trails.hears {extra' : Option (Nat × Nat × Reply)} {xs : List (Nat × Reply)}
    {moves : List Change} {s' : Session} (h : Trails extra s t) (hears : Hears s xs rest moves s')
    (core : t'.core = t.core) (reader : t'.reader = t.reader)
    (flight : Lacks extra' (s.inFlight ++ xs) t'.inFlight) : Trails extra' s' t' where
  core := by rw [core, hears.core, h.core]
  reader := by rw [reader, hears.reader, h.reader]
  flight := hears.inFlight ▸ flight

/-- If the reader of the second client stops at the end of the input, and there is no reply for the first
to hear, the reader of the first can stop too. -/
theorem Trails.finish (h : Trails extra s t) (toHear : s.ToHear bs) (none : replies bs = [])
    (attentive : s.Attentive) (room : s.inFlight.length < maxInFlight) (stops : s.stream.1.Stops)
    (core : t'.core = t.core) (reader : t'.reader = .leaving) (inFlight : t'.inFlight = t.inFlight) :
    ∃ moves s', Course s moves s' ∧ doings moves = [] ∧ Trails extra s' t' ∧ t'.Deaf := by
  obtain ⟨moves, s', hcourse, hmoves, hcore, hflight, ⟨-, hreader⟩ | ⟨hgoes, -⟩⟩ :=
    toHear.finish none attentive room
  · have hlifecycle : t'.core.lifecycle = s.core.lifecycle := by rw [core, h.core]
    have hrunning : t'.lifecycle = .running := hlifecycle.trans attentive.running
    refine ⟨moves, s', hcourse, doings_of_reads hmoves, ⟨?_, ?_, ?_⟩, ?_, ?_⟩
    · rw [core, hcore, h.core]
    · rw [reader, hreader]
    · rw [inFlight, hflight]
      exact h.flight
    · simp [hrunning]
    · simp [reader]
  · exact absurd stops hgoes

/-- When the second client has taken the chunk, it has the reply in it on its way besides, if the chunk
is one and was not too long. -/
theorem exists_lacks {x : Except Fault Bytes} (later : List Change) (flight : List (Nat × Reply))
    (reported : Reported limit chunk [x])
    (unclaimed : x = .ok chunk → ∀ y, Inbound.keyed? chunk = some y →
      ¬Claims y.1 flight.length later) :
    ∃ extra, Lacks extra flight (flight ++ [x].filterMap heard) ∧ Harmless extra later := by
  rcases filterMap_heard_cases (some x) with hnil | ⟨body, y, hbody, hkeyed, hone⟩
  · rw [Option.toList_some] at hnil
    rw [hnil, List.append_nil]
    exact ⟨none, .nothing flight, harmless_none later⟩
  · obtain rfl := Option.some.inj hbody
    obtain rfl : body = chunk := by
      rcases reported.own (.ok body) (by simp) with ⟨heq, -⟩ | herror
      · exact Except.ok.inj heq
      · simp at herror
    rw [Option.toList_some] at hone
    rw [hone]
    refine ⟨_, .last flight y, ?_⟩
    rintro _ _ heq
    obtain ⟨rfl, rfl⟩ := Prod.mk.inj (Option.some.inj heq)
    exact unclaimed rfl y hkeyed

/-- A read leaves them so too, if the reply in the chunk finds no call after it is taken. -/
theorem Stage.read (h : Stage prior chunk extra past s t) (hchunk : Whole chunk)
    (chunked : 0 < u.chunk) (reached : Reached u past t)
    (harmless : Harmless extra (⟨t, .move .read, t'⟩ :: later))
    (unclaimed : Change.TakesAt ⟨t, .move .read, t'⟩ past prior chunk →
      ∀ x, Inbound.keyed? chunk = some x → ¬Claims x.1 t.inFlight.length later)
    (becomes : t.read? = some t') :
    ∃ moves s' extra', Course s moves s' ∧ doings moves = [] ∧
      Stage prior chunk extra' past s' t' ∧ Harmless extra' later := by
  have hlater : Harmless extra later := harmless.tail (by simp)
  have hreads := (reads_of_read? becomes).1
  have hone : ∀ {s' : Session}, s.read? = some s' → Course s [⟨s, .move .read, s'⟩] s' :=
    fun hread => Course.nil.snoc (becomes_of_perform? (m := .read) hread)
  cases h with
  | before eq => exact ⟨_, t', none, hone becomes, rfl, .before eq, hlater⟩
  | deaf trails deaf =>
    obtain ⟨s', hread, htrails, hdeaf⟩ := trails.stop (deaf.2 hreads) becomes
    exact ⟨_, s', extra, hone hread, rfl, .deaf htrails hdeaf, hlater⟩
  | @trailing _ _ bs bs' _ _ trails stream spliced toHear unread =>
    by_cases hshut : t.lifecycle = .shutDown
    · obtain ⟨s', hread, htrails, hdeaf⟩ := trails.stop hshut becomes
      exact ⟨_, s', extra, hone hread, rfl, .deaf htrails hdeaf, hlater⟩
    · have hattentive := reached.attentive chunked hreads hshut
      have hroom := room_of_read? becomes hshut
      have hattentive' : s.Attentive :=
        hattentive.of_core trails.core.symm trails.reader.symm stream.symm
      have hroom' : s.inFlight.length < maxInFlight := by
        have hle := trails.flight.length_le
        omega
      cases pulls hattentive.running hattentive.reads hroom hattentive.chunk unread with
      | waits hnone => simp [becomes] at hnone
      | @stops t'' tail hread hstops looks undelimited core reader inFlight =>
        obtain rfl := Option.some.inj (hread.symm.trans becomes)
        rw [stream] at looks hstops
        have hnone := spliced.replies_of_end hchunk looks undelimited toHear.short
        obtain ⟨moves, s', hcourse, hdoings, htrails, hdeaf⟩ :=
          trails.finish toHear hnone hattentive' hroom' hstops core reader inFlight
        exact ⟨moves, s', extra, hcourse, hdoings, .deaf htrails hdeaf, hlater⟩
      | @looks t'' r rest hread looks core reader inFlight hstream left frame =>
        obtain rfl := Option.some.inj (hread.symm.trans becomes)
        rw [stream] at looks
        rcases spliced.looks hchunk looks with
          ⟨rest', hlooks, hspliced⟩ | ⟨rfl, hlooks, hpast, x, rfl, hreported⟩
        · -- Both hear the same.
          obtain ⟨moves, s', hears⟩ := toHear.hear hlooks hattentive' hroom'
          have hflight := trails.flight.append (r.toList.filterMap heard)
          rw [← inFlight] at hflight
          exact ⟨moves, s', extra, hears.course, doings_of_reads hears.reads,
            .trailing (trails.hears hears core reader hflight)
              (by rw [hstream, hears.stream, stream]) hspliced hears.toHear left, hlater⟩
        · -- The second takes the chunk.
          obtain ⟨moves, s', hears⟩ := toHear.hear hlooks hattentive' hroom'
          obtain ⟨extra', hlacks, hharmless⟩ := exists_lacks later t.inFlight hreported (by
            rintro rfl y hy
            obtain ⟨k, hpull, hrest⟩ := frame chunk rfl
            exact unclaimed ⟨rfl, k, hpull, by rw [← hrest]; exact hpast⟩ y hy)
          have hflight : Lacks extra' (s.inFlight ++ []) t''.inFlight := by
            rw [List.append_nil, inFlight, ← trails.flight.eq_of_none]
            exact hlacks
          have hspliced : Spliced prior chunk extra' past rest rest := by
            rw [hpast]
            exact .behind rfl
          exact ⟨moves, s', extra', hears.course, doings_of_reads hears.reads,
            .trailing (trails.hears hears core reader hflight)
              (by rw [hstream, hears.stream, stream]) hspliced hears.toHear left, hharmless⟩

/-! ## Commands -/

/-- The same command leaves what lacks as it is. -/
theorem Trails.apply (h : Trails extra s t) (c : Command) : Trails extra (s.apply c) (t.apply c) := by
  obtain ⟨hcore, hreader⟩ := core_apply h.core h.reader c
  refine ⟨hcore, hreader, ?_⟩
  rw [inFlight_apply, inFlight_apply]
  exact h.flight

/-- The same command leaves two clients so, if it sends nothing or the chunk has come. -/
theorem Stage.both (h : Stage prior chunk extra past s t) (c : Command)
    (come : c.sent = [] ∨ (prior ++ (chunk ++ delimiter)).length ≤ past.length)
    (between : (split prior).2 = []) (reached : Reached u past t)
    (fits : past ++ c.sent <+: prior ++ (chunk ++ delimiter ++ rest))
    (short : Short u.limit (prior ++ rest)) :
    Stage prior chunk extra (past ++ c.sent) (s.apply c) (t.apply c) := by
  cases h with
  | before eq =>
    rcases come with hquiet | hlong
    · rw [hquiet, List.append_nil]
      exact .before eq
    · have hlen := congrArg List.length eq
      simp only [List.length_append, Frame.length_delimiter] at hlen hlong
      omega
  | deaf trails deaf => exact .deaf (trails.apply c) ((becomes_apply t c).deaf deaf)
  | @trailing _ _ bs bs' _ _ trails stream spliced toHear unread =>
    have hlimit : s.stream.2 = u.limit := by rw [← stream]; exact reached.fed.limit
    have hshort : Short s.stream.2 ((split bs).2 ++ c.sent) := by
      rcases come with hquiet | hlong
      · rw [hquiet, List.append_nil, Short, Frame.split_tail]
        simp
      · -- What comes behind the chunk goes on where the rest of the stream does.
        obtain ⟨after, rfl, htail⟩ := spliced.tail hlong
        rw [List.append_assoc, List.append_assoc, List.prefix_append_right_inj,
          List.prefix_append_right_inj] at fits
        rw [htail, hlimit]
        rw [short_append, between, List.nil_append] at short
        exact (short_append.1 (short.2.part fits)).2
    exact .trailing (trails.apply c) (stream_apply stream c) (spliced.send c.sent come)
      (toHear.apply c hshort) (unread.apply c)

/-- The second client may be sent a part of the chunk, or the rest of it and more. The first is sent what
comes behind the chunk. -/
theorem Stage.send_within {front : List Bytes} {part more : Bytes}
    (parts : part ++ more = chunk ++ delimiter) (left : more ≠ [])
    (segments : ∀ b ∈ front, findDelimiter? (b ++ [lineFeed]) = none) (trails : Trails none s t)
    (stream : t.stream = s.stream) (toHear : s.ToHear (join front))
    (unread : t.Unread (join front ++ part)) (between : (split prior).2 = [])
    (reached : Reached u (prior ++ part) t)
    (fits : prior ++ part ++ bs <+: prior ++ (chunk ++ delimiter ++ rest))
    (short : Short u.limit (prior ++ rest)) :
    Stage prior chunk none (prior ++ part ++ bs) (s.apply (.send (bs.drop more.length)))
      (t.apply (.send bs)) := by
  have hfits : bs <+: more ++ rest := by
    rw [← parts, List.append_assoc, List.append_assoc, List.prefix_append_right_inj,
      List.prefix_append_right_inj] at fits
    exact fits
  by_cases hmore : more <+: bs
  · -- The rest of the chunk comes first, and both are sent what is behind it.
    obtain ⟨cs, rfl⟩ := hmore
    have hpast : prior ++ part ++ more = prior ++ (chunk ++ delimiter ++ []) := by
      rw [← parts, List.append_nil, List.append_assoc]
    have hwhole : Stage prior chunk none (prior ++ part ++ more) s (t.apply (.send more)) := by
      have hspliced : Spliced prior chunk none (prior ++ (chunk ++ delimiter ++ []))
          (join front ++ []) (join front ++ (chunk ++ delimiter ++ [])) := .whole segments
      have hunread := unread.apply (.send more)
      rw [Command.sent, List.append_assoc, parts] at hunread
      rw [List.append_nil, List.append_nil] at hspliced
      rw [hpast, List.append_nil]
      exact .trailing ⟨trails.core, trails.reader, trails.flight⟩ stream hspliced toHear hunread
    have hboth := hwhole.both (.send cs) (Or.inr (by rw [hpast, List.append_nil])) between
      (reached.apply (.send more))
      (by rw [← List.append_assoc (prior ++ part)] at fits; exact fits) short
    rw [List.drop_left, apply_send_append, ← List.append_assoc]
    exact hboth
  · -- The chunk is not complete yet.
    obtain ⟨later, rfl⟩ :=
      (List.prefix_or_prefix_of_prefix hfits (List.prefix_append more rest)).resolve_right hmore
    have hlater : later ≠ [] := by
      rintro rfl
      exact hmore (by simp)
    have hunread := unread.apply (.send bs)
    rw [Command.sent, List.append_assoc] at hunread
    have hspliced : Spliced prior chunk none (prior ++ (part ++ bs)) (join front)
        (join front ++ (part ++ bs)) := .within (by rw [List.append_assoc]; exact parts) hlater segments
    rw [List.drop_eq_nil_of_le (by simp), apply_send_nil, List.append_assoc]
    exact .trailing ⟨trails.core, trails.reader, trails.flight⟩ stream hspliced toHear hunread

/-- A command to the second client, and what is left of it without the chunk to the first, leave them so.
-/
theorem Stage.command (h : Stage prior chunk extra past s t) (c : Command)
    (between : (split prior).2 = []) (reached : Reached u past t)
    (fits : past ++ c.sent <+: prior ++ (chunk ++ delimiter ++ rest))
    (short : Short u.limit (prior ++ rest)) :
    Stage prior chunk extra (past ++ c.sent)
      (s.apply (c.without (prior.length - past.length)
        ((prior ++ (chunk ++ delimiter)).length - past.length))) (t.apply c) := by
  by_cases hsend : ∃ bs, c = .send bs
  · obtain ⟨bs, rfl⟩ := hsend
    rw [Command.sent] at fits ⊢
    rw [Command.without]
    cases h with
    | @before s _ more eq =>
      subst eq
      have hfits : bs <+: more ++ (chunk ++ delimiter ++ rest) := by
        rw [List.append_assoc, List.prefix_append_right_inj] at fits
        exact fits
      rw [List.length_append, Nat.add_sub_cancel_left,
        show ((past ++ more) ++ (chunk ++ delimiter)).length - past.length =
          more.length + (chunk ++ delimiter).length by simp]
      by_cases hmore : more <+: bs
      · -- This command begins with the chunk, or has its beginning in it.
        obtain ⟨cs, rfl⟩ := hmore
        have hreached := reached.apply (.send more)
        obtain ⟨front, hsegments, hunread, htoHear⟩ :=
          hreached.exists_front between (short_append.1 short).1
        have hparts : [] ++ (chunk ++ delimiter) = chunk ++ delimiter := rfl
        rw [← List.append_nil (join front)] at hunread
        rw [Command.sent, ← List.append_nil (past ++ more)] at hreached
        have hcs : past ++ more ++ [] ++ cs <+: past ++ more ++ (chunk ++ delimiter ++ rest) := by
          simpa only [List.append_nil, List.append_assoc] using fits
        have hwithin := Stage.send_within hparts (by simp [delimiter]) hsegments
          ⟨rfl, rfl, .nothing _⟩ rfl htoHear hunread between hreached hcs short
        rw [List.append_nil] at hwithin
        rw [List.take_left, List.drop_length_add_append, apply_send_append, apply_send_append,
          ← List.append_assoc]
        exact hwithin
      · -- The chunk is not reached yet.
        obtain ⟨later, rfl⟩ :=
          (List.prefix_or_prefix_of_prefix hfits (List.prefix_append more _)).resolve_right hmore
        rw [List.take_of_length_le (by simp), List.drop_eq_nil_of_le (by simp; omega), List.append_nil]
        exact .before (List.append_assoc past bs later)
    | deaf trails deaf =>
      exact .deaf ⟨trails.core, trails.reader, trails.flight⟩ ((becomes_apply t (.send bs)).deaf deaf)
    | trailing trails stream spliced toHear unread =>
      by_cases come : (prior ++ (chunk ++ delimiter)).length ≤ past.length
      · -- The chunk is complete.
        have hprior : prior.length ≤ past.length := by
          rw [List.length_append] at come
          omega
        rw [Nat.sub_eq_zero_of_le come, Nat.sub_eq_zero_of_le hprior, List.take_zero, List.drop_zero,
          List.nil_append]
        exact (Stage.trailing trails stream spliced toHear unread).both (.send bs) (Or.inr come) between
          reached fits short
      · cases spliced with
        | @within front part more parts left segments =>
          have hwithin :=
            send_within parts left segments trails stream toHear unread between reached fits short
          have hstart : prior.length - (prior ++ part).length = 0 := by
            rw [List.length_append]
            omega
          have hstop :
              (prior ++ (chunk ++ delimiter)).length - (prior ++ part).length = more.length := by
            rw [← parts]
            simp only [List.length_append]
            omega
          rw [hstart, hstop, List.take_zero, List.nil_append]
          exact hwithin
        | whole | behind =>
          simp only [List.length_append] at come
          omega
  · have hquiet : c.sent = [] ∧ ∀ start stop, c.without start stop = c := by
      cases c with
      | send bs => exact absurd ⟨bs, rfl⟩ hsend
      | _ => exact ⟨rfl, fun _ _ => rfl⟩
    rw [hquiet.2]
    exact h.both c (Or.inl hquiet.1) between reached fits short

/-! ## Courses -/

/-- The chunk is no reply to a call that is outstanding when the reply gets to the registry, if it is
taken from its place in these changes of a client that was sent these bytes before. -/
def Unclaimed (prior chunk past : Bytes) (changes : List Change) : Prop :=
  ∀ earlier d later x, changes = earlier ++ d :: later →
    d.TakesAt (past ++ sent (commandsOf earlier)) prior chunk → Inbound.keyed? chunk = some x →
      ¬Claims x.1 d.before.inFlight.length later

/-- It is none either in what comes behind the first of these changes. -/
theorem Unclaimed.tail {c : Change} (h : Unclaimed prior chunk past (c :: later)) :
    Unclaimed prior chunk (past ++ c.cause.sent) later := by
  rintro earlier d behind x rfl htakes hx
  refine h (c :: earlier) d behind x rfl ?_ hx
  rw [sent_commandsOf_cons, ← List.append_assoc]
  exact htakes

/-- A move sends nothing. -/
theorem without_move (start stop pos : Nat) (m : Move) (t t' : Session) :
    without start stop pos (doings [⟨t, .move m, t'⟩]) = doings [⟨t, .move m, t'⟩] := by
  cases m <;> rfl

/-- When the second of two clients changes, the first can go on so that they are at a stage again. -/
theorem Stage.change {cause : Cause} (stage : Stage prior chunk extra past s t)
    (becomes : t.Becomes cause t') (hchunk : Whole chunk) (chunked : 0 < u.chunk)
    (between : (split prior).2 = []) (reached : Reached u past t)
    (fits : past ++ cause.sent <+: prior ++ (chunk ++ delimiter ++ rest))
    (short : Short u.limit (prior ++ rest)) (harmless : Harmless extra (⟨t, cause, t'⟩ :: later))
    (unclaimed : Unclaimed prior chunk past (⟨t, cause, t'⟩ :: later)) :
    ∃ moves s' extra', Course s moves s' ∧
      doings moves = without prior.length (prior ++ (chunk ++ delimiter)).length past.length
        (doings [⟨t, cause, t'⟩]) ∧
      Stage prior chunk extra' (past ++ cause.sent) s' t' ∧ Harmless extra' later := by
  cases cause with
  | command c =>
    obtain rfl : t' = t.apply c := becomes
    exact ⟨_, _, extra, Course.nil.snoc (becomes_apply s _), rfl,
      stage.command c between reached fits short, harmless.tail (by simp)⟩
  | move m =>
    rw [without_move, Cause.sent, List.append_nil]
    by_cases hread : m = .read
    · subst hread
      refine stage.read hchunk chunked reached harmless (fun htakes x hx => ?_) becomes
      refine unclaimed [] _ later x rfl ?_ hx
      rw [commandsOf, List.filterMap_nil, sent, List.flatMap_nil, List.append_nil]
      exact htakes
    · exact stage.move harmless hread becomes

/-- Whatever the second of two clients goes through, the first can go through without the chunk. -/
theorem Stage.course {h : List Change} (course : Course t h t')
    (stage : Stage prior chunk extra past s t) (hchunk : Whole chunk) (chunked : 0 < u.chunk)
    (between : (split prior).2 = []) (reached : Reached u past t)
    (fits : past ++ sent (commandsOf h) <+: prior ++ (chunk ++ delimiter ++ rest))
    (short : Short u.limit (prior ++ rest)) (harmless : Harmless extra h)
    (unclaimed : Unclaimed prior chunk past h) :
    ∃ h' s' extra', Course s h' s' ∧
      doings h' =
        without prior.length (prior ++ (chunk ++ delimiter)).length past.length (doings h) ∧
      Stage prior chunk extra' (past ++ sent (commandsOf h)) s' t' := by
  induction h generalizing s t past extra with
  | nil =>
    obtain rfl := course.eq_of_nil
    rw [commandsOf, List.filterMap_nil, sent, List.flatMap_nil, List.append_nil]
    exact ⟨[], s, extra, .nil, rfl, stage⟩
  | cons c h ih =>
    have hcourse : Course t ([] ++ c :: h) t' := course
    obtain ⟨hfirst, hbecomes, hlater⟩ := hcourse.split
    obtain rfl := hfirst.eq_of_nil
    rw [sent_commandsOf_cons, ← List.append_assoc past] at fits ⊢
    obtain ⟨moves, s₁, extra₁, hmoves, hdoings, hstage, hharmless⟩ :=
      stage.change hbecomes hchunk chunked between reached ((List.prefix_append _ _).trans fits) short
        harmless unclaimed
    obtain ⟨h', s', extra', hrest, hdoings', hstage'⟩ :=
      ih hlater hstage (reached.becomes hbecomes) fits hharmless unclaimed.tail
    have hpos : (past ++ c.cause.sent).length = past.length + c.cause.sent.length :=
      List.length_append
    refine ⟨moves ++ h', s', extra', hmoves.append hrest, ?_, hstage'⟩
    rw [doings_append, hdoings, hdoings', hpos]
    exact (without_doings _ _ _ c h).symm

/-! ## Rest -/

/-- A reply finds a call of its number only if there is one. -/
theorem Claims.exists {id place : Nat} {changes : List Change} (h : Claims id place changes) :
    ∃ c ∈ changes, id ∈ c.before.registry.ids := by
  induction changes generalizing place with
  | nil => exact h.elim
  | cons c later ih =>
    have hlater : ∀ {p}, Claims id p later → ∃ d ∈ c :: later, id ∈ d.before.registry.ids := by
      intro p hp
      obtain ⟨d, hd, hid⟩ := ih hp
      exact ⟨d, List.mem_cons_of_mem c hd, hid⟩
    by_cases hcause : ∃ p, c.cause = .move (.resolve p)
    · obtain ⟨p, hp⟩ := hcause
      rw [claims_cons_resolve hp] at h
      split at h
      · exact ⟨c, List.mem_cons_self, h⟩
      · exact hlater h
    · rw [claims_cons (not_exists.1 hcause)] at h
      exact hlater h

/-- A chunk that is no reply to any call that is ever made is unclaimed. -/
theorem Course.unclaimed {h : List Change} (course : Course u.fresh h t)
    (stray : ∀ x, Inbound.keyed? chunk = some x → ∀ (place : Nat) (ticket : Ticket) (phase : Phase),
      t.calls[place]? = some (.registered ticket phase) → ticket.id ≠ x.1) :
    Unclaimed prior chunk past h := by
  rintro earlier d later x rfl - hx hclaims
  obtain ⟨c, hc, hid⟩ := hclaims.exists
  obtain ⟨before, behind, heq⟩ := List.append_of_mem hc
  rw [heq, ← List.cons_append, ← List.append_assoc] at course
  obtain ⟨hfirst, hbecomes, hlast⟩ := course.split
  -- The call has its place still.
  obtain ⟨⟨id, slot⟩, hentry, rfl⟩ := List.mem_map.1 hid
  have hs := hfirst.coheres (coheres_fresh u)
  obtain ⟨hnumber, hslot⟩ := hs.numbered.mem_entries.1 hentry
  obtain ⟨place, ticket, phase, hstands, rfl⟩ :=
    Coherent.exists_of_slot_lt hs (List.getElem?_eq_some_iff.1 hslot).1
  obtain ⟨phase', hstays⟩ :=
    ((Course.nil.snoc hbecomes).append hlast).registered_stays hstands
  exact stray x hx place ticket phase' hstays ((Coherent.id_of_stands hs hstands).trans hnumber.symm)

end PipeCall.Session
