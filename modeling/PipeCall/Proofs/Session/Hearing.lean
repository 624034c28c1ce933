import PipeCall.Proofs.Frame.Position
import PipeCall.Proofs.Message
import PipeCall.Proofs.Session.Answer

/-!
# What a client hears

A client that has nothing to do but for its reader reads what has arrived, and the replies that the
reader finds get to the registry, in the order in which they came. How the bytes are cut into reads,
how many replies are on their way at a time and how reading and answering alternate makes no
difference: in the end the client has been answered by exactly the replies in the frames that its
decoder reports (`Attends.hear`), and what is left of its input is the tail of its stream.

`Attends.turn` says what such a client does next; the two inductions rest on it. The second,
`Attends.hear_around`, is about a stream that has a given segment at a given place: if the client,
when it takes that segment's frame, does not wait for a reply to the call that it names, then it is
answered as if the segment were not there.
-/

namespace PipeCall

/-- The reply to a call that the reader finds in what a decoder reports. -/
def Frame.heard : Except Fault Bytes → Option (Nat × Reply)
  | .ok body => Inbound.keyed? body
  | .error _ => none

/-- Whether an input ends, or fails, behind what has arrived. -/
def Input.Stops (i : Input) : Prop := i.failure ≠ none ∨ i.ended = true

namespace Session

open PipeCall.Frame (Reported LineUp heard findDelimiter? split join delimiter)
open Bytes (lineFeed)

variable {s t : Session} {unread rest behind chunk : Bytes}

/-! ## One step of the reader -/

/-- What has been read of the input, and the reply in it, do not touch the core. -/
theorem dispatch_eq (s : Session) (body : Bytes) :
    (s.dispatch body).core = s.core ∧ (s.dispatch body).intake = s.intake ∧
      (s.dispatch body).reader = s.reader ∧
      (s.dispatch body).inFlight = s.inFlight ++ (Inbound.keyed? body).toList := by
  unfold dispatch Inbound.keyed?
  split
  · rename_i r hparse
    cases hkey : r.id.key? with
    | none => simp [hparse, hkey, note, core]
    | some id => simp [hparse, hkey, core]
  · rename_i hparse
    simp [hparse, note, core]
  · rename_i hparse
    simp [hparse, note, core]
  · rename_i hparse
    simp [hparse, note, core]

/-- The input and the limit of a client, but for what has arrived. -/
def stream (s : Session) : Input × Nat :=
  ({ s.intake.input with arrived := [] }, s.intake.decoder.limit)

/-- A running reader that has room for a reply does what its next pull says. -/
theorem read?_eq_pull (running : s.lifecycle = .running) (reads : s.reader = .running)
    (room : s.inFlight.length < maxInFlight) :
    s.read? =
      match s.intake.pull with
      | (.frame body, intake) => some ({ s with intake }.dispatch body)
      | (.refused fault, intake) => some ({ s with intake }.note (.unreadable fault))
      | (.buffered, intake) => some { s with intake }
      | (.failed fault, intake) =>
        some ({ s with intake, reader := .leaving }.note (.inputFailed fault))
      | (.ended leftover, intake) =>
        some ({ (leftover.map Event.truncated).toList.foldl note s with
          intake, reader := .leaving }.note .inputEnded)
      | (.waiting, _) => none := by
  unfold read?
  split
  · refine (if_neg (by simp [running])).trans ((if_neg (by omega)).trans ?_)
    rcases s.intake.pull with ⟨p, intake⟩
    cases p <;> rfl
  · rename_i hnot
    exact absurd reads hnot

/-- A reader that does not run reads nothing. -/
theorem read?_of_idle (idle : s.reader ≠ .running) : s.read? = none := by
  cases hreader : s.reader with
  | running => exact absurd hreader idle
  | absent | leaving | gone => simp [read?, hreader]

/-- It takes a result if the decoder has one. -/
theorem read?_of_next_some {d : Frame.Decoder} {r : Except Fault Bytes}
    (running : s.lifecycle = .running) (reads : s.reader = .running)
    (room : s.inFlight.length < maxInFlight) (h : s.intake.decoder.next = (some r, d)) :
    ∃ t : Session, s.read? = some t ∧ t.core = s.core ∧ t.reader = s.reader ∧
      t.intake = { s.intake with decoder := d } ∧ t.inFlight = s.inFlight ++ (heard r).toList := by
  rw [read?_eq_pull running reads room]
  simp only [Frame.Intake.pull, h]
  cases r with
  | ok body =>
    obtain ⟨hcore, hintake, hreader, hflight⟩ :=
      dispatch_eq { s with intake := { s.intake with decoder := d } } body
    exact ⟨_, rfl, hcore, hreader, hintake, hflight⟩
  | error fault => exact ⟨_, rfl, rfl, rfl, rfl, by simp [note, heard]⟩

/-- It reads if the decoder has none and something has arrived. -/
theorem read?_of_arrived {d : Frame.Decoder} (running : s.lifecycle = .running)
    (reads : s.reader = .running) (room : s.inFlight.length < maxInFlight)
    (h : s.intake.decoder.next = (none, d)) (chunk : 0 < s.intake.input.chunk)
    (arrived : s.intake.input.arrived ≠ []) :
    ∃ (t : Session) (bs later : Bytes), s.read? = some t ∧ bs ++ later = s.intake.input.arrived ∧
      t.core = s.core ∧ t.reader = s.reader ∧ t.inFlight = s.inFlight ∧
      t.intake = ⟨{ s.intake.input with arrived := later }, d.extend bs⟩ := by
  rw [read?_eq_pull running reads room]
  have hread : s.intake.input.read =
      (.bytes (s.intake.input.arrived.take s.intake.input.chunk),
        { s.intake.input with arrived := s.intake.input.arrived.drop s.intake.input.chunk }) := by
    unfold Input.read
    split
    · rename_i hnil
      exact absurd hnil arrived
    · split
      · rename_i htake
        rcases List.take_eq_nil_iff.1 htake with hzero | hnil
        · omega
        · exact absurd hnil arrived
      · rfl
  simp only [Frame.Intake.pull, h, hread]
  exact ⟨_, _, _, rfl, List.take_append_drop _ _, rfl, rfl, rfl, rfl⟩

/-- If nothing has arrived it stops when the input does, and waits otherwise. -/
theorem read?_of_not_arrived {d : Frame.Decoder} (running : s.lifecycle = .running)
    (reads : s.reader = .running) (room : s.inFlight.length < maxInFlight)
    (h : s.intake.decoder.next = (none, d)) (arrived : s.intake.input.arrived = []) :
    s.intake.input.Stops ∧ (∃ t : Session, s.read? = some t ∧ t.core = s.core ∧
        t.reader = .leaving ∧ t.inFlight = s.inFlight) ∨
      ¬s.intake.input.Stops ∧ s.read? = none := by
  rw [read?_eq_pull running reads room]
  simp only [Frame.Intake.pull, h, Input.read, arrived, Input.Stops]
  cases hfailure : s.intake.input.failure with
  | some reason => exact Or.inl ⟨by simp, _, rfl, rfl, rfl, rfl⟩
  | none =>
    by_cases hended : s.intake.input.ended = true
    · refine Or.inl ⟨Or.inr hended, _, by simp only [hended]; rfl, ?_⟩
      cases Frame.Intake.leftover? d <;> exact ⟨rfl, rfl, rfl⟩
    · exact Or.inr ⟨by simp [hended], by simp [hended]⟩

/-- These bytes have come to the client and are unread, in its decoder and on its input. -/
def Unread (s : Session) (bytes : Bytes) : Prop :=
  ∃ held, s.intake.decoder.Tracks held ∧ bytes = held ++ s.intake.input.arrived

/-- What a running reader that has room for a reply makes of the bytes that are unread. -/
inductive Pulls (s : Session) (unread : Bytes) : Prop
  /-- It takes a look at them, and reads more of them if that gives no result. -/
  | looks {t : Session} {r : Option (Except Fault Bytes)} {rest : Bytes} (read : s.read? = some t)
      (looks : Frame.Looks s.stream.2 unread r rest) (core : t.core = s.core)
      (reader : t.reader = s.reader) (inFlight : t.inFlight = s.inFlight ++ r.toList.filterMap heard)
      (stream : t.stream = s.stream) (left : t.Unread rest)
      (frame : ∀ body, r = some (.ok body) →
        ∃ k, s.intake.pull = (.frame body, k) ∧ rest = k.decoder.buffer ++ k.input.arrived)
  /-- It has come to the end of them, and stops as the input does. -/
  | stops {t : Session} {tail : Bytes} (read : s.read? = some t) (stops : s.stream.1.Stops)
      (looks : Frame.Looks s.stream.2 unread none tail) (undelimited : findDelimiter? tail = none)
      (core : t.core = s.core) (reader : t.reader = .leaving) (inFlight : t.inFlight = s.inFlight)
  /-- It has come to the end of them, and waits. -/
  | waits {tail : Bytes} (read : s.read? = none) (goes : ¬s.stream.1.Stops)
      (looks : Frame.Looks s.stream.2 unread none tail) (undelimited : findDelimiter? tail = none)
      (input : s.intake.input = s.stream.1)
      (next : s.intake.decoder.next = (none, Frame.Decoder.idle s.stream.2 tail))

/-- A reader whose decoder has a result takes it. -/
theorem pulls_of_result {d : Frame.Decoder} {r : Except Fault Bytes} (running : s.lifecycle = .running)
    (reads : s.reader = .running) (room : s.inFlight.length < maxInFlight) (h : s.Unread unread)
    (next : s.intake.decoder.next = (some r, d)) : Pulls s unread := by
  obtain ⟨held, htracks, rfl⟩ := h
  obtain ⟨hlimit, rest, htakes, hrest⟩ := htracks.next
  rw [next] at hlimit htakes hrest
  obtain ⟨t, hread, hcore, hreader, hintake, hflight⟩ := read?_of_next_some running reads room next
  refine .looks hread (htakes.looks.extend s.intake.input.arrived) hcore hreader ?_ ?_
    ⟨rest, ?_, ?_⟩ ?_
  · rw [hflight]
    cases hheard : heard r <;> simp [hheard]
  · rw [stream, hintake]
    exact Prod.ext rfl hlimit
  · rw [hintake]; exact hrest
  · rw [hintake]
  · rintro body hbody
    obtain rfl := Option.some.inj hbody
    refine ⟨⟨s.intake.input, d⟩, by simp only [Frame.Intake.pull, next], ?_⟩
    rw [hrest.toHolds.eq_buffer (Frame.Decoder.discarded_next next)]

/-- A reader whose decoder has no result reads what has arrived. -/
theorem pulls_of_arrived {d : Frame.Decoder} (running : s.lifecycle = .running)
    (reads : s.reader = .running) (room : s.inFlight.length < maxInFlight)
    (chunk : 0 < s.intake.input.chunk) (h : s.Unread unread)
    (next : s.intake.decoder.next = (none, d)) (arrived : s.intake.input.arrived ≠ []) :
    Pulls s unread := by
  obtain ⟨held, htracks, rfl⟩ := h
  obtain ⟨hlimit, rest, htakes, hrest⟩ := htracks.next
  rw [next] at hlimit htakes hrest
  obtain ⟨t, bs, later, hread, hbytes, hcore, hreader, hflight, hintake⟩ :=
    read?_of_arrived running reads room next chunk arrived
  refine .looks hread (htakes.looks.extend s.intake.input.arrived) hcore hreader ?_ ?_
    ⟨rest ++ bs, ?_, ?_⟩ (by simp)
  · rw [hflight]
    exact (List.append_nil _).symm
  · rw [stream, hintake]
    exact Prod.ext rfl hlimit
  · rw [hintake]; exact hrest.extend bs
  · rw [hintake, List.append_assoc, hbytes]

/-- A running reader that has room for a reply makes something of the bytes that are unread. -/
theorem pulls (running : s.lifecycle = .running) (reads : s.reader = .running)
    (room : s.inFlight.length < maxInFlight) (chunk : 0 < s.intake.input.chunk)
    (h : s.Unread unread) : Pulls s unread := by
  rcases hnext : s.intake.decoder.next with ⟨_ | r, d⟩
  · by_cases harrived : s.intake.input.arrived = []
    · obtain ⟨held, htracks, rfl⟩ := h
      obtain ⟨hlimit, tail, htakes, -⟩ := htracks.next
      rw [hnext] at hlimit htakes
      have htail := htakes.eq_tail
      have hundelimited : findDelimiter? tail = none := htail ▸ Frame.findDelimiter?_tail held
      rw [harrived, List.append_nil]
      rcases read?_of_not_arrived running reads room hnext harrived with
        ⟨hstops, t, hread, hcore, hreader, hflight⟩ | ⟨hgoes, hread⟩
      · exact .stops hread hstops htakes.looks hundelimited hcore hreader hflight
      · refine .waits hread hgoes htakes.looks hundelimited ?_ ?_
        · rw [stream, ← harrived]
        · rw [(htracks.next_of_none (by rw [hnext])).1, htail]
          rfl
    · exact pulls_of_arrived running reads room chunk h hnext harrived
  · exact pulls_of_result running reads room h hnext

/-! ## Turns -/

/-- A client that has nothing to do but for its reader, which reads; these bytes are unread. -/
structure Attends (s : Session) (bytes : Bytes) : Prop extends Idle s where
  reads : s.reader = .running
  chunk : 0 < s.intake.input.chunk
  unread : s.Unread bytes

/-- The numbers of the outstanding calls to which no reply is on its way. -/
def awaited (s : Session) : List Nat :=
  s.registry.ids.filter fun id => id ∉ s.inFlight.map Prod.fst

/-- The reader takes this frame next, and these bytes are behind it. -/
def Gets (s : Session) (body behind : Bytes) : Prop :=
  ∃ k t, s.intake.pull = (.frame body, k) ∧ behind = k.decoder.buffer ++ k.input.arrived ∧
    s.Makes .read t

/-- The client has been answered by all replies on their way, and its reader has come to the end of
what has arrived: it stops if the stream does, and waits otherwise with the tail in its decoder. -/
structure Heard (stream : Input × Nat) (tail : Bytes) (e : Session) : Prop where
  inFlight : e.inFlight = []
  reader : stream.1.Stops ∧ e.reader = .leaving ∨
    ¬stream.1.Stops ∧ e.reader = .running ∧ e.intake.input = stream.1 ∧
      e.intake.decoder.next = (none, Frame.Decoder.idle stream.2 tail)

/-- What a client does next that has nothing to do but for its reader. -/
inductive Turn (s : Session) (unread : Bytes) : Prop
  /-- It reads: some bytes if its decoder has no result, or the result. -/
  | reads {t : Session} {r : Option (Except Fault Bytes)} {rest : Bytes} (next : s.next? = some t)
      (looks : Frame.Looks s.stream.2 unread r rest) (attends : t.Attends rest)
      (core : t.core = s.core) (inFlight : t.inFlight = s.inFlight ++ r.toList.filterMap heard)
      (stream : t.stream = s.stream) (gets : ∀ body, r = some (.ok body) → s.Gets body rest)
  /-- It is answered by the first reply on its way. -/
  | answers {t : Session} {x : Nat × Reply} (leads : s.Leads t) (less : t.work < s.work)
      (attends : t.Attends unread) (core : t.core = s.core.answer x)
      (inFlight : s.inFlight = x :: t.inFlight) (stream : t.stream = s.stream)
  /-- It has come to the end. -/
  | ends {e : Session} {tail : Bytes} (leads : s.Leads e)
      (looks : Frame.Looks s.stream.2 unread none tail) (undelimited : findDelimiter? tail = none)
      (core : e.core = s.inFlight.foldl answer s.core) (heard : Heard s.stream tail e)

/-- A client whose reader reads no more is answered by the replies on their way. -/
theorem Idle.exists_leads_answers (h : s.Idle) (reader : s.reader ≠ .running) :
    ∃ e, s.Leads e ∧ e.core = s.inFlight.foldl answer s.core ∧ e.inFlight = [] ∧
      e.reader = s.reader := by
  induction hflight : s.inFlight generalizing s with
  | nil => exact ⟨s, .refl s, rfl, hflight, rfl⟩
  | cons x flight ih =>
    obtain ⟨t, hleads, -, hcore, -, hreader, hinFlight⟩ :=
      h.exists_leads_answer (read?_of_idle reader) hflight
    have hidle : t.Idle := (h.answered x).of_core (hcore.trans (core_answer s x).symm)
    obtain ⟨e, hleads', hcore', hnil, hreader'⟩ :=
      ih hidle (by rw [hreader]; exact reader) hinFlight
    refine ⟨e, hleads.trans hleads', ?_, hnil, hreader'.trans hreader⟩
    rw [hcore', hcore]
    rfl

/-- A client that attends goes on attending when its core is the same. -/
theorem Attends.of_core (h : s.Attends unread) (core : t.core = s.core)
    (reader : t.reader = s.reader) (stream : t.stream = s.stream) (unread : t.Unread rest) :
    t.Attends rest where
  toIdle := h.toIdle.of_core core
  reads := reader.trans h.reads
  chunk := by
    have hchunk : t.stream.1.chunk = s.stream.1.chunk := by rw [stream]
    exact Nat.lt_of_lt_of_eq h.chunk hchunk.symm
  unread := unread

/-- A client that cannot read is answered by the first reply on its way. -/
theorem Attends.turn_of_flight (h : s.Attends unread) (hread : s.read? = none)
    (flight : s.inFlight ≠ []) : Turn s unread := by
  obtain ⟨x, flight, hflight⟩ := List.exists_cons_of_ne_nil flight
  obtain ⟨t, hleads, hless, hcore, hintake, hreader, hinFlight⟩ :=
    h.exists_leads_answer hread hflight
  have hstream : t.stream = s.stream := by rw [stream, hintake]; rfl
  have hcore' : t.core = (s.answer x).core := hcore
  refine .answers hleads hless ⟨(h.answered x).of_core hcore', hreader.trans h.reads, ?_, ?_⟩ hcore
    (hinFlight ▸ hflight) hstream
  · rw [hintake]; exact h.chunk
  · rw [Unread, hintake]; exact h.unread

/-- A client that has nothing to do but for its reader reads, is answered, or has come to the end of
what has arrived. -/
theorem Attends.turn (h : s.Attends unread) : Turn s unread := by
  by_cases hroom : s.inFlight.length < maxInFlight
  · cases pulls h.running h.reads hroom h.chunk h.unread with
    | @looks t r rest hread looks core reader inFlight stream left frame =>
      have hmakes := h.calm.makes_read hread
      refine .reads (next?_eq_some_iff.2 ⟨_, hmakes⟩) looks (h.of_core core reader stream left) core
        inFlight stream fun body hbody => ?_
      obtain ⟨k, hpull, hrest⟩ := frame body hbody
      exact ⟨k, t, hpull, hrest, hmakes⟩
    | @stops t tail hread stops looks undelimited core reader inFlight =>
      -- The replies on their way are answered yet.
      have hnot : t.reader ≠ .running := by simp [reader]
      obtain ⟨e, hleads, hcore, hnil, hreader⟩ := (h.toIdle.of_core core).exists_leads_answers hnot
      rw [core, inFlight] at hcore
      have hnext : s.Leads t := .single (next?_eq_some_iff.2 ⟨_, h.calm.makes_read hread⟩)
      exact .ends (hnext.trans hleads) looks undelimited hcore
        ⟨hnil, Or.inl ⟨stops, hreader.trans reader⟩⟩
    | @waits tail hread goes looks undelimited input next =>
      by_cases hflight : s.inFlight = []
      · exact .ends (.refl s) looks undelimited (by rw [hflight]; rfl)
          ⟨hflight, Or.inr ⟨goes, h.reads, input, next⟩⟩
      · exact h.turn_of_flight hread hflight
  · -- There is no room for a reply, so there is one on its way.
    have hread : s.read? = none := by
      simp [read?, h.reads, h.running, Nat.not_lt.1 hroom]
    refine h.turn_of_flight hread fun hnil => ?_
    rw [hnil] at hroom
    exact hroom (by decide)

/-! ## All turns -/

/-- A client that has nothing to do but for its reader is led to the end of what has arrived. Its
decoder reports on the segments that are there, and the client has been answered by the replies that
were on their way, and then by those in the reports, one after another. -/
theorem Attends.hear (h : s.Attends unread) :
    ∃ e results tail, s.Leads e ∧ LineUp s.stream.2 unread results tail ∧
      findDelimiter? tail = none ∧
      e.core = (s.inFlight ++ results.filterMap heard).foldl answer s.core ∧
      Heard s.stream tail e := by
  induction hn : s.work using Nat.strongRecOn generalizing s unread with
  | ind n ih =>
    cases h.turn with
    | @reads t r rest next looks attends core inFlight stream gets =>
      have hless := work_lt_of_next? next
      obtain ⟨e, results, tail, hleads, hline, htail, hcore, hheard⟩ := ih _ (by omega) attends rfl
      rw [stream] at hline hheard
      refine ⟨e, r.toList ++ results, tail, (Leads.single next).trans hleads,
        looks.lineUp.trans hline, htail, ?_, hheard⟩
      rw [hcore, core, inFlight, List.filterMap_append, List.append_assoc]
    | @answers t x leads less attends core inFlight stream =>
      obtain ⟨e, results, tail, hleads, hline, htail, hcore, hheard⟩ := ih _ (by omega) attends rfl
      rw [stream] at hline hheard
      refine ⟨e, results, tail, leads.trans hleads, hline, htail, ?_, hheard⟩
      rw [hcore, core, inFlight]
      rfl
    | @ends e tail leads looks undelimited core heard =>
      refine ⟨e, [], tail, leads, looks.lineUp, undelimited, ?_, heard⟩
      rw [core, List.filterMap_nil, List.append_nil]

/-- What is heard of a segment makes no difference if the client does not wait for a reply to the
call that the segment names. -/
theorem Idle.foldl_answer_unawaited {limit : Nat} {x : Except Fault Bytes} (h : s.Idle)
    (reported : Reported limit chunk [x])
    (unawaited : x = .ok chunk → ∀ y, Inbound.keyed? chunk = some y → y.1 ∉ s.awaited)
    (others : List (Nat × Reply)) :
    (s.inFlight ++ ([x].filterMap heard ++ others)).foldl answer s.core =
      (s.inFlight ++ others).foldl answer s.core := by
  cases hx : heard x with
  | none => simp [hx]
  | some y =>
    have hy : x = .ok chunk ∧ Inbound.keyed? chunk = some y := by
      rcases reported.own x (by simp) with ⟨rfl, -⟩ | rfl
      · exact ⟨rfl, hx⟩
      · simp [heard] at hx
    have hidle : s.core.Idle := h.of_core rfl
    have hfree : y.1 ∉ s.registry.ids ∨ y.1 ∈ s.inFlight.map Prod.fst := by
      simpa [awaited, or_iff_not_imp_left] using unawaited hy.1 y hy.2
    simpa [hx] using hidle.foldl_answer_middle s.inFlight others hfree

/-- Let a stream have this segment at this place. If the client, when it takes the frame of the
segment, does not wait for a reply to the call that it names, then it is answered by the replies
before it and by those behind it. -/
theorem Attends.hear_around {front : List Bytes} (h : s.Attends unread)
    (eq : unread = join front ++ (chunk ++ delimiter ++ behind))
    (hfront : ∀ b ∈ front, findDelimiter? (b ++ [lineFeed]) = none)
    (hchunk : findDelimiter? (chunk ++ [lineFeed]) = none)
    (unawaited : ∀ m, s.Leads m → m.Gets chunk behind →
      ∀ x, Inbound.keyed? chunk = some x → x.1 ∉ m.awaited) :
    ∃ e first results tail, s.Leads e ∧ LineUp s.stream.2 (join front) first [] ∧
      LineUp s.stream.2 behind results tail ∧ findDelimiter? tail = none ∧
      e.core =
        (s.inFlight ++ (first.filterMap heard ++ results.filterMap heard)).foldl answer s.core ∧
      Heard s.stream tail e := by
  induction hn : s.work using Nat.strongRecOn generalizing s unread front with
  | ind n ih =>
    cases h.turn with
    | @reads t r rest next looks attends core inFlight stream gets =>
      have hless := work_lt_of_next? next
      have hleads := Leads.single next
      rcases looks.position eq hfront hchunk with
        ⟨more, hmore, hread, hrest⟩ | ⟨hfirst, hpast⟩
      · -- The place is further on.
        obtain ⟨e, first, results, tail, hleads', hfirst, hline, htail, hcore, hheard⟩ :=
          ih _ (by omega) attends hrest (fun b hb => hfront b (hmore b hb))
            (fun m hm => unawaited m (hleads.trans hm)) rfl
        rw [stream] at hfirst hline hheard
        refine ⟨e, r.toList ++ first, results, tail, hleads.trans hleads', hread.lineUp.trans hfirst,
          hline, htail, ?_, hheard⟩
        rw [hcore, core, inFlight, List.filterMap_append, List.append_assoc, List.append_assoc]
      · obtain ⟨e, results, tail, hleads', hline, htail, hcore, hheard⟩ := attends.hear
        rw [stream] at hline hheard
        rw [core, inFlight, List.append_assoc] at hcore
        rcases hpast with ⟨x, rfl, hreported, rfl⟩ | hafter
        · -- This is the place: what is heard of the segment names no call that is waited for.
          have hnothing := h.toIdle.foldl_answer_unawaited hreported
            (fun hx => unawaited s (.refl s) (gets chunk (by rw [hx]))) (results.filterMap heard)
          exact ⟨e, [], results, tail, hleads.trans hleads', hfirst.lineUp, hline, htail,
            hcore.trans hnothing, hheard⟩
        · -- The client is past the place.
          refine ⟨e, [], r.toList ++ results, tail, hleads.trans hleads', hfirst.lineUp,
            hafter.lineUp.trans hline, htail, ?_, hheard⟩
          rw [hcore, List.filterMap_append, List.filterMap_nil, List.nil_append]
    | @answers t x leads less attends core inFlight stream =>
      obtain ⟨e, first, results, tail, hleads, hfirst, hline, htail, hcore, hheard⟩ :=
        ih _ (by omega) attends eq hfront (fun m hm => unawaited m (leads.trans hm)) rfl
      rw [stream] at hfirst hline hheard
      refine ⟨e, first, results, tail, leads.trans hleads, hfirst, hline, htail, ?_, hheard⟩
      rw [hcore, core, inFlight]
      rfl
    | @ends e tail leads looks undelimited core heard =>
      rcases looks.position eq hfront hchunk with
        ⟨more, hmore, -, hrest⟩ | ⟨hfirst, ⟨x, hnone, -⟩ | hafter⟩
      · -- The tail has no delimiter in it, so the place is not there.
        rw [hrest] at undelimited
        exact absurd undelimited (Frame.findDelimiter?_join_append
          (fun b hb => hfront b (hmore b hb)) hchunk behind)
      · simp at hnone
      · exact ⟨e, [], [], tail, leads, hfirst.lineUp, hafter.lineUp, undelimited,
          by simpa using core, heard⟩

/-! ## What is heard of a stream -/

/-- Of some segments in a row, the first one that names a call of these is shorter than the limit.
-/
def Fit (limit : Nat) (ids : List Nat) (segments : List Bytes) : Prop :=
  ∀ front b back x, segments = front ++ b :: back → Inbound.keyed? b = some x → x.1 ∈ ids →
    x.1 ∉ (front.filterMap Inbound.keyed?).map Prod.fst → b.length < limit

section Fit

variable {limit : Nat} {ids : List Nat} {b : Bytes} {bs cs : List Bytes}

/-- Segments fit if some of them at the front do, and the others do but for the calls that those
name. -/
theorem fit_append : Fit limit ids (bs ++ cs) ↔ Fit limit ids bs ∧
    Fit limit (ids.filter fun id => id ∉ (bs.filterMap Inbound.keyed?).map Prod.fst) cs := by
  refine ⟨fun h => ⟨?_, ?_⟩, fun ⟨hbs, hcs⟩ => ?_⟩
  · intro front b back x heq
    exact h front b (back ++ cs) x (by rw [heq, List.append_assoc, List.cons_append])
  · intro front b back x heq hx hmem hfront
    obtain ⟨hids, hfirst⟩ := List.mem_filter.1 hmem
    refine h (bs ++ front) b back x (by rw [heq, List.append_assoc]) hx hids ?_
    simp_all
  · intro front b back x heq hx hids hfront
    rcases List.append_eq_append_iff.1 heq with ⟨front, rfl, rfl⟩ | ⟨rest, rfl, hrest⟩
    · refine hcs front b back x rfl hx (List.mem_filter.2 ⟨hids, ?_⟩) ?_ <;> simp_all
    · rcases List.cons_eq_append_iff.1 hrest with ⟨rfl, rfl⟩ | ⟨rest, rfl, rfl⟩
      · refine hcs [] b back x rfl hx (List.mem_filter.2 ⟨hids, ?_⟩) (by simp)
        simp_all
      · exact hbs front b rest x rfl hx hids hfront

/-- The first of some segments that fit does, and the others do but for the call that it names. -/
theorem Fit.cons (h : Fit limit ids (b :: bs)) :
    (∀ x, Inbound.keyed? b = some x → x.1 ∈ ids → b.length < limit) ∧
      Fit limit (ids.filter fun id => id ∉ (Inbound.keyed? b).toList.map Prod.fst) bs := by
  obtain ⟨hfirst, hrest⟩ := fit_append.1 (show Fit limit ids ([b] ++ bs) from h)
  refine ⟨fun x hx hmem => hfirst [] b [] x rfl hx hmem (by simp), ?_⟩
  cases hb : Inbound.keyed? b <;> simpa [hb] using hrest

/-- Whether a segment is a reply to a numbered call. -/
def names (b : Bytes) : Bool := (Inbound.keyed? b).isSome

/-- Segments with the same replies among them give the same replies. -/
theorem filterMap_keyed?_congr (h : cs.filter names = bs.filter names) :
    cs.filterMap Inbound.keyed? = bs.filterMap Inbound.keyed? := by
  have hall : ∀ ds : List Bytes, (ds.filter names).filterMap Inbound.keyed? =
      ds.filterMap Inbound.keyed? := by
    intro ds
    rw [List.filterMap_filter]
    refine List.filterMap_congr fun d _ => ?_
    cases hd : Inbound.keyed? d <;> simp [names, hd]
  rw [← hall cs, h, hall bs]

/-- Whether segments fit is a matter of the replies among them. -/
theorem Fit.congr (h : Fit limit ids bs) (same : cs.filter names = bs.filter names) :
    Fit limit ids cs := by
  rintro front b back x rfl hx hids hfront
  have hb : names b = true := by simp [names, hx]
  rw [List.filter_append, List.filter_cons_of_pos hb] at same
  obtain ⟨before, behind, rfl, hbefore, hbehind⟩ := List.filter_eq_append_iff.1 same.symm
  obtain ⟨others, after, rfl, hothers, -, -⟩ := List.filter_eq_cons_iff.1 hbehind
  have hskip : (before ++ others).filter names = front.filter names := by
    rw [List.filter_append, hbefore, List.filter_eq_nil_iff.2 hothers, List.append_nil]
  refine h (before ++ others) b after x (by simp) hx hids ?_
  rw [filterMap_keyed?_congr hskip]
  exact hfront

end Fit

/-- Of the report of a frame, a client makes what it would make of the reply in the frame, if the
frame is no reply to an outstanding call or is shorter than the limit. -/
theorem Idle.foldl_answer_segment {limit : Nat} {b : Bytes} {out : List (Except Fault Bytes)}
    (h : s.Idle) (reported : Reported limit b out)
    (short : ∀ x, Inbound.keyed? b = some x → x.1 ∈ s.registry.ids → b.length < limit) :
    (out.filterMap heard).foldl answer s = (Inbound.keyed? b).toList.foldl answer s := by
  -- Whatever is heard of the report is the reply in the frame.
  have hown : ∀ x ∈ out.filterMap heard, Inbound.keyed? b = some x := by
    intro x hx
    obtain ⟨r, hr, hheard⟩ := List.mem_filterMap.1 hx
    rcases reported.own r hr with ⟨rfl, -⟩ | rfl
    · exact hheard
    · simp [heard] at hheard
  by_cases hids : ∃ x, Inbound.keyed? b = some x ∧ x.1 ∈ s.registry.ids
  · obtain ⟨x, hx, hmem⟩ := hids
    have hblank : Bytes.blank b = false := by
      cases hblank : Bytes.blank b with
      | false => rfl
      | true => rw [Inbound.keyed?_of_blank hblank] at hx; simp at hx
    rw [reported.ok hblank (short x hx hmem)]
    simp [heard, hx]
  · have hnone : ∀ x, Inbound.keyed? b = some x → x.1 ∉ s.registry.ids :=
      fun x hx hmem => hids ⟨x, hx, hmem⟩
    rw [h.foldl_answer_filter, h.foldl_answer_filter (Inbound.keyed? b).toList,
      List.filter_eq_nil_iff.2 fun x hx => by simpa using hnone x (hown x hx),
      List.filter_eq_nil_iff.2 fun x hx => by simpa using hnone x (Option.mem_toList.1 hx)]

/-- Of the results of a decoder, a client makes what it would make of the replies in the segments,
if the first reply to each outstanding call is shorter than the limit. -/
theorem Idle.foldl_answer_heard {limit : Nat} {bs tail : Bytes}
    {results : List (Except Fault Bytes)} (h : s.Idle) (line : LineUp limit bs results tail)
    (htail : findDelimiter? tail = none)
    (fit : Fit limit s.registry.ids (split bs).1) :
    (results.filterMap heard).foldl answer s =
      ((split bs).1.filterMap Inbound.keyed?).foldl answer s := by
  obtain ⟨outs, houts, rfl, -⟩ := line.forall₂ htail
  clear line
  generalize (split bs).1 = segments at fit houts
  induction houts generalizing s with
  | nil => rfl
  | @cons b out segments outs hreported _ ih =>
    obtain ⟨hshort, hfit⟩ := fit.cons
    have hkeyed : (b :: segments).filterMap Inbound.keyed? =
        (Inbound.keyed? b).toList ++ segments.filterMap Inbound.keyed? := by
      rw [List.filterMap_cons]
      cases Inbound.keyed? b <;> rfl
    have hids : ((Inbound.keyed? b).toList.foldl answer s).registry.ids =
        s.registry.ids.filter fun id => id ∉ (Inbound.keyed? b).toList.map Prod.fst := by
      cases Inbound.keyed? b with
      | none => simp
      | some x => simp [ids_answer]
    rw [← hids] at hfit
    rw [hkeyed, List.flatten_cons, List.filterMap_append, List.foldl_append, List.foldl_append,
      h.foldl_answer_segment hreported hshort, ih (h.foldl_answer _) hfit]

/-- A client that has nothing to do but for its reader is answered by the replies in the segments
that are unread. -/
theorem Attends.answered (h : s.Attends unread) (flight : s.inFlight = [])
    (fit : Fit s.stream.2 s.registry.ids (split unread).1) :
    ∃ e, s.Leads e ∧ e.Idle ∧ Heard s.stream (split unread).2 e ∧
      e.core = ((split unread).1.filterMap Inbound.keyed?).foldl answer s.core := by
  have hidle : s.core.Idle := h.toIdle.of_core rfl
  obtain ⟨e, results, tail, hleads, hline, htail, hcore, hheard⟩ := h.hear
  obtain ⟨-, -, -, hrest⟩ := hline.forall₂ htail
  rw [flight, List.nil_append, hidle.foldl_answer_heard hline htail fit] at hcore
  exact ⟨e, hleads, h.toIdle.of_answered hcore, hrest ▸ hheard, hcore⟩

/-- It is so too if there is one more segment among them, and the client does not wait for a reply
to the call that it names. -/
theorem Attends.answered_around {front : List Bytes} (h : s.Attends unread)
    (flight : s.inFlight = []) (eq : unread = join front ++ (chunk ++ delimiter ++ behind))
    (hfront : ∀ b ∈ front, findDelimiter? (b ++ [lineFeed]) = none)
    (hchunk : findDelimiter? (chunk ++ [lineFeed]) = none)
    (fit : Fit s.stream.2 s.registry.ids (front ++ (split behind).1))
    (unawaited : ∀ m, s.Leads m → m.Gets chunk behind →
      ∀ x, Inbound.keyed? chunk = some x → x.1 ∉ m.awaited) :
    ∃ e, s.Leads e ∧ e.Idle ∧ Heard s.stream (split behind).2 e ∧
      e.core = ((front ++ (split behind).1).filterMap Inbound.keyed?).foldl answer s.core := by
  have hidle : s.core.Idle := h.toIdle.of_core rfl
  obtain ⟨e, first, results, tail, hleads, hfirst, hline, htail, hcore, hheard⟩ :=
    h.hear_around eq hfront hchunk unawaited
  obtain ⟨-, -, -, hrest⟩ := hline.forall₂ htail
  have hsplit : (split (join front)).1 = front := by
    have hjoin := Frame.split_join hfront []
    rw [List.append_nil] at hjoin
    rw [hjoin]
    exact List.append_nil front
  obtain ⟨hfit, hfit'⟩ := fit_append.1 fit
  -- The replies in front are taken first.
  have hbefore : (first.filterMap heard).foldl answer s.core =
      (front.filterMap Inbound.keyed?).foldl answer s.core := by
    have hall := hidle.foldl_answer_heard hfirst rfl (hsplit.symm ▸ hfit)
    rw [hsplit] at hall
    exact hall
  have hidle' := hidle.foldl_answer (front.filterMap Inbound.keyed?)
  have hids : ((front.filterMap Inbound.keyed?).foldl answer s.core).registry.ids =
      s.registry.ids.filter fun id => id ∉ (front.filterMap Inbound.keyed?).map Prod.fst :=
    ids_foldl_answer s.core _
  rw [← hids] at hfit'
  rw [flight, List.nil_append, List.foldl_append, hbefore,
    hidle'.foldl_answer_heard hline htail hfit', ← List.foldl_append,
    ← List.filterMap_append] at hcore
  exact ⟨e, hleads, h.toIdle.of_answered hcore, hrest ▸ hheard, hcore⟩

end Session

end PipeCall
