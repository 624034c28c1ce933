import PipeCall.Proofs.Session.Written

/-!
# What is on the wire

The output has taken the frames of calls in the order in which they came into the queue, whole but for
the last, which may be there in part (`Wire`). A call that was passed over could not be written, and
one event says so, or it was over before it came into the queue, or was overtaken while it waited for
room. When a client is at rest and nothing holds its writer up, no call is left behind
(`wire_of_course`).

The writer takes the calls from the queue in the order of submission, but a call that waits for room
does not always submit its request before those that are made later: `overtaken_on_the_wire` is a
course after which the wire ends with the calls 64, 67, 65 and 66. The frames stand in the order of
the calls' numbers exactly if no call was overtaken, and a client that settles after every burst of
commands overtakes none.
-/

namespace PipeCall.Session

open Request

variable {s t : Session} {h : List Change} {u : Setup} {done : List Request}

/-- The output has taken the frames of the requests `sent` and, if a request is torn, the beginning
`part` of its frame. -/
structure Wire (h : List Change) (s : Session) (sent : List Request) (torn : Option Request)
    (part : Bytes) : Prop where
  taken : s.output.taken = sent.flatMap (wire s.limit) ++ part
  part_of_none : torn = none → part = []
  /-- The torn frame is not all there. -/
  part_of_some : ∀ r ∈ torn, ∃ rest, rest ≠ [] ∧ r.wire s.limit = part ++ rest
  /-- They are in the order of their numbers, but for calls that were overtaken. -/
  ordered : (sent ++ torn.toList).Pairwise (Ahead h)
  increasing : (sent ++ torn.toList).Pairwise (fun r r' => r.id < r'.id) ↔
    ∀ r ∈ sent ++ torn.toList, ∀ r' ∈ sent ++ torn.toList, ¬ Overtakes h r r'
  /-- They are requests of calls that were taken into the queue, and nothing is complained of them. -/
  entered : ∀ r ∈ sent ++ torn.toList, r.frame s.limit = .ok (r.wire s.limit) ∧
    s.events.filter (Event.complainsOf r.id) = [] ∧
      ∃ (place : Nat) (t : Ticket) (phase : Phase),
        s.calls[place]? = some (.registered t phase) ∧ t.request = r ∧ Entered h place
  /-- A call with a smaller number that is not among them was too long, which was noted once, or it
  was over before it came into the queue, or all those with greater numbers have overtaken it. -/
  passedOver : ∀ (place : Nat) (t : Ticket) (phase : Phase),
    s.calls[place]? = some (.registered t phase) → t.request ∉ sent ++ torn.toList →
      (∃ r ∈ sent ++ torn.toList, t.id < r.id) →
        (Entered h place ∧ ∃ fault, t.request.frame s.limit = .error fault ∧
          s.events.filter (Event.complainsOf t.id) = [.unsendable t.id t.request.method fault]) ∨
        (¬ Entered h place ∧ phase.isLive = false ∧
          s.events.filter (Event.complainsOf t.id) = []) ∨
        ((∀ r ∈ sent ++ torn.toList, t.id < r.id → Overtakes h r t.request) ∧
          s.events.filter (Event.complainsOf t.id) = [])

/-! ## Complaints -/

/-- The complaints of a call are those of the requests that the writer could not write. -/
theorem Complains.filter_events (hcomplains : s.Complains done) (id : Nat) :
    s.events.filter (Event.complainsOf id) =
      (done.filterMap (complaint? s.limit)).filter (Event.complainsOf id) := by
  unfold Complains writerEvents at hcomplains
  rw [← hcomplains, List.filter_filter, List.filter_filter]
  congr 1
  funext e
  cases e <;> simp [Event.complainsOf, Event.isUnsendable, Event.isWriters]

/-! ## The requests on the wire -/

/-- The output has taken the frames of all requests that the writer has taken off the queue and could
write, the last of them perhaps in part. -/
theorem Streams.exists_sent (hstreams : s.Streams done) :
    ∃ sent torn part, s.output.taken = sent.flatMap (wire s.limit) ++ part ∧
      (torn = none → part = []) ∧
      (∀ r ∈ torn, ∃ rest, rest ≠ [] ∧ r.wire s.limit = part ++ rest) ∧
      sent ++ torn.toList = done.filter (isSendable s.limit) ∧
      (torn = none ∨ s.HasFailed ∨ ∃ r rest, s.writer = .writing r rest) := by
  have hwhole : s.output.taken = done.flatMap (wire s.limit) →
      s.output.taken = (done.filter (isSendable s.limit)).flatMap (wire s.limit) ++ [] := by
    intro htaken
    rw [flatMap_wire_filter, List.append_nil]
    exact htaken
  have htorn : ∀ r rest, Torn s.limit s.output.taken done r rest →
      ∃ sent part, s.output.taken = sent.flatMap (wire s.limit) ++ part ∧
        (∃ rest, rest ≠ [] ∧ r.wire s.limit = part ++ rest) ∧
        sent ++ [r] = done.filter (isSendable s.limit) := by
    rintro r rest ⟨before, frame, written, rfl, hframe, hsplit, hne, htaken⟩
    refine ⟨before.filter (isSendable s.limit), written, ?_, ⟨rest, hne, ?_⟩, ?_⟩
    · rw [flatMap_wire_filter]
      exact htaken
    · simp [wire, hframe, hsplit]
    · rw [List.filter_append]
      simp [isSendable, hframe]
  unfold Streams at hstreams
  cases hw : s.writer with
  | absent =>
    rw [hw] at hstreams
    obtain ⟨rfl, -, htaken⟩ := hstreams
    exact ⟨[], none, [], htaken, by simp, by simp, rfl, Or.inl rfl⟩
  | ready =>
    rw [hw] at hstreams
    exact ⟨_, none, [], hwhole hstreams, by simp, by simp, by simp, Or.inl rfl⟩
  | closed =>
    rw [hw] at hstreams
    exact ⟨_, none, [], hwhole hstreams.1, by simp, by simp, by simp, Or.inl rfl⟩
  | writing r rest =>
    rw [hw] at hstreams
    obtain ⟨sent, part, htaken, hpart, hsent⟩ := htorn r rest hstreams
    exact ⟨sent, some r, part, htaken, by simp, by simpa using hpart, hsent,
      Or.inr (Or.inr ⟨r, rest, rfl⟩)⟩
  | lost =>
    rw [hw] at hstreams
    rcases hstreams with ⟨htaken, -⟩ | ⟨hfailed, htaken | ⟨r, rest, hr⟩⟩
    · exact ⟨_, none, [], hwhole htaken, by simp, by simp, by simp, Or.inl rfl⟩
    · exact ⟨_, none, [], hwhole htaken, by simp, by simp, by simp, Or.inl rfl⟩
    · obtain ⟨sent, part, htaken, hpart, hsent⟩ := htorn r rest hr
      exact ⟨sent, some r, part, htaken, by simp, by simpa using hpart, hsent, Or.inr (Or.inl hfailed)⟩

/-- A request that the writer has taken off the queue, and that is not on the wire, could not be
written, and was complained of once. -/
theorem Written.complaint (hw : Written h s done) {r : Request} (hr : r ∈ done)
    (hnot : r ∉ done.filter (isSendable s.limit)) :
    ∃ fault, r.frame s.limit = .error fault ∧
      s.events.filter (Event.complainsOf r.id) = [.unsendable r.id r.method fault] := by
  have hdistinct := ((List.pairwise_append.1 hw.line.ordered).1).imp Ahead.ne
  cases hframe : r.frame s.limit with
  | ok frame => exact absurd (List.mem_filter.2 ⟨hr, isSendable_iff.2 ⟨frame, hframe⟩⟩) hnot
  | error fault =>
    refine ⟨fault, rfl, ?_⟩
    rw [hw.complains.filter_events, filter_complainsOf hdistinct hr]
    simp [complaint?, hframe]

/-- Nothing is complained of a call that the writer has not taken off the queue. -/
theorem Written.not_complained (hw : Written h s done) (course : Course u.fresh h s) {place : Nat}
    {t : Ticket} {phase : Phase} (stands : s.calls[place]? = some (.registered t phase))
    (hnot : t.request ∉ done) : s.events.filter (Event.complainsOf t.id) = [] := by
  rw [hw.complains.filter_events]
  refine filter_complainsOf_of_ne fun q hq heq => hnot ?_
  -- A request in the line with this number is that of this call.
  obtain ⟨place', t', phase', stands', rfl, -⟩ := hw.line.mem_iff.1 (List.mem_append_left _ hq)
  have hs := course.coheres (coheres_fresh u)
  have hid := Coherent.id_of_stands hs stands
  have hid' : t'.request.id = t'.slot + 1 := Coherent.id_of_stands hs stands'
  obtain rfl := Coherent.place_unique hs stands stands' (by omega)
  rw [stands] at stands'
  obtain ⟨rfl, -⟩ := Call.registered.inj (Option.some.inj stands')
  exact hq

/-- A call that waits for room was overtaken by every later one in the line. -/
theorem Written.overtaken (hw : Written h s done) (course : Course u.fresh h s) {place : Nat}
    {t : Ticket} (waits : s.calls[place]? = some (.registered t .waiting)) {r : Request}
    (hr : r ∈ done ++ s.queue) (hlt : t.id < r.id) : Overtakes h r t.request := by
  obtain ⟨place', t', phase', stands', rfl, hentered⟩ := hw.line.mem_iff.1 hr
  obtain ⟨earlier, c, later, rfl, henters⟩ := course.exists_enters hentered stands'
  exact ⟨c, by simp, course.overtakes henters waits hlt⟩

/-- The calls on the wire, and those that were passed over. -/
theorem Written.wire (hw : Written h s done) (course : Course u.fresh h s) {sent : List Request}
    {torn : Option Request} {part : Bytes}
    (taken : s.output.taken = sent.flatMap (Request.wire s.limit) ++ part)
    (part_of_none : torn = none → part = [])
    (part_of_some : ∀ r ∈ torn, ∃ rest, rest ≠ [] ∧ r.wire s.limit = part ++ rest)
    (hsent : sent ++ torn.toList = done.filter (isSendable s.limit)) : Wire h s sent torn part := by
  obtain ⟨hordered, -, hqueue⟩ := List.pairwise_append.1 hw.line.ordered
  have hahead : (sent ++ torn.toList).Pairwise (Ahead h) := by
    rw [hsent]
    exact hordered.filter _
  refine ⟨taken, part_of_none, part_of_some, hahead, increasing_iff hahead, ?_, ?_⟩
  · intro r hr
    rw [hsent] at hr
    obtain ⟨hdone, hsendable⟩ := List.mem_filter.1 hr
    obtain ⟨frame, hframe⟩ := isSendable_iff.1 hsendable
    refine ⟨by simp [Request.wire, hframe], ?_, hw.line.mem_iff.1 (List.mem_append_left _ hdone)⟩
    rw [hw.complains.filter_events, filter_complainsOf (hordered.imp Ahead.ne) hdone]
    simp [complaint?, hframe]
  · rintro place t phase stands hnot -
    rw [hsent] at hnot ⊢
    by_cases hentered : Entered h place
    · -- It is in the line: the writer could not write it, or has still to take it off the queue.
      have hline : t.request ∈ done ++ s.queue :=
        hw.line.mem_iff.2 ⟨place, t, phase, stands, rfl, hentered⟩
      by_cases hdone : t.request ∈ done
      · exact Or.inl ⟨hentered, hw.complaint hdone hnot⟩
      · have hmem := (List.mem_append.1 hline).resolve_left hdone
        refine Or.inr (Or.inr ⟨fun r hr hlt => ?_, hw.not_complained course stands hdone⟩)
        rcases hqueue r (List.mem_of_mem_filter hr) _ hmem with ⟨hgt, -⟩ | hover
        · have hid : t.request.id = t.id := rfl
          omega
        · exact hover
    · -- It is not in the line: it waits, or is over.
      have hdone : t.request ∉ done := by
        intro hmem
        obtain ⟨place', t', phase', stands', hsame, hentered'⟩ :=
          hw.line.mem_iff.1 (List.mem_append_left _ hmem)
        obtain rfl := (course.coheres (coheres_fresh u)).place_of_request stands stands' hsame.symm
        exact hentered hentered'
      have hnone := hw.not_complained course stands hdone
      cases phase with
      | waiting =>
        refine Or.inr (Or.inr ⟨fun r hr hlt => ?_, hnone⟩)
        exact hw.overtaken course stands (List.mem_append_left _ (List.mem_of_mem_filter hr)) hlt
      | queued => exact absurd (course.entered stands) hentered
      | ended | abandoned => exact Or.inr (Or.inl ⟨hentered, rfl, hnone⟩)

/-- When the writer can do nothing more, and is neither held up nor has failed, it has taken all
requests off the queue and written them to the end. -/
theorem Written.queue_eq_nil (hw : Written h s done) (hwrite : s.write? = none)
    (hstuck : s.output.isStuck = false) (hfailed : ¬ s.HasFailed) :
    s.queue = [] ∧ ¬ ∃ r rest, s.writer = .writing r rest := by
  have hstreams := hw.streams
  unfold Streams at hstreams
  cases hwriter : s.writer with
  | absent => rw [hwriter] at hstreams; exact ⟨hstreams.2.1, by simp⟩
  | ready =>
    refine ⟨?_, by simp⟩
    -- A writer that is ready takes the next request, whether it can be written or not.
    cases hqueue : s.queue with
    | nil => rfl
    | cons r queue =>
      simp only [write?, hwriter, hqueue] at hwrite
      split at hwrite <;> simp at hwrite
  | writing r rest => simp [write?, hwriter, hstuck] at hwrite
  | closed => rw [hwriter] at hstreams; exact ⟨hstreams.2, by simp⟩
  | lost =>
    rw [hwriter] at hstreams
    rcases hstreams with ⟨-, hqueue⟩ | ⟨hhas, -⟩
    · exact ⟨hqueue, by simp⟩
    · exact absurd hhas hfailed

/-- When the writer can do nothing more, and is neither held up nor has failed, every call that was
taken into the queue and can be written is on the wire, and each that cannot was noted once. -/
theorem Written.exists_wire (hw : Written h s done) (course : Course u.fresh h s) :
    ∃ sent torn part, Wire h s sent torn part ∧
      (s.write? = none → s.output.isStuck = false → ¬ s.HasFailed →
        torn = none ∧ ∀ (place : Nat) (t : Ticket) (phase : Phase),
          s.calls[place]? = some (.registered t phase) → Entered h place →
            t.request ∈ sent ∨ ∃ fault, t.request.frame s.limit = .error fault ∧
              s.events.filter (Event.complainsOf t.id) =
                [.unsendable t.id t.request.method fault]) := by
  obtain ⟨sent, torn, part, htaken, hnone, hsome, hsent, hstate⟩ := hw.streams.exists_sent
  refine ⟨sent, torn, part, hw.wire course htaken hnone hsome hsent, fun hwrite hstuck hfailed => ?_⟩
  obtain ⟨hqueue, hwriting⟩ := hw.queue_eq_nil hwrite hstuck hfailed
  -- A frame is torn only while the writer is writing it, or after it has failed.
  have htorn : torn = none := by
    rcases hstate with htorn | hhas | hw
    · exact htorn
    · exact absurd hhas hfailed
    · exact absurd hw hwriting
  refine ⟨htorn, fun place t phase stands hentered => ?_⟩
  have hline : t.request ∈ done ++ s.queue :=
    hw.line.mem_iff.2 ⟨place, t, phase, stands, rfl, hentered⟩
  rw [hqueue, List.append_nil] at hline
  rw [htorn, Option.toList_none, List.append_nil] at hsent
  rw [hsent]
  by_cases hmem : t.request ∈ done.filter (isSendable s.limit)
  · exact Or.inl hmem
  · exact Or.inr (hw.complaint hline hmem)

/-- Whatever happens to a client, and in whatever order its tasks get their turns, the output has taken
whole frames of calls and at most a part of one frame more. They stand in the order in which the calls
came into the queue, which is that of their numbers exactly if no call was overtaken while it waited
for room; no call is overtaken if the client settles after every burst of commands. The calls passed
over were too long, each noted once, or were over before they came into the queue, or were overtaken.
When the client is at rest, and the output is not full, no write has failed and the writer was not
given up, every call that was taken into the queue and can be written is on the wire, and each that
cannot was noted once. -/
theorem wire_of_course (course : Course u.fresh h s) :
    s.limit = u.limit ∧
      (∃ sent torn part, Wire h s sent torn part ∧
        (s.next? = none → s.output.isStuck = false → (∀ e ∈ s.events, e.isFailure = false) →
          torn = none ∧ ∀ (place : Nat) (t : Ticket) (phase : Phase),
            s.calls[place]? = some (.registered t phase) → Entered h place →
              t.request ∈ sent ∨ ∃ fault, t.request.frame s.limit = .error fault ∧
                s.events.filter (Event.complainsOf t.id) =
                  [.unsendable t.id t.request.method fault])) ∧
      ∀ steps : List (List Command), ∃ h', Course u.fresh h' (steps.foldl step u.fresh) ∧
        ∀ r r', ¬ Overtakes h' r r' := by
  obtain ⟨done, hw⟩ := course.written
  obtain ⟨sent, torn, part, hwire, hall⟩ := hw.exists_wire course
  refine ⟨course.limit, ⟨sent, torn, part, hwire, fun rest hstuck hnever => ?_⟩,
    exists_course_in_turn u⟩
  refine hall (perform?_of_rest rest .write) hstuck ?_
  rintro ⟨e, he, hfailure⟩
  rw [hnever e (mem_events_of_mem_writerEvents he)] at hfailure
  simp at hfailure

/-- Of two calls an output that takes sixty bytes has the first whole and the second in part, and one
that takes all it is given has both. -/
theorem wire_of_course_two_calls :
    (∃ h s, Course (Setup.fresh { Setup.sample with room := some 60 }) h s ∧ s.limit = 1000 ∧
      s.output.taken.length = 60 ∧ ∃ sent torn part, Wire h s sent torn part) ∧
    ∃ h s, Course Setup.sample.fresh h s ∧ s.next? = none ∧ ∃ sent, Wire h s sent none [] ∧
      ∃ t t' phase phase', s.calls = [.registered t phase, .registered t' phase'] ∧
        t.request ∈ sent ∧ t'.request ∈ sent := by
  constructor
  · obtain ⟨h, course, -⟩ := exists_course { Setup.sample with room := some 60 }
      [[.start], [.issue .sample, .issue .sample]]
    obtain ⟨hlimit, ⟨sent, torn, part, hwire, -⟩, -⟩ := wire_of_course course
    exact ⟨h, _, course, hlimit, rfl, sent, torn, part, hwire⟩
  · obtain ⟨h, course, rest⟩ := exists_course Setup.sample [[.start], [.issue .sample, .issue .sample]]
    obtain ⟨-, ⟨sent, torn, part, hwire, hall⟩, -⟩ := wire_of_course course
    obtain ⟨rfl, hsent⟩ := hall rest rfl (by decide)
    obtain rfl := hwire.part_of_none rfl
    -- Both calls are still queued in their own phase, though the writer has their requests.
    have hfirst := hsent 0 _ _ rfl (course.entered rfl)
    have hsecond := hsent 1 _ _ rfl (course.entered rfl)
    refine ⟨h, _, course, rest, sent, hwire, _, _, _, _, rfl, ?_, ?_⟩
    · rcases hfirst with hmem | ⟨fault, hfault, -⟩
      · exact hmem
      · cases hfault
    · rcases hsecond with hmem | ⟨fault, hfault, -⟩
      · exact hmem
      · cases hfault

/-! ## A call that is overtaken -/

/-- The writer goes on until it can do no more. If the output takes all it is given, that is no failure.
-/
theorem exists_course_writes (free : s.output.Free) (never : ¬ s.HasFailed) :
    ∃ h t, Course s h t ∧ t.calls = s.calls ∧ t.limit = s.limit ∧ t.write? = none ∧
      t.output.Free ∧ ¬ t.HasFailed := by
  -- Every step of the writer uses up work.
  induction hwork : s.work using Nat.strongRecOn generalizing s with
  | ind n ih =>
    cases hwrite : s.write? with
    | none => exact ⟨[], s, .nil, rfl, rfl, hwrite, free, never⟩
    | some m =>
      have hless := work_lt_of_write? hwrite
      obtain ⟨writer, output, queue, events, hm⟩ := write?_frame hwrite
      have hgoesOn : m.output.Free ∧ ¬ m.HasFailed := by
        cases writes_of_write? hwrite with
        | @sent r rest output _ _ hsend => exact ⟨by simpa [hsend] using (free.send rest).2, never⟩
        | @failed r rest reason output _ _ hsend => simpa [hsend] using (free.send rest).1
        | @left r rest behind output _ _ hsend => simpa [hsend] using (free.send rest).1
        | takes | shuts => exact ⟨free, never⟩
        | passes =>
          refine ⟨free, ?_⟩
          rintro ⟨e, he, hfailure⟩
          rw [writerEvents_note rfl] at he
          rcases List.mem_append.1 he with he | he
          · exact never ⟨e, he, hfailure⟩
          · obtain rfl := List.mem_singleton.1 he
            simp [Event.isFailure] at hfailure
      obtain ⟨h, t, hcourse, hcalls, hlimit, hdone⟩ :=
        ih m.work (hwork ▸ hless) hgoesOn.1 hgoesOn.2 rfl
      have hfirst : Course s [⟨s, .move .write, m⟩] m := Course.nil.snoc hwrite
      exact ⟨_, t, hfirst.append hcourse, by rw [hcalls, hm], by rw [hlimit, hm], hdone⟩

/-- Whether a call is in the queue with a request that can be written. -/
def Call.isReady (limit : Nat) : Call → Bool
  | .registered t .queued => t.request.isSendable limit
  | _ => false

/-- A call that is ready has a request in the queue. -/
theorem Call.isReady_iff {limit : Nat} {c : Call} :
    c.isReady limit = true ↔ ∃ t, c = .registered t .queued ∧ t.request.isSendable limit = true := by
  unfold Call.isReady
  split
  · simp
  · rename_i hne
    exact ⟨fun h => by simp at h, fun ⟨t, heq, _⟩ => absurd heq (hne t)⟩

/-- Sixty-six calls are made before the writer gets its turn, so two of them wait for room. In its turn
the writer takes the other sixty-four off the queue and writes them. -/
def crowd : List Cause :=
  .command .start :: List.replicate 66 (.command (.issue .sample)) ++
    List.replicate 128 (.move .write)

/-- The writer has done what it can. One call more that is made now comes into the queue while the call
in place 64 waits, which comes into it then; and the output takes all it is given. -/
def isCrowded (s : Session) : Bool :=
  let crowded := s.issue .sample
  s.write?.isNone && s.output.room.isNone && s.output.burst.isNone && s.output.failure.isNone &&
    s.output.flushFailure.isNone && s.events.all (!·.isFailure) && s.calls.length == 66 &&
    crowded.calls[64]?.any Call.isWaiting && crowded.calls[66]?.any (Call.isReady s.limit) &&
    crowded.refill?.any fun t =>
      t.calls[64]?.any (Call.isReady s.limit) && t.calls[66]?.any (Call.isReady s.limit)

/-- A call that waits for room has a ticket. -/
theorem Call.exists_of_isWaiting {c : Call} (h : c.isWaiting = true) :
    ∃ t, c = .registered t .waiting := by
  cases c with
  | refused e => simp [Call.isWaiting] at h
  | registered t phase =>
    cases phase with
    | waiting => exact ⟨t, rfl⟩
    | queued | ended | abandoned => simp [Call.isWaiting, Phase.isWaiting] at h

/-- A registered call keeps its ticket. -/
theorem Becomes.same_ticket {cause : Cause} {place : Nat} {a b : Ticket} {phase phase' : Phase}
    (h : s.Becomes cause t) (before : s.calls[place]? = some (.registered a phase))
    (after : t.calls[place]? = some (.registered b phase')) : a = b := by
  have hchange := h.effect.callChange place
  rw [before] at hchange
  obtain ⟨phase'', hstands⟩ := hchange.registered
  rw [after] at hstands
  exact (Call.registered.inj (Option.some.inj hstands)).1.symm

/-- If the output takes all it is given, the client can go on until every call is on the wire that is in
the queue with a request that can be written. -/
theorem Course.exists_all_sent {past : List Change} (course : Course u.fresh past s)
    (free : s.output.Free) (calm : ¬s.HasFailed) :
    ∃ later v sent, Course u.fresh (past ++ later) v ∧ Wire (past ++ later) v sent none [] ∧
      ∀ (place : Nat) (t : Ticket), s.calls[place]? = some (.registered t .queued) →
        t.request.isSendable u.limit = true → t.request ∈ sent := by
  obtain ⟨later, v, hlater, hcalls, -, hwrite, hvfree, hvcalm⟩ := exists_course_writes free calm
  have hall := course.append hlater
  obtain ⟨done, hwritten⟩ := hall.written
  obtain ⟨sent, torn, part, hwire, hwhole⟩ := hwritten.exists_wire hall
  obtain ⟨rfl, hsent⟩ := hwhole hwrite hvfree.isStuck hvcalm
  obtain rfl := hwire.part_of_none rfl
  refine ⟨later, v, sent, hall, hwire, fun place t hstands hsendable => ?_⟩
  rw [hall.limit] at hsent
  rw [← hcalls] at hstands
  rcases hsent place t .queued hstands (hall.entered hstands) with hmem | ⟨fault, hfault, -⟩
  · exact hmem
  · obtain ⟨frame, hframe⟩ := isSendable_iff.1 hsendable
    rw [hframe] at hfault
    simp at hfault

/-- Calls may be written in another order than that of their numbers, though every task gets its turn in
the order in which the tasks came to be able to go on: the writer has its turn, then a call is made, and
it comes into the queue before the two that the writer has made room for get theirs. -/
theorem overtaken_on_the_wire :
    ∃ h s sent, Course Setup.sample.fresh h s ∧ Wire h s sent none [] ∧
      ¬ sent.Pairwise (fun r r' => r.id < r'.id) := by
  obtain ⟨s, hs, htest⟩ := (Option.any_eq_true isCrowded (crowd.foldlM become? Setup.sample.fresh)).1
    (by decide +kernel)
  simp only [isCrowded, Bool.and_eq_true, Option.isNone_iff_eq_none, beq_iff_eq, List.all_eq_true,
    Option.any_eq_true, Call.isReady_iff] at htest
  obtain ⟨⟨⟨⟨⟨⟨⟨⟨⟨-, hroom⟩, hburst⟩, hfailure⟩, hflush⟩, hnever⟩, hlen⟩, w, hw, hwaiting⟩, _, hlast, q,
    rfl, -⟩, t, hrefill, ⟨_, hfirst, p, rfl, hp⟩, _, hsecond, q', rfl, hq⟩ := htest
  obtain ⟨past, course, -⟩ := course_causes crowd hs
  rw [course.limit] at hp hq
  -- The call that waits and the one that is made keep their tickets.
  obtain ⟨p', rfl⟩ := Call.exists_of_isWaiting hwaiting
  have hrefilled : (s.issue .sample).Becomes (.move .refill) t := hrefill
  obtain rfl := hrefilled.same_ticket hw hfirst
  obtain rfl := hrefilled.same_ticket hlast hsecond
  have hissued : Course Setup.sample.fresh (past ++ [⟨s, .command (.issue .sample), s.issue .sample⟩])
      (s.issue .sample) := course.snoc rfl
  have hover : Change.Overtakes ⟨s, .command (.issue .sample), s.issue .sample⟩ q.request p'.request := by
    have hcoheres := hissued.coheres (coheres_fresh _)
    have hslot := Coherent.slot_lt_slot hcoheres hw hlast (by omega)
    have hid := Coherent.id_of_stands hcoheres hw
    have hid' := Coherent.id_of_stands hcoheres hlast
    have hlt : p'.id < q.id := by omega
    exact ⟨66, 64, q, p', ⟨hlast, by simp [hlen]⟩, rfl, hw, rfl, hlt⟩
  -- The writer then writes all there is.
  have hsame : t.output = s.output ∧ t.events = s.events := by
    obtain ⟨_, _, _, _, heq⟩ := issue_frame s .sample
    obtain ⟨-, -, -, rfl⟩ := refill?_eq_some hrefill
    rw [heq]
    exact ⟨rfl, rfl⟩
  have hcalm : ¬ t.HasFailed := by
    rintro ⟨e, he, hfails⟩
    have hmem := mem_events_of_mem_writerEvents he
    rw [hsame.2] at hmem
    simpa [hfails] using hnever e hmem
  obtain ⟨later, v, sent, hall, hwire, hsent⟩ :=
    (hissued.snoc hrefilled).exists_all_sent (hsame.1 ▸ ⟨hroom, hburst, hfailure, hflush⟩) hcalm
  refine ⟨_, v, sent, hall, hwire, fun hincreasing => ?_⟩
  have hnone := hwire.increasing.1 (by simpa using hincreasing)
  exact hnone q.request (by simpa using hsent 66 q hsecond hq) p'.request
    (by simpa using hsent 64 p' hfirst hp) ⟨_, by simp, hover⟩

end PipeCall.Session
