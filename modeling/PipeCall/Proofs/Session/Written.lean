import PipeCall.Proofs.Session.Line

/-!
# What the writer has written

The writer takes requests off the queue one after another and puts their frames on the output.
`Streams` says for every state of the writer what the output has taken of the requests that were
taken off the queue, and `Complains` what was noted of those that could not be written. Together with
the order of the queue they hold at every moment (`Course.written`).
-/

namespace PipeCall

/-! ## Requests and events -/

namespace Request

/-- Whether a request can be written. -/
def isSendable (limit : Nat) (r : Request) : Bool :=
  match r.frame limit with
  | .ok _ => true
  | .error _ => false

/-- What a request is on the wire: its frame, or nothing if it cannot be written. -/
def wire (limit : Nat) (r : Request) : Bytes :=
  match r.frame limit with
  | .ok frame => frame
  | .error _ => []

/-- What is noted of a request that cannot be written. -/
def complaint? (limit : Nat) (r : Request) : Option Event :=
  match r.frame limit with
  | .ok _ => none
  | .error fault => some (.unsendable r.id r.method fault)

/-- A request that can be written has a frame. -/
theorem isSendable_iff {limit : Nat} {r : Request} :
    r.isSendable limit = true ↔ ∃ frame, r.frame limit = .ok frame := by
  unfold isSendable
  cases r.frame limit <;> simp

/-- A request that cannot be written leaves nothing on the wire. -/
theorem wire_of_not {limit : Nat} {r : Request} (h : r.isSendable limit = false) :
    r.wire limit = [] := by
  unfold isSendable at h
  unfold wire
  cases hf : r.frame limit with
  | ok frame => simp [hf] at h
  | error fault => rfl

/-- Only the requests that can be written are on the wire. -/
theorem flatMap_wire_filter (limit : Nat) (rs : List Request) :
    (rs.filter (isSendable limit)).flatMap (wire limit) = rs.flatMap (wire limit) := by
  induction rs with
  | nil => rfl
  | cons r rs ih =>
    cases h : r.isSendable limit with
    | true => simp [h, ih]
    | false => simp [h, ih, wire_of_not h]

/-- A frame has at least its delimiter. -/
theorem frame_ne_nil {limit : Nat} {r : Request} {frame : Bytes} (h : r.frame limit = .ok frame) :
    frame ≠ [] := by
  unfold Request.frame Frame.wrap at h
  split at h
  · obtain rfl := Except.ok.inj h
    simp [Frame.delimiter]
  · simp at h

end Request

namespace Event

/-- Whether an event says that a call cannot be written. -/
def isUnsendable : Event → Bool
  | .unsendable _ _ _ => true
  | _ => false

/-- Whether an event says that this call cannot be written. -/
def complainsOf (id : Nat) : Event → Bool
  | .unsendable id' _ _ => id' == id
  | _ => false

/-- Whether an event says that the writer had to give up: a write has failed, or it took too long. -/
def isFailure : Event → Bool
  | .outputFailed _ _ _ | .writerOverdue _ => true
  | _ => false

end Event

namespace Session

open Request

/-- A complaint is of its own call. -/
theorem complainsOf_of_complaint? {limit : Nat} {r : Request} {e : Event}
    (h : r.complaint? limit = some e) (id : Nat) : e.complainsOf id = (r.id == id) := by
  unfold complaint? at h
  split at h
  · simp at h
  · obtain rfl := Option.some.inj h
    rfl

/-- There is no complaint of a call that is none of these. -/
theorem filter_complainsOf_of_ne {limit id : Nat} {rs : List Request}
    (hne : ∀ r ∈ rs, r.id ≠ id) :
    (rs.filterMap (complaint? limit)).filter (Event.complainsOf id) = [] := by
  rw [List.filter_eq_nil_iff]
  intro e he
  obtain ⟨r, hr, hcomplaint⟩ := List.mem_filterMap.1 he
  rw [complainsOf_of_complaint? hcomplaint]
  simpa using hne r hr

/-- There is one complaint of a request that cannot be written, and none of one that can. -/
theorem filter_complainsOf {limit : Nat} {rs : List Request}
    (distinct : rs.Pairwise (fun r r' => r.id ≠ r'.id)) {r : Request} (hr : r ∈ rs) :
    (rs.filterMap (complaint? limit)).filter (Event.complainsOf r.id) =
      (r.complaint? limit).toList := by
  obtain ⟨before, after, rfl⟩ := List.append_of_mem hr
  rw [List.pairwise_append, List.pairwise_cons] at distinct
  obtain ⟨-, ⟨hafter, -⟩, hbefore⟩ := distinct
  have hearlier : (before.filterMap (complaint? limit)).filter (Event.complainsOf r.id) = [] :=
    filter_complainsOf_of_ne fun q hq => hbefore q hq r (by simp)
  have hlater : (after.filterMap (complaint? limit)).filter (Event.complainsOf r.id) = [] :=
    filter_complainsOf_of_ne fun q hq => (hafter q hq).symm
  rw [List.filterMap_append, List.filter_append, hearlier, List.nil_append, List.filterMap_cons]
  cases hc : r.complaint? limit with
  | none => exact hlater
  | some e =>
    have hself := complainsOf_of_complaint? hc r.id
    rw [beq_self_eq_true] at hself
    simp [hself, hlater]

/-! ## The writer -/

/-- All requests before the last were written, and of the frame of the last, `r`, all but a rest. -/
def Torn (limit : Nat) (taken : Bytes) (done : List Request) (r : Request) (rest : Bytes) : Prop :=
  ∃ before frame written, done = before ++ [r] ∧ r.frame limit = .ok frame ∧
    frame = written ++ rest ∧ rest ≠ [] ∧ taken = before.flatMap (wire limit) ++ written

/-- A write has failed, or the writer was given up because it took too long. -/
def HasFailed (s : Session) : Prop := ∃ e ∈ s.writerEvents, e.isFailure = true

/-- What the output has taken of the requests that the writer has taken off the queue. -/
def Streams (s : Session) (done : List Request) : Prop :=
  match s.writer with
  | .absent => done = [] ∧ s.queue = [] ∧ s.output.taken = []
  | .ready => s.output.taken = done.flatMap (wire s.limit)
  | .writing r rest => Torn s.limit s.output.taken done r rest
  | .closed => s.output.taken = done.flatMap (wire s.limit) ∧ s.queue = []
  | .lost => s.output.taken = done.flatMap (wire s.limit) ∧ s.queue = [] ∨
      s.HasFailed ∧ (s.output.taken = done.flatMap (wire s.limit) ∨
        ∃ r rest, Torn s.limit s.output.taken done r rest)

/-- The complaints are those of the requests that the writer could not write, in order. -/
def Complains (s : Session) (done : List Request) : Prop :=
  s.writerEvents.filter Event.isUnsendable = done.filterMap (complaint? s.limit)

variable {s t : Session} {past : List Change} {u : Setup} {cause : Cause} {done : List Request}

/-- If the writer has written nothing, the output has taken what it had, and only a writer that is
there lets requests into the queue. -/
theorem Streams.keep (h : s.Streams done) (same : s.Unwritten t) {added : List Request}
    (queue : t.queue = s.queue ++ added) (room : added = [] ∨ s.writer.isAlive = true) :
    t.Streams done := by
  unfold Streams at h ⊢
  have hfailed : t.HasFailed ↔ s.HasFailed := by rw [HasFailed, HasFailed, same.events]
  rw [same.writer, same.taken, same.limit, hfailed]
  rcases room with rfl | halive
  · rw [queue, List.append_nil]
    exact h
  · cases hw : s.writer with
    | absent => simp [hw, Writer.isAlive] at halive
    | ready => simpa [hw] using h
    | writing r rest => simpa [hw] using h
    | closed => simp [hw, Writer.isAlive] at halive
    | lost => simp [hw, Writer.isAlive] at halive

/-- If the writer has written nothing, nothing is complained of. -/
theorem Complains.keep (h : s.Complains done) (same : s.Unwritten t) : t.Complains done := by
  unfold Complains at h ⊢
  rw [same.events, same.limit]
  exact h

/-- The writer goes on with a frame. -/
theorem Torn.writeOn {r : Request} {rest : Bytes} (h : Torn s.limit s.output.taken done r rest)
    (hcomplains : s.Complains done) :
    (s.writeOn r rest).Streams done ∧ (s.writeOn r rest).Complains done := by
  obtain ⟨before, frame, written, hdone, hframe, hsplit, hne, htaken⟩ := h
  have hall : done.flatMap (wire s.limit) = before.flatMap (wire s.limit) ++ frame := by
    rw [hdone, List.flatMap_append]
    simp [wire, hframe]
  unfold Session.writeOn
  split
  · -- The rest of the frame is written: all requests up to this one are on the output.
    rename_i output hsend
    obtain ⟨more, left, hrest, hout, hfinished, -⟩ := Output.send_spec hsend
    refine ⟨?_, hcomplains⟩
    show output.taken = done.flatMap (wire s.limit)
    rw [hout, htaken, hall, hsplit, hrest, hfinished rfl, List.append_nil, List.append_assoc]
  · -- The write fails, and some of the rest may have been taken before.
    rename_i reason output hsend
    obtain ⟨more, left, hrest, hout, -, -⟩ := Output.send_spec hsend
    refine ⟨Or.inr ⟨⟨.outputFailed r.id r.method reason, ?_, rfl⟩, ?_⟩, ?_⟩
    · rw [writerEvents_note rfl]
      simp
    · show output.taken = done.flatMap (wire s.limit) ∨ ∃ r rest, Torn s.limit output.taken done r rest
      by_cases hleft : left = []
      · -- All of it was taken, and the flush has failed.
        refine Or.inl ?_
        rw [hout, htaken, hall, hsplit, hrest, hleft, List.append_nil, List.append_assoc]
      · refine Or.inr ⟨r, left, before, frame, written ++ more, hdone, hframe, ?_, hleft, ?_⟩
        · rw [hsplit, hrest, List.append_assoc]
        · rw [hout, htaken, List.append_assoc]
    · unfold Complains at hcomplains ⊢
      rw [writerEvents_note rfl, List.filter_append]
      exact (List.append_nil _).trans hcomplains
  · -- A rest is left, which is what the writer goes on with.
    rename_i left output hsend
    obtain ⟨more, left', hrest, hout, -, hwaiting⟩ := Output.send_spec hsend
    obtain ⟨rfl, hleft⟩ := hwaiting left rfl
    refine ⟨⟨before, frame, written ++ more, hdone, hframe, ?_, hleft, ?_⟩, hcomplains⟩
    · rw [hsplit, hrest, List.append_assoc]
    · show output.taken = _
      rw [hout, htaken, List.append_assoc]

/-- A step of the writer writes, or takes the next request off the queue. -/
theorem Streams.write (h : s.Streams done) (hcomplains : s.Complains done)
    (hwrite : s.write? = some t) :
    ∃ done', done' ++ t.queue = done ++ s.queue ∧ t.Streams done' ∧ t.Complains done' := by
  unfold Streams at h
  cases writes_of_write? hwrite with
  | @sent r rest _ hwriter room hsend | @failed r rest _ _ hwriter room hsend
  | @left r rest _ _ hwriter room hsend =>
    rw [hwriter] at h
    have hgoesOn := Torn.writeOn h hcomplains
    simp only [Session.writeOn, hsend] at hgoesOn
    exact ⟨done, rfl, hgoesOn⟩
  | @takes r queue frame hwriter hqueue hframe =>
    -- The request can be written, and nothing of its frame is taken yet.
    rw [hwriter] at h
    refine ⟨done ++ [r], by rw [hqueue]; simp, ?_, ?_⟩
    · exact ⟨done, frame, [], rfl, hframe, rfl, frame_ne_nil hframe, by rw [List.append_nil]; exact h⟩
    · have hnone : r.complaint? s.limit = none := by simp [complaint?, hframe]
      show s.writerEvents.filter _ = (done ++ [r]).filterMap (complaint? s.limit)
      rw [hcomplains, List.filterMap_append]
      simp [hnone]
  | @passes r queue fault hwriter hqueue hframe =>
    -- The request cannot be written: it leaves a complaint, and nothing on the wire.
    rw [hwriter] at h
    refine ⟨done ++ [r], by rw [hqueue]; simp [note], ?_, ?_⟩
    · simp only [Streams, note, hwriter]
      rw [h, List.flatMap_append]
      simp [wire, hframe]
    · have hsome : r.complaint? s.limit = some (.unsendable r.id r.method fault) := by
        simp [complaint?, hframe]
      unfold Complains at hcomplains ⊢
      rw [writerEvents_note rfl, List.filter_append]
      show s.writerEvents.filter _ ++ _ = (done ++ [r]).filterMap (complaint? s.limit)
      rw [hcomplains, List.filterMap_append]
      simp [hsome, Event.isUnsendable]
  | shuts hwriter hqueue hclosed =>
    -- The queue is empty and stays so: the writer shuts the output down.
    rw [hwriter] at h
    refine ⟨done, rfl, ?_, hcomplains⟩
    cases s.output.closeFailure with
    | none => exact ⟨h, hqueue⟩
    | some reason => exact Or.inl ⟨h, hqueue⟩

/-- A client that is started starts its writer, which has written nothing, or has none to start. -/
theorem Streams.start (h : s.Streams done) (hs : s.Staged) : (s.apply .start).Streams done := by
  by_cases hfirst : s.lifecycle = .notStarted
  · rw [start_of_eq hfirst]
    unfold Streams at h
    rw [hs.absent hfirst] at h
    obtain ⟨rfl, -, htaken⟩ := h
    exact htaken
  · rw [start_of_ne hfirst]
    rcases declineStreams_frame s with heq | ⟨habsent, heq⟩
    · rw [heq]
      exact h
    · rw [heq]
      unfold Streams at h
      rw [habsent] at h
      obtain ⟨rfl, hqueue, htaken⟩ := h
      exact Or.inl ⟨htaken, hqueue⟩

/-- Starting a client tells nothing of its writer. -/
theorem Complains.start (h : s.Complains done) : (s.apply .start).Complains done := by
  by_cases hfirst : s.lifecycle = .notStarted
  · rw [start_of_eq hfirst]
    unfold Complains at h ⊢
    rw [writerEvents_note_of_not rfl]
    exact h
  · rw [start_of_ne hfirst]
    rcases declineStreams_frame s with heq | ⟨-, heq⟩
    · rw [heq]
      exact h
    · rw [heq]
      exact h

/-- A shutdown may give the writer up, and then says so. -/
theorem Streams.close (h : s.Streams done) (hcomplains : s.Complains done)
    (hclose : s.close? = some t) : t.Streams done ∧ t.Complains done := by
  cases closes_of_close? hclose with
  | writerGone => exact ⟨h, hcomplains⟩
  | @writerOverdue grace deadline _ hstays =>
    -- The writer is given up wherever it is.
    refine ⟨Or.inr ⟨⟨.writerOverdue (Span.ofMillis grace), ?_, rfl⟩, ?_⟩, ?_⟩
    · rw [writerEvents_note rfl]
      simp
    · unfold Streams at h
      cases hw : s.writer with
      | absent =>
        rw [hw] at h
        obtain ⟨rfl, -, htaken⟩ := h
        exact Or.inl htaken
      | ready => rw [hw] at h; exact Or.inl h
      | writing r rest => rw [hw] at h; exact Or.inr ⟨r, rest, h⟩
      | closed => simp [hw, Writer.isGone] at hstays
      | lost => simp [hw, Writer.isGone] at hstays
    · unfold Complains at hcomplains ⊢
      rw [writerEvents_note rfl, List.filter_append]
      exact (List.append_nil _).trans hcomplains
  | readerGone => exact ⟨h, hcomplains⟩
  | @readerOverdue grace =>
    -- This is nothing to the writer.
    have same : s.Unwritten ((({ s with closing := .finished, reader := .gone } : Session)).note
        (.readerOverdue (Span.ofMillis grace))) :=
      ⟨rfl, rfl, rfl, writerEvents_note_of_not rfl⟩
    exact ⟨h.keep same (List.append_nil _).symm (Or.inl rfl), hcomplains.keep same⟩

/-- A client that is shut down leaves the writer alone, or gives it up if it gives it no time. -/
theorem Streams.shutDown (h : s.Streams done) (hcomplains : s.Complains done) :
    (s.apply .shutDown).Streams done ∧ (s.apply .shutDown).Complains done := by
  have hkeep : ∀ {t : Session}, s.Unwritten t → t.queue = s.queue →
      t.Streams done ∧ t.Complains done := fun same hqueue =>
    ⟨h.keep same (by rw [hqueue, List.append_nil]) (Or.inl rfl), hcomplains.keep same⟩
  by_cases running : s.lifecycle = .running
  · exact shutDown_keeps (P := fun t => t.Streams done ∧ t.Complains done) running
      (hkeep (unwritten_told s) rfl) fun h hclose => h.1.close h.2 hclose
  · refine hkeep (unwritten_shutDown running) ?_
    rw [shutDown_of_ne_running running]

/-! ## At every moment -/

/-- What is known of the queue, the writer and the output. -/
structure Written (past : List Change) (s : Session) (done : List Request) : Prop where
  line : Line past s (done ++ s.queue)
  streams : s.Streams done
  complains : s.Complains done

/-- A change in which the writer has no part keeps what it has written. -/
theorem Written.keep (h : Written past s done) (course : Course u.fresh past s)
    (becomes : s.Becomes cause t) (hstart : cause ≠ .command .start)
    (hshut : cause ≠ .command .shutDown) (hwrite : cause ≠ .move .write)
    (hclose : cause ≠ .move .close) : Written (past ++ [⟨s, cause, t⟩]) t done := by
  have same := becomes.unwritten hstart hshut hwrite hclose
  -- What comes into the queue is what is added to the line: the writer takes nothing off it here.
  have hline : ∃ added, t.queue = s.queue ++ added ∧ (added = [] ∨ s.writer.isAlive = true) ∧
      Line (past ++ [⟨s, cause, t⟩]) t (done ++ s.queue ++ added) := by
    by_cases hadmits : cause.Admits
    · exact h.line.takes_in course becomes hadmits
    · refine ⟨[], by rw [becomes.queue hwrite hadmits, List.append_nil], Or.inl rfl, ?_⟩
      rw [List.append_nil]
      exact h.line.keep_of_ne course becomes hadmits
  obtain ⟨added, hqueue, hroom, hline⟩ := hline
  refine ⟨?_, h.streams.keep same hqueue hroom, h.complains.keep same⟩
  rw [hqueue, ← List.append_assoc]
  exact hline

/-- At every moment the requests that the writer has taken off the queue, and what it has written of
them, are known. -/
theorem Course.written (course : Course u.fresh past s) : ∃ done, Written past s done := by
  induction course with
  | nil =>
    refine ⟨[], ⟨List.Pairwise.nil, fun {r} => ?_⟩, ⟨rfl, rfl, rfl⟩, rfl⟩
    simp [Setup.fresh, new]
  | @snoc past s t cause course becomes ih =>
    obtain ⟨done, h⟩ := ih
    -- The start, a step of a shutdown and a shutdown leave the queue, and touch the writer.
    have hleave : ¬ cause.Admits → cause ≠ .move .write → t.Streams done → t.Complains done →
        ∃ done, Written (past ++ [⟨s, cause, t⟩]) t done := by
      intro hadmits hwrite hstreams hcomplains
      refine ⟨done, ?_, hstreams, hcomplains⟩
      rw [becomes.queue hwrite hadmits]
      exact h.line.keep_of_ne course becomes hadmits
    by_cases hwrite : cause = .move .write
    · obtain rfl := hwrite
      obtain ⟨done', hdone, hstreams, hcomplains⟩ := h.streams.write h.complains becomes
      refine ⟨done', ?_, hstreams, hcomplains⟩
      -- A request that is taken off the queue stays in its place in the line.
      rw [hdone]
      exact h.line.keep_of_ne course becomes (by simp [Cause.Admits])
    · by_cases hstart : cause = .command .start
      · obtain rfl := hstart
        obtain rfl : t = s.apply .start := becomes
        exact hleave (by simp [Cause.Admits]) (by simp) (h.streams.start course.staged)
          h.complains.start
      · by_cases hclose : cause = .move .close
        · obtain rfl := hclose
          obtain ⟨hstreams, hcomplains⟩ := h.streams.close h.complains becomes
          exact hleave (by simp [Cause.Admits]) (by simp) hstreams hcomplains
        · by_cases hshut : cause = .command .shutDown
          · obtain rfl := hshut
            obtain rfl : t = s.apply .shutDown := becomes
            obtain ⟨hstreams, hcomplains⟩ := h.streams.shutDown h.complains
            exact hleave (by simp [Cause.Admits]) (by simp) hstreams hcomplains
          · exact ⟨done, h.keep course becomes hstart hshut hwrite hclose⟩

end Session

end PipeCall
