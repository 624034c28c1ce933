import PipeCall.Proofs.Session.EndOfInput
import PipeCall.Proofs.Session.Written

/-!
# What follows from a shutdown

A shutdown of a client that runs releases every call, and leaves the writer what it owed then: the
rest of the frame that it was at, and the frames of the requests in the queue (`Session.owed`).
`Flushed` says how much of that has been written, and holds of every step of the writer, so of any
number of them (`Flushed.trans`). `Stopped` is what is known of the client at every moment after the
shutdown (`Course.stopped`), whatever order its moves come in, and `afterShutDown_of_course` says what
that means for its calls, its output and its owner.
-/

namespace PipeCall.Session

open Request

variable {s t v : Session} {past later : List Change} {u : Setup} {cause : Cause}
  {written rest : Bytes}

/-! ## What the writer owes -/

/-- What is left to write: the rest of the frame that the writer is at, and the frames of the requests
in the queue. -/
def owed (s : Session) : Bytes :=
  (match s.writer with
    | .writing _ rest => rest
    | _ => []) ++ s.queue.flatMap (wire s.limit)

/-- A client with the same writer and the same queue owes the same. -/
theorem owed_eq (limit : t.limit = s.limit) (writer : t.writer = s.writer)
    (queue : t.queue = s.queue) : t.owed = s.owed := by
  rw [owed, owed, limit, writer, queue]

/-- Of what was owed in `s` the output has taken `written` by now, and not `rest`. A writer that is
there still owes the rest; one that is gone has written all, or has failed. -/
structure Flushed (s t : Session) (written rest : Bytes) : Prop where
  taken : t.output.taken = s.output.taken ++ written
  owed : s.owed = written ++ rest
  alive : t.writer.isAlive = true → t.owed = rest
  dead : t.writer.isAlive = false → rest = [] ∨ t.writer = .lost ∧ t.HasFailed

/-- What is written later follows what was written before. -/
theorem Flushed.trans {written' rest' : Bytes} (h : Flushed s t written rest)
    (halive : t.writer.isAlive = true) (h' : Flushed t v written' rest') :
    Flushed s v (written ++ written') rest' where
  taken := by rw [h'.taken, h.taken, List.append_assoc]
  owed := by rw [h.owed, ← h.alive halive, h'.owed, List.append_assoc]
  alive := h'.alive
  dead := h'.dead

/-- A change in which the writer has no part, and that lets nothing into the queue, writes nothing. -/
theorem Flushed.keep (h : Flushed s t written rest) (same : t.Unwritten v)
    (queue : v.queue = t.queue) : Flushed s v written rest where
  taken := by rw [same.taken, h.taken]
  owed := h.owed
  alive halive := by
    rw [owed_eq same.limit same.writer queue]
    exact h.alive (same.writer ▸ halive)
  dead hdead := by
    rw [same.writer, HasFailed, same.events]
    exact h.dead (same.writer ▸ hdead)

/-- A step of the writer writes some of what is owed. -/
theorem flushed_of_write? (h : s.write? = some t) : ∃ written rest, Flushed s t written rest := by
  have howed {r : Request} {left : Bytes} (hwriter : s.writer = .writing r left) :
      s.owed = left ++ s.queue.flatMap (wire s.limit) := by rw [owed, hwriter]
  have hfirst {r : Request} {queue : List Request} (hwriter : s.writer = .ready)
      (hqueue : s.queue = r :: queue) :
      s.owed = r.wire s.limit ++ queue.flatMap (wire s.limit) := by
    rw [owed, hwriter, hqueue, List.flatMap_cons, List.nil_append]
  cases writes_of_write? h with
  | sent hwriter room hsend =>
    -- The frame is written to its end, and the queue is left.
    obtain ⟨more, behind, hleft, htaken, hdone, -⟩ := Output.send_spec hsend
    obtain rfl := hdone rfl
    rw [List.append_nil] at hleft
    exact ⟨more, s.queue.flatMap (wire s.limit), htaken, by rw [howed hwriter, hleft],
      fun _ => rfl, by simp [Writer.isAlive]⟩
  | @failed r rest reason output hwriter room hsend =>
    -- The write has failed, and some of the frame may have been taken before.
    obtain ⟨more, behind, hleft, htaken, -, -⟩ := Output.send_spec hsend
    refine ⟨more, behind ++ s.queue.flatMap (wire s.limit), htaken, ?_,
      by simp [note, Writer.isAlive], fun _ => Or.inr ⟨rfl, ?_⟩⟩
    · rw [howed hwriter, hleft, List.append_assoc]
    · refine ⟨.outputFailed r.id r.method reason, ?_, rfl⟩
      rw [writerEvents_note rfl]
      simp
  | @left r rest behind' output hwriter room hsend =>
    -- A rest of the frame is left.
    obtain ⟨more, behind, hleft, htaken, -, hwaiting⟩ := Output.send_spec hsend
    obtain ⟨rfl, -⟩ := hwaiting behind' rfl
    refine ⟨more, behind' ++ s.queue.flatMap (wire s.limit), htaken, ?_, fun _ => rfl,
      by simp [Writer.isAlive]⟩
    rw [howed hwriter, hleft, List.append_assoc]
  | takes hwriter hqueue hframe =>
    -- A request comes off the queue, and its frame is left to write.
    refine ⟨[], _, (List.append_nil _).symm, hfirst hwriter hqueue, fun _ => ?_,
      by simp [Writer.isAlive]⟩
    simp [owed, wire, hframe]
  | passes hwriter hqueue hframe =>
    -- One that cannot be written leaves nothing.
    refine ⟨[], _, (List.append_nil _).symm, hfirst hwriter hqueue, fun _ => ?_,
      by simp [note, hwriter, Writer.isAlive]⟩
    simp [owed, note, hwriter, wire, hframe]
  | shuts hwriter hqueue hclosed =>
    have hnone : s.owed = [] := by rw [owed, hwriter, hqueue]; rfl
    refine ⟨[], [], (List.append_nil _).symm, hnone, fun halive => ?_, fun _ => Or.inl rfl⟩
    have hdead : (if s.output.closeFailure.isSome then Writer.lost else .closed).isAlive = false := by
      split <;> rfl
    exact absurd halive (by simp [hdead])

/-! ## The writer after a shutdown -/

/-- A writer that is gone stays gone, and nothing more is written. -/
theorem Becomes.gone_stays (h : s.Becomes cause t) (gone : s.writer.isGone = true)
    (started : s.lifecycle ≠ .notStarted) :
    t.writer.isGone = true ∧ t.output.taken = s.output.taken := by
  cases h.writerChange with
  | kept same => exact ⟨by rw [same.writer]; exact gone, same.taken⟩
  | started first => exact absurd first started
  | declined _ _ drops | cutOff _ _ drops | givenUp _ drops =>
    exact ⟨by rw [drops.writer]; rfl, drops.taken⟩
  | wrote writes =>
    cases writes_of_write? writes with
    | sent writing | failed writing | left writing => simp [writing, Writer.isGone] at gone
    | takes ready | passes ready | shuts ready => simp [ready, Writer.isGone] at gone

/-- The writer is held up by the output, and the time since the shutdown is shorter than a call waited
when it began. -/
def HeldUp (s t : Session) : Prop :=
  (∃ r rest, t.writer = .writing r rest) ∧ t.output.isStuck = true ∧ t.clock < s.clock + s.window

/-- How far a shutdown has got that began in `s`: it waits for the writer, for as long as a call waited
then, and goes on when the writer is gone. -/
def Waits (s t : Session) : Prop :=
  t.closing = .writer s.window (s.clock + s.window) ∨
    t.writer.isGone = true ∧ ((∃ grace deadline, t.closing = .reader grace deadline) ∨
      t.closing = .finished)

/-- What is known of a client that was shut down in `s`, while it ran. -/
structure Stopped (s t : Session) : Prop where
  lifecycle : t.lifecycle = .shutDown
  writer : t.writer ≠ .absent
  reader : t.reader ≠ .absent
  waits : s.Waits t
  /-- The calls that were outstanding are released. -/
  released {place : Nat} {ticket : Ticket} {phase : Phase}
    (stands : s.calls[place]? = some (.registered ticket phase)) (live : phase.isLive = true)
    (unsettled : s.settlement? ticket = none) : t.Released place ticket
  flushed : ∃ written rest, s.Flushed t written rest

/-- A writer that is there, with nothing to take and nothing to wait for, is held up in a frame. -/
theorem Sound.isStuck_of_idle (hs : t.Sound) (shut : t.lifecycle = .shutDown)
    (hdeliver : t.deliver? = none) (hwrite : t.write? = none) (alive : t.writer.isAlive = true) :
    (∃ r rest, t.writer = .writing r rest) ∧ t.output.isStuck = true := by
  have hclosed := hs.coheres.queueClosed (hs.staged.shutDown shut) hdeliver shut
  cases hw : t.writer with
  | absent => simp [hw, Writer.isAlive] at alive
  | ready =>
    -- It could take a request or shut the output down.
    cases hqueue : t.queue with
    | nil => simp [write?, hw, hqueue, hclosed] at hwrite
    | cons r queue =>
      simp only [write?, hw, hqueue] at hwrite
      split at hwrite <;> simp at hwrite
  | writing r rest =>
    refine ⟨⟨r, rest, rfl⟩, ?_⟩
    cases hstuck : t.output.isStuck with
    | true => rfl
    | false => simp [write?, hw, hstuck] at hwrite
  | closed => simp [hw, Writer.isAlive] at alive
  | lost => simp [hw, Writer.isAlive] at alive

/-- A writer is there, or gone, or was never started. -/
theorem Writer.isAlive_of_not_isGone {w : Writer} (habsent : w ≠ .absent) (h : w.isGone = false) :
    w.isAlive = true := by
  cases w <;> simp_all [Writer.isGone, Writer.isAlive]

/-- A writer that is there is not gone. -/
theorem Writer.isGone_of_not_isAlive {w : Writer} (habsent : w ≠ .absent) (h : w.isAlive = false) :
    w.isGone = true := by
  cases w <;> simp_all [Writer.isGone, Writer.isAlive]

/-- A step of a shutdown that finds the writer there gives it up, after it has waited as long as a call
waited when the shutdown began. -/
theorem Stopped.close_of_alive (h : s.Stopped t) (alive : t.writer.isAlive = true)
    (hclose : t.close? = some v) :
    s.clock + s.window ≤ t.clock ∧
      v = ({ t with closing := .reader s.window (t.clock + s.window), writer := .lost } : Session).note
        (.writerOverdue (Span.ofMillis s.window)) := by
  have hnot : t.writer.isGone = false := by
    cases hw : t.writer <;> simp_all [Writer.isAlive, Writer.isGone]
  rcases h.waits with hwaits | ⟨hgone, -⟩
  · cases closes_of_close? hclose with
    | writerGone _ gone => simp [hnot] at gone
    | writerOverdue waits _ overdue =>
      rw [hwaits] at waits
      obtain ⟨rfl, rfl⟩ := Closing.writer.inj waits
      exact ⟨overdue, rfl⟩
    | readerGone waits | readerOverdue waits => simp [hwaits] at waits
  · rw [hnot] at hgone
    simp at hgone

/-- The turn of a call takes nothing into the queue of a client that was shut down: if the call still
goes on, it has a settlement to take. -/
theorem Sound.queue_turn (hs : t.Sound) (shut : t.lifecycle = .shutDown) {place : Nat}
    (hturn : t.turn? place = some v) : v.queue = t.queue := by
  cases turns_of_turn? hturn with
  | ends => rfl
  | enters stands unsettled =>
    have hrunning := hs.running stands (waiting_of_unsettled hs.coheres stands rfl unsettled)
    simp [shut] at hrunning

/-- Nothing comes into the queue of a client that was shut down. -/
theorem Stopped.queue (h : s.Stopped t) (hs : t.Sound) (becomes : t.Becomes cause v)
    (hwrite : cause ≠ .move .write) : v.queue = t.queue := by
  by_cases hadmits : cause.Admits
  · rcases hadmits with ⟨order, rfl⟩ | rfl | ⟨place, rfl⟩
    · obtain rfl : v = t.issue order := becomes
      rw [issue_of_ne_running (by simp [h.lifecycle])]
      rfl
    · -- The calls that waited for room have been released, and have ended before.
      have hrefill : t.refill? = some v := becomes
      obtain ⟨-, hdeliver, -⟩ := refill?_eq_some hrefill
      have hnone := hs.coheres.refill?_eq_none_of_closed (hs.staged.shutDown h.lifecycle) hdeliver
      rw [hnone] at hrefill
      simp at hrefill
    · exact hs.queue_turn h.lifecycle becomes
  · exact becomes.queue hwrite hadmits

/-- A second shutdown finds nothing to do. -/
theorem shutDown_of_shutDown (h : s.lifecycle = .shutDown) :
    s.apply .shutDown = { s with registry := s.registry.drain.2 } := by
  rw [shutDown_of_ne_running (by simp [h]), ← h]

/-- A second shutdown changes nothing. -/
theorem shutDown_again (hs : s.Coheres) (staged : s.Staged) (shut : s.lifecycle = .shutDown) :
    s.apply .shutDown = s := by
  rw [shutDown_of_shutDown shut, hs.numbered.drain_of_closed (staged.shutDown shut)]

/-- A writer that goes on is there, or gone. -/
theorem writer_ne_absent_of_write? (hwrite : s.write? = some t) : t.writer ≠ .absent := by
  cases writes_of_write? hwrite with
  | sent | failed | left | takes => simp [note]
  | passes ready => simp [note, ready]
  | shuts =>
    simp only
    split <;> simp

/-- A writer that is there after a shutdown has left nothing undone that it could do. -/
theorem Stopped.write (h : s.Stopped t) (hwrite : t.write? = some v) :
    s.Waits v ∧ v.writer ≠ .absent ∧ ∃ written rest, s.Flushed v written rest := by
  have halive : t.writer.isAlive = true := by
    cases hw : t.writer <;> simp_all [write?, Writer.isAlive]
  obtain ⟨written, rest, hflushed⟩ := h.flushed
  obtain ⟨written', rest', hstep⟩ := flushed_of_write? hwrite
  refine ⟨?_, ?_, _, _, hflushed.trans halive hstep⟩
  · rcases h.waits with hwaits | ⟨hgone, -⟩
    · obtain ⟨_, _, _, _, rfl⟩ := write?_frame hwrite
      exact Or.inl hwaits
    · cases hw : t.writer <;> simp_all [Writer.isAlive, Writer.isGone]
  · exact writer_ne_absent_of_write? hwrite

/-- A step of a shutdown. -/
theorem Stopped.close (h : s.Stopped t) (hclose : t.close? = some v) :
    s.Waits v ∧ v.writer ≠ .absent ∧ ∃ written rest, s.Flushed v written rest := by
  obtain ⟨written, rest, hflushed⟩ := h.flushed
  cases halive : t.writer.isAlive with
  | true =>
    -- The writer is given up, with all that it has left.
    obtain ⟨-, rfl⟩ := h.close_of_alive halive hclose
    refine ⟨Or.inr ⟨rfl, Or.inl ⟨_, _, rfl⟩⟩, by simp [note], written, rest, hflushed.taken,
      hflushed.owed, by simp [note, Writer.isAlive], fun _ => Or.inr ⟨rfl, ?_⟩⟩
    refine ⟨.writerOverdue (Span.ofMillis s.window), ?_, rfl⟩
    rw [writerEvents_note rfl]
    simp
  | false =>
    -- The writer is gone and stays as it is.
    have hgone := Writer.isGone_of_not_isAlive h.writer halive
    have hsame : t.Unwritten v ∧ v.queue = t.queue ∧
        ((∃ grace deadline, v.closing = .reader grace deadline) ∨ v.closing = .finished) := by
      cases closes_of_close? hclose with
      | writerGone => exact ⟨⟨rfl, rfl, rfl, rfl⟩, rfl, Or.inl ⟨_, _, rfl⟩⟩
      | writerOverdue _ stays => simp [hgone] at stays
      | readerGone => exact ⟨⟨rfl, rfl, rfl, rfl⟩, rfl, Or.inr rfl⟩
      | readerOverdue => exact ⟨⟨rfl, rfl, rfl, writerEvents_note_of_not rfl⟩, rfl, Or.inr rfl⟩
    obtain ⟨same, hqueue, hclosing⟩ := hsame
    rw [Waits, same.writer]
    exact ⟨Or.inr ⟨hgone, hclosing⟩, h.writer, written, rest, hflushed.keep same hqueue⟩

/-- A client stays stopped when its shutdown goes on. -/
theorem Stopped.of_close? (h : s.Stopped t) (hclose : t.close? = some v) : s.Stopped v := by
  obtain ⟨hwaits, hwriter, hflushed⟩ := h.close hclose
  refine ⟨?_, hwriter, ?_, hwaits, ?_, hflushed⟩
  · obtain ⟨_, _, _, _, rfl⟩ := close?_frame hclose
    exact h.lifecycle
  · cases closes_of_close? hclose with
    | writerGone | writerOverdue | readerGone => exact h.reader
    | readerOverdue => simp [note]
  · intro place ticket phase stands live unsettled
    have hreleased := h.released stands live unsettled
    obtain ⟨_, _, _, _, rfl⟩ := close?_frame hclose
    exact hreleased

/-- All but the writer and the shutdown leave the writer alone. -/
theorem Stopped.unwritten (h : s.Stopped t) (becomes : t.Becomes cause v)
    (hwrite : cause ≠ .move .write) (hclose : cause ≠ .move .close) : t.Unwritten v := by
  cases becomes.writerChange with
  | kept same => exact same
  | started first => simp [h.lifecycle] at first
  | declined absent => exact absurd absent h.writer
  | wrote => exact absurd rfl hwrite
  | cutOff running => simp [h.lifecycle] at running
  | givenUp => exact absurd rfl hclose

/-- The shutdown gets on by its own steps alone. -/
theorem Stopped.closing_eq (h : s.Stopped t) (becomes : t.Becomes cause v)
    (hclose : cause ≠ .move .close) : v.closing = t.closing := by
  by_cases hshut : cause = .command .shutDown
  · obtain rfl := hshut
    obtain rfl : v = t.apply .shutDown := becomes
    rw [shutDown_of_shutDown h.lifecycle]
  · cases becomes.touches with
    | shutDown => exact absurd rfl hshut
    | close => exact absurd rfl hclose
    | _ => rfl

/-- Whatever happens next, the client is stopped. -/
theorem Stopped.becomes (h : s.Stopped t) (hs : t.Sound) (becomes : t.Becomes cause v) :
    s.Stopped v := by
  have hlife := becomes.shutDown_stays h.lifecycle
  have hreader := becomes.reader_stays h.reader
  have hreleased : ∀ {place : Nat} {ticket : Ticket} {phase : Phase},
      s.calls[place]? = some (.registered ticket phase) → phase.isLive = true →
        s.settlement? ticket = none → v.Released place ticket := fun stands live unsettled =>
    (h.released stands live unsettled).keep hs.coheres becomes
  -- It remains what is known of the writer and of the shutdown.
  suffices hrest : s.Waits v ∧ v.writer ≠ .absent ∧ ∃ written rest, s.Flushed v written rest from
    ⟨hlife, hrest.2.1, hreader, hrest.1, hreleased, hrest.2.2⟩
  by_cases hwrite : cause = .move .write
  · obtain rfl := hwrite
    exact h.write becomes
  · by_cases hclose : cause = .move .close
    · obtain rfl := hclose
      exact h.close becomes
    · obtain ⟨written, rest, hflushed⟩ := h.flushed
      have hqueue := h.queue hs becomes hwrite
      have same := h.unwritten becomes hwrite hclose
      have hclosing := h.closing_eq becomes hclose
      rw [Waits, same.writer, hclosing]
      exact ⟨h.waits, h.writer, written, rest, hflushed.keep same hqueue⟩

/-- A client that is shut down while it runs is stopped. -/
theorem stopped_of_shutDown (course : Course u.fresh past s) (running : s.lifecycle = .running) :
    s.Stopped (s.apply .shutDown) := by
  have hs := course.coheres (coheres_fresh u)
  refine shutDown_keeps running ?_ fun h hclose => h.of_close? hclose
  -- Nothing is written yet of what is owed.
  refine ⟨rfl, course.staged.writer_ne_absent running, course.reader_ne_absent running, Or.inl rfl, ?_,
    [], s.owed, (List.append_nil _).symm, rfl, fun _ => rfl, fun hdead => Or.inr ?_⟩
  · intro place ticket phase stands live unsettled
    exact released_of_drained hs stands (waiting_of_unsettled hs stands live unsettled) rfl rfl
  · -- A client that runs has lost its writer by a write that failed.
    rcases course.staged.running running with halive | ⟨hlost, id, method, reason, hevent⟩
    · rw [show s.writer.isAlive = false from hdead] at halive
      simp at halive
    · refine ⟨hlost, .outputFailed id method reason, ?_, rfl⟩
      rw [(unwritten_told s).events]
      exact hevent

/-- The client is stopped at every moment after a shutdown that found it running, and sound. -/
theorem Course.stopped (course : Course u.fresh (past ++ ⟨s, .command .shutDown, v⟩ :: later) t)
    (running : s.lifecycle = .running) :
    (∀ c ∈ later, c.before.Sound ∧ s.Stopped c.before) ∧ t.Sound ∧ s.Stopped t := by
  obtain ⟨hcourse, hbecomes, hlater⟩ := course.split
  have hfirst : s.Stopped v := by
    have hv : v = s.apply .shutDown := hbecomes
    rw [hv]
    exact stopped_of_shutDown hcourse running
  exact hlater.keeps (P := fun t => t.Sound ∧ s.Stopped t)
    ⟨(hcourse.sound (sound_fresh u)).2.becomes hbecomes, hfirst⟩ fun c _ h becomes =>
      ⟨h.1.becomes becomes, h.2.becomes h.1 becomes⟩

/-! ## At rest, and on the way there -/

/-- When nothing more can be done before the clock moves, a shutdown is over, or the output holds the
writer up and the time has not come to give it up. -/
theorem Stopped.over_or_heldUp (h : s.Stopped t) (hs : t.Sound) (rest : t.next? = none) :
    t.closing = .finished ∨ s.HeldUp t := by
  have hdeliver := deliver?_of_rest rest
  have hwrite : t.write? = none := perform?_of_rest rest .write
  have hclose : t.close? = none := perform?_of_rest rest .close
  rcases h.waits with hwaits | ⟨-, ⟨grace, deadline, hclosing⟩ | hfinished⟩
  · cases hgone : t.writer.isGone with
    | true => simp [close?, hwaits, hgone] at hclose
    | false =>
      have halive := Writer.isAlive_of_not_isGone h.writer hgone
      obtain ⟨hwriting, hstuck⟩ := hs.isStuck_of_idle h.lifecycle hdeliver hwrite halive
      refine Or.inr ⟨hwriting, hstuck, Nat.lt_of_not_le fun hdeadline => ?_⟩
      simp [close?, hwaits, hgone, hdeadline] at hclose
  · -- The reader has let the input go, so it is waited for no longer.
    obtain ⟨hleaving, hrunning⟩ := reader_of_rest rest
    have hgone : t.reader.isGone = true := by
      cases hr : t.reader with
      | absent => exact absurd hr h.reader
      | running => exact absurd hr (hrunning h.lifecycle)
      | leaving => exact absurd hr hleaving
      | gone => rfl
    simp [close?, hclosing, hgone] at hclose
  · exact Or.inl hfinished

/-- At rest all that was owed is written, unless a write has failed, the writer was given up, or the
output still holds it up. -/
theorem Stopped.flushed_of_rest (h : s.Stopped t) (hs : t.Sound)
    (rest : t.next? = none) {written left : Bytes} (hflushed : s.Flushed t written left) :
    left = [] ∨ (∃ e ∈ t.events, e.isFailure = true) ∨ s.HeldUp t := by
  cases halive : t.writer.isAlive with
  | false =>
    rcases hflushed.dead halive with hnil | ⟨-, e, he, hfailure⟩
    · exact Or.inl hnil
    · exact Or.inr (Or.inl ⟨e, mem_events_of_mem_writerEvents he, hfailure⟩)
  | true =>
    rcases h.over_or_heldUp hs rest with hfinished | hheld
    · -- A shutdown is over only when the writer is gone.
      rcases h.waits with hwaits | ⟨hgone, -⟩
      · simp [hfinished] at hwaits
      · cases hw : t.writer <;> simp_all [Writer.isAlive, Writer.isGone]
    · exact Or.inr (Or.inr hheld)

/-- A writer that shuts the output down has written all that was owed. -/
theorem Stopped.taken_of_close (h : s.Stopped t) (hwriter : t.writer = .ready)
    (hwrite : t.write? = some v) (gone : v.writer.isGone = true) :
    t.output.taken = s.output.taken ++ s.owed := by
  have hqueue : t.queue = [] := by
    cases hqueue : t.queue with
    | nil => rfl
    | cons r queue =>
      simp only [write?, hwriter, hqueue] at hwrite
      split at hwrite <;> obtain rfl := Option.some.inj hwrite <;>
        simp [note, Writer.isGone] at gone
  obtain ⟨written, rest, hflushed⟩ := h.flushed
  have hnil : rest = [] := by
    rw [← hflushed.alive (by simp [hwriter, Writer.isAlive]), owed, hwriter, hqueue]
    rfl
  rw [hflushed.taken, hflushed.owed, hnil, List.append_nil]

/-- A shutdown goes on only when nothing else can be done. -/
theorem Makes.idle_of_close (h : s.Makes .close t) : s.deliver? = none ∧ s.write? = none := by
  have hlast : Move.order = Move.order.dropLast ++ [.close] := rfl
  have hnone := h.preferred hlast (by simp [Move.order])
  exact ⟨hnone .deliver (by simp [Move.order]), hnone .write (by simp [Move.order])⟩

/-- A step of a shutdown that finds the writer there gives it up, after it has waited as long as a call
waited when the shutdown began. A client that makes the step only when it can do nothing else finds
the writer held up by the output. -/
theorem Stopped.overdue (h : s.Stopped t) (hs : t.Sound) (hclose : t.close? = some v)
    (alive : t.writer.isAlive = true) :
    s.clock + s.window ≤ t.clock ∧ v.writer = .lost ∧
      v.events = t.events ++ [.writerOverdue (Span.ofMillis s.window)] ∧
      (t.Makes .close v → (∃ r rest, t.writer = .writing r rest) ∧ t.output.isStuck = true) := by
  obtain ⟨hdeadline, rfl⟩ := h.close_of_alive alive hclose
  refine ⟨hdeadline, rfl, rfl, fun hmakes => ?_⟩
  -- The writer could not go on, or it would have done so first.
  obtain ⟨hdeliver, hwrite⟩ := hmakes.idle_of_close
  exact hs.isStuck_of_idle h.lifecycle hdeliver hwrite alive

/-! ## Moves alone -/

/-- No call is given up by a move. -/
theorem not_abandoned_of_perform? {m : Move} {place : Nat} {ticket : Ticket}
    (h : s.calls[place]? ≠ some (.registered ticket .abandoned)) (hm : s.perform? m = some t) :
    t.calls[place]? ≠ some (.registered ticket .abandoned) := by
  intro habandoned
  have hchange := (effect_perform? hm).callChange place
  rw [habandoned] at hchange
  generalize hcall : s.calls[place]? = call? at h hchange
  cases hchange with
  | kept => exact h rfl
  | entered issued => simp at issued
  | abandoned abandons => simp at abandons

/-- When moves alone have led to rest after a shutdown, every call that was outstanding at it has ended
with it. -/
theorem Course.ended_of_moves {place : Nat} {ticket : Ticket} {phase : Phase}
    (course : Course u.fresh (past ++ ⟨s, .command .shutDown, v⟩ :: later) t)
    (running : s.lifecycle = .running) (moves : ∀ c ∈ later, ∃ m, c.cause = .move m)
    (rest : t.next? = none) (stands : s.calls[place]? = some (.registered ticket phase))
    (live : phase.isLive = true) (unsettled : s.settlement? ticket = none) :
    t.calls[place]? = some (.registered ticket (.ended (.error .shutDown))) := by
  obtain ⟨-, hs, hstopped⟩ := course.stopped running
  obtain ⟨-, hbecomes, hlater⟩ := course.split
  rcases (hstopped.released stands live unsettled).ended hs.coheres (deliver?_of_rest rest) with
    hended | habandoned
  · exact hended
  · -- A shutdown gives no call up, nor does a move.
    have hfirst : v.calls[place]? ≠ some (.registered ticket .abandoned) := by
      obtain rfl : v = s.apply .shutDown := hbecomes
      obtain ⟨closing, writer, reader, events, heq⟩ := shutDown_frame s
      rw [heq, stands]
      intro h
      obtain ⟨-, rfl⟩ := Call.registered.inj (Option.some.inj h)
      simp [Phase.isLive] at live
    refine absurd habandoned (hlater.keeps
      (P := fun t => t.calls[place]? ≠ some (.registered ticket .abandoned)) hfirst
      fun c hc h becomes => ?_).2
    obtain ⟨m, hm⟩ := moves c hc
    rw [hm] at becomes
    exact not_abandoned_of_perform? h becomes

/-! ## The whole -/

/-- It is noted how many entries a shutdown has drained, and nothing else if the loops are given time. -/
theorem events_shutDown (running : s.lifecycle = .running) :
    ∃ stops, (s.apply .shutDown).events = s.events ++ .stopping s.registry.size :: stops ∧
      (0 < s.window → stops = []) := by
  by_cases grace : 0 < s.window
  · rw [shutDown_of_running running grace]
    exact ⟨[], rfl, fun _ => rfl⟩
  · -- Every step of the shutdown adds to the events.
    have hnoted : ∃ stops,
        (s.apply .shutDown).events = s.events ++ .stopping s.registry.size :: stops := by
      refine shutDown_keeps (P := fun t => ∃ stops,
        t.events = s.events ++ .stopping s.registry.size :: stops) running ⟨[], rfl⟩ ?_
      rintro v t ⟨stops, heq⟩ hclose
      cases closes_of_close? hclose with
      | writerGone | readerGone => exact ⟨stops, heq⟩
      | writerOverdue | readerOverdue =>
        exact ⟨stops ++ [_], by simp only [note]; rw [heq, List.append_assoc]; rfl⟩
    obtain ⟨stops, heq⟩ := hnoted
    exact ⟨stops, heq, fun hgrace => absurd hgrace grace⟩

/-- What follows from a shutdown that found the client running as `s` and left it as `v`, when the
changes `later` have led to `t` since. -/
structure AfterShutDown (s v : Session) (later : List Change) (t : Session) : Prop where
  /-- It is noted how many calls were outstanding, and nothing else if the loops are given time. -/
  noted : ∃ stops, v.events = s.events ++ .stopping s.outstanding.length :: stops ∧
    (0 < s.window → stops = [])
  /-- Moves alone, which take no time, lead to rest. -/
  settles : ∃ moves, Course v moves v.settle ∧ (∀ c ∈ moves, ∃ m, c.cause = .move m) ∧
    v.settle.next? = none ∧ v.settle.clock = s.clock
  /-- Whatever order they come in, every call that was outstanding has ended with the shutdown then. -/
  ended (moves : ∀ c ∈ later, ∃ m, c.cause = .move m) : t.clock = s.clock ∧
    (t.next? = none → ∀ (place : Nat) (ticket : Ticket) (phase : Phase),
      s.calls[place]? = some (.registered ticket phase) → phase.isLive = true →
        s.settlement? ticket = none →
          t.calls[place]? = some (.registered ticket (.ended (.error .shutDown))))
  /-- Whatever is done to the client instead, they end so unless their callers give them up. -/
  released (place : Nat) (ticket : Ticket) (phase : Phase)
    (stands : s.calls[place]? = some (.registered ticket phase)) (live : phase.isLive = true)
    (unsettled : s.settlement? ticket = none) :
    t.Released place ticket ∧ (t.next? = none →
      t.calls[place]? = some (.registered ticket (.ended (.error .shutDown))) ∨
        t.calls[place]? = some (.registered ticket .abandoned))
  /-- No call is outstanding from then on. -/
  empty : t.registry.size = 0
  /-- A call that is made later is refused, and nothing else happens. -/
  refused (c : Change) (hc : c ∈ later) (order : Order) (issued : c.cause = .command (.issue order)) :
    c.after = c.before.addCall (.refused .shutDown)
  /-- What is written is a beginning of what was owed. At rest it is all of it, unless a write has
  failed, the writer was given up, or the output is full and the writer will be given up later. -/
  written : ∃ written left, t.output.taken = s.output.taken ++ written ∧ s.owed = written ++ left ∧
    (t.next? = none → left = [] ∨ (∃ e ∈ t.events, e.isFailure = true) ∨ s.HeldUp t)
  /-- The writer is given up only when as much time has passed as a call waited when the shutdown
  began, and a client that has then done what it can does so only if the output is full. -/
  overdue (c : Change) (hc : c ∈ later) (closes : c.cause = .move .close)
    (alive : c.before.writer.isAlive = true) :
    s.clock + s.window ≤ c.before.clock ∧ c.after.writer = .lost ∧
      c.after.events = c.before.events ++ [.writerOverdue (Span.ofMillis s.window)] ∧
      (c.before.Makes .close c.after →
        (∃ r rest, c.before.writer = .writing r rest) ∧ c.before.output.isStuck = true)
  /-- When the writer is gone nothing more is written. -/
  silent (c : Change) (hc : c ∈ later) (gone : c.before.writer.isGone = true) :
    c.after.writer.isGone = true ∧ c.after.output.taken = c.before.output.taken
  /-- The output is shut down only when all that was owed is written. -/
  closed (c : Change) (hc : c ∈ later) (writes : c.cause = .move .write)
    (ready : c.before.writer = .ready) (gone : c.after.writer.isGone = true) :
    c.before.output.taken = s.output.taken ++ s.owed
  /-- At rest the shutdown is over, or the output holds the writer up. -/
  finished (rest : t.next? = none) : t.closing = .finished ∨ s.HeldUp t

/-- A shutdown of a client that runs releases every outstanding call at once, lets no further call in,
and has the writer write what it owed then and nothing else, for as long as a call waits at most. -/
theorem afterShutDown_of_course
    (course : Course u.fresh (past ++ ⟨s, .command .shutDown, v⟩ :: later) t)
    (running : s.lifecycle = .running) : AfterShutDown s v later t := by
  obtain ⟨hcourse, hbecomes, hlater⟩ := course.split
  obtain ⟨hbefore, hs, hstopped⟩ := course.stopped running
  have hclock : v.clock = s.clock := by
    obtain ⟨_, _, _, _, heq⟩ := shutDown_frame s
    rw [show v = s.apply .shutDown from hbecomes, heq]
  constructor
  case noted =>
    obtain rfl : v = s.apply .shutDown := hbecomes
    rw [← (hcourse.coheres (coheres_fresh u)).size_eq]
    exact events_shutDown running
  case settles =>
    obtain ⟨moves, hmoved, hmoves⟩ := course_run v.work v
    refine ⟨moves, hmoved, fun c hc => ?_, next?_settle v, (clock_settle v).trans hclock⟩
    obtain ⟨m, hm, -⟩ := hmoves c hc
    exact ⟨m, hm⟩
  case ended =>
    exact fun moves => ⟨(hlater.clock_of_moves moves).trans hclock,
      fun rest _ _ _ => course.ended_of_moves running moves rest⟩
  case released =>
    intro place ticket phase stands live unsettled
    have hreleased := hstopped.released stands live unsettled
    exact ⟨hreleased, fun rest => hreleased.ended hs.coheres (deliver?_of_rest rest)⟩
  case empty => exact hs.coheres.size_of_closed (hs.staged.shutDown hstopped.lifecycle)
  case refused =>
    intro c hc order issued
    have becomes := hlater.becomes hc
    rw [issued] at becomes
    rw [show c.after = c.before.issue order from becomes]
    exact issue_of_ne_running (by simp [(hbefore c hc).2.lifecycle]) order
  case written =>
    obtain ⟨written, left, hflushed⟩ := hstopped.flushed
    exact ⟨written, left, hflushed.taken, hflushed.owed, fun rest =>
      hstopped.flushed_of_rest hs rest hflushed⟩
  case overdue =>
    intro c hc closes alive
    have becomes := hlater.becomes hc
    rw [closes] at becomes
    obtain ⟨hsound, hstops⟩ := hbefore c hc
    exact hstops.overdue hsound becomes alive
  case silent =>
    intro c hc gone
    exact (hlater.becomes hc).gone_stays gone (by simp [(hbefore c hc).2.lifecycle])
  case closed =>
    intro c hc writes ready gone
    have becomes := hlater.becomes hc
    rw [writes] at becomes
    exact (hbefore c hc).2.taken_of_close ready becomes gone
  case finished => exact fun rest => hstopped.over_or_heldUp hs rest

/-- An output that takes sixty bytes holds up a shutdown that two calls are outstanding at: both have
ended when the client is at rest, and the rest of the second call's frame is still to be written. -/
theorem afterShutDown_of_course_full_output :
    ∃ past s v later t, Course (Setup.fresh { Setup.sample with room := some 60 })
        (past ++ ⟨s, .command .shutDown, v⟩ :: later) t ∧
      s.lifecycle = .running ∧ t.next? = none ∧ AfterShutDown s v later t ∧
      v.events = s.events ++ [.stopping 2] ∧ s.HeldUp t ∧
      t.outcomeAt? 0 = some (.error .shutDown) ∧ t.outcomeAt? 1 = some (.error .shutDown) := by
  obtain ⟨past, course, -⟩ := exists_course { Setup.sample with room := some 60 }
    [[.start], [.issue .sample, .issue .sample]]
  obtain ⟨moves, hmoved, -⟩ := course_run (Session.work (Session.apply _ .shutDown))
    (Session.apply _ .shutDown)
  have hshut := (course.snoc (becomes_apply _ .shutDown)).append hmoved
  rw [List.append_assoc, List.singleton_append] at hshut
  have hafter := afterShutDown_of_course hshut rfl
  obtain ⟨stops, hnoted, hnone⟩ := hafter.noted
  rw [hnone (by decide)] at hnoted
  refine ⟨past, _, _, moves, _, hshut, rfl, next?_settle _, hafter, hnoted, ?_, rfl, rfl⟩
  rcases hafter.finished (next?_settle _) with hfinished | hheld
  · -- The shutdown still waits for the writer.
    exact absurd hfinished (fun h => nomatch h)
  · exact hheld

end PipeCall.Session
