import PipeCall.Proofs.Session.SeenAlike
import PipeCall.Proofs.Session.Shutdown

/-!
# When the output fails

A write or a flush that fails while a client runs ends its writer (`Change.FailsToWrite`), and a client
that runs loses its writer in no other way (`Course.exists_failsToWrite`). The calls that wait for room
are told when they get their turn, if nothing has settled them by then, and so is every call that is
made later: a client that settles tells them before the clock moves (`Stranded`). A call that was taken
into the queue before sees nothing of it: its view, and the reader's side, go on as they would beside
an output that is fine (`Handed`, `SeenAlike`). `afterOutputFailed_of_course` says all that follows.
-/

namespace PipeCall.Session

variable {s t : Session} {past later : List Change} {e : Change} {u : Setup} {cause : Cause}
  {place : Nat} {ticket : Ticket}

/-! ## The failure -/

/-- A write or a flush fails while the client runs. -/
structure Change.FailsToWrite (e : Change) : Prop where
  writes : e.cause = .move .write
  running : e.before.lifecycle = .running
  fails : ∃ r rest reason output, e.before.writer = .writing r rest ∧
    e.before.output.send rest = (.failed reason, output)

/-- After it the writer is lost, and it was noted which request could not be written. -/
theorem Change.FailsToWrite.after (fails : e.FailsToWrite)
    (becomes : e.before.Becomes e.cause e.after) :
    ∃ output event, e.after =
      ({ e.before with writer := .lost, output } : Session).note event := by
  obtain ⟨r, rest, reason, output, hwriter, hsend⟩ := fails.fails
  rw [fails.writes] at becomes
  simp only [Becomes, perform?, write?, hwriter] at becomes
  split at becomes
  · simp at becomes
  · refine ⟨output, .outputFailed r.id r.method reason, ?_⟩
    rw [← Option.some.inj becomes]
    simp only [writeOn, hsend]

/-- A failure to write leaves the calls as they are. -/
theorem Change.FailsToWrite.calls (fails : e.FailsToWrite)
    (becomes : e.before.Becomes e.cause e.after) : e.after.calls = e.before.calls := by
  obtain ⟨output, event, heq⟩ := fails.after becomes
  rw [heq]
  rfl

/-- A writer that is there and is gone after it wrote has failed to write, if the client runs. -/
theorem failsToWrite_of_write? (h : s.write? = some t) (running : s.lifecycle = .running)
    (gone : t.writer.isGone = true) : Change.FailsToWrite ⟨s, .move .write, t⟩ := by
  cases writes_of_write? h with
  | sent | left | takes => simp [Writer.isGone] at gone
  | @failed r rest reason output writes room sends =>
    exact ⟨rfl, running, r, rest, reason, output, writes, sends⟩
  | passes ready => simp [note, ready, Writer.isGone] at gone
  | shuts ready empty closed =>
    -- The writer shuts the output down only when the queue is closed.
    simp [queueClosed, running] at closed

/-- A client that runs loses its writer only by failing to write. -/
theorem Becomes.failsToWrite (h : s.Becomes cause t) (hs : s.Staged)
    (alive : s.lifecycle = .running → s.writer.isAlive = true) (running : t.lifecycle = .running)
    (gone : t.writer.isGone = true) : Change.FailsToWrite ⟨s, cause, t⟩ := by
  cases h.stageChange with
  | started first =>
    obtain rfl : t = s.apply .start := h
    rw [start_of_eq first] at gone
    simp [note, Writer.isGone] at gone
  | shutDown shut => simp [shut] at running
  | kept same =>
    have hrunning := same.symm.trans running
    have halive := alive hrunning
    cases h.writerChange with
    | kept same =>
      rw [same.writer] at gone
      cases hw : s.writer <;> simp [hw, Writer.isGone, Writer.isAlive] at gone halive
    | started first => simp [first] at hrunning
    | declined absent => simp [absent, Writer.isAlive] at halive
    | wrote writes => exact failsToWrite_of_write? writes hrunning gone
    | cutOff _ shut => simp [shut] at running
    | givenUp closing =>
      have hshut := hs.closing closing
      simp [hrunning] at hshut

/-- A client that runs without its writer has failed to write. -/
theorem Course.exists_failsToWrite (course : Course u.fresh past s) (running : s.lifecycle = .running)
    (gone : s.writer.isGone = true) :
    ∃ earlier e later, past = earlier ++ e :: later ∧ e.FailsToWrite := by
  induction course with
  | nil => simp [Setup.fresh, new] at running
  | @snoc past s t cause course becomes ih =>
    by_cases halive : s.lifecycle = .running → s.writer.isAlive = true
    · exact ⟨past, _, [], rfl, becomes.failsToWrite course.staged halive running gone⟩
    · -- The writer was gone before.
      rw [Classical.not_imp] at halive
      obtain ⟨hrunning, hdead⟩ := halive
      have hgone := Writer.isGone_of_not_isAlive (course.staged.writer_ne_absent hrunning)
        (by simpa using hdead)
      obtain ⟨earlier, e, later, rfl, fails⟩ := ih hrunning hgone
      exact ⟨earlier, e, later ++ [⟨s, cause, t⟩], by simp, fails⟩

/-- After a write or a flush has failed the writer is gone, and nothing more is written. -/
theorem Course.gone_since (course : Course u.fresh (past ++ e :: later) s) (fails : e.FailsToWrite) :
    (∀ c ∈ later, c.before.writer.isGone = true ∧ c.before.lifecycle ≠ .notStarted) ∧
      s.writer.isGone = true ∧ s.output.taken = e.after.output.taken := by
  obtain ⟨output, event, heq⟩ := fails.after course.split.2.1
  have hgone : e.after.writer.isGone = true ∧ e.after.lifecycle ≠ .notStarted := by
    rw [heq]
    exact ⟨rfl, by simp [note, fails.running]⟩
  obtain ⟨hlater, hwriter, -, htaken⟩ := course.since
    (P := fun t => t.writer.isGone = true ∧ t.lifecycle ≠ .notStarted ∧
      t.output.taken = e.after.output.taken) ⟨hgone.1, hgone.2, rfl⟩
    fun becomes h => by
      obtain ⟨hstays, htaken⟩ := becomes.gone_stays h.1 h.2.1
      exact ⟨hstays, becomes.started h.2.1, htaken.trans h.2.2⟩
  exact ⟨fun c hc => ⟨(hlater c hc).1, (hlater c hc).2.1⟩, hwriter, htaken⟩

/-! ## Calls that wait for room -/

/-- The call was told that there is no writer, or is told before anything can settle it. -/
structure Stranded (s : Session) (place : Nat) (ticket : Ticket) : Prop where
  sound : s.Sound
  started : s.lifecycle ≠ .notStarted
  gone : s.writer.isGone = true
  call : s.calls[place]? = some (.registered ticket (.ended (.error noWriter))) ∨
    s.calls[place]? = some (.registered ticket .waiting) ∧
      s.registry.slots[ticket.slot]? = some .waiting ∧ s.clock < ticket.deadline

/-- A call comes into the queue only while there is a writer. -/
theorem Becomes.alive_of_queued (h : s.Becomes cause t)
    (waits : s.calls[place]? = some (.registered ticket .waiting))
    (queued : t.calls[place]? = some (.registered ticket .queued)) : s.writer.isAlive = true := by
  have hchange := h.effect.callChange place
  rw [waits, queued] at hchange
  cases hchange with
  | queued admits =>
    rcases admits with rfl | rfl
    · exact (refill?_eq_some h).1
    · cases turns_of_turn? h with
      | enters _ _ alive => exact alive
      | ends stands =>
        -- A call that ends by its turn is not in the queue then.
        obtain ⟨hlt, -⟩ := List.getElem?_eq_some_iff.1 stands
        simp only [endAt] at queued
        rw [List.getElem?_set_self hlt] at queued
        simp at queued

/-- A writer that is gone is not there. -/
theorem Writer.not_isAlive_of_isGone {w : Writer} (h : w.isGone = true) : w.isAlive = false := by
  cases w <;> simp [Writer.isGone, Writer.isAlive] at h ⊢

/-- A call that has ended stays as it is. -/
theorem CallChange.ended_stays {outcome : Outcome} {call? : Option Call}
    (h : CallChange s cause place (some (.registered ticket (.ended outcome))) call?) :
    call? = some (.registered ticket (.ended outcome)) := by
  cases h with
  | kept => rfl
  | ended _ live => simp [Phase.isLive] at live
  | abandoned _ live => simp [Phase.isLive] at live

/-- A call stays stranded while the client goes on by itself. -/
theorem Stranded.makes (h : s.Stranded place ticket) {m : Move} (makes : s.Makes m t) :
    t.Stranded place ticket := by
  have hbecomes := becomes_of_perform? makes.perform?
  refine ⟨h.sound.becomes hbecomes, hbecomes.started h.started,
    (hbecomes.gone_stays h.gone h.started).1, ?_⟩
  have hchange := hbecomes.effect.callChange place
  rcases h.call with hended | ⟨hstands, hslot, hearly⟩
  · rw [hended] at hchange
    exact Or.inl hchange.ended_stays
  · -- The reader has to wait until the call is refused, so nothing reaches the call's slot.
    have hreads : m ∉ Move.reading := fun hm => by
      have hcalm := (makes.reading hm).1
      exact refuse?_ne_none (hcalm.perform? (m := .deliver) (by simp [Move.core])) h.gone hstands
        (hcalm.perform? (m := .refuse) (by simp [Move.core]))
    have hslots := hbecomes.effect.slotChange h.sound.coheres ticket.slot
    have hclock := clock_of_perform? makes.perform?
    have hcoheres := (h.sound.becomes hbecomes).coheres
    rw [hstands] at hchange
    rw [hslot] at hslots
    generalize hcall : t.calls[place]? = call? at hchange ⊢
    cases hchange with
    | kept =>
      refine Or.inr ⟨rfl, ?_, by rw [hclock]; exact hearly⟩
      generalize hafter : t.registry.slots[ticket.slot]? = slot? at hslots
      cases hslots with
      | kept => rfl
      | replied resolves =>
        obtain rfl := Cause.move.inj resolves
        obtain rfl := makes.resolve_first
        exact absurd (by simp [Move.reading]) hreads
      | drained drains =>
        rcases drains with hcommand | hleave
        · simp at hcommand
        · obtain rfl := Cause.move.inj hleave
          exact absurd (by simp [Move.reading]) hreads
      | dropped =>
        -- A call that is still going on has not dropped its slot.
        obtain ⟨slot, hthere, hfits⟩ := Coherent.fits hcoheres hcall
        rw [hafter] at hthere
        obtain rfl := Option.some.inj hthere
        simp [Phase.Fits, Phase.isLive] at hfits
    | queued =>
      have halive := hbecomes.alive_of_queued hstands hcall
      simp [Writer.not_isAlive_of_isGone h.gone] at halive
    | ended moved live grounds =>
      cases grounds with
      | settled settled =>
        rw [settlement?_eq_some_iff, hslot] at settled
        simp at settled
      | expired _ late => omega
      | cutOff => exact Or.inl rfl
    | abandoned abandons => simp at abandons

/-- A stranded call has been told when the client has settled. -/
theorem Stranded.settle (h : s.Stranded place ticket) :
    s.settle.calls[place]? = some (.registered ticket (.ended (.error noWriter))) := by
  have hsettled : s.settle.Stranded place ticket :=
    run_keeps (P := fun t => t.Stranded place ticket) (fun makes h => h.makes makes) _ h
  rcases hsettled.call with hended | ⟨hstands, -⟩
  · exact hended
  · have hrest := next?_settle s
    exact absurd (perform?_of_rest hrest .refuse)
      (refuse?_ne_none (deliver?_of_rest hrest) hsettled.gone hstands)

/-- A call that waits for room when the output fails is stranded, if nothing has settled it and its time
is not up. -/
theorem Change.FailsToWrite.stranded (fails : e.FailsToWrite) (hs : e.before.Sound)
    (becomes : e.before.Becomes e.cause e.after)
    (stands : e.before.calls[place]? = some (.registered ticket .waiting))
    (unsettled : e.before.settlement? ticket = none) (early : e.before.clock < ticket.deadline) :
    e.after.Stranded place ticket := by
  have hwaits := waiting_of_unsettled hs.coheres stands rfl unsettled
  have hsound : e.after.Sound := hs.becomes becomes
  obtain ⟨output, event, heq⟩ := fails.after becomes
  refine ⟨hsound, ?_, ?_, Or.inr ⟨?_, ?_, ?_⟩⟩ <;> rw [heq]
  · simp [note, fails.running]
  · rfl
  · exact stands
  · exact hwaits
  · exact early

/-- A client that writes only when no call can end by itself has no call then that is settled or out of
time. -/
theorem Makes.on_time {phase : Phase} (makes : s.Makes .write t)
    (stands : s.calls[place]? = some (.registered ticket phase)) (live : phase.isLive = true) :
    s.settlement? ticket = none ∧ s.clock < ticket.deadline := by
  have hnone := makes.preferred
    (show Move.order = [.deliver, .expire, .refuse] ++ .write :: _ from rfl) (by simp)
  have hdeliver : s.deliver? = none := hnone .deliver (by simp)
  have hexpire : s.expire? = none := hnone .expire (by simp)
  exact ⟨settlement?_of_deliver?_eq_none hdeliver stands live,
    lt_deadline_of_expire?_eq_none hdeliver hexpire stands live⟩

/-- A call that is over is not outstanding. -/
theorem Coheres.not_mem_ids (hs : s.Coheres) {phase : Phase}
    (stands : s.calls[place]? = some (.registered ticket phase)) (ended : phase.isLive = false) :
    ticket.id ∉ s.registry.ids := by
  intro hmem
  obtain ⟨slot, hslot, hfits⟩ := Coherent.fits hs stands
  obtain ⟨k, hid, hwaits⟩ := hs.numbered.mem_ids.1 hmem
  have hnumber := Coherent.id_of_stands hs stands
  obtain rfl : k = ticket.slot := by omega
  rw [hwaits] at hslot
  obtain rfl := Option.some.inj hslot
  rw [show phase.isLive = true from hfits] at ended
  simp at ended

/-- What can have become of a call that waited for room when the output failed, if `later` has happened
since: it is told that there is no writer, unless it has a settlement to take when it gets its turn, is
out of time by then, or was given up. -/
inductive LeftOut (later : List Change) (place : Nat) (ticket : Ticket) : Phase → Prop where
  | waits : LeftOut later place ticket .waiting
  | told : LeftOut later place ticket (.ended (.error noWriter))
  | settled {c : Change} {settlement : Settlement} (since : c ∈ later)
      (ends : c.Concludes place (outcomeOf ticket.shape settlement))
      (came : c.before.settlement? ticket = some settlement) :
      LeftOut later place ticket (.ended (outcomeOf ticket.shape settlement))
  | timedOut {c : Change} (since : c ∈ later)
      (ends : c.Concludes place (.error (.timeout (Span.ofMillis ticket.window))))
      (late : ticket.deadline ≤ c.before.clock) :
      LeftOut later place ticket (.ended (.error (.timeout (Span.ofMillis ticket.window))))
  | abandoned : LeftOut later place ticket .abandoned

/-- A call is left out of the queue of a client without a writer, whatever happens. -/
theorem LeftOut.becomes {phase : Phase} (h : LeftOut later place ticket phase)
    (becomes : s.Becomes cause t) (since : ⟨s, cause, t⟩ ∈ later) (gone : s.writer.isGone = true)
    (stands : s.calls[place]? = some (.registered ticket phase)) :
    ∃ phase', t.calls[place]? = some (.registered ticket phase') ∧
      LeftOut later place ticket phase' := by
  have hchange := becomes.effect.callChange place
  rw [stands] at hchange
  generalize hcall : t.calls[place]? = call? at hchange
  cases hchange with
  | kept => exact ⟨phase, rfl, h⟩
  | queued =>
    have halive := becomes.alive_of_queued stands hcall
    simp [Writer.not_isAlive_of_isGone gone] at halive
  | @ended _ _ _ outcome moved live grounds =>
    have hends : Change.Concludes ⟨s, cause, t⟩ place outcome :=
      ⟨by simp [outcomeAt?, stands, Call.outcome?_of_isLive live], by simp [outcomeAt?, hcall]⟩
    refine ⟨_, rfl, ?_⟩
    cases grounds with
    | settled came => exact .settled since hends came
    | expired _ late => exact .timedOut since hends late
    | cutOff => exact .told
  | abandoned => exact ⟨_, rfl, .abandoned⟩

/-- A call that waited for room when the output failed is left out. -/
theorem Course.leftOut (course : Course u.fresh (past ++ e :: later) s) (fails : e.FailsToWrite)
    (stands : e.before.calls[place]? = some (.registered ticket .waiting)) :
    ∃ phase, s.calls[place]? = some (.registered ticket phase) ∧
      LeftOut later place ticket phase := by
  obtain ⟨-, hbecomes, hlater⟩ := course.split
  obtain ⟨hgone, -⟩ := course.gone_since fails
  have hafter : e.after.calls[place]? = some (.registered ticket .waiting) := by
    rw [fails.calls hbecomes]
    exact stands
  exact (hlater.keeps (P := fun t => ∃ phase, t.calls[place]? = some (.registered ticket phase) ∧
    LeftOut later place ticket phase) ⟨_, hafter, .waits⟩ fun c hc ⟨phase, hstands, hleft⟩ becomes =>
      hleft.becomes becomes hc (hgone c hc).1 hstands).2

/-! ## Calls that are made later -/

/-- A call that is made without a writer, while the registry is open, ends at once and leaves the
registry and the queue as they were. -/
theorem issue_of_gone (hs : s.Coheres) (running : s.lifecycle = .running)
    (opened : s.registry.closed = false) (gone : s.writer.isAlive = false) {order : Order}
    {params : Json} (writable : order.params = some params) :
    (s.issue order).calls = s.calls ++
        [.registered (s.ticketFor order params s.registry.slots.length) (.ended (.error noWriter))] ∧
      (s.issue order).registry.entries = s.registry.entries ∧
      (s.issue order).queue = s.queue ∧ (s.issue order).clock = s.clock := by
  have hnew : s.ids.take.1 ∉ s.registry.ids := by
    rw [show s.ids.take.1 = s.registry.slots.length + 1 from hs.next_eq opened]
    exact hs.numbered.next_not_mem
  have hregister := Registry.register_of_open opened hnew
  let ticket := s.ticketFor order params s.registry.slots.length
  let entered : Session := { s with registry := s.registry.enter s.ids.take.1 }
  have hissue : s.issue order =
      ({ s with ids := s.ids.take.2, registry := entered.unregister ticket } : Session).addCall
        (.registered ticket (.ended (.error noWriter))) := by
    simp only [issue, running, writable, hregister, enqueue, gone, Bool.not_false, if_true]
    rfl
  have hentries : (entered.unregister ticket).entries = s.registry.entries := by
    rw [unregister, Registry.entries_release, Registry.entries_cancel]
    exact Registry.entries_remove_enter hnew
  rw [hissue]
  exact ⟨rfl, hentries, rfl, rfl⟩

/-! ## Calls that are in the queue -/

/-- What becomes of a call that was taken into the queue before `e`, when the changes `later` have led
on to `s`. -/
structure Unharmed (past : List Change) (e : Change) (later : List Change) (s : Session) (place : Nat)
    (ticket : Ticket) : Prop where
  stays : ∃ phase, s.calls[place]? = some (.registered ticket phase) ∧ phase ≠ .waiting
  /-- It is outstanding as long as it is still going on and nothing has settled it. -/
  outstanding (stands : s.calls[place]? = some (.registered ticket .queued)) :
    (ticket.id, ticket.slot) ∈ s.registry.entries ∨
      ∃ settlement, s.settlement? ticket = some settlement
  /-- It ends on the grounds on which any call ends, but not for want of a writer. -/
  ends (o : Outcome) (out : s.outcomeAt? place = some o) :
    o ≠ .error noWriter ∧ ∃ earlier c rest, later = earlier ++ c :: rest ∧ c.Concludes place o ∧
      Justified (past ++ e :: earlier) c place o
  /-- A reply that the reader hands over while the call is outstanding gets to it. -/
  delivered (rest : s.next? = none) (earlier : List Change) (c : Change) (since : List Change)
    (split : later = earlier ++ c :: since) (reply : Reply) (hands : c.HandsOver ticket.id reply)
    (outstanding : (ticket.id, ticket.slot) ∈ c.before.registry.entries) :
    s.calls[place]? = some (.registered ticket .abandoned) ∨
      ∃ o, s.calls[place]? = some (.registered ticket (.ended o)) ∧
        Answer (fun r => ∃ d ∈ past ++ e :: later, d.HandsOver ticket.id r) since place ticket o

/-- A call that is in the queue waits for room no longer. -/
theorem handed_of_queued (hs : s.Equipped)
    (stands : s.calls[place]? = some (.registered ticket .queued)) : s.Handed place ticket :=
  ⟨hs, .queued, stands, by simp⟩

/-- A client that runs is equipped. -/
theorem Course.equipped (course : Course u.fresh past s) (running : s.lifecycle = .running) :
    s.Equipped :=
  ⟨(course.sound (sound_fresh u)).2, course.reader_ne_absent running⟩

/-- A call that has come out, and was still going on at first, has ended by a change since. -/
theorem Course.concludes_since {o : Outcome} (course : Course s later t)
    (going : s.outcomeAt? place = none) (out : t.outcomeAt? place = some o) :
    ∃ earlier c rest, later = earlier ++ c :: rest ∧ c.Concludes place o := by
  induction course with
  | nil => simp [going] at out
  | @snoc past v w cause course becomes ih =>
    cases hbefore : v.outcomeAt? place with
    | none => exact ⟨past, _, [], rfl, hbefore, out⟩
    | some o' =>
      have hsame := becomes.outcome hbefore
      rw [out] at hsame
      obtain rfl := Option.some.inj hsame
      obtain ⟨earlier, c, rest, rfl, ends⟩ := ih hbefore
      exact ⟨earlier, c, rest ++ [⟨v, cause, w⟩], by simp, ends⟩

/-- A call that was in the queue when the output failed is not harmed. -/
theorem Course.unharmed (course : Course u.fresh (past ++ e :: later) s) (fails : e.FailsToWrite)
    (stands : e.before.calls[place]? = some (.registered ticket .queued)) :
    Unharmed past e later s place ticket := by
  obtain ⟨hpast, hbecomes, hlater⟩ := course.split
  have hafter : e.after.calls[place]? = some (.registered ticket .queued) := by
    rw [fails.calls hbecomes]
    exact stands
  have hequipped := (hpast.equipped fails.running).becomes hbecomes
  have hs : s.Handed place ticket :=
    (course.since (P := fun t => t.Handed place ticket) (handed_of_queued hequipped hafter)
      fun becomes h => h.becomes becomes).2
  refine ⟨hs.stands, fun hqueued => ?_, fun o out => ?_, ?_⟩
  · obtain ⟨slot, hslot, hfits⟩ := Coherent.fits hs.sound.coheres hqueued
    cases slot with
    | waiting => exact Or.inl ((Coherent.mem_entries_iff hs.sound.coheres hqueued).2 hslot)
    | settled settlement => exact Or.inr ⟨settlement, settlement?_eq_some_iff.2 hslot⟩
    | closed => exact hfits.elim
    | dropped => simp [Phase.Fits, Phase.isLive] at hfits
  · have hgoing : e.after.outcomeAt? place = none := by
      rw [outcomeAt?, hafter]
      rfl
    obtain ⟨earlier, c, rest, rfl, ends⟩ := hlater.concludes_since hgoing out
    rw [← List.cons_append, ← List.append_assoc] at course
    obtain ⟨hto, hends, -⟩ := course.split
    have hjustified := hto.justified hends ends
    refine ⟨?_, earlier, c, rest, rfl, ends, hjustified⟩
    -- Only a call that was never in the queue finds no writer.
    rintro rfl
    obtain ⟨-, -, -, hnever⟩ := hjustified
    exact hnever ⟨e, by simp, ticket, hafter⟩
  · intro rest earlier c since split reply hands outstanding
    obtain ⟨phase, hstands, -⟩ := hs.stands
    have hsplit : past ++ e :: later = (past ++ e :: earlier) ++ c :: since := by simp [split]
    rw [hsplit] at course ⊢
    rw [hstands]
    rcases (course.handled hands outstanding hstands).ended_of_rest hs.sound rest hstands with
      rfl | ⟨o, rfl, hanswer⟩
    · exact Or.inl rfl
    · exact Or.inr ⟨o, rfl, hanswer⟩

/-! ## The whole -/

/-- Whatever one client goes through, short of giving its reader up, another can go through when it is
given the same commands, as far as the reader and some calls see it. -/
def Mirrors (Q : Nat → Ticket → Prop) (s t : Session) : Prop :=
  ∀ h s', Course s h s' → KeepsReader h → ∃ h' t', Course t h' t' ∧ commandsOf h' = commandsOf h ∧
    s'.readerSide = t'.readerSide ∧
      ∀ (place : Nat) (ticket : Ticket), Q place ticket → s'.view place ticket = t'.view place ticket

/-- Clients that are seen alike mirror each other. -/
theorem SeenAlike.mirrors {Q : Nat → Ticket → Prop} (h : SeenAlike Q s t) : Mirrors Q s t := by
  intro past s' course keeps
  obtain ⟨h', t', hcourse, hcommands, hseen⟩ := course.seenAlike keeps h
  exact ⟨h', t', hcourse, hcommands, hseen.side, fun _ _ q => hseen.view q⟩

/-- What follows from a failure to write of a client that runs, when the changes `later` have led to
`s` since. -/
structure AfterOutputFailed (past : List Change) (e : Change) (later : List Change) (s : Session) :
    Prop where
  /-- Nothing more is written. -/
  silent : s.writer.isGone = true ∧ s.output.taken = e.after.output.taken
  /-- A call that waited for room never comes into the queue. It is told that there is no writer by its
  next turn, unless something has settled it by then, its time is up or it was given up, and it is not
  outstanding from then on; at rest it has had its turn. -/
  waited (place : Nat) (ticket : Ticket)
    (stands : e.before.calls[place]? = some (.registered ticket .waiting)) :
    ∃ phase, s.calls[place]? = some (.registered ticket phase) ∧ LeftOut later place ticket phase ∧
      (phase.isLive = false → ticket.id ∉ s.registry.ids) ∧ (s.next? = none → phase.isLive = false)
  /-- If nothing has settled it and its time is not up, the client tells it before the clock moves and
  before it does anything with the input, and nothing changes that. -/
  told (place : Nat) (ticket : Ticket)
    (stands : e.before.calls[place]? = some (.registered ticket .waiting))
    (unsettled : e.before.settlement? ticket = none) (early : e.before.clock < ticket.deadline) :
    e.after.settle.clock = e.before.clock ∧ ∀ h t, Course e.after.settle h t →
      t.calls[place]? = some (.registered ticket (.ended (.error noWriter))) ∧
        ticket.id ∉ t.registry.ids
  /-- This is so of every call that waits, if the client writes only when no call can end. -/
  on_time (makes : e.before.Makes .write e.after) (place : Nat) (ticket : Ticket) (phase : Phase)
    (stands : e.before.calls[place]? = some (.registered ticket phase)) (live : phase.isLive = true) :
    e.before.settlement? ticket = none ∧ e.before.clock < ticket.deadline
  /-- A call that is made later while the registry is open is told so at once, and it is not left
  there. -/
  issued (c : Change) (hc : c ∈ later) (order : Order) (params : Json)
    (issues : c.cause = .command (.issue order)) (opened : c.before.registry.closed = false)
    (writable : order.params = some params) :
    c.after.calls = c.before.calls ++ [.registered
        (c.before.ticketFor order params c.before.registry.slots.length) (.ended (.error noWriter))] ∧
      c.after.registry.entries = c.before.registry.entries ∧ c.after.queue = c.before.queue ∧
      c.after.clock = c.before.clock
  /-- A call whose parameters cannot be written ends at once because of them. -/
  unwritable (c : Change) (hc : c ∈ later) (order : Order)
    (issues : c.cause = .command (.issue order)) (opened : c.before.registry.closed = false)
    (unwritable : order.params = none) : c.after = c.before.addCall (.refused .serialization)
  queued (place : Nat) (ticket : Ticket)
    (stands : e.before.calls[place]? = some (.registered ticket .queued)) :
    Unharmed past e later s place ticket
  /-- The reader, and every call that was in the queue, go through the same as they could with any
  other output, if the same is done to the client. -/
  mirrored (output : Output) :
    let Queued (place : Nat) (ticket : Ticket) : Prop :=
      e.before.calls[place]? = some (.registered ticket .queued)
    Mirrors Queued e.after { e.before with output } ∧ Mirrors Queued { e.before with output } e.after
  /-- When both clients settle after each step they have come to the same. -/
  alike (output : Output) (steps : List (List Command)) :
    let failed := steps.foldl step e.after.settle
    let fine := steps.foldl step (settle { e.before with output })
    failed.readerSide = fine.readerSide ∧
      ∀ (place : Nat) (ticket : Ticket),
        e.before.calls[place]? = some (.registered ticket .queued) →
        failed.view place ticket = fine.view place ticket

/-- Another output makes no difference to what a client that is equipped has to be. -/
theorem Equipped.withOutput (h : s.Equipped) (output : Output) :
    Equipped { s with output } where
  sound := ⟨h.sound.coheres, ⟨h.sound.staged.started, h.sound.staged.absent, h.sound.staged.running,
    h.sound.staged.shutDown, h.sound.staged.closing⟩⟩
  reader := h.reader

/-- The calls that are in the queue see nothing of a failure to write. -/
theorem Change.FailsToWrite.seenAlike (fails : e.FailsToWrite) (hs : e.before.Equipped)
    (becomes : e.before.Becomes e.cause e.after) (output : Output) :
    SeenAlike (fun place ticket => e.before.calls[place]? = some (.registered ticket .queued)) e.after
      { e.before with output } := by
  have hafter := hs.becomes becomes
  have hfine := hs.withOutput output
  have hcalls := fails.calls becomes
  obtain ⟨output', event, heq⟩ := fails.after becomes
  have hside : e.after.readerSide = Session.readerSide { e.before with output } := by
    rw [heq]
    rfl
  refine ⟨hafter, hfine, hside, fun stands => handed_of_queued hafter (hcalls ▸ stands),
    fun stands => handed_of_queued hfine stands, fun {place ticket} _ => ?_⟩
  rw [heq]
  rfl

/-- A client runs, without a writer, when a call is made since and its registry is open. -/
theorem Course.issue_since {c : Change} {order : Order}
    (course : Course u.fresh (past ++ e :: later) s) (fails : e.FailsToWrite) (hc : c ∈ later)
    (issues : c.cause = .command (.issue order)) (opened : c.before.registry.closed = false) :
    c.after = c.before.issue order ∧ c.before.lifecycle = .running ∧ c.before.Coheres ∧
      c.before.writer.isAlive = false := by
  obtain ⟨earlier, hearlier, becomes⟩ :=
    course.of_mem (List.mem_append_right _ (List.mem_cons_of_mem _ hc))
  obtain ⟨hgone, hstarted⟩ := (course.gone_since fails).1 c hc
  rw [issues] at becomes
  refine ⟨becomes, ?_, hearlier.coheres (coheres_fresh u), Writer.not_isAlive_of_isGone hgone⟩
  cases hstage : c.before.lifecycle with
  | notStarted => exact absurd hstage hstarted
  | running => rfl
  | shutDown => simp [hearlier.staged.shutDown hstage] at opened

/-- A call that has ended stays as it is. -/
theorem Course.ended_stays {o : Outcome} (course : Course s later t)
    (ended : s.calls[place]? = some (.registered ticket (.ended o))) :
    t.calls[place]? = some (.registered ticket (.ended o)) := by
  refine (course.keeps (P := fun t => t.calls[place]? = some (.registered ticket (.ended o))) ended
    fun c _ h becomes => ?_).2
  have hchange := becomes.effect.callChange place
  rw [h] at hchange
  exact hchange.ended_stays

/-- After a write or a flush has failed nothing more is written, a call without a place in the queue is
told so before the clock moves, and a call that has one goes on as if the output were fine. -/
theorem afterOutputFailed_of_course (course : Course u.fresh (past ++ e :: later) s)
    (fails : e.FailsToWrite) : AfterOutputFailed past e later s := by
  obtain ⟨hpast, hbecomes, hlater⟩ := course.split
  have hbefore := hpast.equipped fails.running
  have hafter := hbefore.becomes hbecomes
  have hs := (course.sound (sound_fresh u)).2
  constructor
  case silent => exact (course.gone_since fails).2
  case waited =>
    intro place ticket stands
    obtain ⟨phase, hstands, hleft⟩ := course.leftOut fails stands
    refine ⟨phase, hstands, hleft, fun hover => hs.coheres.not_mem_ids hstands hover, fun rest => ?_⟩
    cases hleft with
    | waits =>
      -- At rest it would have been refused.
      exact absurd (perform?_of_rest rest .refuse)
        (refuse?_ne_none (deliver?_of_rest rest) (course.gone_since fails).2.1 hstands)
    | told | settled | timedOut | abandoned => rfl
  case told =>
    intro place ticket stands unsettled early
    have hended := (fails.stranded hbefore.sound hbecomes stands unsettled early).settle
    have hsettled := autonomous_readerSide.fit_settle hafter
    refine ⟨?_, fun h t hcourse => ?_⟩
    · obtain ⟨output, event, heq⟩ := fails.after hbecomes
      rw [clock_settle, heq]
      rfl
    · have hstays := hcourse.ended_stays hended
      exact ⟨hstays, (hcourse.sound hsettled.sound).2.coheres.not_mem_ids hstays rfl⟩
  case on_time => exact fun makes _ _ _ stands live => makes.on_time stands live
  case issued =>
    intro c hc order params issues opened writable
    obtain ⟨hissue, hrunning, hcoheres, hdead⟩ := course.issue_since fails hc issues opened
    rw [hissue]
    exact issue_of_gone hcoheres hrunning opened hdead writable
  case unwritable =>
    intro c hc order issues opened unwritable
    obtain ⟨hissue, hrunning, -, -⟩ := course.issue_since fails hc issues opened
    rw [hissue]
    simp only [issue, hrunning, unwritable]
  case queued => exact fun place ticket stands => course.unharmed fails stands
  case mirrored =>
    intro output
    have hseen := fails.seenAlike hbefore hbecomes output
    exact ⟨hseen.mirrors, hseen.symm.mirrors⟩
  case alike =>
    intro output steps
    have hseen := fails.seenAlike hbefore hbecomes output
    exact ⟨autonomous_readerSide.settled_steps hseen.equipped hseen.equipped' hseen.side steps,
      fun place ticket stands => (autonomous_view place ticket).settled_steps (hseen.handed stands)
        (hseen.handed' stands) (hseen.view stands) steps⟩

/-- Of two calls that were made before the output fails after five bytes, one gets its reply and the
other waits for its ten milliseconds; one that is made after that finds no writer. -/
theorem afterOutputFailed_of_course_reply_and_timeout :
    ∃ past e later s,
      Course (Setup.fresh { Setup.sample with room := some 5 }) (past ++ e :: later) s ∧
      e.FailsToWrite ∧ AfterOutputFailed past e later s ∧ s.output.taken.length = 5 ∧
      s.outcomeAt? 0 = some (.ok (.bool true)) ∧
      s.outcomeAt? 1 = some (.error (.timeout (Span.ofMillis 10))) ∧
      s.outcomeAt? 2 = some (.error noWriter) := by
  obtain ⟨h, course, -⟩ := exists_course { Setup.sample with room := some 5 }
    [[.start], [.issue .sample, .issue .sample], [.failOutput "gone"], [.send sampleReply],
      [.issue .sample], [.advance 10]]
  obtain ⟨past, e, later, rfl, fails⟩ := course.exists_failsToWrite rfl rfl
  exact ⟨past, e, later, _, course, fails, afterOutputFailed_of_course course fails, rfl, rfl, rfl,
    rfl⟩

/-- A call whose parameters cannot be written is not told that there is no writer, though the registry
is open and the client runs: it ends because of its parameters. -/
theorem unwritable_after_output_failed :
    let failed := [[.start], [.failOutput "gone"], [.issue .sample]].foldl step Setup.sample.fresh
    failed.lifecycle = .running ∧ failed.writer = .lost ∧ failed.registry.closed = false ∧
      (failed.step [.issue ⟨"m", none, .value⟩]).outcomeAt? 1 = some (.error .serialization) :=
  ⟨rfl, rfl, rfl, rfl⟩

end PipeCall.Session
