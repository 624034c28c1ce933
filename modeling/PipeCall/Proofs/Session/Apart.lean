import PipeCall.Proofs.Frame.Intake
import PipeCall.Proofs.Session.Alike

/-!
# Clients that have been sent different bytes

Two clients are `Apart` if they are the same but for what has arrived: after the same bytes, which
end with a whole segment, one has been sent the segments `as` and the other the segments `bs`, and
then both the same again; and neither has read any of that. They stay apart, or come to be alike,
through everything that is done to both (`Apart.apply`, `Apart.settle`), up to the moment when they
run with their readers reading: then what becomes of them is a matter of what they hear
(`Rejoins`).
-/

namespace PipeCall

namespace Session

open PipeCall.Frame (findDelimiter? split join delimiter)
open Bytes (lineFeed)

variable {s t : Session} {u : Setup} {cause : Cause} {bytes : Bytes}

/-! ## What was sent -/

/-- The bytes that a command sends to the client. -/
def Command.sent : Command → Bytes
  | .send bs => bs
  | _ => []

/-- The bytes that some commands send to the client. -/
def sent (commands : List Command) : Bytes := commands.flatMap Command.sent

/-- The bytes that a change brings. -/
def Cause.sent : Cause → Bytes
  | .command c => c.sent
  | .move _ => []

/-- These bytes were sent to the client: the decoder is done with some segments of them, and the
rest is unread, in the decoder and on the input. -/
structure Fed (u : Setup) (bytes : Bytes) (k : Frame.Intake) : Prop where
  limit : k.decoder.limit = u.limit
  chunk : k.input.chunk = u.chunk
  unread : ∃ done held, bytes = join done ++ (held ++ k.input.arrived) ∧
    (∀ b ∈ done, findDelimiter? (b ++ [lineFeed]) = none) ∧ k.decoder.Tracks held

/-- A pull moves bytes on. -/
theorem Fed.pull {k : Frame.Intake} (h : Fed u bytes k) : Fed u bytes k.pull.2 := by
  obtain ⟨hlimit, hchunk, hcarries⟩ := Frame.Intake.Carries.pull h.unread
  exact ⟨hlimit.trans h.limit, hchunk.trans h.chunk, hcarries⟩

/-- A read is a pull, unless the client is shut down. -/
theorem intake_of_read? (h : s.read? = some t) :
    t.intake = s.intake ∨ t.intake = s.intake.pull.2 := by
  obtain ⟨-, hreads⟩ := reads_of_read? h
  cases hreads with
  | stops => exact Or.inl rfl
  | @frame body intake may hpull =>
    obtain ⟨_, _, heq⟩ := dispatch_frame { s with intake } body
    exact Or.inr (by rw [heq, hpull])
  | refused may hpull | buffered may hpull | failed may hpull | ended may hpull =>
    exact Or.inr (congrArg Prod.snd hpull).symm

/-- A command adds what it sends to what has arrived. -/
theorem Command.feeds_eq (c : Command) (i : Input) :
    (c.feeds i).arrived = i.arrived ++ c.sent ∧ (c.feeds i).chunk = i.chunk ∧
      { c.feeds i with arrived := [] } =
        { c.feeds { i with arrived := [] } with arrived := [] } := by
  cases c <;> exact ⟨by simp [feeds, sent], rfl, rfl⟩

/-- What is known of a client that has been sent these bytes. -/
structure Reached (u : Setup) (bytes : Bytes) (s : Session) : Prop where
  sound : s.Sound
  /-- A client that was not started has no reader. -/
  unstarted : s.lifecycle = .notStarted → s.reader = .absent
  fed : Fed u bytes s.intake

/-- No shutdown goes on before one was asked for. -/
theorem Sound.closing_eq_none (h : s.Sound) (up : s.lifecycle ≠ .shutDown) : s.closing = .none := by
  by_contra hsome
  exact up (h.staged.closing hsome)

/-- A client that was not started gets no reader by any change. -/
theorem Becomes.unstarted (h : s.Becomes cause t) (hs : s.Sound)
    (absent : s.lifecycle = .notStarted → s.reader = .absent) (hfirst : t.lifecycle = .notStarted) :
    t.reader = .absent := by
  have hbefore : s.lifecycle = .notStarted := by
    by_contra hstarted
    exact h.started hstarted hfirst
  have hreader := absent hbefore
  cases h.readerChange with
  | kept same => exact same.trans hreader
  | started _ runs => simp [runs] at hfirst
  | declined _ again => exact absurd hbefore again
  | stopped reads => simp [hreader] at reads
  | left stopped => simp [hreader] at stopped
  | cutOff running => simp [hbefore] at running
  | givenUp closing =>
    -- No shutdown goes on that found the client running.
    exact absurd (hs.closing_eq_none (by simp [hbefore])) closing

/-- A change brings what it sends. -/
theorem Reached.becomes (h : Reached u bytes s) (becomes : s.Becomes cause t) :
    Reached u (bytes ++ cause.sent) t where
  sound := h.sound.becomes becomes
  unstarted := becomes.unstarted h.sound h.unstarted
  fed := by
    cases cause with
    | command c =>
      obtain rfl : t = s.apply c := becomes
      obtain ⟨hlimit, hchunk, done, held, hbytes, hdone, htracks⟩ := h.fed
      obtain ⟨harrived, hsame, -⟩ := c.feeds_eq s.intake.input
      rw [intake_apply]
      refine ⟨hlimit, hsame.trans hchunk, done, held, ?_, hdone, htracks⟩
      rw [harrived, hbytes]
      simp [Cause.sent]
    | move m =>
      rw [Cause.sent, List.append_nil]
      by_cases hread : m = .read
      · subst hread
        rcases intake_of_read? becomes with heq | heq
        · rw [heq]; exact h.fed
        · rw [heq]; exact h.fed.pull
      · rw [intake_of_perform? becomes hread]
        exact h.fed

/-- Moves bring nothing. -/
theorem Leads.reached (h : s.Leads t) (hs : Reached u bytes s) : Reached u bytes t :=
  h.keeps (fun becomes hs => by
    have hafter := hs.becomes becomes
    rw [Cause.sent, List.append_nil] at hafter
    exact hafter) hs

/-- A command brings what it sends. -/
theorem Reached.apply (h : Reached u bytes s) (c : Command) :
    Reached u (bytes ++ c.sent) (s.apply c) :=
  h.becomes (becomes_apply s c)

/-- Commands bring what they send. -/
theorem Reached.commands (h : Reached u bytes s) (commands : List Command) :
    Reached u (bytes ++ sent commands) (commands.foldl Session.apply s) := by
  induction commands generalizing s bytes with
  | nil => rw [sent, List.flatMap_nil, List.append_nil]; exact h
  | cons c commands ih =>
    rw [sent, List.flatMap_cons, ← List.append_assoc]
    exact ih (h.apply c)

/-- Steps bring what their commands send. -/
theorem Reached.steps (h : Reached u bytes s) (steps : List (List Command)) :
    Reached u (bytes ++ sent steps.flatten) (steps.foldl step s) := by
  induction steps generalizing s bytes with
  | nil => rw [List.flatten_nil, sent, List.flatMap_nil, List.append_nil]; exact h
  | cons commands steps ih =>
    have hnext := (leads_settle _).reached (h.commands commands)
    have hrest := ih hnext
    rw [List.append_assoc] at hrest
    rw [List.flatten_cons, sent, List.flatMap_append]
    exact hrest

/-! ## Clients that are apart -/

/-- Of the bytes that were sent to the client, these segments are unread. -/
def UnreadSegments (s : Session) (bytes : Bytes) (segments : List Bytes) : Prop :=
  ∃ done rest, bytes = join done ++ rest ∧ (∀ b ∈ done, findDelimiter? (b ++ [lineFeed]) = none) ∧
    s.Unread rest ∧ segments = (split rest).1

/-- Two clients have been sent the same bytes up to a place, then the one some bytes and the other
some others, and after that the same bytes again; they have read nothing behind the place, and are
the same but for that. -/
structure Apart (u : Setup) (place as bs after : Bytes) (s t : Session) : Prop where
  reached : Reached u (place ++ (as ++ after)) s ∧ Reached u (place ++ (bs ++ after)) t
  core : t.core = s.core
  reader : t.reader = s.reader
  inFlight : s.inFlight = [] ∧ t.inFlight = []
  stream : t.stream = s.stream
  /-- What was sent up to the place is segments, and the ones that are unread are the same for
  both, but for those that are no replies. -/
  unread : ∃ done front front', place = join (done ++ front) ∧
    (∀ b ∈ done ++ front, findDelimiter? (b ++ [lineFeed]) = none) ∧
    (∀ b ∈ front', findDelimiter? (b ++ [lineFeed]) = none) ∧
    front'.filter names = front.filter names ∧
    s.Unread (join front ++ (as ++ after)) ∧ t.Unread (join front' ++ (bs ++ after))

/-- Two clients come to be alike by their own moves. -/
def Rejoins (s t : Session) : Prop := ∃ v w, s.Leads v ∧ t.Leads w ∧ Alike v w

/-- Clients that come to be alike settle alike. -/
theorem Rejoins.settle (h : Rejoins s t) : Alike s.settle t.settle := by
  obtain ⟨v, w, hv, hw, halike⟩ := h
  rw [hv.settle, hw.settle]
  exact halike.settle

/-- What a command sends is unread behind what is so already. -/
theorem Unread.apply {rest : Bytes} (h : s.Unread rest) (c : Command) :
    (s.apply c).Unread (rest ++ c.sent) := by
  obtain ⟨held, htracks, rfl⟩ := h
  refine ⟨held, by rw [intake_apply]; exact htracks, ?_⟩
  rw [intake_apply, (c.feeds_eq s.intake.input).1, List.append_assoc]

/-- What a command does to the stream depends on the stream alone. -/
theorem stream_apply (same : t.stream = s.stream) (c : Command) :
    (t.apply c).stream = (s.apply c).stream := by
  simp only [stream, Prod.mk.injEq] at same
  obtain ⟨hinput, hlimit⟩ := same
  rw [stream, stream, intake_apply, intake_apply]
  simp only [hlimit, (c.feeds_eq t.intake.input).2.2, (c.feeds_eq s.intake.input).2.2, hinput]

/-- A command that sends no bytes does nothing by that. -/
theorem apply_send_nil (s : Session) : s.apply (.send []) = s := by
  simp [apply, onInput]

/-- Bytes may be sent in two parts. -/
theorem apply_send_append (s : Session) (xs ys : Bytes) :
    s.apply (.send (xs ++ ys)) = (s.apply (.send xs)).apply (.send ys) := by
  simp [apply, onInput]

/-- A client that has been sent segments is apart from itself by nothing. -/
theorem Reached.apart {place : Bytes} (h : Reached u place s) (flight : s.inFlight = [])
    (between : (split place).2 = []) : Apart u place [] [] [] s s := by
  -- What was sent ends with a segment, so what is unread has no tail.
  obtain ⟨-, -, done, held, hplace, hdone, htracks⟩ := h.fed
  have hsplit := Frame.split_join hdone (held ++ s.intake.input.arrived)
  rw [← hplace] at hsplit
  have hjoin := Frame.join_split (held ++ s.intake.input.arrived)
  have htail : (split (held ++ s.intake.input.arrived)).2 = [] := by
    rw [hsplit] at between
    exact between
  rw [htail, List.append_nil] at hjoin
  have hunread : s.Unread (join (split (held ++ s.intake.input.arrived)).1 ++ ([] ++ [])) :=
    ⟨held, htracks, by rw [hjoin]; exact List.append_nil _⟩
  have hreached : Reached u (place ++ ([] ++ [])) s := by
    rw [List.append_nil, List.append_nil]
    exact h
  refine ⟨⟨hreached, hreached⟩, rfl, rfl, ⟨flight, flight⟩, rfl, done, _, _, ?_, ?_, ?_, rfl,
    hunread, hunread⟩
  · rw [Frame.join_append, hjoin]
    exact hplace
  · intro b hb
    rcases List.mem_append.1 hb with hb | hb
    · exact hdone b hb
    · exact Frame.findDelimiter?_segment hb
  · exact fun b hb => Frame.findDelimiter?_segment hb

/-- A calm client without a reader makes no move. -/
theorem next?_of_calm (calm : s.Calm) (reader : s.reader = .absent)
    (flight : s.inFlight = []) (closing : s.closing = .none) : s.next? = none := by
  rw [calm.next?]
  simp [perform?, read?, resolve?, leave?, close?, reader, flight, closing]

/-- No move changes where a client is in its life. -/
theorem Leads.lifecycle (h : s.Leads t) : t.lifecycle = s.lifecycle := by
  refine h.keeps (P := fun v => v.lifecycle = s.lifecycle) (fun {v w m} becomes hv => ?_) rfl
  exact (becomes.lifecycle (by simp) (by simp)).trans hv

namespace Apart

variable {place as bs after : Bytes}

/-- Clients may be sent different bytes at the place. -/
theorem send (h : Apart u place as bs [] s t) (xs ys : Bytes) :
    Apart u place (as ++ xs) (bs ++ ys) [] (s.apply (.send xs)) (t.apply (.send ys)) := by
  obtain ⟨done, front, front', hplace, hsegments, hfront', hsame, hs, ht⟩ := h.unread
  have hreached := h.reached.1.apply (.send xs)
  have hreached' := h.reached.2.apply (.send ys)
  have hs' := hs.apply (.send xs)
  have ht' := ht.apply (.send ys)
  simp only [Command.sent, List.append_assoc, List.nil_append] at hreached hreached' hs' ht'
  refine ⟨?_, h.core, h.reader, h.inFlight, h.stream, done, front, front', hplace, hsegments,
    hfront', hsame, ?_, ?_⟩
  · simp only [List.append_nil]
    exact ⟨hreached, hreached'⟩
  · simpa only [List.append_assoc, List.append_nil] using hs'
  · simpa only [List.append_assoc, List.append_nil] using ht'

/-- The same command keeps clients apart. -/
theorem apply (h : Apart u place as bs after s t) (c : Command) :
    Apart u place as bs (after ++ c.sent) (s.apply c) (t.apply c) := by
  obtain ⟨hcore, hreader⟩ := core_apply h.core h.reader c
  obtain ⟨hs, ht⟩ := h.inFlight
  obtain ⟨done, front, front', hplace, hsegments, hfront', hsame, hunread, hunread'⟩ := h.unread
  have hreached := h.reached.1.apply c
  have hreached' := h.reached.2.apply c
  have hafter := hunread.apply c
  have hafter' := hunread'.apply c
  simp only [List.append_assoc] at hreached hreached' hafter hafter'
  refine ⟨⟨hreached, hreached'⟩, hcore, hreader,
    ⟨by rw [inFlight_apply, hs], by rw [inFlight_apply, ht]⟩, stream_apply h.stream c, done, front,
    front', hplace, hsegments, hfront', hsame, hafter, hafter'⟩

/-- The same commands keep clients apart. -/
theorem commands (h : Apart u place as bs after s t) (commands : List Command) :
    Apart u place as bs (after ++ sent commands) (commands.foldl Session.apply s)
      (commands.foldl Session.apply t) := by
  induction commands generalizing s t after with
  | nil => rw [sent, List.flatMap_nil, List.append_nil]; exact h
  | cons c commands ih =>
    rw [sent, List.flatMap_cons, ← List.append_assoc]
    exact ih (h.apply c)

/-- Clients that are apart and read no more are alike. -/
theorem alike_of_deaf (h : Apart u place as bs after s t) (deaf : s.Deaf) : Alike s t :=
  ⟨h.core, h.reader, by rw [h.inFlight.1, h.inFlight.2], Or.inl deaf⟩

/-- Clients that are apart come to have no moves to make but the reader's, and are apart still. -/
theorem exists_calm (h : Apart u place as bs after s t) :
    ∃ n n', s.Leads n ∧ t.Leads n' ∧ n.Calm ∧ n.reader = s.reader ∧
      Apart u place as bs after n n' := by
  -- The core moves are the same for both, as they have the same core.
  obtain ⟨m, hcalm, hall⟩ := Session.exists_calm s
  obtain ⟨n, hn, hcore, hintake, hreader, hflight⟩ := hall s rfl
  obtain ⟨n', hn', hcore', hintake', hreader', hflight'⟩ := hall t h.core
  refine ⟨n, n', hn, hn', hcalm.of_core hcore, hreader,
    ⟨hn.reached h.reached.1, hn'.reached h.reached.2⟩, hcore'.trans hcore.symm,
    by rw [hreader, hreader', h.reader],
    ⟨hflight.trans h.inFlight.1, hflight'.trans h.inFlight.2⟩, ?_, ?_⟩
  · rw [Session.stream, Session.stream, hintake, hintake']
    exact h.stream
  · obtain ⟨done, front, front', hplace, hsegments, hfront', hsame, hs, ht⟩ := h.unread
    refine ⟨done, front, front', hplace, hsegments, hfront', hsame, ?_, ?_⟩
    · rw [Unread, hintake]; exact hs
    · rw [Unread, hintake']; exact ht

/-- Clients that were not started stay apart when they settle. -/
theorem settle_of_notStarted (h : Apart u place as bs after s t)
    (first : s.lifecycle = .notStarted) : Apart u place as bs after s.settle t.settle := by
  -- Without a reader there is nothing to do after the core moves.
  obtain ⟨n, n', hn, hn', hcalm, hreader, hapart⟩ := h.exists_calm
  have habsent := hreader.trans (h.reached.1.unstarted first)
  have hclosing : n.closing = .none :=
    hapart.reached.1.sound.closing_eq_none (by simp [hn.lifecycle, first])
  have hclosing' : n'.closing = .none :=
    (congrArg (fun v : Session => v.closing) hapart.core).trans hclosing
  have hrest : n.next? = none := next?_of_calm hcalm habsent hapart.inFlight.1 hclosing
  have hrest' : n'.next? = none := next?_of_calm (hcalm.of_core hapart.core)
    (hapart.reader.trans habsent) hapart.inFlight.2 hclosing'
  rw [hn.settle, settle_of_rest hrest, hn'.settle, settle_of_rest hrest']
  exact hapart

/-- Clients that are apart settle alike if they come to be alike as soon as they read, and stay
apart as long as they were not started. -/
theorem settle (h : Apart u place as bs after s t)
    (rejoins : s.lifecycle = .running → s.reader = .running → Rejoins s t) :
    Alike s.settle t.settle ∨ Apart u place as bs after s.settle t.settle := by
  rcases s.reads_cases with hfirst | ⟨hrunning, hreads⟩ | hdeaf
  · exact Or.inr (h.settle_of_notStarted hfirst)
  · exact Or.inl (rejoins hrunning hreads).settle
  · exact Or.inl (h.alike_of_deaf hdeaf).settle

end Apart

end Session

end PipeCall
