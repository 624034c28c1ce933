import Mathlib.Data.List.Perm.Basic
import PipeCall.Proofs.Session.Trails

/-!
# Frames that come in another order

A client goes through a course behind some frames that it is sent together. Another client that is sent
them in another order can go through a course in which everything else is done to it in the same order,
and it does the same in the same order but for what it hears; and it has the same core then
(`Course.exists_reordered`).

The other client reads ahead: it hears all frames at once, and hands each reply in them to its registry
when the first client does (`Precedes`, `ReadsAhead`). So there must be room for all of them on their way
(`Roomy`). Without that the last frames are read only when replies in the first have got to the registry,
and a call may time out in between, so that it matters which frames these are.
-/

namespace PipeCall.Session

open PipeCall.Frame (Looks Reported findDelimiter? split join delimiter Whole heard)
open Bytes (lineFeed)

variable {s t t' : Session} {u : Setup} {cause : Cause} {past bs bs' rest tail : Bytes} {m : Move}
  {place : Nat} {ahead xs : List (Nat × Reply)} {later : List Change}

/-! ## Hearing several replies -/

/-- By reads alone a client hears nothing. -/
theorem Hears.nil (h : s.ToHear bs) : Hears s [] bs [] s :=
  ⟨.nil, by simp, rfl, rfl, (List.append_nil _).symm, rfl, h⟩

/-- A client hears some replies and then others. -/
theorem Hears.trans {ys : List (Nat × Reply)} {moves moves' : List Change} {v : Session}
    (h : Hears s xs bs moves v) (h' : Hears v ys rest moves' t) :
    Hears s (xs ++ ys) rest (moves ++ moves') t where
  course := h.course.append h'.course
  reads c hc := (List.mem_append.1 hc).elim (h.reads c) (h'.reads c)
  core := h'.core.trans h.core
  reader := h'.reader.trans h.reader
  inFlight := by rw [h'.inFlight, h.inFlight, List.append_assoc]
  stream := h'.stream.trans h.stream
  toHear := h'.toHear

/-- Two clients are the same to their callers, and the first has these replies on its way besides those
of the second. -/
structure Precedes (ahead : List (Nat × Reply)) (s t : Session) : Prop where
  core : t.core = s.core
  reader : t.reader = s.reader
  flight : s.inFlight.Perm (t.inFlight ++ ahead)

/-- When a reply of the second client gets to the registry, that of the first can too. -/
theorem Precedes.resolve (h : Precedes ahead s t) (becomes : t.resolve? place = some t') :
    ∃ q s', s.resolve? q = some s' ∧ s'.intake = s.intake ∧ Precedes ahead s' t' := by
  obtain ⟨id, reply, hplace, -⟩ := resolve?_eq_some becomes
  obtain ⟨hlt, hx⟩ := List.getElem?_eq_some_iff.1 hplace
  have hmem : (id, reply) ∈ s.inFlight :=
    h.flight.mem_iff.2 (List.mem_append_left ahead (List.mem_of_getElem? hplace))
  obtain ⟨q, hq⟩ := List.mem_iff_getElem?.1 hmem
  obtain ⟨hlt', hx'⟩ := List.getElem?_eq_some_iff.1 hq
  obtain ⟨s', hs', hcore, hreader, hintake, hflight, hflight'⟩ :=
    resolve?_of_core h.core h.reader becomes (hq.trans hplace.symm)
  refine ⟨q, s', hs', hintake, hcore, hreader, ?_⟩
  -- Both are without the one reply now.
  have hs := List.getElem_cons_eraseIdx_perm hlt'
  have ht := List.getElem_cons_eraseIdx_perm hlt
  rw [hx', ← hflight] at hs
  rw [hx, ← hflight'] at ht
  have hboth := hs.trans (h.flight.trans (ht.symm.append_right ahead))
  rw [List.cons_append] at hboth
  exact hboth.cons_inv

/-- When the second client makes a move other than a read, the first can make it too, if neither has
more replies on its way than the other when it lets the input go. -/
theorem Precedes.move (h : Precedes ahead s t) (hread : m ≠ .read) (hleave : m = .leave → ahead = [])
    (becomes : t.perform? m = some t') :
    ∃ moves s', Course s moves s' ∧ doings moves = doings [⟨t, .move m, t'⟩] ∧
      s'.intake = s.intake ∧ Precedes ahead s' t' := by
  by_cases hresolve : ∃ p, m = .resolve p
  · obtain ⟨p, rfl⟩ := hresolve
    obtain ⟨q, s', hs', hintake, hprecedes⟩ := h.resolve becomes
    exact ⟨_, s', Course.nil.snoc (becomes_of_perform? (m := .resolve q) hs'), rfl, hintake, hprecedes⟩
  · by_cases hm : m = .leave
    · subst hm
      obtain rfl := hleave rfl
      have hflight := h.flight
      rw [(leave?_eq_some becomes).2.1, List.append_nil, List.perm_nil] at hflight
      obtain ⟨s', hs', hcore, hreader, hintake, hnil, hnil'⟩ :=
        leave?_of_core h.core h.reader becomes hflight
      refine ⟨_, s', Course.nil.snoc (becomes_of_perform? (m := .leave) hs'), rfl, hintake, hcore,
        hreader, ?_⟩
      rw [hnil, hnil']
      exact List.Perm.refl _
    · obtain ⟨s', hs', hcore, hreader, hintake, hflight, hflight'⟩ :=
        perform?_of_core h.core h.reader hread (not_exists.1 hresolve) hm becomes
      refine ⟨_, s', Course.nil.snoc (becomes_of_perform? hs'), rfl, hintake, hcore, hreader, ?_⟩
      rw [hflight, hflight']
      exact h.flight

/-- The same command leaves what is ahead as it is. -/
theorem Precedes.apply (h : Precedes ahead s t) (c : Command) :
    Precedes ahead (s.apply c) (t.apply c) := by
  obtain ⟨hcore, hreader⟩ := core_apply h.core h.reader c
  refine ⟨hcore, hreader, ?_⟩
  rw [inFlight_apply, inFlight_apply]
  exact h.flight

/-- If no call is outstanding any more, the replies that are ahead can get to the registry. -/
theorem Precedes.catchUp (h : Precedes ahead s t) (drained : t.registry.entries = []) :
    ∃ moves s', Course s moves s' ∧ doings moves = [] ∧ Precedes [] s' t := by
  induction ahead generalizing s with
  | nil => exact ⟨[], s, .nil, rfl, h⟩
  | cons x ahead ih =>
    have hmem : x ∈ s.inFlight := h.flight.mem_iff.2 (by simp)
    obtain ⟨q, hq⟩ := List.mem_iff_getElem?.1 hmem
    obtain ⟨hlt, hx⟩ := List.getElem?_eq_some_iff.1 hq
    have hregistry : t.core.registry = s.core.registry := by rw [h.core]
    have hstray : x.1 ∉ s.registry.ids := by
      rw [← show t.registry = s.registry from hregistry, Registry.ids, drained]
      exact List.not_mem_nil
    obtain ⟨v, hv, hcore, -, hreader, hflight⟩ := resolve?_of_stray hq hstray
    have hprecedes : Precedes ahead v t := by
      refine ⟨h.core.trans hcore.symm, h.reader.trans hreader.symm, ?_⟩
      have hs := List.getElem_cons_eraseIdx_perm hlt
      rw [hx, ← hflight] at hs
      exact (hs.trans (h.flight.trans List.perm_middle)).cons_inv
    obtain ⟨moves, s', hcourse, hdoings, hend⟩ := ih hprecedes
    have hfirst : Course s [⟨s, .move (.resolve q), v⟩] v :=
      Course.nil.snoc (becomes_of_perform? (m := .resolve q) hv)
    exact ⟨_, s', hfirst.append hcourse, hdoings, hend⟩

/-! ## Two clients at a moment -/

/-- Two clients at a moment when they have been sent these bytes, of which the frames of a burst came in
different orders. -/
inductive ReadsAhead (past : Bytes) : Session → Session → Prop
  /-- The first has heard some of what the second has still to hear, and all else is the same. -/
  | hears {ahead : List (Nat × Reply)} {bs bs' : Bytes} {s t : Session} (precedes : Precedes ahead s t)
      (reads : t.reader = .running) (stream : t.stream = s.stream)
      (same : replies bs' = ahead ++ replies bs) (tail : (split bs).2 = (split past).2)
      (tail' : (split bs').2 = (split past).2) (toHear : s.ToHear bs) (unread : t.ToHear bs') :
      ReadsAhead past s t
  /-- They read no more. -/
  | deaf {s t : Session} (precedes : Precedes [] s t) (deaf : t.Deaf) : ReadsAhead past s t

/-- They have the same core. -/
theorem ReadsAhead.core (h : ReadsAhead past s t) : t.core = s.core := by
  cases h with
  | hears precedes => exact precedes.core
  | deaf precedes => exact precedes.core

/-- A reader that runs goes on by all that is no read, unless the client is shut down. -/
theorem Becomes.reads_on (h : t.Becomes cause t') (hs : t.Sound) (reads : t.reader = .running)
    (hread : cause ≠ .move .read) : t'.reader = .running ∨ t'.lifecycle = .shutDown := by
  cases h.readerChange with
  | kept same => exact Or.inl (same.trans reads)
  | started _ _ running => exact Or.inl running
  | declined absent => simp [reads] at absent
  | stopped => exact absurd rfl hread
  | left leaving => simp [reads] at leaving
  | cutOff _ shut => exact Or.inr shut
  | givenUp closing => exact Or.inr (h.shutDown_stays (hs.staged.closing closing))

/-- A client that is shut down has no call outstanding. -/
theorem Sound.entries_of_shutDown (hs : t.Sound) (shut : t.lifecycle = .shutDown) :
    t.registry.entries = [] :=
  hs.coheres.numbered.closed (hs.staged.shutDown shut)

/-- When the second client is shut down the first can come to be one that reads no more either. -/
theorem Precedes.deaf (h : Precedes ahead s t) (hs : t.Sound) (shut : t.lifecycle = .shutDown) :
    ∃ moves s', Course s moves s' ∧ doings moves = [] ∧ ReadsAhead past s' t := by
  obtain ⟨moves, s', hcourse, hdoings, hprecedes⟩ := h.catchUp (hs.entries_of_shutDown shut)
  exact ⟨moves, s', hcourse, hdoings, .deaf hprecedes ⟨by simp [shut], fun _ => shut⟩⟩

/-- A move other than a read leaves them so. -/
theorem ReadsAhead.move (h : ReadsAhead past s t) (reached : Reached u past t) (hread : m ≠ .read)
    (becomes : t.perform? m = some t') :
    ∃ moves s', Course s moves s' ∧ doings moves = doings [⟨t, .move m, t'⟩] ∧
      ReadsAhead past s' t' := by
  have hbecomes := becomes_of_perform? becomes
  cases h with
  | deaf precedes deaf =>
    obtain ⟨moves, s', hcourse, hdoings, -, hprecedes⟩ := precedes.move hread (fun _ => rfl) becomes
    exact ⟨moves, s', hcourse, hdoings, .deaf hprecedes (hbecomes.deaf deaf)⟩
  | hears precedes reads stream same tail tail' toHear unread =>
    have hleave : m ≠ .leave := by
      rintro rfl
      have hleaving := (leave?_eq_some becomes).1
      simp [reads] at hleaving
    obtain ⟨moves, s', hcourse, hdoings, hintake, hprecedes⟩ :=
      precedes.move hread (fun hm => absurd hm hleave) becomes
    have hintake' := intake_of_perform? becomes hread
    rcases hbecomes.reads_on reached.sound reads (by simpa using hread) with hreads | hshut
    · have hstream : t'.stream = s'.stream := by
        rw [Session.stream, Session.stream, hintake, hintake']
        exact stream
      exact ⟨moves, s', hcourse, hdoings, .hears hprecedes hreads hstream same tail tail'
        (toHear.of_intake hintake) (unread.of_intake hintake')⟩
    · obtain ⟨moves', v, hcourse', hquiet, hahead⟩ :=
        hprecedes.deaf (reached.becomes hbecomes).sound hshut
      refine ⟨moves ++ moves', v, hcourse.append hcourse', ?_, hahead⟩
      rw [doings_append, hdoings, hquiet, List.append_nil]

/-- A command leaves them so. -/
theorem ReadsAhead.apply (h : ReadsAhead past s t) (reached : Reached u past t) (c : Command)
    (short : Short u.limit (past ++ c.sent)) :
    ∃ moves s', Course s moves s' ∧ doings moves = [.command c] ∧
      ReadsAhead (past ++ c.sent) s' (t.apply c) := by
  have hbecomes := becomes_apply t c
  have hfirst : Course s [⟨s, .command c, s.apply c⟩] (s.apply c) :=
    Course.nil.snoc (becomes_apply s c)
  cases h with
  | deaf precedes deaf =>
    exact ⟨_, _, hfirst, rfl, .deaf (precedes.apply c) (hbecomes.deaf deaf)⟩
  | @hears ahead bs bs' _ _ precedes reads stream same tail tail' toHear unread =>
    rcases hbecomes.reads_on reached.sound reads (by simp) with hreads | hshut
    · have hshort : Short t.stream.2 ((split past).2 ++ c.sent) := by
        rw [show t.stream.2 = u.limit from reached.fed.limit]
        exact (short_append.1 short).2
      have hsame : replies (bs' ++ c.sent) = ahead ++ replies (bs ++ c.sent) := by
        rw [replies_append, replies_append bs, same, tail, tail', List.append_assoc]
      refine ⟨_, _, hfirst, rfl, .hears (precedes.apply c) hreads (stream_apply stream c) hsame ?_ ?_
        (toHear.apply c ?_) (unread.apply c ?_)⟩
      · rw [Frame.split_append, Frame.split_append past, tail]
      · rw [Frame.split_append, Frame.split_append past, tail']
      · rw [tail, ← stream]
        exact hshort
      · rw [tail']
        exact hshort
    · obtain ⟨moves', v, hcourse', hquiet, hahead⟩ :=
        (precedes.apply c).deaf (reached.apply c).sound hshut
      exact ⟨_, v, hfirst.append hcourse', by rw [doings_append, hquiet]; rfl, hahead⟩

/-- If the reader of the second client stops because that is shut down, that of the first does too. -/
theorem Precedes.stop (h : Precedes ahead s t) (hs : t'.Sound) (shut : t.lifecycle = .shutDown)
    (becomes : t.read? = some t') :
    ∃ moves s', Course s moves s' ∧ doings moves = [] ∧ ReadsAhead past s' t' := by
  have hreads := (reads_of_read? becomes).1
  have hlifecycle : t.core.lifecycle = s.core.lifecycle := by rw [h.core]
  obtain rfl := Option.some.inj ((read?_of_shutDown hreads shut).symm.trans becomes)
  have hread := read?_of_shutDown (h.reader.symm.trans hreads) (hlifecycle.symm.trans shut)
  have hprecedes : Precedes ahead { s with reader := .leaving } { t with reader := .leaving } :=
    ⟨h.core, rfl, h.flight⟩
  obtain ⟨moves, s', hcourse, hdoings, hahead⟩ := hprecedes.deaf hs shut
  have hbecomes : s.Becomes (.move .read) { s with reader := .leaving } :=
    becomes_of_perform? (m := .read) hread
  exact ⟨_, s', (Course.nil.snoc hbecomes).append hcourse, hdoings, hahead⟩

/-- What the second client hears by a look the first has heard already, or hears it too. -/
theorem ReadsAhead.hear {r : Option (Except Fault Bytes)} (precedes : Precedes ahead s t)
    (reads : t.reader = .running) (stream : t.stream = s.stream)
    (same : replies bs' = ahead ++ replies bs) (tail : (split bs).2 = (split past).2)
    (tail' : (split bs').2 = (split past).2) (toHear : s.ToHear bs) (attentive : s.Attentive)
    (room : t.inFlight.length < maxInFlight) (short : Short s.stream.2 bs')
    (looks : Looks s.stream.2 bs' r rest) (core : t'.core = t.core) (reader : t'.reader = t.reader)
    (inFlight : t'.inFlight = t.inFlight ++ r.toList.filterMap heard) (same' : t'.stream = t.stream)
    (left : t'.ToHear rest) :
    ∃ moves s', Course s moves s' ∧ doings moves = [] ∧ ReadsAhead past s' t' := by
  obtain ⟨hreplies, hshort⟩ := replies_of_looks looks short
  have hrest : (split rest).2 = (split past).2 := looks.tail.trans tail'
  rw [same] at hreplies
  -- The first goes on as it is, if the replies that are ahead are those that are left then.
  have hstays : ∀ {ahead'}, replies rest = ahead' ++ replies bs →
      s.inFlight.Perm (t'.inFlight ++ ahead') →
        ∃ moves s', Course s moves s' ∧ doings moves = [] ∧ ReadsAhead past s' t' := by
    intro ahead' hahead hperm
    exact ⟨[], s, .nil, rfl, .hears ⟨core.trans precedes.core, reader.trans precedes.reader, hperm⟩
      (reader.trans reads) (same'.trans stream) hahead tail hrest toHear left⟩
  rcases filterMap_heard_cases r with hnil | ⟨-, x, -, -, hone⟩
  · rw [hnil, List.nil_append] at hreplies
    refine hstays hreplies.symm ?_
    rw [inFlight, hnil, List.append_nil]
    exact precedes.flight
  · rw [hone] at hreplies inFlight
    cases ahead with
    | cons y ahead =>
      obtain ⟨rfl, hothers⟩ := List.cons.inj hreplies
      refine hstays hothers.symm ?_
      rw [inFlight, List.append_assoc]
      exact precedes.flight
    | nil =>
      -- Nothing is ahead, so the first hears it now.
      have hflight := precedes.flight
      rw [List.append_nil] at hflight
      obtain ⟨moves, s', hears⟩ :=
        (toHear.congr short same.symm (tail.trans tail'.symm)).hear looks attentive
          (by rw [hflight.length_eq]; exact room)
      have hprecedes : Precedes [] s' t' := by
        refine ⟨?_, ?_, ?_⟩
        · rw [core, precedes.core, hears.core]
        · rw [reader, precedes.reader, hears.reader]
        · rw [hears.inFlight, inFlight, hone, List.append_nil]
          exact hflight.append_right [x]
      have hstream : t'.stream = s'.stream := by rw [same', stream, hears.stream]
      exact ⟨moves, s', hears.course, doings_of_reads hears.reads, .hears hprecedes
        (reader.trans reads) hstream rfl hrest hrest hears.toHear left⟩

/-- A read leaves them so too. -/
theorem ReadsAhead.read (h : ReadsAhead past s t) (chunked : 0 < u.chunk) (reached : Reached u past t)
    (becomes : t.read? = some t') :
    ∃ moves s', Course s moves s' ∧ doings moves = [] ∧ ReadsAhead past s' t' := by
  have hreads := (reads_of_read? becomes).1
  have hsound := (reached.becomes (becomes_of_perform? (m := .read) becomes)).sound
  cases h with
  | deaf precedes deaf => exact precedes.stop hsound (deaf.2 hreads) becomes
  | @hears ahead bs bs' _ _ precedes _ stream same tail tail' toHear unread =>
    by_cases hshut : t.lifecycle = .shutDown
    · exact precedes.stop hsound hshut becomes
    · have hattentive := reached.attentive chunked hreads hshut
      have hattentive' : s.Attentive :=
        hattentive.of_core precedes.core.symm precedes.reader.symm stream.symm
      have hroom := room_of_read? becomes hshut
      obtain ⟨-, bytes, hbytes, hshort, hreplies, hend⟩ := unread
      rw [← hreplies] at same
      rw [← hend] at tail'
      cases pulls hattentive.running hreads hroom hattentive.chunk hbytes with
      | waits hnone => simp [becomes] at hnone
      | @stops t'' rest hread hstops looks undelimited core reader inFlight =>
        -- There is nothing left to hear for either.
        obtain rfl := Option.some.inj (hread.symm.trans becomes)
        obtain ⟨hnone, -⟩ := replies_of_looks looks hshort
        rw [replies_of_undelimited undelimited, same] at hnone
        obtain ⟨rfl, hnil⟩ := List.append_eq_nil_iff.1 hnone
        have hflight := precedes.flight
        rw [List.append_nil] at hflight
        obtain ⟨moves, s', hcourse, hmoves, hcore, hflight', ⟨-, hreader⟩ | ⟨hgoes, -⟩⟩ :=
          toHear.finish hnil hattentive' (by rw [hflight.length_eq]; exact hroom)
        · have hlifecycle : t''.core.lifecycle = t.core.lifecycle := by rw [core]
          have hrunning : t''.lifecycle = .running := hlifecycle.trans hattentive.running
          refine ⟨moves, s', hcourse, doings_of_reads hmoves, .deaf ⟨?_, ?_, ?_⟩ ⟨?_, ?_⟩⟩
          · rw [core, precedes.core, hcore]
          · rw [reader, hreader]
          · rw [hflight', inFlight, List.append_nil]
            exact hflight
          · simp [hrunning]
          · simp [reader]
        · rw [stream] at hstops
          exact absurd hstops hgoes
      | @looks t'' r rest hread looks core reader inFlight hstream left frame =>
        obtain rfl := Option.some.inj (hread.symm.trans becomes)
        obtain ⟨-, hshort'⟩ := replies_of_looks looks hshort
        rw [← hstream] at hshort'
        rw [stream] at looks hshort
        exact ReadsAhead.hear precedes hreads stream same tail tail' toHear hattentive' hroom hshort looks
          core reader inFlight hstream (.of_unread left hshort')

/-! ## Courses -/

/-- When the second of two clients changes, the first can go on so that they are as before. -/
theorem ReadsAhead.change (h : ReadsAhead past s t) (becomes : t.Becomes cause t')
    (chunked : 0 < u.chunk) (reached : Reached u past t) (short : Short u.limit (past ++ cause.sent)) :
    ∃ moves s', Course s moves s' ∧ doings moves = doings [⟨t, cause, t'⟩] ∧
      ReadsAhead (past ++ cause.sent) s' t' := by
  cases cause with
  | command c =>
    obtain rfl : t' = t.apply c := becomes
    exact h.apply reached c short
  | move m =>
    rw [Cause.sent, List.append_nil]
    by_cases hread : m = .read
    · subst hread
      exact h.read chunked reached becomes
    · exact h.move reached hread becomes

/-- Whatever the second of two clients goes through, the first can go through too. -/
theorem ReadsAhead.course (course : Course t later t') (h : ReadsAhead past s t) (chunked : 0 < u.chunk)
    (reached : Reached u past t) (short : Short u.limit (past ++ sent (commandsOf later))) :
    ∃ later' s', Course s later' s' ∧ doings later' = doings later ∧
      ReadsAhead (past ++ sent (commandsOf later)) s' t' := by
  induction later generalizing s t past with
  | nil =>
    obtain rfl := course.eq_of_nil
    rw [commandsOf, List.filterMap_nil, sent, List.flatMap_nil, List.append_nil]
    exact ⟨[], s, .nil, rfl, h⟩
  | cons c later ih =>
    have hcourse : Course t ([] ++ c :: later) t' := course
    obtain ⟨hfirst, hbecomes, hlater⟩ := hcourse.split
    obtain rfl := hfirst.eq_of_nil
    rw [sent_commandsOf_cons, ← List.append_assoc past] at short ⊢
    obtain ⟨moves, v, hmoves, hdoings, hahead⟩ :=
      h.change hbecomes chunked reached (short_append.1 short).1
    obtain ⟨later', s', hrest, hdoings', hahead'⟩ :=
      ih hlater hahead (reached.becomes hbecomes) short
    refine ⟨moves ++ later', s', hmoves.append hrest, ?_, hahead'⟩
    rw [doings_append, hdoings, hdoings']
    exact (doings_append [c] later).symm

end PipeCall.Session
