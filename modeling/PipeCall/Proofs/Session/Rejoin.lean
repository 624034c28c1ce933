import PipeCall.Proofs.Session.Apart

/-!
# How clients that are apart come to be alike

Two clients that are `Apart` and run with their readers reading are answered, each, by the replies
in the segments that it has been sent (`Attends.answered`). If one has been sent a whole frame that
the other has not, and waits for no reply to a call that the frame names, or if both have been sent
the same frames in different orders with one reply to a call at most among them, these are the same
replies for both, and from then on the clients are alike (`Apart.rejoins_inserted`,
`Apart.rejoins_permuted`). A part of a frame that only one of them has been sent keeps them apart
until the rest of it comes (`Apart.settle_of_part`).
-/

namespace PipeCall.Session

open PipeCall.Frame (findDelimiter? split join delimiter Whole)
open Bytes (lineFeed)

variable {s t : Session} {u : Setup} {bytes place as bs after chunk part tail : Bytes}
  {stream : Input × Nat}

/-! ## Readers at the end of what has arrived -/

/-- The replies among what is unread fit: of the segments, the first one that names a call to which
no reply is on its way is shorter than the limit. -/
def RepliesFit (bytes : Bytes) (s : Session) : Prop :=
  ∀ segments, s.UnreadSegments bytes segments → Fit s.stream.2 s.awaited segments

/-- If the client takes the frame of this chunk, and takes it from this place, it does not wait for
a reply to the call that the chunk names. -/
def Unawaited (place chunk bytes : Bytes) (s : Session) : Prop :=
  ∀ behind, bytes = place ++ (chunk ++ delimiter ++ behind) → s.Gets chunk behind →
    ∀ x, Inbound.keyed? chunk = some x → x.1 ∉ s.awaited

/-- With no reply on its way a client waits for the replies to all outstanding calls. -/
theorem awaited_of_inFlight (h : s.inFlight = []) : s.awaited = s.registry.ids := by
  simp [awaited, h]

/-- A client whose stream has stopped reads no more when it has heard all. -/
theorem Heard.deaf (h : Heard stream tail s) (stops : stream.1.Stops)
    (running : s.lifecycle = .running) : s.Deaf := by
  rcases h.reader with ⟨-, hreader⟩ | ⟨hnot, -⟩
  · exact ⟨by simp [running], fun hrun => by simp [hreader] at hrun⟩
  · exact absurd stops hnot

/-- Clients that have heard all that there was, up to the end of their streams, are alike if they
have the same core. -/
theorem Heard.alike_of_stops {tail' : Bytes} (hs : Heard stream tail s) (ht : Heard stream tail' t)
    (core : t.core = s.core) (running : s.lifecycle = .running) (stops : stream.1.Stops) :
    Alike s t := by
  refine ⟨core, ?_, by rw [hs.inFlight, ht.inFlight], Or.inl (hs.deaf stops running)⟩
  rcases hs.reader with ⟨-, hreader⟩ | ⟨hnot, -⟩
  · rcases ht.reader with ⟨-, hreader'⟩ | ⟨hnot, -⟩
    · exact hreader'.trans hreader.symm
    · exact absurd stops hnot
  · exact absurd stops hnot

/-- Clients that have heard all that there was on the same stream are alike if they have the same
core. -/
theorem Heard.alike (hs : Heard stream tail s) (ht : Heard stream tail t) (core : t.core = s.core)
    (running : s.lifecycle = .running) : Alike s t := by
  by_cases hstops : stream.1.Stops
  · exact hs.alike_of_stops ht core running hstops
  · rcases hs.reader with ⟨hyes, -⟩ | ⟨-, hreader, hinput, hnext⟩
    · exact absurd hyes hstops
    · rcases ht.reader with ⟨hyes, -⟩ | ⟨-, hreader', hinput', hnext'⟩
      · exact absurd hyes hstops
      · exact ⟨core, hreader'.trans hreader.symm, by rw [hs.inFlight, ht.inFlight],
          Or.inr ⟨hinput'.trans hinput.symm, hnext'.trans hnext.symm⟩⟩

/-- A client at the end of a stream that goes on makes no move. -/
theorem Heard.rest (h : Heard stream tail s) (idle : s.Idle) (closing : s.closing = .none)
    (arrived : stream.1.arrived = []) (goes : ¬stream.1.Stops) : s.next? = none := by
  rcases h.reader with ⟨hyes, -⟩ | ⟨-, hreader, hinput, hnext⟩
  · exact absurd hyes goes
  · have hroom : s.inFlight.length < maxInFlight := by
      rw [h.inFlight]
      decide
    rw [← hinput] at arrived goes
    rcases read?_of_not_arrived idle.running hreader hroom hnext arrived with ⟨hyes, -⟩ | ⟨-, hread⟩
    · exact absurd hyes goes
    · rw [idle.calm.next?]
      simp [perform?, hread, resolve?, leave?, close?, h.inFlight, hreader, closing]

/-- What such a client still has unread is blank segments and the tail. -/
theorem Heard.unread (h : Heard stream tail s) (reached : Reached u bytes s)
    (arrived : stream.1.arrived = []) (goes : ¬stream.1.Stops) :
    ∃ done front, (∀ b ∈ done ++ front, findDelimiter? (b ++ [lineFeed]) = none) ∧
      bytes = join (done ++ front) ++ (split bytes).2 ∧ front.filter names = [] ∧
      s.Unread (join front ++ (split bytes).2) := by
  rcases h.reader with ⟨hyes, -⟩ | ⟨-, -, hinput, hnext⟩
  · exact absurd hyes goes
  · obtain ⟨-, -, done, held, hbytes, hdone, htracks⟩ := reached.fed
    rw [← hinput] at arrived
    rw [arrived, List.append_nil] at hbytes
    -- The decoder has no result to give, so the segments that it holds are blank.
    have hblank := (htracks.next_of_none (by rw [hnext])).2
    have htail : (split bytes).2 = (split held).2 := by
      rw [hbytes, Frame.split_join hdone]
    refine ⟨done, (split held).1, ?_, ?_, ?_, held, htracks, ?_⟩
    · intro b hb
      rcases List.mem_append.1 hb with hb | hb
      · exact hdone b hb
      · exact Frame.findDelimiter?_segment hb
    · rw [htail, Frame.join_append, List.append_assoc, Frame.join_split]
      exact hbytes
    · refine List.filter_eq_nil_iff.2 fun b hb => ?_
      simp [names, Inbound.keyed?_of_blank (hblank b hb)]
    · rw [htail, Frame.join_split, arrived, List.append_nil]

/-! ## Readers that get to the difference -/

/-- Clients that are apart and have nothing to do but for their readers, which read. They have these
segments still to read before the difference. -/
structure Poised (u : Setup) (place as bs after : Bytes) (front front' : List Bytes)
    (s t : Session) : Prop where
  apart : Apart u place as bs after s t
  segments : ∀ b ∈ front, findDelimiter? (b ++ [lineFeed]) = none
  segments' : ∀ b ∈ front', findDelimiter? (b ++ [lineFeed]) = none
  same : front'.filter names = front.filter names
  attends : s.Attends (join front ++ (as ++ after))
  attends' : t.Attends (join front' ++ (bs ++ after))
  fit : Fit s.stream.2 s.registry.ids (front ++ (split (as ++ after)).1)

/-- Clients that are apart and run with their readers reading come to be poised. -/
theorem Apart.poised (h : Apart u place as bs after s t) (running : s.lifecycle = .running)
    (reads : s.reader = .running) (chunked : 0 < u.chunk)
    (fit : ∀ m, s.Leads m → m.RepliesFit (place ++ (as ++ after))) :
    ∃ n n' front front', s.Leads n ∧ t.Leads n' ∧ Poised u place as bs after front front' n n' := by
  obtain ⟨n, n', hn, hn', hcalm, hreader, hapart⟩ := h.exists_calm
  obtain ⟨done, front, front', hplace, hsegments, hfront', hsame, hs, ht⟩ := hapart.unread
  obtain ⟨hreached, hreached'⟩ := hapart.reached
  have hfront := fun b hb => hsegments b (List.mem_append_right done hb)
  have hidle : n.Idle := ⟨hreached.sound.coheres, hn.lifecycle.trans running, hcalm⟩
  have hreads := hreader.trans reads
  -- What fits at every moment fits when the core moves have been made.
  have hahead : n.UnreadSegments (place ++ (as ++ after)) (front ++ (split (as ++ after)).1) := by
    refine ⟨done, _, ?_, fun b hb => hsegments b (List.mem_append_left front hb), hs, ?_⟩
    · rw [hplace, Frame.join_append, List.append_assoc]
    · rw [Frame.split_join hfront]
  have hfit := fit n hn _ hahead
  rw [awaited_of_inFlight hapart.inFlight.1] at hfit
  exact ⟨n, n', front, front', hn, hn', hapart, hfront, hfront', hsame,
    ⟨hidle, hreads, hreached.fed.chunk ▸ chunked, hs⟩,
    ⟨hidle.of_core hapart.core, hapart.reader.trans hreads, hreached'.fed.chunk ▸ chunked, ht⟩,
    hfit⟩

namespace Poised

variable {front front' : List Bytes}

/-- What fits the one client fits the other. -/
theorem fit_right (h : Poised u place as bs after front front' s t) {segments : List Bytes}
    (fit : Fit s.stream.2 s.registry.ids (front ++ segments)) :
    Fit t.stream.2 t.registry.ids (front' ++ segments) := by
  have hids : t.core.registry.ids = s.core.registry.ids := by rw [h.apart.core]
  rw [h.apart.stream, show t.registry.ids = s.registry.ids from hids]
  exact fit.congr (by rw [List.filter_append, List.filter_append, h.same])

/-- The first of two poised clients is answered by the replies that it has still to read. -/
theorem answered (h : Poised u place as bs after front front' s t) :
    ∃ e, s.Leads e ∧ e.Idle ∧ Heard s.stream (split (as ++ after)).2 e ∧
      e.core =
        ((front ++ (split (as ++ after)).1).filterMap Inbound.keyed?).foldl answer s.core := by
  have hsplit := Frame.split_join h.segments (as ++ after)
  obtain ⟨e, he, hidle, hheard, hcore⟩ :=
    h.attends.answered h.apart.inFlight.1 (by rw [hsplit]; exact h.fit)
  rw [hsplit] at hheard hcore
  exact ⟨e, he, hidle, hheard, hcore⟩

/-- So is the second. -/
theorem answered_right (h : Poised u place as bs after front front' s t)
    (fit : Fit s.stream.2 s.registry.ids (front ++ (split (bs ++ after)).1)) :
    ∃ e, t.Leads e ∧ Heard s.stream (split (bs ++ after)).2 e ∧
      e.core =
        ((front ++ (split (bs ++ after)).1).filterMap Inbound.keyed?).foldl answer s.core := by
  have hsplit := Frame.split_join h.segments' (bs ++ after)
  obtain ⟨e, he, -, hheard, hcore⟩ :=
    h.attends'.answered h.apart.inFlight.2 (by rw [hsplit]; exact h.fit_right fit)
  rw [hsplit, h.apart.stream] at hheard
  rw [hsplit, h.apart.core, List.filterMap_append, filterMap_keyed?_congr h.same,
    ← List.filterMap_append] at hcore
  exact ⟨e, he, hheard, hcore⟩

end Poised

/-- If one of two clients has been sent a frame that the other has not, and does not wait for a
reply to the call that it names when it takes it, they come to be alike. -/
theorem Apart.rejoins_inserted (h : Apart u place [] (chunk ++ delimiter) after s t)
    (running : s.lifecycle = .running) (reads : s.reader = .running) (chunked : 0 < u.chunk)
    (hchunk : findDelimiter? (chunk ++ [lineFeed]) = none)
    (fit : ∀ m, s.Leads m → m.RepliesFit (place ++ ([] ++ after)))
    (unawaited : ∀ m, t.Leads m →
      m.Unawaited place chunk (place ++ (chunk ++ delimiter ++ after))) : Rejoins s t := by
  obtain ⟨n, n', front, front', hn, hn', hpoised⟩ := h.poised running reads chunked fit
  obtain ⟨e, he, hidle, hheard, hcore⟩ := hpoised.answered
  obtain ⟨e', he', -, hheard', hcore'⟩ := hpoised.attends'.answered_around
    hpoised.apart.inFlight.2 rfl hpoised.segments' hchunk (hpoised.fit_right hpoised.fit)
    fun m hm => unawaited m (hn'.trans hm) after rfl
  -- The two are answered by the same replies.
  have hcores : e'.core = e.core := by
    rw [hcore, hcore', hpoised.apart.core, List.filterMap_append, List.filterMap_append,
      filterMap_keyed?_congr hpoised.same]
    rfl
  rw [hpoised.apart.stream] at hheard'
  exact ⟨e, e', hn.trans he, hn'.trans he', hheard.alike hheard' hcores hidle.running⟩

/-- Clients at the end of a stream that goes on are apart by the part of a frame that one of them
has been sent. -/
theorem Heard.apart (hs : Heard stream [] s) (ht : Heard stream part t)
    (reached : Reached u (place ++ ([] ++ [])) s ∧ Reached u (place ++ (part ++ [])) t)
    (core : t.core = s.core) (goes : ¬stream.1.Stops) (arrived : stream.1.arrived = [])
    (between : (split place).2 = []) (hpart : findDelimiter? part = none) :
    Apart u place [] part [] s t := by
  have hside : ∀ {v : Session} {rest : Bytes}, Heard stream rest v →
      v.reader = .running ∧ v.intake.input = stream.1 := by
    intro v rest hv
    rcases hv.reader with ⟨hyes, -⟩ | ⟨-, hreader, hinput, -⟩
    · exact absurd hyes goes
    · exact ⟨hreader, hinput⟩
  obtain ⟨hreader, hinput⟩ := hside hs
  obtain ⟨hreader', hinput'⟩ := hside ht
  -- The tail of what was sent is nothing for the one client, and the part for the other.
  have htail : (split (place ++ ([] ++ []))).2 = [] := by
    rw [List.append_nil, List.append_nil, between]
  have htail' : (split (place ++ (part ++ []))).2 = part := by
    rw [List.append_nil, Frame.split_append, between, List.nil_append,
      Frame.split_of_find_none hpart]
  obtain ⟨done, front, hsegments, hbytes, hnames, hunread⟩ := hs.unread reached.1 arrived goes
  obtain ⟨done', front', hsegments', -, hnames', hunread'⟩ := ht.unread reached.2 arrived goes
  rw [htail] at hbytes hunread
  rw [htail'] at hunread'
  rw [List.append_nil, List.append_nil, List.append_nil] at hbytes
  refine ⟨reached, core, hreader'.trans hreader.symm, ⟨hs.inFlight, ht.inFlight⟩, ?_, done, front,
    front', hbytes, hsegments, fun b hb => hsegments' b (List.mem_append_right done' hb),
    hnames'.trans hnames.symm, hunread, ?_⟩
  · rw [Session.stream, Session.stream, hinput, hinput', reached.1.fed.limit, reached.2.fed.limit]
  · rw [List.append_nil]
    exact hunread'

/-- Clients of which one has been sent a part of a frame at the place, and nothing behind it, settle
apart still, or alike if they read no more. -/
theorem Apart.settle_of_part (h : Apart u place [] part [] s t) (between : (split place).2 = [])
    (hpart : findDelimiter? part = none) (chunked : 0 < u.chunk)
    (fit : ∀ m, s.Leads m → m.RepliesFit (place ++ ([] ++ []))) :
    Alike s.settle t.settle ∧ s.settle.Deaf ∨ Apart u place [] part [] s.settle t.settle := by
  rcases s.reads_cases with hfirst | ⟨hrunning, hreads⟩ | hdeaf
  · exact Or.inr (h.settle_of_notStarted hfirst)
  · obtain ⟨n, n', front, front', hn, hn', hpoised⟩ := h.poised hrunning hreads chunked fit
    have hparts : split (part ++ []) = ([], part) := by
      rw [List.append_nil, Frame.split_of_find_none hpart]
    obtain ⟨e, he, hidle, hheard, hcore⟩ := hpoised.answered
    obtain ⟨e', he', hheard', hcore'⟩ := hpoised.answered_right (by rw [hparts]; exact hpoised.fit)
    rw [hparts] at hcore' hheard'
    have hcores : e'.core = e.core := by
      rw [hcore, hcore']
      rfl
    rw [(hn.trans he).settle, (hn'.trans he').settle]
    by_cases hstops : n.stream.1.Stops
    · -- Both readers have stopped.
      exact Or.inl ⟨(hheard.alike_of_stops hheard' hcores hidle.running hstops).settle,
        (hheard.deaf hstops hidle.running).settle⟩
    · -- Both wait for more, the one with the part in its decoder.
      have hreached := (hn.trans he).reached h.reached.1
      have hreached' := (hn'.trans he').reached h.reached.2
      have hclosing := hreached.sound.closing_eq_none (by simp [hidle.running])
      have hclosing' := hreached'.sound.closing_eq_none (by simp [(hidle.of_core hcores).running])
      rw [settle_of_rest (hheard.rest hidle hclosing rfl hstops),
        settle_of_rest (hheard'.rest (hidle.of_core hcores) hclosing' rfl hstops)]
      exact Or.inr (hheard.apart hheard' ⟨hreached, hreached'⟩ hcores hstops rfl between hpart)
  · exact Or.inl ⟨(h.alike_of_deaf hdeaf).settle, hdeaf.settle⟩

/-! ## A chunk that comes in parts -/

/-- One of two clients has been sent a part of a chunk and its delimiter, of which there is more to
come: they are apart by the part, or they are alike, if nothing more is to come or they read no
more. -/
def Parted (u : Setup) (place part more : Bytes) (s t : Session) : Prop :=
  Apart u place [] part [] s t ∨ Alike s t ∧ (more = [] ∨ s.Deaf)

namespace Parted

variable {more : Bytes}

/-- A command that sends nothing leaves this so. -/
theorem apply {c : Command} (h : Parted u place part more s t) (quiet : c.sent = []) :
    Parted u place part more (s.apply c) (t.apply c) := by
  rcases h with hapart | ⟨halike, hrest⟩
  · have hafter := hapart.apply c
    rw [quiet] at hafter
    exact Or.inl hafter
  · exact Or.inr ⟨halike.apply c, hrest.imp_right (becomes_apply s c).deaf⟩

/-- The next part may come. -/
theorem send (h : Parted u place part (bs ++ more) s t) :
    Parted u place (part ++ bs) more s (t.apply (.send bs)) := by
  rcases h with hapart | ⟨halike, hnil | hdeaf⟩
  · have hsent := hapart.send [] bs
    rw [apply_send_nil] at hsent
    exact Or.inl hsent
  · obtain ⟨rfl, hmore⟩ := List.append_eq_nil_iff.1 hnil
    rw [apply_send_nil]
    exact Or.inr ⟨halike, Or.inl hmore⟩
  · -- A client that reads no more may be sent what there is.
    exact Or.inr ⟨⟨halike.core, halike.reader, halike.inFlight, Or.inl hdeaf⟩, Or.inr hdeaf⟩

/-- The clients may settle. -/
theorem settle (h : Parted u place part more s t) (between : (split place).2 = [])
    (whole : Whole chunk) (chunked : 0 < u.chunk) (parts : part ++ more = chunk ++ delimiter)
    (fit : ∀ m, s.Leads m → m.RepliesFit place)
    (unawaited : ∀ m, t.Leads m → m.Unawaited place chunk (place ++ part)) :
    Parted u place part more s.settle t.settle := by
  rcases h with hapart | ⟨halike, hrest⟩
  · have hfit : ∀ m, s.Leads m → m.RepliesFit (place ++ ([] ++ [])) := by
      intro m hm
      rw [List.append_nil, List.append_nil]
      exact fit m hm
    cases more with
    | nil =>
      -- The chunk is complete.
      rw [List.append_nil] at parts
      subst parts
      have hsettle := hapart.settle fun hrunning hreads =>
        hapart.rejoins_inserted hrunning hreads chunked whole.segment hfit fun m hm => by
          rw [List.append_nil]
          exact unawaited m hm
      exact hsettle.symm.imp_right fun halike => ⟨halike, Or.inl rfl⟩
    | cons b more =>
      have hpart := whole.part (by simp) parts
      exact (hapart.settle_of_part between hpart chunked hfit).symm.imp_right fun h =>
        ⟨h.1, Or.inr h.2⟩
  · exact Or.inr ⟨halike.settle, hrest.imp_right Deaf.settle⟩

end Parted

end PipeCall.Session
