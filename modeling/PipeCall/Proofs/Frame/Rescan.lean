import PipeCall.Proofs.Frame.Lineup

/-!
# Searching on from where the last search ended

A decoder remembers how far it has searched, and drops bytes that it has searched. `Rescanner` is the
same splitter without that memory: it searches its whole buffer every time. The two agree on every
result and on every byte that is kept (`Decoder.Holds.next_forget`, `Decoder.Tracks.forget_play`),
because the search that is resumed finds what a whole one would (`Decoder.find?_eq`).

`Decoder.round?` is one round of the search for a frame, which cannot be made where it would take bytes
that are not in the buffer, and `Decoder.Loops` says what the rounds come to, if they do: it is what
`Decoder.next` gives (`Decoder.loops_next`). `decoder_resumes` puts together what is known of a decoder
after any use.
-/

namespace PipeCall.Frame

open Bytes (lineFeed)

/-- A search finds nothing exactly if no two line feeds stand next to each other. -/
theorem findDelimiter?_eq_none_iff {xs : Bytes} : findDelimiter? xs = none ↔
    ∀ i, ¬(xs[i]? = some lineFeed ∧ xs[i + 1]? = some lineFeed) := by
  induction xs with
  | nil => simp [findDelimiter?]
  | cons a xs ih =>
    cases xs with
    | nil => simp [findDelimiter?]
    | cons b xs =>
      rw [← Nat.and_forall_add_one]
      by_cases hab : a = lineFeed ∧ b = lineFeed
      · simp [findDelimiter?, hab]
      · rw [findDelimiter?_cons_cons a b xs hab, Option.map_eq_none_iff, ih]
        simp only [List.getElem?_cons_zero, List.getElem?_cons_succ, Nat.zero_add,
          Option.some.injEq, hab, not_false_eq_true, true_and]

/-! ## A splitter without a memory -/

/-- A splitter of a byte stream that does not know how far it has searched. -/
structure Rescanner where
  /-- The greatest length of a frame. -/
  limit : Nat
  /-- The bytes that have arrived and not been handed out or thrown away. -/
  buffer : Bytes := []
  /-- The number of bytes thrown away of the unfinished frame, if it has passed the limit. -/
  discarded : Option Nat := none

namespace Rescanner

/-- More bytes arrive. -/
def extend (s : Rescanner) (bs : Bytes) : Rescanner := { s with buffer := s.buffer ++ bs }

/-- The splitter behind a frame that ends at offset `stop`. -/
def dropFrame (s : Rescanner) (stop : Nat) : Rescanner :=
  { limit := s.limit, buffer := s.buffer.drop (stop + delimiter.length) }

/-- An unfinished frame that has passed the limit is thrown away but for its last byte. -/
def shed (s : Rescanner) : Rescanner :=
  if s.discarded = none ∧ s.buffer.length ≤ s.limit then s
  else
    let drop := s.buffer.length - 1
    { s with buffer := s.buffer.drop drop, discarded := some (s.discarded.getD 0 + drop) }

/-- The next frame, or nothing if more bytes are needed. The whole buffer is searched. -/
def next (s : Rescanner) : Option (Except Fault Bytes) × Rescanner :=
  match _h : findDelimiter? s.buffer with
  | none => (none, s.shed)
  | some stop =>
    let frame := s.buffer.take stop
    match s.discarded with
    | some dropped => (some (.error (.oversized (dropped + frame.length) s.limit)), s.dropFrame stop)
    | none =>
      if Bytes.blank frame then (s.dropFrame stop).next
      else if s.limit < frame.length then
        (some (.error (.oversized frame.length s.limit)), s.dropFrame stop)
      else (some (.ok frame), s.dropFrame stop)
termination_by s.buffer.length
decreasing_by
  have hle := (eq_of_findDelimiter? ‹_›).1
  simp only [dropFrame, List.length_drop, length_delimiter] at hle ⊢
  omega

/-- Uses the splitter once. -/
def use (s : Rescanner) : Decoder.Use → Rescanner
  | .extend bs => s.extend bs
  | .next => s.next.2

variable {s : Rescanner} {stop : Nat}

/-- Without a delimiter there is no frame. -/
theorem next_of_find_none (h : findDelimiter? s.buffer = none) : s.next = (none, s.shed) := by
  rw [next]
  split
  · rfl
  · rename_i heq
    rw [h] at heq
    simp at heq

/-- The next frame by the first delimiter. -/
theorem next_of_find_some (h : findDelimiter? s.buffer = some stop) :
    s.next =
      match s.discarded with
      | some dropped =>
        (some (.error (.oversized (dropped + (s.buffer.take stop).length) s.limit)),
          s.dropFrame stop)
      | none =>
        if Bytes.blank (s.buffer.take stop) then (s.dropFrame stop).next
        else if s.limit < (s.buffer.take stop).length then
          (some (.error (.oversized (s.buffer.take stop).length s.limit)), s.dropFrame stop)
        else (some (.ok (s.buffer.take stop)), s.dropFrame stop) := by
  rw [next]
  split
  · rename_i heq
    rw [h] at heq
    simp at heq
  · rename_i stop' heq
    obtain rfl : stop = stop' := Option.some.inj (h.symm.trans heq)
    rfl

end Rescanner

namespace Decoder

variable {d : Decoder} {unread : Bytes} {stop : Nat}

/-- The splitter that does not know how far the decoder has searched. -/
def forget (d : Decoder) : Rescanner :=
  { limit := d.limit, buffer := d.buffer, discarded := d.discarded }

/-- The same bytes are thrown away. -/
theorem forget_shed (d : Decoder) : d.shed.forget = d.forget.shed := by
  unfold shed Rescanner.shed
  split
  · rw [if_pos ‹_›]
    rfl
  · rw [if_neg ‹_›]
    rfl

/-- A decoder hands out what it would hand out if it searched its whole buffer, and keeps the same
bytes. -/
theorem Holds.next_forget (h : d.Holds unread) : d.forget.next = (d.next.1, d.next.2.forget) := by
  induction hn : d.buffer.length using Nat.strongRecOn generalizing d unread with
  | ind n ih =>
    have hfind := find?_eq h.scanned_le h.unfound
    cases hf : d.find? with
    | none =>
      have hwhole : findDelimiter? d.forget.buffer = none := hfind.symm.trans hf
      rw [next_of_find_none hf, Rescanner.next_of_find_none hwhole, forget_shed]
    | some stop =>
      have hwhole : findDelimiter? d.forget.buffer = some stop := hfind.symm.trans hf
      have hshort := length_dropFrame hf
      rw [length_delimiter] at hshort
      have hbehind := ih _ (by omega) (h.dropFrame stop) rfl
      rw [next_of_find_some hf, Rescanner.next_of_find_some hwhole]
      cases hd : d.discarded with
      | some dropped =>
        simp only [forget, hd]
        rfl
      | none =>
        -- Behind a blank frame they go on alike.
        simp only [forget, hd]
        split
        · exact hbehind
        · split <;> rfl

/-- Along any use the decoder keeps the bytes that it would keep if it searched its whole buffer every
time. -/
theorem Tracks.forget_play (h : d.Tracks unread) (uses : List Use) :
    (d.play uses).2.forget = uses.foldl Rescanner.use d.forget := by
  induction uses generalizing d unread with
  | nil => rfl
  | cons use uses ih =>
    cases use with
    | extend bs => exact ih (h.extend bs)
    | next =>
      obtain ⟨-, rest, -, htracks⟩ := h.next
      have hnext : d.forget.use .next = d.next.2.forget := by
        rw [Rescanner.use, h.toHolds.next_forget]
      rw [List.foldl_cons, hnext]
      exact ih htracks

/-! ## The loop over blank frames -/

/-- What a round of the search for a frame comes to. -/
inductive Round where
  /-- There is a result, or there is no frame. -/
  | done (result : Option (Except Fault Bytes)) (left : Decoder)
  /-- A blank frame was passed over. -/
  | again (left : Decoder)

/-- One round of the search for a frame. It cannot be made if it takes a part of the buffer that is
not there: behind where the last search ended, or up to the end of a delimiter. -/
def round? (d : Decoder) : Option Round :=
  if d.scanned - 1 ≤ d.buffer.length then
    match d.find? with
    | none => some (.done none d.shed)
    | some stop =>
      if stop + delimiter.length ≤ d.buffer.length then
        let frame := d.buffer.take stop
        match d.discarded with
        | some dropped =>
          some (.done (some (.error (.oversized (dropped + frame.length) d.limit))) (d.dropFrame stop))
        | none =>
          if Bytes.blank frame then some (.again (d.dropFrame stop))
          else if d.limit < frame.length then
            some (.done (some (.error (.oversized frame.length d.limit))) (d.dropFrame stop))
          else some (.done (some (.ok frame)) (d.dropFrame stop))
      else none
  else none

/-- Round after round can be made, and in the end there is this result. -/
inductive Loops : Decoder → Option (Except Fault Bytes) × Decoder → Prop where
  | done {d e : Decoder} {r : Option (Except Fault Bytes)} (round : d.round? = some (.done r e)) :
      Loops d (r, e)
  | again {d e : Decoder} {out : Option (Except Fault Bytes) × Decoder}
      (round : d.round? = some (.again e)) (rest : Loops e out) : Loops d out

/-- The rounds can only come to one result. -/
theorem Loops.unique {out out' : Option (Except Fault Bytes) × Decoder} (h : d.Loops out)
    (h' : d.Loops out') : out = out' := by
  induction h with
  | done round =>
    cases h' with
    | done round' =>
      cases round.symm.trans round'
      rfl
    | again round' => cases round.symm.trans round'
  | again round _ ih =>
    cases h' with
    | done round' => cases round.symm.trans round'
    | again round' rest' =>
      cases round.symm.trans round'
      exact ih rest'

/-- Without a delimiter the round is the last one. -/
theorem round?_of_find_none (h : d.scanned ≤ d.buffer.length) (hf : d.find? = none) :
    d.round? = some (.done none d.shed) := by
  rw [round?, if_pos (by omega), hf]

/-- With a delimiter the round can be made, and it is the last one unless the frame is blank. -/
theorem round?_of_find_some (h : d.scanned ≤ d.buffer.length) (hf : d.find? = some stop) :
    d.round? =
      match d.discarded with
      | some dropped =>
        some (.done (some (.error (.oversized (dropped + (d.buffer.take stop).length) d.limit)))
          (d.dropFrame stop))
      | none =>
        if Bytes.blank (d.buffer.take stop) then some (.again (d.dropFrame stop))
        else if d.limit < (d.buffer.take stop).length then
          some (.done (some (.error (.oversized (d.buffer.take stop).length d.limit)))
            (d.dropFrame stop))
        else some (.done (some (.ok (d.buffer.take stop))) (d.dropFrame stop)) := by
  rw [round?, if_pos (by omega), hf]
  simp only [if_pos (le_length_of_find? hf)]

/-- Every round can be made, and they come to the next frame, unless the search has gone past the
buffer. -/
theorem loops_next (h : d.scanned ≤ d.buffer.length) : d.Loops d.next := by
  induction hn : d.buffer.length using Nat.strongRecOn generalizing d with
  | ind n ih =>
    cases hf : d.find? with
    | none =>
      rw [next_of_find_none hf]
      exact .done (round?_of_find_none h hf)
    | some stop =>
      have hround := round?_of_find_some h hf
      have hshort := length_dropFrame hf
      rw [length_delimiter] at hshort
      rw [next_of_find_some hf]
      cases hd : d.discarded with
      | some dropped =>
        simp only [hd] at hround
        exact .done hround
      | none =>
        simp only [hd] at hround ⊢
        split at hround
        · -- The search begins anew behind a blank frame, in fewer bytes.
          rw [if_pos ‹_›]
          exact .again hround (ih _ (by omega) (Nat.zero_le _) rfl)
        · rw [if_neg ‹_›]
          split at hround
          · rw [if_pos ‹_›]
            exact .done hround
          · rw [if_neg ‹_›]
            exact .done hround

/-! ## A decoder after any use -/

/-- The bytes thrown away of an unfinished frame, and those up to the next delimiter, are the segment
of the stream that is being skipped. -/
theorem Holds.skipped (h : d.Holds unread) {done : List Bytes}
    (undivided : ∀ s ∈ done, findDelimiter? (s ++ [lineFeed]) = none) :
    ∃ dropped : Bytes, unread = dropped ++ d.buffer ∧ dropped.length = d.discarded.getD 0 ∧
      ∀ more stop, findDelimiter? (d.buffer ++ more) = some stop →
        ∃ later, (split (join done ++ unread ++ more)).1 =
          done ++ (dropped ++ (d.buffer ++ more).take stop) :: later := by
  obtain ⟨dropped, heq, hlen, -⟩ := h.held
  refine ⟨dropped, heq, hlen, fun more stop hstop => ?_⟩
  have hmore := h.extend more
  have hfind : findDelimiter? (unread ++ more) = some (dropped.length + stop) := by
    rw [hmore.find?_unread, find?_eq hmore.scanned_le hmore.unfound, hlen, Nat.add_comm]
    exact congrArg (Option.map _) hstop
  rw [List.append_assoc, split_join undivided, split_of_find_some hfind, heq, List.append_assoc,
    List.take_length_add_append]
  exact ⟨_, rfl⟩

end Decoder

/-- What is known of a decoder that has been handed a stream, beside a splitter that was used alike. -/
structure Resumes (d : Decoder) (stream : Bytes) (s : Rescanner) : Prop where
  /-- The search has not gone past the buffer. -/
  scanned_le : d.scanned ≤ d.buffer.length
  /-- No delimiter starts in the buffer before the last byte that was searched. -/
  unfound (i : Nat) : i + 1 < d.scanned →
    ¬(d.buffer[i]? = some lineFeed ∧ d.buffer[i + 1]? = some lineFeed)
  /-- While a segment is being skipped, the number of its bytes that were thrown away and the bytes up
  to the next delimiter, whenever that comes, are its true length. -/
  skipped (n : Nat) : d.discarded = some n →
    ∃ (done : List Bytes) (dropped : Bytes), stream = join done ++ (dropped ++ d.buffer) ∧
      dropped.length = n ∧ ∀ more stop, findDelimiter? (d.buffer ++ more) = some stop →
        ∃ segment later, (split (stream ++ more)).1 = done ++ segment :: later ∧
          segment = dropped ++ (d.buffer ++ more).take stop ∧ segment.length = n + stop
  /-- The search that is resumed finds what a search of the whole buffer finds. -/
  resumed : d.find? = findDelimiter? d.buffer
  /-- The search for a frame takes no bytes that are not there, and ends with the next frame. -/
  ends (out : Option (Except Fault Bytes) × Decoder) : d.Loops out ↔ out = d.next
  /-- The splitter that searches its whole buffer every time has kept the same bytes. -/
  kept : d.forget = s
  /-- It gives the same result now, and keeps the same bytes then. -/
  next : s.next = (d.next.1, d.next.2.forget)

/-- A decoder that is handed a stream in any pieces, and asked for frames at any times, does the same
as one that searches its whole buffer every time. -/
theorem decoder_resumes (limit : Nat) (uses : List Decoder.Use) :
    Resumes (Decoder.play { limit } uses).2 (uses.flatMap Decoder.Use.bytes)
      (uses.foldl Rescanner.use { limit }) := by
  have hforget : (Decoder.play { limit } uses).2.forget = uses.foldl Rescanner.use { limit } :=
    (Decoder.tracks_new limit).forget_play uses
  obtain ⟨-, rest, ⟨done, -, hstream, hundivided, -, -⟩, htracks⟩ :=
    (Decoder.tracks_new limit).play uses
  rw [List.nil_append] at hstream
  generalize (Decoder.play { limit } uses).2 = d at hforget htracks ⊢
  refine ⟨htracks.scanned_le, fun i hi hpair => ?_, fun n hn => ?_,
    Decoder.find?_eq htracks.scanned_le htracks.unfound, fun out => ⟨fun h => ?_, fun h => ?_⟩,
    hforget, ?_⟩
  · -- Both bytes are among those that were searched.
    refine findDelimiter?_eq_none_iff.1 htracks.unfound i ?_
    rw [List.getElem?_take_of_lt (by omega), List.getElem?_take_of_lt hi]
    exact hpair
  · obtain ⟨dropped, heq, hlen, hskipped⟩ := htracks.toHolds.skipped hundivided
    rw [hn, Option.getD_some] at hlen
    refine ⟨done, dropped, by rw [hstream, heq], hlen, fun more stop hstop => ?_⟩
    obtain ⟨later, hlater⟩ := hskipped more stop hstop
    have hle := (eq_of_findDelimiter? hstop).1
    rw [hstream]
    refine ⟨_, later, hlater, rfl, ?_⟩
    rw [List.length_append, hlen, List.length_take]
    omega
  · exact h.unique (Decoder.loops_next htracks.scanned_le)
  · exact h ▸ Decoder.loops_next htracks.scanned_le
  · rw [← hforget]
    exact htracks.toHolds.next_forget

/-- A delimiter is found that comes in two pieces, of which the first is all that is kept of a segment
beyond the limit. -/
example : (Decoder.play { limit := 1 }
    [.extend [0x61, 0x62, 0x0a], .next, .extend [0x0a], .next]).1 = [.error (.oversized 2 1)] := rfl

end PipeCall.Frame
