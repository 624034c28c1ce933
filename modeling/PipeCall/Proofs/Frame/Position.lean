import PipeCall.Proofs.Frame.Lineup

/-!
# Where a decoder stands in its stream

The segments of a stream can be read off from its front in one way only: a byte string that begins
with a segment begins with no other (`eq_of_segment_append`), so of two ways of reading some
segments off it one goes on from the other (`join_append_cases`). What a decoder takes when it is
asked once is a look at its stream; if a given segment is further on, the look ends before that
segment, or with a result of it, or behind it (`Looks.position`). A decoder that has no frame
to give, and has been asked for one, is in a state that the unread bytes determine, however they
have come to it (`Decoder.Tracks.next_of_none`).
-/

namespace PipeCall.Frame

open Bytes (lineFeed)

/-! ## Reading segments off a stream -/

/-- A byte string is a segment of any stream in which a delimiter follows it: there is no delimiter
in it, and it does not end in a line feed. -/
structure Whole (b : Bytes) : Prop where
  undivided : findDelimiter? b = none
  last : b.getLast? ≠ some lineFeed

/-- No delimiter begins at the last byte of a whole segment. -/
theorem Whole.segment {b : Bytes} (h : Whole b) : findDelimiter? (b ++ [lineFeed]) = none := by
  cases hf : findDelimiter? (b ++ [lineFeed]) with
  | none => rfl
  | some stop =>
    -- A delimiter that the line feed completes begins with the byte before it.
    have hlong := length_le_of_findDelimiter?_append h.undivided hf
    obtain ⟨hle, heq⟩ := eq_of_findDelimiter? hf
    rw [List.length_append, List.length_singleton, length_delimiter] at hle
    have hdrop : (b ++ [lineFeed]).drop (stop + delimiter.length) = [] := by
      refine List.drop_eq_nil_of_le ?_
      rw [List.length_append, List.length_singleton, length_delimiter]
      omega
    -- Both end in the line feed, so what is before it is the same.
    have hb : b = (b ++ [lineFeed]).take stop ++ [lineFeed] := by
      have hsplit : b ++ [lineFeed] = (b ++ [lineFeed]).take stop ++ [lineFeed] ++ [lineFeed] := by
        rw [hdrop] at heq
        simpa [delimiter] using heq
      exact List.append_cancel_right hsplit
    refine absurd ?_ h.last
    rw [hb, List.getLast?_concat]

/-- There is no delimiter in a whole segment and a part of its delimiter. -/
theorem Whole.part {b part more : Bytes} (h : Whole b) (hmore : more ≠ [])
    (parts : part ++ more = b ++ delimiter) : findDelimiter? part = none := by
  obtain ⟨front, last, rfl⟩ := (List.eq_nil_or_concat more).resolve_left hmore
  have hfront : part ++ front = b ++ [lineFeed] := by
    have hparts : part ++ front ++ [last] = b ++ [lineFeed] ++ [lineFeed] := by
      rw [List.concat_eq_append] at parts
      rw [List.append_assoc, parts, List.append_assoc]
      rfl
    exact (List.append_inj' hparts rfl).1
  cases hf : findDelimiter? part with
  | none => rfl
  | some stop =>
    have happ := findDelimiter?_append hf front
    rw [hfront, h.segment] at happ
    simp at happ

/-- The first segment of a byte string, and what is behind it, can be read off it in one way only.
-/
theorem eq_of_segment_append {s t xs ys : Bytes} (hs : findDelimiter? (s ++ [lineFeed]) = none)
    (ht : findDelimiter? (t ++ [lineFeed]) = none)
    (h : s ++ delimiter ++ xs = t ++ delimiter ++ ys) : s = t ∧ xs = ys := by
  have hfind := findDelimiter?_segment_append hs xs
  rw [h, findDelimiter?_segment_append ht ys] at hfind
  have hlen : s.length = t.length := (Option.some.inj hfind).symm
  rw [List.append_assoc, List.append_assoc] at h
  obtain ⟨rfl, hrest⟩ := List.append_inj h hlen
  exact ⟨rfl, List.append_cancel_left hrest⟩

/-- Whoever has read some segments off a byte string stands before a segment that it has further on,
or has read that segment too. -/
theorem join_append_cases {read front : List Bytes} {rest segment behind : Bytes}
    (hread : ∀ s ∈ read, findDelimiter? (s ++ [lineFeed]) = none)
    (hfront : ∀ s ∈ front, findDelimiter? (s ++ [lineFeed]) = none)
    (hsegment : findDelimiter? (segment ++ [lineFeed]) = none)
    (h : join read ++ rest = join front ++ (segment ++ delimiter ++ behind)) :
    (∃ more, front = read ++ more ∧ rest = join more ++ (segment ++ delimiter ++ behind)) ∨
      ∃ more, read = front ++ segment :: more ∧ behind = join more ++ rest := by
  induction read generalizing front with
  | nil => exact Or.inl ⟨front, rfl, h⟩
  | cons s read ih =>
    obtain ⟨hs, hothers⟩ := List.forall_mem_cons.1 hread
    rw [join_cons, List.append_assoc] at h
    cases front with
    | nil =>
      obtain ⟨rfl, hbehind⟩ := eq_of_segment_append hs hsegment h
      exact Or.inr ⟨read, rfl, hbehind.symm⟩
    | cons t front =>
      obtain ⟨ht, hlater⟩ := List.forall_mem_cons.1 hfront
      rw [join_cons, List.append_assoc _ (join front)] at h
      obtain ⟨rfl, hrest⟩ := eq_of_segment_append hs ht h
      rcases ih hothers hlater hrest with ⟨more, rfl, heq⟩ | ⟨more, rfl, heq⟩
      · exact Or.inl ⟨more, rfl, heq⟩
      · exact Or.inr ⟨more, rfl, heq⟩

/-- Behind a segment there is no tail before its delimiter. -/
theorem findDelimiter?_join_append {front : List Bytes} {segment : Bytes}
    (hfront : ∀ s ∈ front, findDelimiter? (s ++ [lineFeed]) = none)
    (hsegment : findDelimiter? (segment ++ [lineFeed]) = none) (behind : Bytes) :
    findDelimiter? (join front ++ (segment ++ delimiter ++ behind)) ≠ none := by
  cases front with
  | nil =>
    rw [join_nil, List.nil_append, findDelimiter?_segment_append hsegment]
    simp
  | cons s front =>
    obtain ⟨hs, -⟩ := List.forall_mem_cons.1 hfront
    rw [join_cons, List.append_assoc, findDelimiter?_segment_append hs]
    simp

/-! ## Where a look ends -/

namespace Looks

variable {limit : Nat} {bs rest : Bytes} {r : Option (Except Fault Bytes)}

/-- It is the same look if more bytes arrive behind. -/
theorem extend (h : Looks limit bs r rest) (cs : Bytes) :
    Looks limit (bs ++ cs) r (rest ++ cs) := by
  cases h with
  | nothing skipped eq skips => exact .nothing skipped (by rw [eq, List.append_assoc]) skips
  | result skipped eq skips undivided reported =>
    exact .result skipped (by rw [eq]; simp) skips undivided reported

/-- The tail of a stream is still there after a look. -/
theorem tail (h : Looks limit bs r rest) : (split rest).2 = (split bs).2 := by
  cases h with
  | nothing skipped eq skips => rw [eq, split_join fun s hs => (skips s hs).1]
  | @result skipped segment _ _ eq skips undivided _ =>
    have hone : ∀ s ∈ [segment], findDelimiter? (s ++ [lineFeed]) = none := by simpa using undivided
    rw [eq, split_join fun s hs => (skips s hs).1,
      show segment ++ delimiter ++ rest = join [segment] ++ rest by simp, split_join hone]

/-- A look that gives no result, and leaves nothing, goes on behind. -/
theorem append {cs : Bytes} (h : Looks limit bs none []) (h' : Looks limit cs r rest) :
    Looks limit (bs ++ cs) r rest := by
  cases h with
  | nothing passed heq hpassed =>
    rw [List.append_nil] at heq
    cases h' with
    | nothing skipped eq skips =>
      exact .nothing (passed ++ skipped) (by rw [heq, eq, join_append, List.append_assoc])
        (List.forall_mem_append.2 ⟨hpassed, skips⟩)
    | result skipped eq skips undivided reported =>
      exact .result (passed ++ skipped) (by rw [heq, eq, join_append, List.append_assoc (join passed)])
        (List.forall_mem_append.2 ⟨hpassed, skips⟩) undivided reported

/-- A look at some segments and a tail takes nothing of the tail. -/
theorem before_tail {front : List Bytes} {part : Bytes} (h : Looks limit (join front ++ part) r rest)
    (hfront : ∀ s ∈ front, findDelimiter? (s ++ [lineFeed]) = none)
    (hpart : findDelimiter? part = none) :
    ∃ more, (∀ s ∈ more, s ∈ front) ∧ Looks limit (join front) r (join more) ∧
      rest = join more ++ part := by
  have htail := h.tail
  have hsplit := split_join hfront part
  rw [hsplit, split_of_find_none hpart] at htail
  -- What is left of the segments are those that can be read off the rest.
  have hrest : rest = join (split rest).1 ++ part := by
    have hjoin := join_split rest
    rw [htail] at hjoin
    exact hjoin.symm
  rw [split_of_find_none hpart, List.append_nil] at hsplit
  cases h with
  | nothing skipped eq skips =>
    rw [eq, split_join fun s hs => (skips s hs).1] at hsplit
    obtain ⟨rfl, -⟩ := Prod.mk.inj hsplit
    exact ⟨_, fun s hs => List.mem_append_right _ hs, .nothing skipped (join_append _ _) skips, hrest⟩
  | @result skipped segment _ r eq skips undivided reported =>
    have hone : ∀ s ∈ [segment], findDelimiter? (s ++ [lineFeed]) = none := by simpa using undivided
    rw [eq, split_join fun s hs => (skips s hs).1,
      show segment ++ delimiter ++ rest = join [segment] ++ rest by simp, split_join hone] at hsplit
    obtain ⟨rfl, -⟩ := Prod.mk.inj hsplit
    refine ⟨(split rest).1, fun s hs => by simp [hs], ?_, hrest⟩
    exact .result skipped (by simp) skips undivided reported

/-- A look at a stream with a given segment further on ends before that segment, or with a result of
it, or behind it. -/
theorem position {front : List Bytes} {segment behind : Bytes} (h : Looks limit bs r rest)
    (eq : bs = join front ++ (segment ++ delimiter ++ behind))
    (hfront : ∀ s ∈ front, findDelimiter? (s ++ [lineFeed]) = none)
    (hsegment : findDelimiter? (segment ++ [lineFeed]) = none) :
    (∃ more, (∀ s ∈ more, s ∈ front) ∧ Looks limit (join front) r (join more) ∧
      rest = join more ++ (segment ++ delimiter ++ behind)) ∨
    Looks limit (join front) none [] ∧
      ((∃ x, r = some x ∧ Reported limit segment [x] ∧ rest = behind) ∨
        Looks limit behind r rest) := by
  -- Segments that are passed over give no results, with nothing behind them either.
  have hskipped : ∀ {skipped : List Bytes},
      (∀ s ∈ skipped, findDelimiter? (s ++ [lineFeed]) = none ∧ Reported limit s []) →
        Looks limit (join skipped) none [] :=
    fun skips => .nothing _ (List.append_nil _).symm skips
  cases h with
  | nothing skipped heq skips =>
    rw [heq] at eq
    rcases join_append_cases (fun s hs => (skips s hs).1) hfront hsegment eq with
      ⟨more, rfl, hrest⟩ | ⟨more, rfl, hbehind⟩
    · -- The look ends among the segments in front.
      refine Or.inl ⟨more, fun s hs => List.mem_append_right _ hs, ?_, hrest⟩
      exact .nothing skipped (join_append skipped more) skips
    · -- The segment is one of those that are passed over.
      obtain ⟨hbefore, hafter⟩ := List.forall_mem_append.1 skips
      exact Or.inr ⟨hskipped hbefore, Or.inr (.nothing more hbehind fun s hs =>
        hafter s (List.mem_cons_of_mem _ hs))⟩
  | @result skipped taken _ r heq skips undivided reported =>
    rw [heq] at eq
    rcases join_append_cases (fun s hs => (skips s hs).1) hfront hsegment eq with
      ⟨_ | ⟨next, more⟩, rfl, hrest⟩ | ⟨more, rfl, hbehind⟩
    · -- The result is of the segment itself.
      obtain ⟨rfl, rfl⟩ := eq_of_segment_append undivided hsegment hrest
      rw [List.append_nil]
      exact Or.inr ⟨hskipped skips, Or.inl ⟨r, rfl, reported, rfl⟩⟩
    · -- The result is of a segment in front.
      rw [join_cons, List.append_assoc (next ++ delimiter)] at hrest
      obtain ⟨rfl, hlater⟩ := eq_of_segment_append undivided (hfront next (by simp)) hrest
      refine Or.inl ⟨more, fun s hs => by simp [hs], ?_, hlater⟩
      rw [join_append, join_cons]
      exact .result skipped rfl skips undivided reported
    · -- The segment is passed over, and the result is of one behind it.
      obtain ⟨hbefore, hafter⟩ := List.forall_mem_append.1 skips
      exact Or.inr ⟨hskipped hbefore, Or.inr (.result more hbehind
        (fun s hs => hafter s (List.mem_cons_of_mem _ hs)) undivided reported)⟩

end Looks

/-! ## Decoders that have nothing to give -/

namespace Decoder

variable {d e : Decoder} {unread tail : Bytes} {limit : Nat}

/-- A decoder that has looked for a frame in the tail of its stream and found none. -/
def idle (limit : Nat) (tail : Bytes) : Decoder := shed { limit, buffer := tail }

/-- What is left when nothing is taken is the tail of the unread bytes. -/
theorem Takes.eq_tail (h : Takes limit unread none tail) : (split unread).2 = tail := by
  cases h with
  | nothing skipped heq hskipped htail =>
    rw [heq, split_join fun s hs => (hskipped s hs).1, split_of_find_none htail]

/-- A decoder that finds no delimiter is left in a state that depends on the unread bytes alone. -/
theorem Tracks.shed_eq (h : d.Tracks unread) : d.shed = idle d.limit unread := by
  cases hd : d.discarded with
  | none =>
    obtain rfl := h.eq_buffer hd
    simp [idle, Decoder.shed, hd]
  | some n =>
    -- The bytes thrown away are as many as the limit, and one more is in the buffer.
    have hn := h.reached n hd
    obtain ⟨dropped, rfl, hlen, -⟩ := h.held
    have hpos := List.length_pos_iff.2 (h.kept (by rw [hd]; rfl))
    rw [hd, Option.getD_some] at hlen
    subst hlen
    have hlong : ¬((none : Option Nat) = none ∧ (dropped ++ d.buffer).length ≤ d.limit) := by
      rw [List.length_append]
      omega
    have hsum : (dropped ++ d.buffer).length - 1 = dropped.length + (d.buffer.length - 1) := by
      rw [List.length_append]
      omega
    have hnot : ¬(d.discarded = none ∧ d.buffer.length ≤ d.limit) := by simp [hd]
    unfold idle Decoder.shed
    rw [if_neg hnot, if_neg hlong]
    simp only [hsum, List.drop_length_add_append, hd, Option.getD_some, Option.getD_none,
      Nat.zero_add]

/-- A decoder that has nothing to give has only blank segments, and is left in a state that depends
on the unread bytes alone. -/
theorem Tracks.next_of_none (h : d.Tracks unread) (hnone : d.next.1 = none) :
    d.next = (none, idle d.limit (split unread).2) ∧
      ∀ b ∈ (split unread).1, Bytes.blank b = true := by
  induction hn : d.buffer.length using Nat.strongRecOn generalizing d unread with
  | ind n ih =>
    cases hf : d.find? with
    | none =>
      -- All the unread bytes are the tail.
      have htail : findDelimiter? unread = none := by
        rw [h.find?_unread, hf]
        rfl
      rw [next_of_find_none hf, h.shed_eq, split_of_find_none htail]
      exact ⟨rfl, by simp⟩
    | some stop =>
      obtain ⟨segment, hsegment, heq, -, htake, -⟩ := h.first hf
      have hbehind := h.dropFrame stop
      have hshort := length_dropFrame hf
      rw [length_delimiter] at hshort
      have hnext := next_of_find_some hf
      rw [hnext] at hnone ⊢
      cases hd : d.discarded with
      | some dropped => simp [hd] at hnone
      | none =>
        simp only [hd] at hnone ⊢
        split at hnone
        · -- A blank frame is passed over, and the rest is as with what is behind it.
          rename_i hblank
          obtain ⟨hrest, hblanks⟩ := ih _ (by omega) hbehind hnone rfl
          have hjoin := split_join (List.forall_mem_singleton.2 hsegment)
            (unread.drop (d.discarded.getD 0 + stop + delimiter.length))
          rw [join_cons, join_nil, List.append_nil, ← heq] at hjoin
          rw [if_pos hblank, hrest, hjoin]
          refine ⟨rfl, fun b hb => ?_⟩
          rcases List.mem_cons.1 hb with rfl | hb
          · rw [← htake hd]
            exact hblank
          · exact hblanks b hb
        · split at hnone <;> simp at hnone

/-- A decoder that has given a result has thrown away nothing of what it has still. -/
theorem discarded_next {r : Except Fault Bytes} (h : d.next = (some r, e)) :
    e.discarded = none := by
  induction hn : d.buffer.length using Nat.strongRecOn generalizing d with
  | ind n ih =>
    cases hf : d.find? with
    | none => rw [next_of_find_none hf] at h; simp at h
    | some stop =>
      have hshort := length_dropFrame hf
      rw [length_delimiter] at hshort
      have hdropped : (d.dropFrame stop).discarded = none := rfl
      rw [next_of_find_some hf] at h
      cases hd : d.discarded with
      | some dropped =>
        rw [hd] at h
        obtain rfl : d.dropFrame stop = e := (Prod.mk.inj h).2
        exact hdropped
      | none =>
        simp only [hd] at h
        split at h
        · exact ih _ (by omega) h rfl
        · split at h <;> obtain rfl : d.dropFrame stop = e := (Prod.mk.inj h).2 <;> exact hdropped

end Decoder

end PipeCall.Frame
