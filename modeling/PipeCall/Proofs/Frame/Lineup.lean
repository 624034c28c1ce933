import Mathlib.Data.List.Forall2
import PipeCall.Proofs.Frame.Decoder

/-!
# How the results of a decoder line up with the segments of its stream

A user of a decoder hands it bytes and asks it for a frame, in any order (`Use`, `Decoder.play`).
Whatever the order, the results line up with the segments that the delimiters of the stream end:
`Reported limit s out` says what `out` can be reported of the segment `s`, and `results_line_up` that
the results are such reports, one for each segment, one after another.

`Decoder.Tracks` adds to `Decoder.Holds` that bytes were thrown away only when they were as many as
the limit. It is kept by all that a decoder can do, and `Tracks.next` says what one call of `next`
makes of the unread bytes: it passes over segments of which nothing is reported, and ends either
behind the segment of its result or in the tail (`Takes`). A look that may end before the tail is
`Looks`, which stays what it is when more bytes arrive.
-/

namespace PipeCall.Frame

open Bytes (lineFeed)

/-! ## What can be reported of a segment -/

/-- These are results that a decoder can give of a segment. Between them they leave open only whether
a segment as long as the limit is handed out, and whether a blank one as long is passed over. -/
structure Reported (limit : Nat) (segment : Bytes) (out : List (Except Fault Bytes)) : Prop where
  /-- A segment gives one result at most. -/
  length_le_one : out.length ≤ 1
  /-- A segment shorter than the limit is handed out unchanged, if it is not blank. -/
  ok : Bytes.blank segment = false → segment.length < limit → out = [.ok segment]
  /-- A segment longer than the limit is refused with its whole length, if it is not blank. -/
  oversized : Bytes.blank segment = false → limit < segment.length →
    out = [.error (.oversized segment.length limit)]
  /-- A blank segment shorter than the limit gives nothing. -/
  blank : Bytes.blank segment = true → segment.length < limit → out = []
  /-- A result is the segment itself or its whole length. -/
  own : ∀ r ∈ out, r = .ok segment ∧ Bytes.blank segment = false ∨
    r = .error (.oversized segment.length limit)

/-- A verdict is such a report, if bytes were thrown away only of a segment as long as the limit. -/
theorem reported_verdict {limit : Nat} {shed : Bool} {segment : Bytes}
    (h : shed = true → limit ≤ segment.length) :
    Reported limit segment (verdict limit shed segment) := by
  cases shed with
  | true =>
    have hlong := h rfl
    constructor
    · exact Nat.le_refl 1
    · intro _ hlt; omega
    · intro _ _; rfl
    · intro _ hlt; omega
    · intro r hr
      exact Or.inr (List.mem_singleton.1 hr)
  | false =>
    by_cases hblank : Bytes.blank segment
    · rw [show verdict limit false segment = [] by simp [verdict, hblank]]
      constructor <;> simp [hblank]
    · by_cases hlong : limit < segment.length
      · rw [show verdict limit false segment = [.error (.oversized segment.length limit)] by
          simp [verdict, hblank, hlong]]
        constructor <;> simp [hblank, Nat.not_lt_of_gt hlong]
      · rw [show verdict limit false segment = [.ok segment] by simp [verdict, hblank, hlong]]
        constructor <;> simp [hblank, hlong]

/-! ## The unread bytes under any use -/

namespace Decoder

variable {d : Decoder} {unread : Bytes}

/-- The decoder holds these unread bytes, and has thrown some of them away only once they were as
many as the limit. -/
structure Tracks (d : Decoder) (unread : Bytes) : Prop extends d.Holds unread where
  /-- The bytes thrown away are as many as the limit. -/
  reached : ∀ n, d.discarded = some n → d.limit ≤ n

/-- A new decoder tracks no bytes. -/
theorem tracks_new (limit : Nat) : Tracks { limit } [] where
  toHolds := holds_new limit
  reached := by simp

/-- The limit stays when the decoder throws bytes away. -/
theorem limit_shed (d : Decoder) : d.shed.limit = d.limit := by
  unfold shed
  split <;> rfl

/-- Bytes that arrive are unread behind the others. -/
theorem Tracks.extend (h : d.Tracks unread) (bs : Bytes) : (d.extend bs).Tracks (unread ++ bs) where
  toHolds := h.toHolds.extend bs
  reached := h.reached

/-- Taking out a frame leaves the bytes behind it. -/
theorem Tracks.dropFrame (h : d.Tracks unread) (stop : Nat) :
    (d.dropFrame stop).Tracks (unread.drop (d.discarded.getD 0 + stop + delimiter.length)) where
  toHolds := h.toHolds.dropFrame stop
  reached := by simp [Decoder.dropFrame]

/-- A search that found nothing leaves the unread bytes as they are. -/
theorem Tracks.shed (h : d.Tracks unread) (hnone : d.find? = none) : d.shed.Tracks unread where
  toHolds := (h.toHolds.shed hnone).1
  reached := by
    intro n hn
    rw [limit_shed]
    unfold Decoder.shed at hn
    split at hn
    · exact h.reached n hn
    · rename_i hover
      obtain rfl : d.discarded.getD 0 + (d.buffer.length - 1) = n := by simpa using hn
      cases hd : d.discarded with
      | none =>
        have hlong : d.limit < d.buffer.length := by simpa [hd] using hover
        simp only [Option.getD_none]
        omega
      | some m =>
        have hm := h.reached m hd
        simp only [Option.getD_some]
        omega

/-- Unread bytes within the limit are all in the buffer. -/
theorem Tracks.eq_buffer_of_le (h : d.Tracks unread) (hle : unread.length ≤ d.limit) :
    d.discarded = none ∧ d.buffer = unread := by
  have hnone : d.discarded = none := by
    cases hd : d.discarded with
    | none => rfl
    | some n =>
      -- The bytes thrown away and the one that is kept are more than the limit.
      have hn := h.reached n hd
      have hkept := List.length_pos_iff.2 (h.kept (by rw [hd]; rfl))
      obtain ⟨dropped, rfl, hlen, -⟩ := h.held
      rw [hd, Option.getD_some] at hlen
      rw [List.length_append] at hle
      omega
  exact ⟨hnone, (h.eq_buffer hnone).symm⟩

/-- What one call of `next` makes of the unread bytes: its result, and what stays unread. -/
inductive Takes (limit : Nat) (unread : Bytes) : Option (Except Fault Bytes) → Bytes → Prop
  /-- Nothing is reported of any segment, and no delimiter ends the rest. -/
  | nothing (skipped : List Bytes) {tail : Bytes} (heq : unread = join skipped ++ tail)
      (hskipped : ∀ s ∈ skipped, findDelimiter? (s ++ [lineFeed]) = none ∧ Reported limit s [])
      (htail : findDelimiter? tail = none) : Takes limit unread none tail
  /-- One segment is reported, and none before it. -/
  | result (skipped : List Bytes) {segment behind : Bytes} {r : Except Fault Bytes}
      (heq : unread = join (skipped ++ [segment]) ++ behind)
      (hskipped : ∀ s ∈ skipped, findDelimiter? (s ++ [lineFeed]) = none ∧ Reported limit s [])
      (hsegment : findDelimiter? (segment ++ [lineFeed]) = none)
      (hreported : Reported limit segment [r]) : Takes limit unread (some r) behind

/-- A segment that is passed over comes before all that is taken behind it. -/
theorem Takes.cons {limit : Nat} {rest s : Bytes} {r : Option (Except Fault Bytes)}
    (h : Takes limit unread r rest) (hs : findDelimiter? (s ++ [lineFeed]) = none)
    (hreported : Reported limit s []) : Takes limit (s ++ delimiter ++ unread) r rest := by
  cases h with
  | nothing skipped heq hskipped htail =>
    refine .nothing (s :: skipped) ?_ (List.forall_mem_cons.2 ⟨⟨hs, hreported⟩, hskipped⟩)
      htail
    rw [heq, join_cons, List.append_assoc _ (join skipped)]
  | result skipped heq hskipped hsegment hlast =>
    refine .result (s :: skipped) ?_
      (List.forall_mem_cons.2 ⟨⟨hs, hreported⟩, hskipped⟩) hsegment hlast
    rw [heq, List.cons_append, join_cons, List.append_assoc _ (join _)]

/-- The bytes up to the first delimiter that the decoder finds are the first segment of the unread
bytes, and what it says of them is a report of that segment. -/
theorem Tracks.first {stop : Nat} (h : d.Tracks unread) (hf : d.find? = some stop) :
    ∃ segment, findDelimiter? (segment ++ [lineFeed]) = none ∧
      unread = segment ++ delimiter ++ unread.drop (d.discarded.getD 0 + stop + delimiter.length) ∧
      segment.length = d.discarded.getD 0 + stop ∧
      (d.discarded = none → d.buffer.take stop = segment) ∧
      Reported d.limit segment (verdict d.limit d.discarded.isSome segment) := by
  have hunread := h.find?_unread
  rw [hf, Option.map_some, Nat.add_comm stop] at hunread
  obtain ⟨hle, heq⟩ := eq_of_findDelimiter? hunread
  have hlen : (unread.take (d.discarded.getD 0 + stop)).length = d.discarded.getD 0 + stop := by
    rw [length_delimiter] at hle
    rw [List.length_take]
    omega
  refine ⟨_, findDelimiter?_take hunread, heq, hlen, ?_, reported_verdict ?_⟩
  · intro hd
    rw [h.eq_buffer hd, hd, Option.getD_none, Nat.zero_add]
  · intro hsome
    obtain ⟨n, hn⟩ := Option.isSome_iff_exists.1 hsome
    have hover := h.reached n hn
    rw [hlen, hn, Option.getD_some]
    omega

/-- One call of `next` takes its result from the unread bytes, and the decoder tracks the rest. -/
theorem Tracks.next (h : d.Tracks unread) :
    d.next.2.limit = d.limit ∧
      ∃ rest, Takes d.limit unread d.next.1 rest ∧ d.next.2.Tracks rest := by
  induction hn : d.buffer.length using Nat.strongRecOn generalizing d unread with
  | ind n ih =>
    cases hf : d.find? with
    | none =>
      rw [next_of_find_none hf]
      refine ⟨limit_shed d, unread, .nothing [] rfl (by simp) ?_, h.shed hf⟩
      rw [h.find?_unread, hf]
      rfl
    | some stop =>
      -- The decoder goes on behind the first segment, with fewer bytes.
      obtain ⟨segment, hsegment, heq, hlen, htake, hreported⟩ := h.first hf
      have hbehind := h.dropFrame stop
      have hshort := length_dropFrame hf
      rw [length_delimiter] at hshort
      -- What is reported of the first segment is reported now, unless it is nothing.
      have hresult : ∀ r, verdict d.limit d.discarded.isSome segment = [r] →
          Takes d.limit unread (some r)
            (unread.drop (d.discarded.getD 0 + stop + delimiter.length)) := fun r hr =>
        .result [] (by simpa using heq) (by simp) hsegment (hr ▸ hreported)
      have hnext := next_of_find_some hf
      cases hd : d.discarded with
      | some dropped =>
        -- Its front was thrown away: what is left is too long, and its length is known.
        rw [hd, Option.getD_some] at hlen
        rw [hd] at hnext
        have hstop : (d.buffer.take stop).length = stop := by
          have hle := le_length_of_find? hf
          rw [length_delimiter] at hle
          rw [List.length_take]
          omega
        rw [hnext]
        refine ⟨rfl, _, hresult _ ?_, hbehind⟩
        rw [hd]
        simp [verdict, hlen, hstop]
      | none =>
        simp only [hd, htake hd] at hnext
        rw [hd] at hreported
        by_cases hblank : Bytes.blank segment
        · -- A blank segment is passed over, and the search goes on behind it.
          obtain ⟨hlimit, rest, htakes, htracks⟩ := ih _ (by omega) hbehind rfl
          rw [if_pos hblank] at hnext
          rw [hnext]
          refine ⟨hlimit, rest, ?_, htracks⟩
          rw [heq]
          have hnothing : Reported d.limit segment [] := by
            simpa [verdict, hblank] using hreported
          exact htakes.cons hsegment hnothing
        · by_cases hlong : d.limit < segment.length
          · rw [if_neg hblank, if_pos hlong] at hnext
            rw [hnext]
            refine ⟨rfl, _, hresult _ ?_, hbehind⟩
            simp [verdict, hd, hblank, hlong]
          · rw [if_neg hblank, if_neg hlong] at hnext
            rw [hnext]
            refine ⟨rfl, _, hresult _ ?_, hbehind⟩
            simp [verdict, hd, hblank, hlong]

end Decoder

/-! ## Results in the order of the segments -/

/-- These results are reports of the segments that end before the rest of a byte string, one for
each, in order. -/
def LineUp (limit : Nat) (bs : Bytes) (results : List (Except Fault Bytes)) (rest : Bytes) : Prop :=
  ∃ segments outs, bs = join segments ++ rest ∧
    (∀ s ∈ segments, findDelimiter? (s ++ [lineFeed]) = none) ∧
    List.Forall₂ (Reported limit) segments outs ∧ outs.flatten = results

section LineUp

variable {limit : Nat} {xs ys rest : Bytes} {rs ts : List (Except Fault Bytes)}

/-- No bytes give no results. -/
theorem LineUp.refl (limit : Nat) (bs : Bytes) : LineUp limit bs [] bs :=
  ⟨[], [], rfl, by simp, .nil, rfl⟩

/-- Results that are taken from the rest follow the others. -/
theorem LineUp.trans (h : LineUp limit xs rs ys) (h' : LineUp limit ys ts rest) :
    LineUp limit xs (rs ++ ts) rest := by
  obtain ⟨ss, os, rfl, hss, hos, rfl⟩ := h
  obtain ⟨ss', os', rfl, hss', hos', rfl⟩ := h'
  refine ⟨ss ++ ss', os ++ os', by simp, ?_, List.rel_append hos hos', by simp⟩
  simpa [or_imp, forall_and] using ⟨hss, hss'⟩

/-- Bytes that arrive lengthen the rest. -/
theorem LineUp.extend (h : LineUp limit xs rs rest) (bs : Bytes) :
    LineUp limit (xs ++ bs) rs (rest ++ bs) := by
  obtain ⟨ss, os, rfl, hss, hos, rfl⟩ := h
  exact ⟨ss, os, by simp, hss, hos, rfl⟩

/-- Segments of which nothing is reported give no results. -/
theorem lineUp_skipped {skipped : List Bytes}
    (h : ∀ s ∈ skipped, findDelimiter? (s ++ [lineFeed]) = none ∧ Reported limit s [])
    (rest : Bytes) : LineUp limit (join skipped ++ rest) [] rest := by
  refine ⟨skipped, skipped.map fun _ => [], rfl, fun s hs => (h s hs).1, ?_, by simp⟩
  rw [List.forall₂_map_right_iff, List.forall₂_same]
  exact fun s hs => (h s hs).2

/-- A look at a stream passes over some segments of which nothing is reported. It ends there, or
with a result of the segment that comes next. -/
inductive Looks (limit : Nat) (bs : Bytes) : Option (Except Fault Bytes) → Bytes → Prop
  | nothing (skipped : List Bytes) {rest : Bytes} (eq : bs = join skipped ++ rest)
      (skips : ∀ s ∈ skipped, findDelimiter? (s ++ [lineFeed]) = none ∧ Reported limit s []) :
      Looks limit bs none rest
  | result (skipped : List Bytes) {segment rest : Bytes} {r : Except Fault Bytes}
      (eq : bs = join skipped ++ (segment ++ delimiter ++ rest))
      (skips : ∀ s ∈ skipped, findDelimiter? (s ++ [lineFeed]) = none ∧ Reported limit s [])
      (undivided : findDelimiter? (segment ++ [lineFeed]) = none)
      (reported : Reported limit segment [r]) : Looks limit bs (some r) rest

/-- What a decoder takes is a look at its stream. -/
theorem Decoder.Takes.looks {limit : Nat} {unread rest : Bytes} {r : Option (Except Fault Bytes)}
    (h : Takes limit unread r rest) : Looks limit unread r rest := by
  cases h with
  | nothing skipped heq hskipped htail => exact .nothing skipped heq hskipped
  | result skipped heq hskipped hsegment hreported =>
    exact .result skipped (by simpa using heq) hskipped hsegment hreported

/-- The result of a look lines up with the segments. -/
theorem Looks.lineUp {bs : Bytes} {r : Option (Except Fault Bytes)}
    (h : Looks limit bs r rest) : LineUp limit bs r.toList rest := by
  cases h with
  | nothing skipped eq skips =>
    rw [eq]
    exact lineUp_skipped skips rest
  | @result skipped segment _ r eq skips undivided reported =>
    have hlast : LineUp limit (segment ++ delimiter ++ rest) [r] rest :=
      ⟨[segment], [[r]], by simp, by simpa using undivided, .cons reported .nil, rfl⟩
    rw [eq]
    exact (lineUp_skipped skips _).trans hlast

/-- If no delimiter is left, the results are reports of all the segments of the byte string. -/
theorem LineUp.forall₂ (h : LineUp limit xs rs rest) (hrest : findDelimiter? rest = none) :
    ∃ outs, List.Forall₂ (Reported limit) (split xs).1 outs ∧ outs.flatten = rs ∧
      (split xs).2 = rest := by
  obtain ⟨ss, os, rfl, hss, hos, rfl⟩ := h
  rw [split_join hss, split_of_find_none hrest, List.append_nil]
  exact ⟨os, hos, rfl, rfl⟩

end LineUp

namespace Decoder

variable {d : Decoder} {unread : Bytes}

/-- The results of a drain line up with the unread bytes, and no delimiter is left in them. -/
theorem Tracks.drain (h : d.Tracks unread) :
    d.drain.2.limit = d.limit ∧
      ∃ rest, LineUp d.limit unread d.drain.1 rest ∧ d.drain.2.Tracks rest ∧
        findDelimiter? rest = none := by
  induction hn : d.buffer.length using Nat.strongRecOn generalizing d unread with
  | ind n ih =>
    -- Each call of `next` goes on from where the one before it has ended.
    obtain ⟨hlimit, rest, htakes, htracks⟩ := h.next
    have hline := htakes.looks.lineUp
    rcases hnext : d.next with ⟨_ | r, e⟩
    · rw [hnext] at hlimit htakes htracks hline
      rw [drain_of_next_none hnext]
      cases htakes with
      | nothing skipped heq hskipped htail => exact ⟨hlimit, rest, hline, htracks, htail⟩
    · have hshort := length_next hnext
      rw [length_delimiter] at hshort
      rw [hnext] at hlimit htracks hline
      obtain ⟨hlimit', rest', hline', htracks', hnone⟩ := ih e.buffer.length (by omega) htracks rfl
      rw [drain_of_next_some hnext]
      rw [hlimit] at hline' hlimit'
      exact ⟨hlimit', rest', hline.trans hline', htracks', hnone⟩

/-- What a user does with a decoder. -/
inductive Use where
  /-- Bytes are handed to it. -/
  | extend (bs : Bytes)
  /-- It is asked for a frame. -/
  | next
  deriving DecidableEq, Repr

/-- The bytes that are handed to the decoder. -/
def Use.bytes : Use → Bytes
  | .extend bs => bs
  | .next => []

/-- Uses a decoder, and collects the results it gives. -/
def play (d : Decoder) : List Use → List (Except Fault Bytes) × Decoder
  | [] => ([], d)
  | .extend bs :: uses => (d.extend bs).play uses
  | .next :: uses =>
    let (r, d) := d.next
    let (rs, d) := d.play uses
    (r.toList ++ rs, d)

/-- The results of any use line up with all the bytes that were unread or have arrived. -/
theorem Tracks.play (h : d.Tracks unread) (uses : List Use) :
    (d.play uses).2.limit = d.limit ∧
      ∃ rest, LineUp d.limit (unread ++ uses.flatMap Use.bytes) (d.play uses).1 rest ∧
        (d.play uses).2.Tracks rest := by
  induction uses generalizing d unread with
  | nil =>
    rw [List.flatMap_nil, List.append_nil]
    exact ⟨rfl, unread, .refl _ _, h⟩
  | cons use uses ih =>
    cases use with
    | extend bs =>
      obtain ⟨hlimit, rest, hline, htracks⟩ := ih (h.extend bs)
      rw [List.append_assoc] at hline
      exact ⟨hlimit, rest, hline, htracks⟩
    | next =>
      -- The bytes that arrive later lie behind what is taken now.
      obtain ⟨hlimit, rest, htakes, htracks⟩ := h.next
      obtain ⟨hlimit', rest', hline, htracks'⟩ := ih htracks
      rw [hlimit] at hline hlimit'
      exact ⟨hlimit', rest', (htakes.looks.lineUp.extend _).trans hline, htracks'⟩

end Decoder

/-- Let a decoder be handed a stream in any pieces, and be asked for frames at any times and, in the
end, until there are none. Its results are reports of the segments of the stream, one for each, in
order; and a tail within the limit is what the buffer holds. -/
theorem results_line_up (limit : Nat) (uses : List Decoder.Use) :
    ∃ outs, List.Forall₂ (Reported limit) (split (uses.flatMap Decoder.Use.bytes)).1 outs ∧
      outs.flatten =
        (Decoder.play { limit } uses).1 ++ (Decoder.play { limit } uses).2.drain.1 ∧
      ((split (uses.flatMap Decoder.Use.bytes)).2.length ≤ limit →
        (Decoder.play { limit } uses).2.drain.2.discarded = none ∧
          (Decoder.play { limit } uses).2.drain.2.buffer =
            (split (uses.flatMap Decoder.Use.bytes)).2) := by
  obtain ⟨hlimit, rest, hline, htracks⟩ := (Decoder.tracks_new limit).play uses
  obtain ⟨hlimit', rest', hline', htracks', hnone⟩ := htracks.drain
  rw [List.nil_append] at hline
  rw [hlimit] at hline' hlimit'
  obtain ⟨outs, houts, hflat, htail⟩ := (hline.trans hline').forall₂ hnone
  refine ⟨outs, houts, hflat, fun hle => ?_⟩
  rw [htail] at hle ⊢
  exact htracks'.eq_buffer_of_le (by rw [hlimit']; exact hle)

/-- A segment as long as the limit is passed over if it is blank and comes whole; here its delimiter
comes in two pieces, with a request for a frame between them. -/
example : (Decoder.play { limit := 1 } [.extend [0x20, 0x0a], .next, .extend [0x0a, 0x61]]).2.drain.1 =
    [.error (.oversized 1 1)] := rfl

end PipeCall.Frame
