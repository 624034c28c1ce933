import Mathlib.Logic.Basic
import Mathlib.Tactic.ByContra
import PipeCall.Proofs.Frame.Decoder

/-!
# What a decoder reports of a stream that arrives in pieces

`reports limit pieces` is all that a decoder hands out when the pieces arrive one after another and
every frame is taken that is there after each. What it reports of a segment hangs on the cuts for
two kinds of segments only: those exactly as long as the limit, whose delimiter may be cut in two
while the first line feed makes the unfinished frame too long, and blank ones that are longer, which
are passed over unless some of them was thrown away. `reports_agree_iff` says that the reports are
the same for all cuts, and every length reported too long is over the limit, exactly when the stream
has no such segment.
-/

namespace PipeCall.Frame

open Bytes (lineFeed)

namespace Decoder

/-- Feeds pieces one after another and takes every frame that is there after each. -/
def feed (d : Decoder) : List Bytes → List (Except Fault Bytes) × Decoder
  | [] => ([], d)
  | piece :: pieces =>
    let (rs, d) := (d.extend piece).drain
    let (rest, d) := d.feed pieces
    (rs ++ rest, d)

/-- What is reported after the first piece follows what is reported of it. -/
theorem feed_cons (d : Decoder) (piece : Bytes) (pieces : List Bytes) :
    (d.feed (piece :: pieces)).1 =
      (d.extend piece).drain.1 ++ ((d.extend piece).drain.2.feed pieces).1 := rfl

end Decoder

/-- All that a new decoder reports of a stream that arrives in these pieces. -/
def reports (limit : Nat) (pieces : List Bytes) : List (Except Fault Bytes) :=
  (Decoder.feed { limit } pieces).1

/-- Whether the report of a segment is the same however the stream is cut: it is shorter than the
limit, or longer and not blank. -/
def IsSettled (limit : Nat) (segment : Bytes) : Prop :=
  segment.length < limit ∨ limit < segment.length ∧ Bytes.blank segment = false

/-! ## Segments whose report does not hang on the cuts -/

/-- A settled segment that is at least as long as the limit is reported alike whether or not some
of it was thrown away. -/
theorem verdict_of_isSettled {limit : Nat} {segment : Bytes} (h : IsSettled limit segment)
    (hle : limit ≤ segment.length) (shed : Bool) :
    verdict limit shed segment = [.error (.oversized segment.length limit)] := by
  rcases h with hlt | ⟨hlt, hblank⟩
  · omega
  · cases shed <;> simp [verdict, hblank, hlt]

/-- A segment of which nothing was thrown away is reported as too long only if it is. -/
theorem lt_of_oversized_mem_verdict {limit size most : Nat} {segment : Bytes}
    (h : .error (.oversized size most) ∈ verdict limit false segment) :
    most = limit ∧ limit < size := by
  unfold verdict at h
  by_cases hblank : Bytes.blank segment
  · simp [hblank] at h
  · by_cases hlong : limit < segment.length
    · simp only [hblank, hlong, if_true, if_false, Bool.false_eq_true, List.mem_singleton,
        Except.error.injEq, Fault.oversized.injEq] at h
      obtain ⟨rfl, rfl⟩ := h
      exact ⟨rfl, hlong⟩
    · simp [hblank, hlong] at h

/-- Bytes without a delimiter reach at most one byte past the first segment that they begin. -/
theorem length_le_of_split_append {unread piece segment : Bytes} {segments : List Bytes}
    (hnone : findDelimiter? unread = none)
    (h : (split (unread ++ piece)).1 = segment :: segments) :
    unread.length ≤ segment.length + 1 := by
  cases hf : findDelimiter? (unread ++ piece) with
  | none => rw [split_of_find_none hf] at h; simp at h
  | some stop =>
    have hshort := length_le_of_findDelimiter?_append hnone hf
    obtain ⟨hle, -⟩ := eq_of_findDelimiter? hf
    rw [split_of_find_some hf] at h
    obtain ⟨rfl, -⟩ := List.cons.inj h
    rw [List.length_take]
    omega

/-- If every segment that comes is settled, the pieces are reported as the segments one by one. -/
theorem Decoder.Holds.feed {d : Decoder} {unread : Bytes} (h : d.Holds unread)
    (hnone : findDelimiter? unread = none)
    (hshed : d.discarded.isSome → d.limit < unread.length) (pieces : List Bytes)
    (hsettled : ∀ s ∈ (split (unread ++ pieces.flatten)).1, IsSettled d.limit s) :
    (d.feed pieces).1 =
      (split (unread ++ pieces.flatten)).1.flatMap (verdict d.limit false) := by
  induction pieces generalizing d unread with
  | nil =>
    rw [List.flatten_nil, List.append_nil, split_of_find_none hnone]
    rfl
  | cons piece pieces ih =>
    obtain ⟨hdrain, hholds, hlimit, hdiscard⟩ := (h.extend piece).drain
    have hstate : (d.extend piece).limit = d.limit ∧
        (d.extend piece).discarded = d.discarded := ⟨rfl, rfl⟩
    rw [hstate.1] at hlimit
    rw [hstate.1, hstate.2] at hdrain hdiscard
    rw [List.flatten_cons, ← List.append_assoc, split_append] at hsettled ⊢
    simp only [List.mem_append] at hsettled
    -- What is left of the first segment was thrown away in part only if it is longer than the limit.
    have hshed' : (d.extend piece).drain.2.discarded.isSome →
        (d.extend piece).drain.2.limit < (split (unread ++ piece)).2.length := by
      intro hsome
      rw [hdiscard, Bool.or_eq_true, Bool.and_eq_true, List.isEmpty_iff, decide_eq_true_eq] at hsome
      rw [hlimit]
      rcases hsome with ⟨hsome, hempty⟩ | hlong
      · have hjoin := join_split (unread ++ piece)
        rw [hempty, join_nil, List.nil_append] at hjoin
        have hlong := hshed hsome
        rw [hjoin, List.length_append]
        omega
      · exact hlong
    have hrest := ih hholds (findDelimiter?_tail _) hshed'
      fun s hs => hlimit ▸ hsettled s (Or.inr hs)
    rw [hlimit] at hrest
    have hfirst : verdicts d.limit d.discarded.isSome (split (unread ++ piece)).1 =
        (split (unread ++ piece)).1.flatMap (verdict d.limit false) := by
      cases hsplit : (split (unread ++ piece)).1 with
      | nil => rfl
      | cons s ss =>
        rw [verdicts, List.flatMap_cons]
        congr 1
        cases hd : d.discarded.isSome with
        | false => rfl
        | true =>
          -- Some of the first segment was thrown away, so it is as long as the limit at least.
          have hlong := hshed hd
          have hlen := length_le_of_split_append hnone hsplit
          have hs : IsSettled d.limit s := hsettled s (Or.inl (by rw [hsplit]; simp))
          rw [verdict_of_isSettled hs (by omega), verdict_of_isSettled hs (by omega)]
    rw [Decoder.feed_cons, List.flatMap_append, hrest, hdrain, hfirst]

/-- If every segment of a stream is settled, each is reported on its own, whatever the cuts. -/
theorem reports_of_isSettled {limit : Nat} (pieces : List Bytes)
    (h : ∀ s ∈ (split pieces.flatten).1, IsSettled limit s) :
    reports limit pieces = (split pieces.flatten).1.flatMap (verdict limit false) :=
  (Decoder.holds_new limit).feed rfl (by simp) pieces h

/-- A stream that arrives in one piece has each segment reported as a whole. -/
theorem reports_singleton (limit : Nat) (bs : Bytes) :
    reports limit [bs] = (split bs).1.flatMap (verdict limit false) := by
  obtain ⟨hdrain, -⟩ := ((Decoder.holds_new limit).extend bs).drain
  rw [List.nil_append] at hdrain
  rw [reports, Decoder.feed_cons, hdrain]
  exact (List.append_nil _).trans (verdicts_false limit _)

/-- A stream that is cut in the middle of the delimiter of a segment at least as long as the limit
has that segment reported as one of which some was thrown away. -/
theorem reports_cut {limit : Nat} {before after : List Bytes} {segment tail : Bytes}
    (hbefore : ∀ s ∈ before, findDelimiter? (s ++ [lineFeed]) = none)
    (hsegment : findDelimiter? (segment ++ [lineFeed]) = none)
    (hafter : split (join after ++ tail) = (after, tail)) (hlong : limit ≤ segment.length) :
    reports limit [join before ++ (segment ++ [lineFeed]), lineFeed :: (join after ++ tail)] =
      before.flatMap (verdict limit false) ++
        (verdict limit true segment ++ after.flatMap (verdict limit false)) := by
  obtain ⟨hfirst, hholds, hlimit, hdiscard⟩ :=
    ((Decoder.holds_new limit).extend (join before ++ (segment ++ [lineFeed]))).drain
  rw [List.nil_append, split_join hbefore, split_of_find_none hsegment, List.append_nil] at hfirst
  rw [List.nil_append, split_join hbefore, split_of_find_none hsegment] at hholds hdiscard
  have hshed : decide (limit < (segment ++ [lineFeed]).length) = true := by simp; omega
  have hhalf : (Decoder.extend { limit } (join before ++ (segment ++ [lineFeed]))).limit = limit :=
    rfl
  rw [hhalf] at hlimit
  rw [hhalf, hshed, Bool.or_true] at hdiscard
  rw [reports, Decoder.feed_cons, Decoder.feed_cons, hfirst]
  generalize (Decoder.extend { limit } (join before ++ (segment ++ [lineFeed]))).drain.2 = d
    at hholds hlimit hdiscard ⊢
  -- After the first piece the segment is held with some of it thrown away; the second ends it.
  obtain ⟨hsecond, -⟩ := (hholds.extend (lineFeed :: (join after ++ tail))).drain
  have hwhole : segment ++ [lineFeed] ++ lineFeed :: (join after ++ tail) =
      join (segment :: after) ++ tail := by simp [delimiter]
  have hsplit : split (join (segment :: after) ++ tail) = (segment :: after, tail) := by
    have hall : ∀ s ∈ [segment], findDelimiter? (s ++ [lineFeed]) = none := by simpa using hsegment
    have hone := split_join hall (join after ++ tail)
    rw [hafter, join_cons, join_nil, List.append_nil] at hone
    rw [join_cons, List.append_assoc]
    exact hone
  rw [hwhole, hsplit] at hsecond
  have hagain : (d.extend (lineFeed :: (join after ++ tail))).limit = limit ∧
      (d.extend (lineFeed :: (join after ++ tail))).discarded.isSome = true := ⟨hlimit, hdiscard⟩
  rw [hsecond, hagain.1, hagain.2]
  exact congrArg₂ _ (verdicts_false limit before) (List.append_nil _)

/-- The reports of a stream are the same however it is cut, and all lengths in them are over the
limit, exactly if every segment is settled: shorter than the limit, or longer and not blank. -/
theorem reports_agree_iff (limit : Nat) (bs : Bytes) :
    (∀ ps qs : List Bytes, ps.flatten = bs → qs.flatten = bs →
        reports limit ps = reports limit qs ∧
          ∀ size most, .error (.oversized size most) ∈ reports limit ps →
            most = limit ∧ limit < size) ↔
      ∀ s ∈ (split bs).1, IsSettled limit s := by
  constructor
  · intro h s hs
    obtain ⟨before, after, hsplit⟩ := List.append_of_mem hs
    by_contra hnot
    have hlong : limit ≤ s.length := by
      unfold IsSettled at hnot
      omega
    have hwhole : ∀ t ∈ (split bs).1, findDelimiter? (t ++ [lineFeed]) = none :=
      fun t ht => findDelimiter?_segment ht
    rw [hsplit] at hwhole
    -- The segment's delimiter is cut in two, or nothing is cut.
    have hjoin := join_split bs
    rw [hsplit, join_append, join_cons] at hjoin
    have hafter : split (join after ++ (split bs).2) = (after, (split bs).2) := by
      rw [split_join fun t ht => hwhole t (by simp [ht]), split_tail, List.append_nil]
    have hbefore : ∀ t ∈ before, findDelimiter? (t ++ [lineFeed]) = none :=
      fun t ht => hwhole t (by simp [ht])
    have hcut := reports_cut hbefore (hwhole s (by simp)) hafter hlong
    have hone := reports_singleton limit bs
    rw [hsplit, List.flatMap_append, List.flatMap_cons] at hone
    have hflat : [join before ++ (s ++ [lineFeed]),
        lineFeed :: (join after ++ (split bs).2)].flatten = bs := by
      refine Eq.trans ?_ hjoin
      simp [delimiter]
    obtain ⟨hsame, hover⟩ := h _ [bs] hflat (by simp)
    -- Cut, the segment is reported as too long; so it is too long, and reported so when it is whole.
    rw [hcut, hone, List.append_cancel_left_eq, List.append_cancel_right_eq] at hsame
    obtain ⟨-, hlt⟩ := hover s.length limit (by rw [hcut]; simp [verdict])
    have hblank : Bytes.blank s = false := by
      cases hb : Bytes.blank s with
      | false => rfl
      | true => simp [verdict, hb] at hsame
    exact hnot (Or.inr ⟨hlt, hblank⟩)
  · intro h ps qs hps hqs
    rw [reports_of_isSettled ps (by rw [hps]; exact h), reports_of_isSettled qs (by rw [hqs]; exact h),
      hps, hqs]
    refine ⟨rfl, fun size most hmem => ?_⟩
    obtain ⟨s, hs, hverdict⟩ := List.mem_flatMap.1 hmem
    exact lt_of_oversized_mem_verdict hverdict

/-- A segment exactly as long as the limit is handed out if it comes with its delimiter, and reported
as too long if the delimiter comes in two pieces. -/
theorem reports_differ_at_limit :
    [[0x61, 0x62, 0x0a, 0x0a]].flatten = [[0x61, 0x62, 0x0a], [0x0a]].flatten ∧
      reports 2 [[0x61, 0x62, 0x0a, 0x0a]] = [.ok [0x61, 0x62]] ∧
      reports 2 [[0x61, 0x62, 0x0a], [0x0a]] = [.error (.oversized 2 2)] :=
  ⟨rfl, rfl, rfl⟩

end PipeCall.Frame
