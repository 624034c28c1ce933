import PipeCall.Frame.Decoder

/-!
# A stream cut at its delimiters

`split` cuts a byte string at every delimiter, the leftmost first. It gives the segments that a
delimiter ends, in order, and the tail that no delimiter ends yet. It says what the frames of a
stream are without a decoder: `split_append` shows that bytes which arrive later only continue the
tail, and `split_join` that the segments and the tail are all there is.

Everything rests on the search `findDelimiter?`. A delimiter that it finds stays the first one when
bytes are added behind (`findDelimiter?_append`), and a search that has found nothing may be resumed
at the last byte it saw (`findDelimiter?_resume`).
-/

namespace PipeCall.Frame

open Bytes (lineFeed)

/-- A delimiter is two bytes long. -/
@[simp] theorem length_delimiter : delimiter.length = 2 := rfl

/-! ## The search -/

/-- A byte before a delimiter moves it by one, unless the byte begins one itself. -/
theorem findDelimiter?_cons_cons (a b : UInt8) (bs : Bytes) (h : ¬(a = lineFeed ∧ b = lineFeed)) :
    findDelimiter? (a :: b :: bs) = (findDelimiter? (b :: bs)).map (· + 1) := by
  rw [findDelimiter?, if_neg h]

/-- A delimiter that was found stays the first one when bytes are added behind. -/
theorem findDelimiter?_append {xs : Bytes} {stop : Nat} (h : findDelimiter? xs = some stop)
    (ys : Bytes) : findDelimiter? (xs ++ ys) = some stop := by
  induction xs generalizing stop with
  | nil => simp [findDelimiter?] at h
  | cons a xs ih =>
    cases xs with
    | nil => simp [findDelimiter?] at h
    | cons b xs =>
      by_cases hab : a = lineFeed ∧ b = lineFeed
      · simpa [findDelimiter?, hab] using h
      · rw [findDelimiter?_cons_cons a b xs hab] at h
        obtain ⟨i, hi, rfl⟩ := Option.map_eq_some_iff.1 h
        have hrest := ih hi
        rw [List.cons_append] at hrest
        rw [List.cons_append, List.cons_append, findDelimiter?_cons_cons a b (xs ++ ys) hab, hrest]
        rfl

/-- A search that has found nothing up to a byte may be resumed at that byte. -/
theorem findDelimiter?_resume {xs : Bytes} {b : UInt8} (h : findDelimiter? (xs ++ [b]) = none)
    (ys : Bytes) :
    findDelimiter? (xs ++ b :: ys) = (findDelimiter? (b :: ys)).map (· + xs.length) := by
  induction xs with
  | nil => simp
  | cons a xs ih =>
    -- The byte after `a` decides whether a delimiter begins at `a`; it is in `xs` or it is `b`.
    obtain ⟨c, zs, hzs⟩ : ∃ c zs, ∀ ws : Bytes, xs ++ b :: ws = c :: (zs ++ ws) := by
      cases xs with
      | nil => exact ⟨b, [], fun ws => rfl⟩
      | cons c xs => exact ⟨c, xs ++ [b], fun ws => by simp⟩
    have hac : ¬(a = lineFeed ∧ c = lineFeed) := by
      intro hac
      rw [List.cons_append, hzs, findDelimiter?, if_pos hac] at h
      exact absurd h (by simp)
    rw [List.cons_append, hzs, findDelimiter?_cons_cons a c _ hac, ← hzs] at h
    have hrest := ih (Option.map_eq_none_iff.1 h)
    rw [List.cons_append, hzs, findDelimiter?_cons_cons a c _ hac, ← hzs, hrest, Option.map_map]
    rfl

/-- What the search finds is a delimiter: the bytes before it, the two line feeds, and the rest. -/
theorem eq_of_findDelimiter? {xs : Bytes} {stop : Nat} (h : findDelimiter? xs = some stop) :
    stop + delimiter.length ≤ xs.length ∧
      xs = xs.take stop ++ delimiter ++ xs.drop (stop + delimiter.length) := by
  induction xs generalizing stop with
  | nil => simp [findDelimiter?] at h
  | cons a xs ih =>
    cases xs with
    | nil => simp [findDelimiter?] at h
    | cons b xs =>
      by_cases hab : a = lineFeed ∧ b = lineFeed
      · rw [findDelimiter?, if_pos hab] at h
        obtain rfl : 0 = stop := by simpa using h
        simp [delimiter, hab]
      · rw [findDelimiter?_cons_cons a b xs hab] at h
        obtain ⟨i, hi, rfl⟩ := Option.map_eq_some_iff.1 h
        obtain ⟨hle, heq⟩ := ih hi
        refine ⟨by simp only [List.length_cons] at hle ⊢; omega, ?_⟩
        rw [show i + 1 + delimiter.length = i + delimiter.length + 1 by omega,
          List.drop_succ_cons, List.take_succ_cons, List.cons_append, List.cons_append, ← heq]

/-- A beginning that reaches past the first delimiter has it too. -/
theorem findDelimiter?_take_of_le {xs : Bytes} {stop n : Nat} (h : findDelimiter? xs = some stop)
    (hn : stop + delimiter.length ≤ n) : findDelimiter? (xs.take n) = some stop := by
  rw [length_delimiter] at hn
  induction xs generalizing stop n with
  | nil => simp [findDelimiter?] at h
  | cons a xs ih =>
    cases xs with
    | nil => simp [findDelimiter?] at h
    | cons b xs =>
      obtain ⟨k, rfl⟩ : ∃ k, n = k + 2 := ⟨n - 2, by omega⟩
      rw [List.take_succ_cons, List.take_succ_cons]
      by_cases hab : a = lineFeed ∧ b = lineFeed
      · simpa [findDelimiter?, hab] using h
      · rw [findDelimiter?_cons_cons a b xs hab] at h
        obtain ⟨i, hi, rfl⟩ := Option.map_eq_some_iff.1 h
        have hrest := ih hi (n := k + 1) (by omega)
        rw [List.take_succ_cons] at hrest
        rw [findDelimiter?_cons_cons a b _ hab, hrest]
        rfl

/-- A delimiter that bytes added behind bring ends in them. -/
theorem length_le_of_findDelimiter?_append {xs ys : Bytes} {stop : Nat}
    (hnone : findDelimiter? xs = none) (h : findDelimiter? (xs ++ ys) = some stop) :
    xs.length ≤ stop + 1 := by
  refine Nat.le_of_not_lt fun hlong => ?_
  have htake := findDelimiter?_take_of_le h (n := xs.length) (by rw [length_delimiter]; omega)
  rw [List.take_left, hnone] at htake
  exact absurd htake (by simp)

/-- No delimiter ends before the second byte of the first one. -/
theorem findDelimiter?_take {xs : Bytes} {stop : Nat} (h : findDelimiter? xs = some stop) :
    findDelimiter? (xs.take stop ++ [lineFeed]) = none := by
  cases hf : findDelimiter? (xs.take stop ++ [lineFeed]) with
  | none => rfl
  | some i =>
    -- It would stay the first one in `xs`, but the bytes up to `stop` are too short for it.
    obtain ⟨hle, heq⟩ := eq_of_findDelimiter? h
    obtain ⟨hi, -⟩ := eq_of_findDelimiter? hf
    have happ := findDelimiter?_append hf ([lineFeed] ++ xs.drop (stop + delimiter.length))
    have hxs : xs = xs.take stop ++ [lineFeed] ++
        ([lineFeed] ++ xs.drop (stop + delimiter.length)) := by
      rw [List.append_assoc, ← List.append_assoc [lineFeed]]
      rw [List.append_assoc] at heq
      exact heq
    rw [← hxs, h] at happ
    obtain rfl : stop = i := by simpa using happ
    simp only [List.length_append, List.length_take, List.length_singleton, length_delimiter]
      at hi hle
    omega

/-! ## The segments -/

/-- The segments of a byte string, each ended by a delimiter, and the bytes after the last one. -/
def split : Bytes → List Bytes × Bytes
  | a :: b :: rest =>
    if a = lineFeed ∧ b = lineFeed then
      let (segments, tail) := split rest
      ([] :: segments, tail)
    else
      match split (b :: rest) with
      | ([], tail) => ([], a :: tail)
      | (segment :: segments, tail) => ((a :: segment) :: segments, tail)
  | bs => ([], bs)

/-- Bytes without a delimiter are all tail. -/
theorem split_of_find_none {xs : Bytes} (h : findDelimiter? xs = none) : split xs = ([], xs) := by
  induction xs with
  | nil => rfl
  | cons a xs ih =>
    cases xs with
    | nil => rfl
    | cons b xs =>
      by_cases hab : a = lineFeed ∧ b = lineFeed
      · simp [findDelimiter?, hab] at h
      · rw [findDelimiter?_cons_cons a b xs hab, Option.map_eq_none_iff] at h
        rw [split, if_neg hab, ih h]

/-- The first segment ends at the first delimiter, and the others are behind it. -/
theorem split_of_find_some {xs : Bytes} {stop : Nat} (h : findDelimiter? xs = some stop) :
    split xs =
      (xs.take stop :: (split (xs.drop (stop + delimiter.length))).1,
        (split (xs.drop (stop + delimiter.length))).2) := by
  induction xs generalizing stop with
  | nil => simp [findDelimiter?] at h
  | cons a xs ih =>
    cases xs with
    | nil => simp [findDelimiter?] at h
    | cons b xs =>
      by_cases hab : a = lineFeed ∧ b = lineFeed
      · rw [findDelimiter?, if_pos hab] at h
        obtain rfl : 0 = stop := by simpa using h
        rw [split, if_pos hab]
        rfl
      · rw [findDelimiter?_cons_cons a b xs hab] at h
        obtain ⟨i, hi, rfl⟩ := Option.map_eq_some_iff.1 h
        rw [split, if_neg hab, ih hi,
          show i + 1 + delimiter.length = i + delimiter.length + 1 by omega, List.drop_succ_cons,
          List.take_succ_cons]

/-- Bytes that are added behind continue the tail and leave the segments as they are. -/
theorem split_append (xs ys : Bytes) :
    split (xs ++ ys) =
      ((split xs).1 ++ (split ((split xs).2 ++ ys)).1, (split ((split xs).2 ++ ys)).2) := by
  induction hn : xs.length using Nat.strongRecOn generalizing xs with
  | ind n ih =>
    cases hf : findDelimiter? xs with
    | none => rw [split_of_find_none hf]; rfl
    | some stop =>
      obtain ⟨hle, -⟩ := eq_of_findDelimiter? hf
      have hshort : (xs.drop (stop + delimiter.length)).length < n := by
        simp only [List.length_drop, length_delimiter] at hle ⊢
        omega
      -- The first segment is the same with and without `ys`; the induction goes on behind it.
      have hrest := ih _ hshort (xs.drop (stop + delimiter.length)) rfl
      rw [split_of_find_some (findDelimiter?_append hf ys), split_of_find_some hf,
        List.drop_append_of_le_length hle, List.take_append_of_le_length (by omega), hrest]
      rfl

/-- There is no delimiter in the tail. -/
theorem findDelimiter?_tail (xs : Bytes) : findDelimiter? (split xs).2 = none := by
  induction hn : xs.length using Nat.strongRecOn generalizing xs with
  | ind n ih =>
    cases hf : findDelimiter? xs with
    | none => rw [split_of_find_none hf]; exact hf
    | some stop =>
      obtain ⟨hle, -⟩ := eq_of_findDelimiter? hf
      rw [split_of_find_some hf]
      refine ih _ ?_ _ rfl
      simp only [List.length_drop, length_delimiter] at hle ⊢
      omega

/-- The tail splits no further. -/
theorem split_tail (xs : Bytes) : split (split xs).2 = ([], (split xs).2) :=
  split_of_find_none (findDelimiter?_tail xs)

/-- A byte string from its segments, each with its delimiter. -/
def join (segments : List Bytes) : Bytes := (segments.map (· ++ delimiter)).flatten

@[simp] theorem join_nil : join [] = [] := rfl

@[simp] theorem join_cons (s : Bytes) (ss : List Bytes) :
    join (s :: ss) = s ++ delimiter ++ join ss := rfl

@[simp] theorem join_append (ss ts : List Bytes) : join (ss ++ ts) = join ss ++ join ts := by
  simp [join]

/-- A byte string is its segments and its tail. -/
theorem join_split (xs : Bytes) : join (split xs).1 ++ (split xs).2 = xs := by
  induction hn : xs.length using Nat.strongRecOn generalizing xs with
  | ind n ih =>
    cases hf : findDelimiter? xs with
    | none => rw [split_of_find_none hf]; rfl
    | some stop =>
      obtain ⟨hle, heq⟩ := eq_of_findDelimiter? hf
      have hshort : (xs.drop (stop + delimiter.length)).length < n := by
        simp only [List.length_drop, length_delimiter] at hle ⊢
        omega
      have hrest := ih _ hshort (xs.drop (stop + delimiter.length)) rfl
      rw [split_of_find_some hf, join_cons, List.append_assoc, hrest]
      exact heq.symm

/-- A segment has no delimiter in it, nor does one begin at its last byte. -/
theorem findDelimiter?_segment {xs s : Bytes} (h : s ∈ (split xs).1) :
    findDelimiter? (s ++ [lineFeed]) = none := by
  induction hn : xs.length using Nat.strongRecOn generalizing xs with
  | ind n ih =>
    cases hf : findDelimiter? xs with
    | none => rw [split_of_find_none hf] at h; simp at h
    | some stop =>
      obtain ⟨hle, -⟩ := eq_of_findDelimiter? hf
      rw [split_of_find_some hf, List.mem_cons] at h
      rcases h with rfl | h
      · exact findDelimiter?_take hf
      · refine ih _ ?_ h rfl
        simp only [List.length_drop, length_delimiter] at hle ⊢
        omega

/-- The first delimiter behind a segment is the segment's own. -/
theorem findDelimiter?_segment_append {s : Bytes} (h : findDelimiter? (s ++ [lineFeed]) = none)
    (ys : Bytes) : findDelimiter? (s ++ delimiter ++ ys) = some s.length := by
  have hresume := findDelimiter?_resume h (lineFeed :: ys)
  rw [List.append_assoc]
  simpa [delimiter, findDelimiter?] using hresume

/-- Segments that are put together are the segments again. -/
theorem split_join {ss : List Bytes} (h : ∀ s ∈ ss, findDelimiter? (s ++ [lineFeed]) = none)
    (ys : Bytes) : split (join ss ++ ys) = (ss ++ (split ys).1, (split ys).2) := by
  induction ss with
  | nil => rfl
  | cons s ss ih =>
    have hrest := ih fun t ht => h t (List.mem_cons_of_mem s ht)
    have hfind := findDelimiter?_segment_append (h s (by simp)) (join ss ++ ys)
    rw [join_cons, List.append_assoc, split_of_find_some hfind]
    have htake : (s ++ delimiter ++ (join ss ++ ys)).take s.length = s := by simp
    have hdrop : (s ++ delimiter ++ (join ss ++ ys)).drop (s.length + delimiter.length) =
        join ss ++ ys := by
      rw [← List.length_append, List.drop_left]
    rw [htake, hdrop, hrest]
    rfl

end PipeCall.Frame
