import PipeCall.Proofs.Frame.Split

/-!
# What a decoder holds

`Decoder.Holds d unread` ties a decoder to the bytes of its stream that no delimiter has taken out
yet. They are the bytes it has thrown away, of which only the number is kept, and then its buffer. No
delimiter starts in the bytes thrown away, and none before the last byte that the search has seen,
so the search goes on where it stopped and still finds the first delimiter of all the unread bytes
(`Holds.find?_eq`).

`Decoder.next` and `Decoder.drain` recurse on fuel. `drain_of_find_none` and `drain_of_find_some`
are the equations of `drain` without it, and `Holds.drain` says what one drain hands out, in terms
of `split`: the first segment is judged knowing whether some of it was thrown away, and every
later one as a whole (`verdict`).
-/

namespace PipeCall.Frame

/-! ## What is reported of a segment -/

/-- What is reported of a segment, if `shed` says whether some of it was thrown away before its
delimiter came. -/
def verdict (limit : Nat) (shed : Bool) (segment : Bytes) : List (Except Fault Bytes) :=
  if shed then [.error (.oversized segment.length limit)]
  else if Bytes.blank segment then []
  else if limit < segment.length then [.error (.oversized segment.length limit)]
  else [.ok segment]

/-- What is reported of some segments, of which only the first can have been thrown away in part. -/
def verdicts (limit : Nat) (shed : Bool) : List Bytes → List (Except Fault Bytes)
  | [] => []
  | segment :: segments => verdict limit shed segment ++ segments.flatMap (verdict limit false)

/-- Segments of which nothing was thrown away are judged one by one. -/
theorem verdicts_false (limit : Nat) (segments : List Bytes) :
    verdicts limit false segments = segments.flatMap (verdict limit false) := by
  cases segments <;> rfl

namespace Decoder

variable {d : Decoder} {stop : Nat}

/-! ## The equations of `next` and `drain` -/

/-- A delimiter that the decoder finds is in its buffer. -/
theorem le_length_of_find? (h : d.find? = some stop) :
    stop + delimiter.length ≤ d.buffer.length := by
  obtain ⟨i, hi, rfl⟩ := Option.map_eq_some_iff.1 h
  obtain ⟨hle, -⟩ := eq_of_findDelimiter? hi
  simp only [List.length_drop, length_delimiter] at hle ⊢
  omega

/-- Taking a frame out shortens the buffer by the frame and its delimiter. -/
theorem length_dropFrame (h : d.find? = some stop) :
    (d.dropFrame stop).buffer.length + delimiter.length ≤ d.buffer.length := by
  have hle := le_length_of_find? h
  simp only [dropFrame, List.length_drop, length_delimiter] at hle ⊢
  omega

/-- Without a delimiter there is no frame, whatever the fuel. -/
theorem nextWithin_of_find_none (h : d.find? = none) (fuel : Nat) :
    nextWithin fuel d = (none, d.shed) := by
  unfold nextWithin
  rw [h]

/-- With a delimiter and fuel: a frame of which some was thrown away is reported, a blank one is
passed over, one that is too long is reported, and any other is handed out. -/
theorem nextWithin_of_find_some (h : d.find? = some stop) (fuel : Nat) :
    nextWithin (fuel + 1) d =
      match d.discarded with
      | some dropped =>
        (some (.error (.oversized (dropped + (d.buffer.take stop).length) d.limit)),
          d.dropFrame stop)
      | none =>
        if Bytes.blank (d.buffer.take stop) then nextWithin fuel (d.dropFrame stop)
        else if d.limit < (d.buffer.take stop).length then
          (some (.error (.oversized (d.buffer.take stop).length d.limit)), d.dropFrame stop)
        else (some (.ok (d.buffer.take stop)), d.dropFrame stop) := by
  rw [nextWithin, h]
  cases d.discarded <;> rfl

/-- More fuel than bytes makes no difference to the next frame. -/
theorem nextWithin_congr {m n : Nat} (hm : d.buffer.length ≤ m) (hn : d.buffer.length ≤ n) :
    nextWithin m d = nextWithin n d := by
  induction m generalizing n d with
  | zero =>
    have hempty : d.buffer.length = 0 := by omega
    cases hf : d.find? with
    | none => rw [nextWithin_of_find_none hf, nextWithin_of_find_none hf]
    | some stop =>
      have hle := le_length_of_find? hf
      simp only [length_delimiter] at hle
      omega
  | succ m ih =>
    cases hf : d.find? with
    | none => rw [nextWithin_of_find_none hf, nextWithin_of_find_none hf]
    | some stop =>
      have hrest := length_dropFrame hf
      simp only [length_delimiter] at hrest
      obtain ⟨n, rfl⟩ : ∃ k, n = k + 1 := ⟨n - 1, by omega⟩
      have hih := ih (d := d.dropFrame stop) (n := n) (by omega) (by omega)
      rw [nextWithin_of_find_some hf, nextWithin_of_find_some hf, hih]

/-- Without a delimiter there is no frame, and the search is noted. -/
theorem next_of_find_none (h : d.find? = none) : d.next = (none, d.shed) :=
  nextWithin_of_find_none h _

/-- The next frame by the first delimiter, without fuel. -/
theorem next_of_find_some (h : d.find? = some stop) :
    d.next =
      match d.discarded with
      | some dropped =>
        (some (.error (.oversized (dropped + (d.buffer.take stop).length) d.limit)),
          d.dropFrame stop)
      | none =>
        if Bytes.blank (d.buffer.take stop) then (d.dropFrame stop).next
        else if d.limit < (d.buffer.take stop).length then
          (some (.error (.oversized (d.buffer.take stop).length d.limit)), d.dropFrame stop)
        else (some (.ok (d.buffer.take stop)), d.dropFrame stop) := by
  have hrest := length_dropFrame h
  have hle := le_length_of_find? h
  simp only [length_delimiter] at hrest hle
  obtain ⟨n, hn⟩ : ∃ k, d.buffer.length = k + 1 := ⟨d.buffer.length - 1, by omega⟩
  have hfuel : nextWithin n (d.dropFrame stop) = (d.dropFrame stop).next :=
    nextWithin_congr (by omega) (by omega)
  rw [next, hn, nextWithin_of_find_some h, hfuel]

/-- A frame leaves fewer bytes in the buffer. -/
theorem length_next {r : Except Fault Bytes} {e : Decoder} (h : d.next = (some r, e)) :
    e.buffer.length + delimiter.length ≤ d.buffer.length := by
  induction hn : d.buffer.length using Nat.strongRecOn generalizing d with
  | ind n ih =>
    cases hf : d.find? with
    | none => rw [next_of_find_none hf] at h; simp at h
    | some stop =>
      have hrest := length_dropFrame hf
      rw [next_of_find_some hf] at h
      cases hd : d.discarded with
      | some dropped =>
        rw [hd] at h
        obtain rfl : d.dropFrame stop = e := (Prod.mk.inj h).2
        omega
      | none =>
        simp only [hd] at h
        split at h
        · -- A blank frame is passed over: what is handed out comes from behind it.
          have hshort := ih _ (by simp only [length_delimiter] at hrest; omega) h rfl
          omega
        · split at h <;> obtain rfl : d.dropFrame stop = e := (Prod.mk.inj h).2 <;> omega

/-- More fuel than bytes makes no difference to a drain. -/
theorem drainWithin_congr {m n : Nat} (hm : d.buffer.length < m) (hn : d.buffer.length < n) :
    drainWithin m d = drainWithin n d := by
  induction m generalizing n d with
  | zero => omega
  | succ m ih =>
    obtain ⟨n, rfl⟩ : ∃ k, n = k + 1 := ⟨n - 1, by omega⟩
    rw [drainWithin, drainWithin]
    split
    · rfl
    · rename_i r e hnext
      have hshort := length_next hnext
      simp only [length_delimiter] at hshort
      rw [ih (n := n) (by omega) (by omega)]

/-- A drain hands out the next frame and drains on. -/
theorem drain_of_next_some {r : Except Fault Bytes} {e : Decoder} (h : d.next = (some r, e)) :
    d.drain = (r :: e.drain.1, e.drain.2) := by
  have hshort := length_next h
  simp only [length_delimiter] at hshort
  have hfuel : drainWithin d.buffer.length e = e.drain := drainWithin_congr (by omega) (by omega)
  unfold drain at hfuel ⊢
  rw [drainWithin, h]
  simp only [hfuel]

/-- A drain is over when there is no next frame. -/
theorem drain_of_next_none {e : Decoder} (h : d.next = (none, e)) : d.drain = ([], e) := by
  unfold drain
  rw [drainWithin, h]

/-- Decoders with the same next frame drain alike. -/
theorem drain_congr {e : Decoder} (h : d.next = e.next) : d.drain = e.drain := by
  rcases he : e.next with ⟨_ | r, f⟩
  · rw [drain_of_next_none he, drain_of_next_none (h.trans he)]
  · rw [drain_of_next_some he, drain_of_next_some (h.trans he)]

/-- Without a delimiter a drain hands out nothing. -/
theorem drain_of_find_none (h : d.find? = none) : d.drain = ([], d.shed) :=
  drain_of_next_none (next_of_find_none h)

/-- A drain judges the bytes up to the first delimiter and drains on behind it. -/
theorem drain_of_find_some (h : d.find? = some stop) :
    d.drain =
      ((match d.discarded with
        | some dropped => [.error (.oversized (dropped + (d.buffer.take stop).length) d.limit)]
        | none => verdict d.limit false (d.buffer.take stop)) ++ (d.dropFrame stop).drain.1,
        (d.dropFrame stop).drain.2) := by
  have hnext := next_of_find_some h
  cases hd : d.discarded with
  | some dropped =>
    rw [hd] at hnext
    rw [drain_of_next_some hnext]
    rfl
  | none =>
    simp only [hd] at hnext
    by_cases hblank : Bytes.blank (d.buffer.take stop)
    · rw [if_pos hblank] at hnext
      rw [drain_congr hnext]
      simp [verdict, hblank]
    · by_cases hlong : d.limit < (d.buffer.take stop).length
      · rw [if_neg hblank, if_pos hlong] at hnext
        rw [drain_of_next_some hnext]
        simp only [verdict, hblank, hlong]
        rfl
      · rw [if_neg hblank, if_neg hlong] at hnext
        rw [drain_of_next_some hnext]
        simp only [verdict, hblank, hlong]
        rfl

/-! ## The unread bytes -/

/-- The decoder holds these unread bytes of its stream: those thrown away, and its buffer. -/
structure Holds (d : Decoder) (unread : Bytes) : Prop where
  /-- The search has not gone past the buffer. -/
  scanned_le : d.scanned ≤ d.buffer.length
  /-- The search has found nothing. -/
  unfound : findDelimiter? (d.buffer.take d.scanned) = none
  /-- The last byte is never thrown away. -/
  kept : d.discarded.isSome → d.buffer ≠ []
  /-- No delimiter starts in the bytes thrown away. -/
  held : ∃ dropped : Bytes, unread = dropped ++ d.buffer ∧ dropped.length = d.discarded.getD 0 ∧
    findDelimiter? (dropped ++ d.buffer.take 1) = none

/-- A new decoder holds nothing. -/
theorem holds_new (limit : Nat) : Holds { limit } [] where
  scanned_le := Nat.zero_le _
  unfound := rfl
  kept := by simp
  held := ⟨[], rfl, rfl, rfl⟩

/-- The search goes on where it stopped, and finds what a search of the whole buffer finds. -/
theorem find?_eq (hle : d.scanned ≤ d.buffer.length)
    (h : findDelimiter? (d.buffer.take d.scanned) = none) :
    d.find? = findDelimiter? d.buffer := by
  unfold find?
  cases hs : d.scanned with
  | zero => simp
  | succ n =>
    rw [hs] at hle h
    have hdrop : d.buffer.drop n = d.buffer[n] :: d.buffer.drop (n + 1) :=
      List.drop_eq_getElem_cons (by omega)
    rw [List.take_succ_eq_append_getElem (by omega)] at h
    have hresume := findDelimiter?_resume h (d.buffer.drop (n + 1))
    rw [← hdrop, List.take_append_drop, List.length_take, Nat.min_eq_left (by omega)] at hresume
    rw [Nat.add_sub_cancel, hresume]

variable {unread : Bytes}

/-- Without bytes thrown away, the unread bytes are the buffer. -/
theorem Holds.eq_buffer (h : d.Holds unread) (hd : d.discarded = none) : unread = d.buffer := by
  obtain ⟨dropped, rfl, hlen, -⟩ := h.held
  rw [hd] at hlen
  rw [List.eq_nil_of_length_eq_zero hlen, List.nil_append]

/-- The first delimiter of the unread bytes is the one that the decoder finds, as far behind the
start of its buffer as bytes were thrown away. -/
theorem Holds.find?_unread (h : d.Holds unread) :
    findDelimiter? unread = d.find?.map (· + d.discarded.getD 0) := by
  obtain ⟨dropped, rfl, hlen, hnone⟩ := h.held
  rw [find?_eq h.scanned_le h.unfound, ← hlen]
  cases hb : d.buffer with
  | nil =>
    have hd : d.discarded = none := by
      cases hd : d.discarded with
      | none => rfl
      | some n => exact absurd hb (h.kept (by rw [hd]; rfl))
    rw [hd] at hlen
    rw [List.eq_nil_of_length_eq_zero hlen]
    rfl
  | cons b bs =>
    rw [hb] at hnone
    exact findDelimiter?_resume hnone bs

/-- Bytes that arrive are held behind the others. -/
theorem Holds.extend (h : d.Holds unread) (bs : Bytes) : (d.extend bs).Holds (unread ++ bs) := by
  have hle := h.scanned_le
  obtain ⟨dropped, rfl, hlen, hnone⟩ := h.held
  constructor
  · simp only [Decoder.extend, List.length_append]
    omega
  · simp only [Decoder.extend]
    rw [List.take_append_of_le_length hle]
    exact h.unfound
  · intro hd
    have hkept := h.kept hd
    simp [Decoder.extend, hkept]
  · refine ⟨dropped, by simp [Decoder.extend], hlen, ?_⟩
    cases hb : d.buffer with
    | nil =>
      -- An empty buffer means that nothing was thrown away, and one byte is no delimiter.
      have hd : d.discarded = none := by
        cases hd : d.discarded with
        | none => rfl
        | some n => exact absurd hb (h.kept (by rw [hd]; rfl))
      rw [hd] at hlen
      rw [List.eq_nil_of_length_eq_zero hlen, Decoder.extend, hb, List.nil_append, List.nil_append]
      cases bs <;> rfl
    | cons b buffer =>
      rw [hb] at hnone
      simpa [Decoder.extend, hb] using hnone

/-- Taking out the frame that ends at the first delimiter leaves the bytes behind it. -/
theorem Holds.dropFrame (h : d.Holds unread) (stop : Nat) :
    (d.dropFrame stop).Holds
      (unread.drop (d.discarded.getD 0 + stop + delimiter.length)) := by
  obtain ⟨dropped, rfl, hlen, -⟩ := h.held
  rw [← hlen, Nat.add_assoc, List.drop_length_add_append]
  constructor
  · exact Nat.zero_le _
  · rfl
  · simp [Decoder.dropFrame]
  · refine ⟨[], rfl, rfl, ?_⟩
    rw [List.nil_append]
    cases (d.dropFrame stop).buffer <;> rfl

/-- After a search that found nothing the decoder still holds the unread bytes, and some of them
are thrown away as soon as there are more than the limit. -/
theorem Holds.shed (h : d.Holds unread) (hnone : d.find? = none) :
    d.shed.Holds unread ∧
      d.shed.discarded.isSome = (d.discarded.isSome || decide (d.limit < unread.length)) := by
  have hfind : findDelimiter? d.buffer = none := by
    rw [← find?_eq h.scanned_le h.unfound]; exact hnone
  have hunread : findDelimiter? unread = none := by rw [h.find?_unread, hnone]; rfl
  by_cases hkeep : d.discarded = none ∧ d.buffer.length ≤ d.limit
  · -- Nothing is thrown away, and the whole buffer has been searched.
    obtain rfl := h.eq_buffer hkeep.1
    unfold Decoder.shed
    rw [if_pos hkeep]
    refine ⟨⟨Nat.le_refl _, ?_, h.kept, h.held⟩, ?_⟩
    · rw [List.take_length]; exact hfind
    · simp [hkeep.1, Nat.not_lt.2 hkeep.2]
  · have hsome : (d.discarded.isSome || decide (d.limit < unread.length)) = true := by
      cases hd : d.discarded with
      | some n => rfl
      | none =>
        rw [h.eq_buffer hd]
        simpa [hd] using hkeep
    have hne : d.buffer ≠ [] := by
      cases hd : d.discarded with
      | some n => exact h.kept (by rw [hd]; rfl)
      | none =>
        rintro hb
        exact hkeep ⟨hd, by rw [hb]; exact Nat.zero_le _⟩
    have hpos : 0 < d.buffer.length := List.length_pos_iff.2 hne
    obtain ⟨dropped, rfl, hlen, -⟩ := h.held
    unfold Decoder.shed
    rw [if_neg hkeep, hsome]
    refine ⟨⟨Nat.le_refl _, ?_, ?_, ?_⟩, rfl⟩
    · simp only [List.take_length]
      -- Only the last byte is left, and one byte is no delimiter.
      have hone : (d.buffer.drop (d.buffer.length - 1)).length = 1 := by
        rw [List.length_drop]; omega
      obtain ⟨b, hb⟩ := List.length_eq_one_iff.1 hone
      rw [hb]
      rfl
    · intro _ hnil
      have hlen := congrArg List.length hnil
      simp only [List.length_drop, List.length_nil] at hlen
      omega
    · -- All but the last byte join the bytes thrown away.
      refine ⟨dropped ++ d.buffer.take (d.buffer.length - 1), ?_, ?_, ?_⟩
      · simp
      · simp [hlen]
      · simp only
        have hlast : (d.buffer.drop (d.buffer.length - 1)).length ≤ 1 := by
          rw [List.length_drop]; omega
        rw [List.take_of_length_le hlast, List.append_assoc, List.take_append_drop]
        exact hunread

/-- A drain judges the segments of the unread bytes, the first of them by whether some of it was
thrown away, and holds the tail. The tail is thrown away in part if it is longer than the limit. -/
theorem Holds.drain (h : d.Holds unread) :
    d.drain.1 = verdicts d.limit d.discarded.isSome (split unread).1 ∧
      d.drain.2.Holds (split unread).2 ∧ d.drain.2.limit = d.limit ∧
      d.drain.2.discarded.isSome =
        ((d.discarded.isSome && (split unread).1.isEmpty) ||
          decide (d.limit < (split unread).2.length)) := by
  induction hn : d.buffer.length using Nat.strongRecOn generalizing d unread with
  | ind n ih =>
    have hunread := h.find?_unread
    cases hf : d.find? with
    | none =>
      rw [hf, Option.map_none] at hunread
      obtain ⟨hholds, hshed⟩ := h.shed hf
      rw [split_of_find_none hunread, drain_of_find_none hf]
      refine ⟨rfl, hholds, ?_, by simpa using hshed⟩
      unfold Decoder.shed
      split <;> rfl
    | some stop =>
      rw [hf, Option.map_some] at hunread
      have hle := le_length_of_find? hf
      have hshort := length_dropFrame hf
      simp only [length_delimiter] at hle hshort
      have hholds := h.dropFrame stop
      obtain ⟨hrest, htail, hlimit, hshed⟩ := ih _ (by omega) hholds rfl
      rw [split_of_find_some hunread, drain_of_find_some hf, Nat.add_comm stop]
      refine ⟨?_, htail, hlimit, ?_⟩
      · -- The bytes up to the delimiter are judged as the first segment, the rest by induction.
        rw [verdicts]
        have hone : (match d.discarded with
            | some dropped => [.error (.oversized (dropped + (d.buffer.take stop).length) d.limit)]
            | none => verdict d.limit false (d.buffer.take stop)) =
            verdict d.limit d.discarded.isSome (unread.take (d.discarded.getD 0 + stop)) := by
          obtain ⟨dropped, rfl, hlen, -⟩ := h.held
          rw [← hlen, List.take_length_add_append]
          cases hd : d.discarded with
          | none =>
            rw [hd] at hlen
            rw [List.eq_nil_of_length_eq_zero hlen]
            rfl
          | some n =>
            rw [hd] at hlen
            simp [verdict, ← show dropped.length = n from hlen]
        rw [hone, hrest]
        exact congrArg _ (verdicts_false _ _)
      · rw [hshed, List.isEmpty_cons, Bool.and_false]
        rfl

end Decoder

end PipeCall.Frame
