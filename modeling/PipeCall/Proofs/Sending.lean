import PipeCall.Proofs.Stream

/-!
# Frames that are sent one after another

An output whose writes take at least a byte or fail, but never wait (`Steady`), takes a frame as a
whole if its budget allows that, and the first bytes of it otherwise, however few bytes a single
write takes (`Steady.sendWithin_eq`). So a frame that is sent comes to one of three ends
(`Steady.exists_ending`): it is written and flushed, it is written and the flush fails, or it is cut
where the budget ends.

Of some frames that are sent one after another (`sendAll`), some of which may fail, each comes to
its end with what the frames before it have left of the budget (`sent_in_turn`).
-/

namespace PipeCall

namespace Output

variable {o p : Output} {bs : Bytes}

/-! ## Outputs that never wait -/

/-- Writes take at least one byte or fail, but never wait. -/
structure Steady (o : Output) : Prop where
  pos : ∀ n ∈ o.burst, 0 < n
  unbounded : o.failure = none → o.room = none

/-- How many bytes more are taken before writes fail, if they come to that. -/
def budget? (o : Output) : Option Nat := o.failure.map fun _ => o.room.getD 0

/-- After so many bytes were taken, less than the frame is left of the budget. -/
def Short (o : Output) (taken : Nat) (frame : Bytes) : Prop :=
  ∃ k ∈ o.budget?, k - taken < frame.length

/-- Taking no bytes changes nothing. -/
theorem accept_zero (o : Output) (bs : Bytes) : o.accept bs 0 = o := by
  unfold accept
  rw [List.take_zero, List.append_nil]
  have hroom : o.room.map (· - 0) = o.room := by simp
  rw [hroom]

/-- Bytes that are taken in two portions are taken. -/
theorem accept_accept (o : Output) (bs : Bytes) (m n : Nat) :
    (o.accept bs m).accept (bs.drop m) n = o.accept bs (m + n) := by
  unfold accept
  have hroom : (o.room.map (· - m)).map (· - n) = o.room.map (· - (m + n)) := by
    simp [Function.comp_def, Nat.sub_sub]
  rw [hroom, List.append_assoc, ← List.take_add]

/-- The bytes that are taken come off the budget. -/
theorem budget?_accept (o : Output) (bs : Bytes) (n : Nat) :
    (o.accept bs n).budget? = o.budget?.map (· - n) := by
  unfold budget? accept
  cases o.failure with
  | none => rfl
  | some reason => cases o.room <;> simp

/-- It goes on without waiting. -/
theorem Steady.accept (h : o.Steady) (bs : Bytes) (n : Nat) : (o.accept bs n).Steady where
  pos := h.pos
  unbounded hnone := by
    have hroom := h.unbounded hnone
    unfold Output.accept
    rw [hroom]
    rfl

/-- A write fails once the budget is spent, and takes some bytes within the budget before. -/
theorem Steady.write_eq (h : o.Steady) (hne : bs ≠ []) :
    (∃ reason, o.failure = some reason ∧ o.budget? = some 0 ∧ o.write bs = (.failed reason, o)) ∨
      ∃ n, 0 < n ∧ n ≤ bs.length ∧ (∀ k ∈ o.budget?, n ≤ k) ∧
        o.write bs = (.took n, o.accept bs n) := by
  have hlen := List.length_pos_iff.2 hne
  have hburst : 0 < o.burst.getD bs.length := by
    cases hb : o.burst with
    | none => exact hlen
    | some n => exact h.pos n hb
  unfold budget? write
  cases hfailure : o.failure with
  | none =>
    rw [h.unbounded hfailure]
    refine Or.inr ⟨o.portion none bs.length, ?_, ?_, by simp, rfl⟩
    · unfold portion
      rw [Option.getD_none]
      omega
    · exact Nat.min_le_left _ _
  | some reason =>
    rcases hroom : o.room with _ | _ | room
    · exact Or.inl ⟨reason, rfl, rfl, rfl⟩
    · exact Or.inl ⟨reason, rfl, rfl, rfl⟩
    · refine Or.inr ⟨o.portion (some (room + 1)) bs.length, ?_, ?_, ?_, rfl⟩
      · unfold portion
        rw [Option.getD_some]
        omega
      · exact Nat.min_le_left _ _
      · intro k hk
        obtain rfl : room + 1 = k := Option.some.inj hk
        unfold portion
        rw [Option.getD_some]
        omega

/-- A write that fails ends the frame. -/
theorem sendWithin_of_failed {reason : String} (hne : bs ≠ []) (fuel : Nat)
    (h : o.write bs = (.failed reason, p)) : o.sendWithin (fuel + 1) bs = (.failed reason, p) := by
  rw [sendWithin, h]
  exact hne

/-- Behind a write that takes some bytes the others are sent. -/
theorem sendWithin_of_took {n : Nat} (hne : bs ≠ []) (fuel : Nat) (hpos : 0 < n)
    (h : o.write bs = (.took n, p)) :
    o.sendWithin (fuel + 1) bs = p.sendWithin fuel (bs.drop n) := by
  obtain ⟨m, rfl⟩ : ∃ m, n = m + 1 := ⟨n - 1, by omega⟩
  rw [sendWithin, h]
  · rfl
  · exact hne

/-- A frame within the budget is taken as a whole and then flushed; of a longer one the budget is
taken, and then a write fails. -/
theorem Steady.sendWithin_eq {fuel : Nat} (h : o.Steady) (hfuel : bs.length ≤ fuel) :
    ((∀ k ∈ o.budget?, bs.length ≤ k) ∧ o.sendWithin fuel bs = (o.accept bs bs.length).flush) ∨
      ∃ k reason, o.budget? = some k ∧ k < bs.length ∧ o.failure = some reason ∧
        o.sendWithin fuel bs = (.failed reason, o.accept bs k) := by
  induction fuel generalizing o bs with
  | zero =>
    obtain rfl : bs = [] := List.eq_nil_of_length_eq_zero (by omega)
    refine Or.inl ⟨fun k _ => Nat.zero_le k, ?_⟩
    rw [List.length_nil, accept_zero, sendWithin]
  | succ fuel ih =>
    by_cases hnil : bs = []
    · subst hnil
      refine Or.inl ⟨fun k _ => Nat.zero_le k, ?_⟩
      rw [List.length_nil, accept_zero, sendWithin]
    · rcases h.write_eq hnil with
        ⟨reason, hfailure, hspent, hwrite⟩ | ⟨n, hpos, hle, hwithin, hwrite⟩
      · refine Or.inr ⟨0, reason, hspent, List.length_pos_iff.2 hnil, hfailure, ?_⟩
        rw [sendWithin_of_failed hnil fuel hwrite, accept_zero]
      · -- What the first write leaves of the frame is sent with what it leaves of the budget.
        have hshort : (bs.drop n).length ≤ fuel := by
          rw [List.length_drop]
          omega
        rw [sendWithin_of_took hnil fuel hpos hwrite]
        rcases ih (h.accept bs n) hshort with
          ⟨hfits, hsend⟩ | ⟨k, reason, hk, hover, hfailure, hsend⟩
        · rw [hsend, accept_accept, List.length_drop, Nat.add_sub_cancel' hle]
          refine Or.inl ⟨fun k hk => ?_, rfl⟩
          have hleft := hfits (k - n) (by rw [budget?_accept, Option.mem_def.1 hk]; rfl)
          have hfirst := hwithin k hk
          rw [List.length_drop] at hleft
          omega
        · rw [budget?_accept] at hk
          obtain ⟨total, htotal, rfl⟩ := Option.map_eq_some_iff.1 hk
          have hfirst := hwithin total htotal
          rw [List.length_drop] at hover
          refine Or.inr ⟨total, reason, htotal, by omega, hfailure, ?_⟩
          rw [hsend, accept_accept, Nat.add_sub_cancel' hfirst]

/-- The ends that a frame can come to, with the part of it that is taken and the output after it. -/
inductive Ending (o : Output) (bs : Bytes) : Sending → Bytes → Output → Prop where
  /-- It is written and flushed. -/
  | flushed (fits : ∀ k ∈ o.budget?, bs.length ≤ k) (flushes : o.flushFailure = none) :
    Ending o bs .done bs { o.accept bs bs.length with flushes := o.flushes + 1 }
  /-- It is written, and the flush fails. -/
  | unflushed {reason : String} (fits : ∀ k ∈ o.budget?, bs.length ≤ k)
    (fails : o.flushFailure = some reason) :
    Ending o bs (.failed reason) bs (o.accept bs bs.length)
  /-- It is cut where the budget ends. -/
  | cut {k : Nat} {reason : String} (ends : o.budget? = some k) (exceeds : k < bs.length)
    (fails : o.failure = some reason) : Ending o bs (.failed reason) (bs.take k) (o.accept bs k)

/-- A frame that is sent comes to one of the ends. -/
theorem Steady.exists_ending (h : o.Steady) (bs : Bytes) :
    ∃ part, Ending o bs (o.send bs).1 part (o.send bs).2 := by
  unfold send
  rcases h.sendWithin_eq (Nat.le_refl bs.length) with
    ⟨hfits, hsend⟩ | ⟨k, reason, hk, hover, hfailure, hsend⟩
  · rw [hsend]
    unfold flush
    split
    · rename_i reason hflush
      exact ⟨bs, .unflushed hfits hflush⟩
    · rename_i hflush
      exact ⟨bs, .flushed hfits hflush⟩
  · rw [hsend]
    exact ⟨bs.take k, .cut hk hover hfailure⟩

/-- A frame that is written and flushed was taken as a whole. One that fails was taken in part if
the budget is short of it, and as a whole if it is not: then only the flush failed. -/
theorem Ending.outcome {r : Sending} {part : Bytes} (h : Ending o bs r part p) :
    r = .done ∧ ¬o.Short 0 bs ∧ o.flushFailure = none ∧ part = bs ∧ p.flushes = o.flushes + 1 ∨
      ∃ reason, r = .failed reason ∧ part <+: bs ∧ p.flushes = o.flushes ∧
        (o.Short 0 bs ∧ o.failure = some reason ∧ part ≠ bs ∨
          ¬o.Short 0 bs ∧ o.flushFailure = some reason ∧ part = bs) := by
  have hfits (fits : ∀ k ∈ o.budget?, bs.length ≤ k) : ¬o.Short 0 bs := by
    rintro ⟨k, hk, hlt⟩
    exact Nat.not_lt.2 (fits k hk) hlt
  cases h with
  | flushed fits flushes => exact Or.inl ⟨rfl, hfits fits, flushes, rfl, rfl⟩
  | @unflushed reason fits fails =>
    exact Or.inr ⟨reason, rfl, List.prefix_rfl, rfl, Or.inr ⟨hfits fits, fails, rfl⟩⟩
  | @cut k reason ends exceeds fails =>
    refine Or.inr ⟨reason, rfl, List.take_prefix k bs, rfl, Or.inl ⟨⟨k, ends, exceeds⟩, fails, ?_⟩⟩
    intro hwhole
    have hlen := congrArg List.length hwhole
    rw [List.length_take] at hlen
    omega

/-! ## One frame after another -/

/-- One output is the other after it has taken some bytes of frames. -/
structure Took (o : Output) (bytes : Bytes) (p : Output) : Prop where
  taken : p.taken = o.taken ++ bytes
  within : ∀ k ∈ o.budget?, bytes.length ≤ k
  budget : p.budget? = o.budget?.map (· - bytes.length)
  steady : p.Steady
  failure : p.failure = o.failure
  flushFailure : p.flushFailure = o.flushFailure

variable {q : Output} {xs ys : Bytes} {r : Sending}

/-- At first nothing is taken. -/
theorem Steady.took (h : o.Steady) : Took o [] o where
  taken := (List.append_nil _).symm
  within k _ := Nat.zero_le k
  budget := by simp
  steady := h
  failure := rfl
  flushFailure := rfl

/-- What is taken later is behind what is taken before. -/
theorem Took.trans (h : Took o xs p) (h' : Took p ys q) : Took o (xs ++ ys) q where
  taken := by rw [h'.taken, h.taken, List.append_assoc]
  within k hk := by
    have hfirst := h.within k hk
    have hleft := h'.within (k - xs.length) (by rw [h.budget, Option.mem_def.1 hk]; rfl)
    rw [List.length_append]
    omega
  budget := by
    rw [h'.budget, h.budget]
    simp [Function.comp_def, Nat.sub_sub]
  steady := h'.steady
  failure := h'.failure.trans h.failure
  flushFailure := h'.flushFailure.trans h.flushFailure

/-- What is short of a frame is the budget that is left. -/
theorem Took.short_iff (h : Took o xs p) : p.Short 0 bs ↔ o.Short xs.length bs := by
  constructor
  · rintro ⟨k, hk, hlt⟩
    rw [h.budget] at hk
    obtain ⟨total, htotal, rfl⟩ := Option.map_eq_some_iff.1 hk
    exact ⟨total, htotal, hlt⟩
  · rintro ⟨k, hk, hlt⟩
    refine ⟨k - xs.length, ?_, hlt⟩
    rw [h.budget, Option.mem_def.1 hk]
    rfl

/-- The first bytes of a frame are taken as they go to the output. -/
theorem Steady.took_accept (h : o.Steady) {n : Nat} (hle : n ≤ bs.length)
    (hwithin : ∀ k ∈ o.budget?, n ≤ k) : Took o (bs.take n) (o.accept bs n) := by
  have hlen : (bs.take n).length = n := List.length_take_of_le hle
  constructor
  · rfl
  · rwa [hlen]
  · rw [hlen, budget?_accept]
  · exact h.accept bs n
  · rfl
  · rfl

/-- A frame that fits is taken as a whole. -/
theorem Steady.took_whole (h : o.Steady) (fits : ∀ k ∈ o.budget?, bs.length ≤ k) :
    Took o bs (o.accept bs bs.length) := by
  have htook := h.took_accept (Nat.le_refl bs.length) fits
  rwa [List.take_length] at htook

/-- However a frame ends, its part is taken. -/
theorem Ending.took {part : Bytes} (h : Ending o bs r part p) (steady : o.Steady) :
    Took o part p := by
  cases h with
  | flushed fits flushes =>
    -- The output differs by the count of flushes alone.
    obtain ⟨taken, within, budget, ⟨pos, unbounded⟩, failure, flushFailure⟩ :=
      steady.took_whole fits
    exact ⟨taken, within, budget, ⟨pos, unbounded⟩, failure, flushFailure⟩
  | unflushed fits fails => exact steady.took_whole fits
  | @cut k reason ends exceeds fails =>
    refine steady.took_accept (Nat.le_of_lt exceeds) fun m hm => ?_
    obtain rfl : k = m := Option.some.inj (ends.symm.trans hm)
    exact Nat.le_refl k

/-- What became of a frame that was sent. -/
structure Sent where
  frame : Bytes
  /-- The output before. -/
  before : Output
  came : Sending
  /-- The output after. -/
  after : Output

/-- The bytes that were taken of a frame. -/
def Sent.part (x : Sent) : Bytes := x.after.taken.drop x.before.taken.length

/-- The bytes that were taken of some frames, in order. -/
def wire (xs : List Sent) : Bytes := xs.flatMap Sent.part

/-- Sends some frames one after another, whatever becomes of each. -/
def sendAll (o : Output) : List Bytes → List Sent
  | [] => []
  | frame :: frames =>
    let (came, after) := o.send frame
    ⟨frame, o, came, after⟩ :: after.sendAll frames

/-- The first frame is sent, and then the others to the output that it leaves. -/
theorem sendAll_cons (o : Output) (frame : Bytes) (frames : List Bytes) :
    o.sendAll (frame :: frames) =
      ⟨frame, o, (o.send frame).1, (o.send frame).2⟩ :: (o.send frame).2.sendAll frames :=
  rfl

/-- What the output has taken more is the part of the frame. -/
theorem Took.part_eq {x : Sent} (h : Took x.before xs x.after) : x.part = xs := by
  unfold Sent.part
  rw [h.taken, List.drop_left]

/-- The part of a frame is what its end says. -/
theorem Steady.ending_first (h : o.Steady) (frame : Bytes) :
    let x : Sent := ⟨frame, o, (o.send frame).1, (o.send frame).2⟩
    Ending o frame x.came x.part x.after ∧ Took o x.part x.after := by
  intro x
  obtain ⟨part, hending⟩ := h.exists_ending frame
  have htook : Took x.before part x.after := hending.took h
  rw [htook.part_eq]
  exact ⟨hending, htook⟩

/-- Every frame is sent. -/
theorem frame_sendAll (o : Output) (frames : List Bytes) :
    (o.sendAll frames).map Sent.frame = frames := by
  induction frames generalizing o with
  | nil => rfl
  | cons frame frames ih => exact congrArg (frame :: ·) (ih (o.send frame).2)

/-- A frame comes to its end with the output that the frames before it have left. -/
theorem Steady.took_sendAll {frames : List Bytes} {earlier later : List Sent} {x : Sent}
    (h : o.Steady) (hx : o.sendAll frames = earlier ++ x :: later) :
    Took o (wire earlier) x.before ∧
      Ending x.before x.frame x.came x.part x.after := by
  induction earlier generalizing o frames with
  | nil =>
    cases frames with
    | nil => simp [sendAll] at hx
    | cons frame frames =>
      rw [sendAll_cons] at hx
      obtain ⟨rfl, -⟩ := List.cons.inj hx
      exact ⟨h.took, (h.ending_first frame).1⟩
  | cons y earlier ih =>
    cases frames with
    | nil => simp [sendAll] at hx
    | cons frame frames =>
      rw [sendAll_cons] at hx
      obtain ⟨rfl, hrest⟩ := List.cons.inj hx
      obtain ⟨-, htook⟩ := h.ending_first frame
      obtain ⟨hlater, hending⟩ := ih htook.steady hrest
      exact ⟨htook.trans hlater, hending⟩

/-- The account of one of some frames that are sent one after another. -/
structure Accounted (o : Output) (earlier : List Sent) (x : Sent) : Prop where
  /-- The wire holds what was taken of the frames before, in order. -/
  before : x.before.taken = o.taken ++ wire earlier
  /-- What is taken of this one comes behind. -/
  after : x.after.taken = o.taken ++ (wire earlier ++ x.part)
  /-- No more is taken than the budget. -/
  within : ∀ k ∈ o.budget?, (wire earlier ++ x.part).length ≤ k
  /-- It is sent, or fails. -/
  ends : x.came = .done ∨ ∃ reason, x.came = .failed reason
  /-- A frame that is sent is taken as a whole, and flushed once. -/
  done : x.came = .done → x.part = x.frame ∧ x.after.flushes = x.before.flushes + 1
  /-- Of a frame that fails a beginning is taken, and all of it if only the flush fails; there is no
  flush. -/
  failed : ∀ reason, x.came = .failed reason →
    x.part <+: x.frame ∧ x.after.flushes = x.before.flushes ∧
      (o.Short (wire earlier).length x.frame ∧ o.failure = some reason ∧ x.part ≠ x.frame ∨
        ¬o.Short (wire earlier).length x.frame ∧ o.flushFailure = some reason ∧
          x.part = x.frame)
  /-- It fails if the budget is short of it, or the flush fails, and only then. -/
  failed_iff : (∃ reason, x.came = .failed reason) ↔
    o.Short (wire earlier).length x.frame ∨ o.flushFailure ≠ none

/-- A frame that comes to its end with what the frames before it have left is accounted for. -/
theorem Took.accounted {earlier : List Sent} {x : Sent}
    (h : Took o (wire earlier) x.before)
    (hending : Ending x.before x.frame x.came x.part x.after) : Accounted o earlier x := by
  have hall := h.trans (hending.took h.steady)
  have houtcome := hending.outcome
  rw [h.short_iff, h.failure, h.flushFailure] at houtcome
  refine ⟨h.taken, hall.taken, hall.within, ?_, ?_, ?_, ?_⟩
  · rcases houtcome with ⟨hdone, -⟩ | ⟨reason, hfailed, -⟩
    · exact Or.inl hdone
    · exact Or.inr ⟨reason, hfailed⟩
  · intro hdone
    rcases houtcome with ⟨-, -, -, hwhole⟩ | ⟨reason, hfailed, -⟩
    · exact hwhole
    · rw [hfailed] at hdone
      simp at hdone
  · intro reason hfailed
    rcases houtcome with ⟨hdone, -⟩ | ⟨reason', hfailed', hcut⟩
    · rw [hdone] at hfailed
      simp at hfailed
    · obtain rfl : reason' = reason := Sending.failed.inj (hfailed'.symm.trans hfailed)
      exact hcut
  · constructor
    · rintro ⟨reason, hfailed⟩
      rcases houtcome with ⟨hdone, -⟩ | ⟨reason, -, -, -, ⟨hshort, -⟩ | ⟨-, hflush, -⟩⟩
      · rw [hdone] at hfailed
        simp at hfailed
      · exact Or.inl hshort
      · refine Or.inr ?_
        rw [hflush]
        simp
    · intro hfails
      rcases houtcome with ⟨-, hfits, hflush, -⟩ | ⟨reason, hfailed, -⟩
      · rcases hfails with hshort | hfails
        · exact absurd hshort hfits
        · exact absurd hflush hfails
      · exact ⟨reason, hfailed⟩

/-- Each of some frames that are sent one after another is accounted for, whatever comes of them. -/
theorem sent_in_turn (steady : o.Steady) (frames : List Bytes) :
    (o.sendAll frames).map Sent.frame = frames ∧
      ∀ earlier x later, o.sendAll frames = earlier ++ x :: later → Accounted o earlier x := by
  refine ⟨frame_sendAll o frames, fun earlier x later hx => ?_⟩
  obtain ⟨htook, hending⟩ := steady.took_sendAll hx
  exact htook.accounted hending

/-- An output that takes two bytes at a time, three in all, and then fails. -/
def narrow : Output := { room := some 3, burst := some 2, failure := some "gone" }

/-- Of two frames of two bytes, with an empty one between them, the output that takes three bytes
takes one and a half. -/
theorem sent_in_turn_cut :
    narrow.Steady ∧
      (narrow.sendAll [[0x61, 0x62], [], [0x63, 0x64]]).map (fun x => (x.came, x.part)) =
        [(.done, [0x61, 0x62]), (.done, []), (.failed "gone", [0x63])] ∧
      ∀ earlier x later,
        narrow.sendAll [[0x61, 0x62], [], [0x63, 0x64]] = earlier ++ x :: later →
          Accounted narrow earlier x := by
  have steady : narrow.Steady := ⟨by simp [narrow], by simp [narrow]⟩
  exact ⟨steady, rfl, (sent_in_turn steady [[0x61, 0x62], [], [0x63, 0x64]]).2⟩

end Output

end PipeCall
