import PipeCall.Stream

/-!
# What a read and a write do

A read takes what it gives off the input (`Input.arrived_read`). A frame that is sent is taken by
the output from its beginning, and what is not taken of it is what is left to write
(`Output.send_spec`); a frame that is not written to its end leaves the output full
(`Output.isStuck_of_send`).
-/

namespace PipeCall

namespace Input

/-- A read that gives bytes gives at least one, and takes them off the input. -/
theorem length_of_read {i j : Input} {bs : Bytes} (h : i.read = (.bytes bs, j)) :
    bs ≠ [] ∧ bs.length + j.arrived.length = i.arrived.length := by
  unfold Input.read at h
  split at h
  · split at h
    · simp at h
    · split at h <;> simp at h
  · rename_i b rest harrived
    split at h
    · simp at h
    · rename_i heq hne
      simp only [Prod.mk.injEq, Input.Read.bytes.injEq] at h
      obtain ⟨rfl, rfl⟩ := h
      refine ⟨fun hnil => hne hnil, ?_⟩
      simp only [List.length_take, List.length_drop]
      omega

/-- A read takes what it gives off what has arrived. -/
theorem arrived_read {i j : Input} {r : Read} (h : i.read = (r, j)) :
    j.chunk = i.chunk ∧ i.arrived = (match r with | .bytes bs => bs | _ => []) ++ j.arrived := by
  unfold Input.read at h
  split at h
  · split at h
    · obtain ⟨rfl, rfl⟩ := Prod.mk.inj h
      exact ⟨rfl, rfl⟩
    · split at h <;> obtain ⟨rfl, rfl⟩ := Prod.mk.inj h <;> exact ⟨rfl, rfl⟩
  · split at h
    · obtain ⟨rfl, rfl⟩ := Prod.mk.inj h
      exact ⟨rfl, rfl⟩
    · obtain ⟨rfl, rfl⟩ := Prod.mk.inj h
      exact ⟨rfl, (List.take_append_drop _ _).symm⟩

/-- A read leaves no more than what has arrived. -/
theorem arrived_of_read {i j : Input} {r : Input.Read} (h : i.read = (r, j)) :
    j.arrived.length ≤ i.arrived.length := by
  obtain ⟨-, harrived⟩ := arrived_read h
  rw [harrived, List.length_append]
  omega

/-- A read gives no more bytes than it may. -/
theorem length_le_of_read {i j : Input} {bs : Bytes} (h : i.read = (.bytes bs, j)) :
    bs.length ≤ i.chunk := by
  unfold Input.read at h
  split at h
  · split at h
    · simp at h
    · split at h <;> simp at h
  · split at h
    · simp at h
    · simp only [Prod.mk.injEq, Input.Read.bytes.injEq] at h
      rw [← h.1, List.length_take]
      omega

/-- A stream whose reads may give bytes is at its end only when nothing is left. -/
theorem arrived_of_ended {i j : Input} (pos : 0 < i.chunk) (h : i.read = (.ended, j)) :
    i.arrived = [] := by
  unfold Input.read at h
  split at h
  · assumption
  · rename_i b rest harrived
    split at h
    · rename_i hnone
      have hlen := congrArg List.length hnone
      simp only [harrived, List.length_take, List.length_cons, List.length_nil] at hlen
      omega
    · simp at h

end Input

namespace Output

/-- A write takes the first of its bytes, if any. -/
theorem taken_of_write {o p : Output} {bs : Bytes} {w : Write} (h : o.write bs = (w, p)) :
    match w with
    | .took n => p.taken = o.taken ++ bs.take n
    | .failed _ | .waiting => p = o := by
  unfold write at h
  split at h
  · obtain ⟨rfl, rfl⟩ := Prod.mk.inj h
    rfl
  · obtain ⟨rfl, rfl⟩ := Prod.mk.inj h
    rfl
  · obtain ⟨rfl, rfl⟩ := Prod.mk.inj h
    rfl
  · obtain ⟨rfl, rfl⟩ := Prod.mk.inj h
    rfl

/-- Flushing takes nothing more. -/
theorem taken_of_flush {o p : Output} {r : Sending} (h : o.flush = (r, p)) :
    p.taken = o.taken ∧ ∀ rest, r ≠ .waiting rest := by
  unfold flush at h
  split at h
  · obtain ⟨rfl, rfl⟩ := Prod.mk.inj h
    exact ⟨rfl, by simp⟩
  · obtain ⟨rfl, rfl⟩ := Prod.mk.inj h
    exact ⟨rfl, by simp⟩

/-- What is taken of a byte string is its beginning, and the rest of it is left to write. -/
theorem sendWithin_spec {fuel : Nat} {o p : Output} {bs : Bytes} {r : Sending}
    (hfuel : bs.length ≤ fuel) (h : o.sendWithin fuel bs = (r, p)) :
    ∃ written rest, bs = written ++ rest ∧ p.taken = o.taken ++ written ∧
      (r = .done → rest = []) ∧ ∀ left, r = .waiting left → left = rest ∧ rest ≠ [] := by
  induction fuel generalizing o bs with
  | zero =>
    obtain rfl : bs = [] := List.eq_nil_of_length_eq_zero (by omega)
    rw [sendWithin] at h
    obtain ⟨htaken, hne⟩ := taken_of_flush h
    exact ⟨[], [], rfl, by rw [htaken, List.append_nil], fun _ => rfl, fun left hl => absurd hl (hne left)⟩
  | succ fuel ih =>
    cases bs with
    | nil =>
      rw [sendWithin] at h
      obtain ⟨htaken, hne⟩ := taken_of_flush h
      exact ⟨[], [], rfl, by rw [htaken, List.append_nil], fun _ => rfl,
        fun left hl => absurd hl (hne left)⟩
    | cons b bs =>
      rw [sendWithin] at h
      · split at h
        · rename_i reason q hwrite
          obtain rfl : q = o := taken_of_write hwrite
          obtain ⟨rfl, rfl⟩ := Prod.mk.inj h
          exact ⟨[], b :: bs, rfl, by simp, by simp, by simp⟩
        · rename_i q hwrite
          obtain rfl : q = o := taken_of_write hwrite
          obtain ⟨rfl, rfl⟩ := Prod.mk.inj h
          exact ⟨[], b :: bs, rfl, by simp, by simp, by simp⟩
        · rename_i q hwrite
          have htaken : q.taken = o.taken ++ (b :: bs).take 0 := taken_of_write hwrite
          obtain ⟨rfl, rfl⟩ := Prod.mk.inj h
          exact ⟨[], b :: bs, rfl, htaken, by simp, by simp⟩
        · -- Some bytes are taken, and the others are sent after them.
          rename_i n q hn hwrite
          have htaken : q.taken = o.taken ++ (b :: bs).take n := taken_of_write hwrite
          have hpos : n ≠ 0 := fun hzero => hn (by rw [hzero])
          have hshort : ((b :: bs).drop n).length ≤ fuel := by
            simp only [List.length_drop, List.length_cons] at hfuel ⊢
            omega
          obtain ⟨written, rest, hdrop, hp, hdone, hwaiting⟩ := ih hshort h
          refine ⟨(b :: bs).take n ++ written, rest, ?_, ?_, hdone, hwaiting⟩
          · rw [List.append_assoc, ← hdrop, List.take_append_drop]
          · rw [hp, htaken, List.append_assoc]
      · simp

/-- What is taken of a frame is its beginning, and the rest of it is left to write. -/
theorem send_spec {o p : Output} {bs : Bytes} {r : Sending} (h : o.send bs = (r, p)) :
    ∃ written rest, bs = written ++ rest ∧ p.taken = o.taken ++ written ∧
      (r = .done → rest = []) ∧ ∀ left, r = .waiting left → left = rest ∧ rest ≠ [] :=
  sendWithin_spec (Nat.le_refl _) h

/-- A write that has to wait finds the output full. -/
theorem isStuck_of_write {o p : Output} {bs : Bytes} (h : o.write bs = (.waiting, p)) :
    p = o ∧ o.isStuck = true := by
  unfold write at h
  split at h
  · simp at h
  · simp at h
  · rename_i hroom hfailure
    obtain ⟨-, rfl⟩ := Prod.mk.inj h
    exact ⟨rfl, by simp [isStuck, hroom, hfailure]⟩
  · simp at h

/-- A frame that is not written to its end leaves the output full. -/
theorem isStuck_of_sendWithin {fuel : Nat} {o p : Output} {bs rest : Bytes}
    (hfuel : bs.length ≤ fuel) (h : o.sendWithin fuel bs = (.waiting rest, p)) :
    p.isStuck = true := by
  induction fuel generalizing o bs with
  | zero =>
    obtain rfl : bs = [] := List.eq_nil_of_length_eq_zero (by omega)
    unfold sendWithin flush at h
    split at h <;> simp at h
  | succ fuel ih =>
    cases bs with
    | nil =>
      unfold sendWithin flush at h
      split at h <;> simp at h
    | cons b bs =>
      rw [sendWithin] at h
      · split at h
        · simp at h
        · rename_i q hwrite
          obtain ⟨rfl, hstuck⟩ := isStuck_of_write hwrite
          obtain ⟨-, rfl⟩ := Prod.mk.inj h
          exact hstuck
        · simp at h
        · rename_i n q hn hwrite
          refine ih ?_ h
          have hpos : n ≠ 0 := fun hzero => hn (by rw [hzero])
          simp only [List.length_drop, List.length_cons] at hfuel ⊢
          omega
      · simp

/-- A frame that is not sent to its end leaves the output full. -/
theorem isStuck_of_send {o p : Output} {bs rest : Bytes}
    (h : o.send bs = (.waiting rest, p)) : p.isStuck = true :=
  isStuck_of_sendWithin (Nat.le_refl _) h

/-- An output that takes all that it is given. -/
structure Free (o : Output) : Prop where
  room : o.room = none
  burst : o.burst = none
  failure : o.failure = none
  flushFailure : o.flushFailure = none

/-- An output is not full that takes all it is given. -/
theorem Free.isStuck {o : Output} (h : o.Free) : o.isStuck = false := by
  simp [Output.isStuck, h.room]

/-- It is flushed, and goes on so. -/
theorem Free.flush {o : Output} (h : o.Free) : o.flush.1 = .done ∧ o.flush.2.Free := by
  rw [Output.flush, h.flushFailure]
  exact ⟨rfl, h.room, h.burst, h.failure, rfl⟩

/-- What is sent to it gets there, and it goes on so. -/
theorem Free.send {o : Output} (h : o.Free) (bs : Bytes) :
    (o.send bs).1 = .done ∧ (o.send bs).2.Free := by
  cases bs with
  | nil => exact h.flush
  | cons b bs =>
    -- One write takes all of it.
    have hwrite : o.write (b :: bs) = (.took (bs.length + 1), o.accept (b :: bs) (bs.length + 1)) := by
      simp [write, h.room, h.failure, portion, h.burst]
    have hsend : o.send (b :: bs) = (o.accept (b :: bs) (bs.length + 1)).flush := by
      simp [Output.send, sendWithin, hwrite]
    rw [hsend]
    exact Free.flush ⟨by simp [accept, h.room], h.burst, h.failure, h.flushFailure⟩

end Output

end PipeCall
