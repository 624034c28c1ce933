import PipeCall.Proofs.Frame.Decoder
import PipeCall.Proofs.Session.Change
import PipeCall.Proofs.Stream
import PipeCall.Session.Settle

/-!
# A client comes to rest

Every move uses up some of `Session.work` (`work_lt_of_perform?`), so a client makes finitely many of
them and `Session.settle` ends in a state that no move leads out of (`next?_settle`). The price of
each move is paid by the part of the work that it does: a call that ends, a request that is taken into
the queue or off it, a byte that is read, a frame that is handed out, a reply that gets to the
registry, a loop that stops. A write that does not finish its frame leaves the output full.
-/

namespace PipeCall

/-- Looking for the next frame adds nothing to the buffer. -/
theorem Frame.Decoder.length_next_le {d e : Frame.Decoder} {r : Option (Except Fault Bytes)}
    (h : d.next = (r, e)) : e.buffer.length ≤ d.buffer.length := by
  cases r with
  | some r => have hshort := length_next h; omega
  | none =>
    induction hn : d.buffer.length using Nat.strongRecOn generalizing d with
    | ind n ih =>
      cases hf : d.find? with
      | none =>
        rw [next_of_find_none hf] at h
        obtain ⟨-, rfl⟩ := Prod.mk.inj h
        unfold shed
        split
        · exact Nat.le_of_eq hn
        · simp only [List.length_drop]; omega
      | some stop =>
        have hrest := length_dropFrame hf
        simp only [length_delimiter] at hrest
        rw [next_of_find_some hf] at h
        cases hd : d.discarded with
        | some dropped => rw [hd] at h; simp at h
        | none =>
          simp only [hd] at h
          split at h
          · -- A blank frame is passed over, and the search goes on in a shorter buffer.
            have hshort := ih _ (by omega) h rfl
            omega
          · split at h <;> simp at h

namespace Session

/-! ## The work of the parts -/

/-- A call that changes changes the work by what is left of its own. -/
theorem callsWork_set {calls : List Call} {place : Nat} {c : Call} (h : calls[place]? = some c)
    (d : Call) : callsWork (calls.set place d) + c.work = callsWork calls + d.work := by
  induction calls generalizing place with
  | nil => simp at h
  | cons e calls ih =>
    cases place with
    | zero =>
      obtain rfl : e = c := by simpa using h
      simp only [List.set_cons_zero, callsWork]
      omega
    | succ place =>
      have hrest := ih (by simpa using h)
      simp only [List.set_cons_succ, callsWork]
      omega

/-- Taking a call into the queue saves the waiting for room. -/
theorem callsWork_letIn (room : Nat) (calls : List Call) :
    callsWork (letIn room calls).1 + 5 * (letIn room calls).2.length = callsWork calls := by
  fun_induction letIn room calls with
  | case1 room t rest calls requests heq ih =>
    rw [heq] at ih
    simp only [callsWork, Call.work, List.length_cons] at ih ⊢
    omega
  | case2 room c rest hne calls requests heq ih =>
    rw [heq] at ih
    simp only [callsWork] at ih ⊢
    omega
  | case3 => simp

/-- An output can be written to or not. -/
theorem outputWork_le (o : Output) : outputWork o ≤ 1 := by
  unfold outputWork
  split <;> omega

variable {s t : Session}

/-- A call that ends saves its work. -/
theorem work_endAt {place : Nat} {ticket : Ticket} {phase : Phase} (outcome : Outcome)
    (stands : s.calls[place]? = some (.registered ticket phase)) (live : phase.isLive = true) :
    (s.endAt place ticket outcome).work < s.work := by
  have hcalls := callsWork_set stands (.registered ticket (.ended outcome))
  have hpos : 0 < Call.work (.registered ticket phase) := by
    cases phase <;> simp [Phase.isLive, Call.work] at live ⊢
  have hzero : Call.work (.registered ticket (.ended outcome)) = 0 := rfl
  simp only [work, endAt]
  omega

/-- A call in a spot that ends saves its work. -/
theorem work_conclude {test : Ticket → Phase → Bool} {spot : Spot} {outcome : Outcome}
    (hspot : spot? test s.calls = some spot) (live : spot.phase.isLive = true) :
    (s.conclude spot outcome).work < s.work := by
  obtain ⟨hcalls, -⟩ := spot?_eq_some hspot
  rw [conclude_eq_endAt hcalls]
  exact work_endAt outcome (hcalls ▸ spot.getElem?_calls) live

/-- What the reader does with a frame leaves at most one reply more on its way. -/
theorem inFlight_dispatch (s : Session) (body : Bytes) :
    (s.dispatch body).inFlight = s.inFlight ∨
      ∃ id r, Inbound.parse body = .ok (.reply r) ∧ r.id.key? = some id ∧
        (s.dispatch body).inFlight = s.inFlight ++ [(id, r)] := by
  unfold dispatch
  split
  · rename_i r hparse
    split
    · rename_i id hkey
      exact Or.inr ⟨id, r, hparse, hkey, rfl⟩
    · exact Or.inl rfl
  · exact Or.inl rfl
  · exact Or.inl rfl
  · exact Or.inl rfl

/-- What is left of the input is worth less after a pull that has something to give. -/
theorem length_pull {k l : Frame.Intake} {p : Frame.Intake.Pulled} (h : k.pull = (p, l)) :
    match p with
    | .frame _ | .refused _ =>
      2 * l.input.arrived.length + l.decoder.buffer.length + 2 ≤
        2 * k.input.arrived.length + k.decoder.buffer.length
    | .buffered =>
      2 * l.input.arrived.length + l.decoder.buffer.length + 1 ≤
        2 * k.input.arrived.length + k.decoder.buffer.length
    | .failed _ | .ended _ | .waiting =>
      2 * l.input.arrived.length + l.decoder.buffer.length ≤
        2 * k.input.arrived.length + k.decoder.buffer.length := by
  unfold Frame.Intake.pull at h
  split at h
  · rename_i hnext
    have hshort := Frame.Decoder.length_next hnext
    obtain ⟨rfl, rfl⟩ := Prod.mk.inj h
    simp only [Frame.length_delimiter] at hshort ⊢
    omega
  · rename_i hnext
    have hshort := Frame.Decoder.length_next hnext
    obtain ⟨rfl, rfl⟩ := Prod.mk.inj h
    simp only [Frame.length_delimiter] at hshort ⊢
    omega
  · rename_i hnext
    have hshort := Frame.Decoder.length_next_le hnext
    split at h
    · rename_i bs i hread
      -- The bytes move to the buffer, where each is worth half of what it was on the input.
      obtain ⟨hne, hlen⟩ := Input.length_of_read hread
      have hpos : 0 < bs.length := List.length_pos_iff.2 hne
      obtain ⟨rfl, rfl⟩ := Prod.mk.inj h
      simp only [Frame.Decoder.extend, List.length_append]
      omega
    · rename_i hread
      have hlen := Input.arrived_of_read hread
      obtain ⟨rfl, rfl⟩ := Prod.mk.inj h
      simp only
      omega
    · rename_i hread
      have hlen := Input.arrived_of_read hread
      obtain ⟨rfl, rfl⟩ := Prod.mk.inj h
      simp only
      omega
    · rename_i hread
      have hlen := Input.arrived_of_read hread
      obtain ⟨rfl, rfl⟩ := Prod.mk.inj h
      simp only
      omega

/-! ## Every move uses up work -/

/-- A step of the writer uses up work. -/
theorem work_lt_of_write? (h : s.write? = some t) : t.work < s.work := by
  have hbefore (room : s.output.isStuck = false) : outputWork s.output = 1 :=
    if_neg (by simp [room])
  cases writes_of_write? h with
  | @sent r rest output hwriter room hsend =>
    -- The frame is written to its end.
    have hfree := hbefore room
    have hafter := outputWork_le output
    simp only [work, hwriter, Writer.work]
    omega
  | @failed r rest reason output hwriter room hsend =>
    -- The write fails, and the writer is lost.
    have hfree := hbefore room
    have hafter := outputWork_le output
    simp only [work, note, hwriter, Writer.work]
    omega
  | @left r rest behind output hwriter room hsend =>
    -- A rest is left to write: the writer has as much to do, but the output is full now.
    have hfree := hbefore room
    have hafter : outputWork output = 0 := if_pos (Output.isStuck_of_send hsend)
    simp only [work, hwriter, Writer.work]
    omega
  | takes hwriter hqueue =>
    simp only [work, hwriter, hqueue, Writer.work, List.length_cons]
    omega
  | passes hwriter hqueue =>
    simp only [work, note, hqueue, List.length_cons]
    omega
  | shuts hwriter =>
    have hgone : Writer.work (if s.output.closeFailure.isSome then .lost else .closed) = 0 := by
      split <;> rfl
    have hready : s.writer.work = 1 := by rw [hwriter]; rfl
    simp only [work, hgone, hready]
    omega

/-- A step of the reader uses up work. -/
theorem work_lt_of_read? (h : s.read? = some t) : t.work < s.work := by
  obtain ⟨hreader, hreads⟩ := reads_of_read? h
  cases hreads with
  | stops =>
    simp only [work, hreader, Reader.work]
    omega
  | @frame body intake may hpull =>
    -- A frame may put one reply on its way, and its delimiter is worth more.
    have hshort := length_pull hpull
    have hlen : (dispatch { s with intake } body).inFlight.length ≤ s.inFlight.length + 1 := by
      rcases inFlight_dispatch { s with intake } body with heq | ⟨id, r, -, -, heq⟩
      · rw [heq]; simp
      · rw [heq]; simp
    obtain ⟨inFlight, events, hd⟩ := dispatch_frame { s with intake } body
    rw [hd] at hlen ⊢
    simp only [work] at hlen ⊢
    omega
  | refused may hpull | buffered may hpull | failed may hpull | ended may hpull =>
    have hshort := length_pull hpull
    simp only [work, note, hreader, Reader.work] at hshort ⊢
    omega

/-- A step of a shutdown uses up work. -/
theorem work_lt_of_close? (h : s.close? = some t) : t.work < s.work := by
  have hwriter : Writer.work .lost ≤ s.writer.work := Nat.zero_le _
  have hreader : Reader.work .gone ≤ s.reader.work := Nat.zero_le _
  cases closes_of_close? h with
  | writerGone waits | writerOverdue waits | readerGone waits | readerOverdue waits =>
    simp only [work, note, waits, Closing.work]
    omega

/-- Every move uses up work. -/
theorem work_lt_of_perform? {m : Move} (h : s.perform? m = some t) : t.work < s.work := by
  cases m with
  | deliver =>
    obtain ⟨spot, hspot, settlement, -, rfl⟩ := deliver?_eq_some h
    obtain ⟨-, htest⟩ := spot?_eq_some hspot
    rw [Bool.and_eq_true] at htest
    exact work_conclude hspot htest.1
  | expire =>
    obtain ⟨-, spot, hspot, rfl⟩ := expire?_eq_some h
    obtain ⟨-, htest⟩ := spot?_eq_some hspot
    rw [Bool.and_eq_true] at htest
    exact work_conclude hspot htest.1
  | refuse =>
    obtain ⟨-, -, spot, hspot, hphase, rfl⟩ := refuse?_eq_some h
    exact work_conclude hspot (by rw [hphase]; rfl)
  | write => exact work_lt_of_write? h
  | refill =>
    obtain ⟨-, -, hne, rfl⟩ := refill?_eq_some h
    have hsave := callsWork_letIn (queueCapacity - s.queue.length) s.calls
    have hpos := List.length_pos_iff.2 hne
    simp only [work, List.length_append]
    omega
  | turn place =>
    cases turns_of_turn? h with
    | ends stands live grounds => exact work_endAt _ stands live
    | @enters ticket stands =>
      have hcalls := callsWork_set stands (.registered ticket .queued)
      simp only [work, Call.work, List.length_append, List.length_singleton] at hcalls ⊢
      omega
  | read => exact work_lt_of_read? h
  | resolve place =>
    obtain ⟨id, reply, hmem, rfl⟩ := resolve?_eq_some h
    obtain ⟨hlt, -⟩ := List.getElem?_eq_some_iff.1 hmem
    simp only [work, note, List.length_eraseIdx, hlt, if_true]
    omega
  | leave =>
    -- The drain settles slots only, and no call ends by it yet.
    obtain ⟨hreader, -, rfl⟩ := leave?_eq_some h
    simp only [work, hreader, Reader.work]
    omega
  | close => exact work_lt_of_close? h

/-! ## Rest -/

/-- The client that a move leads to has less work. -/
theorem work_lt_of_next? (h : s.next? = some t) : t.work < s.work := by
  obtain ⟨m, -, hm⟩ := List.exists_of_findSome?_eq_some h
  exact work_lt_of_perform? hm

/-- As many moves as there is work lead to a client that makes no more. -/
theorem next?_run {fuel : Nat} (hfuel : s.work ≤ fuel) : (run fuel s).next? = none := by
  induction fuel generalizing s with
  | zero =>
    cases hnext : s.next? with
    | none => exact hnext
    | some t => have hless := work_lt_of_next? hnext; omega
  | succ fuel ih =>
    rw [run]
    cases hnext : s.next? with
    | none => exact hnext
    | some t =>
      have hless := work_lt_of_next? hnext
      exact ih (by omega)

/-- A client that settles makes no more moves. -/
theorem next?_settle (s : Session) : s.settle.next? = none := next?_run (Nat.le_refl _)

/-- After a step a client makes no more moves. -/
theorem next?_step (s : Session) (commands : List Command) : (s.step commands).next? = none :=
  next?_settle _

end Session

end PipeCall
