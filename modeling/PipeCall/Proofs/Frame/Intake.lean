import PipeCall.Event
import PipeCall.Frame.Intake
import PipeCall.Proofs.Decimal
import PipeCall.Proofs.Frame.Position
import PipeCall.Proofs.Stream

/-!
# Frames from a stream of any course

An intake is asked for frames while bytes arrive on its stream, which gives them in reads of any
sizes, and ends or fails at any time (`Turn`). Whatever its turns, the bytes that have arrived are
some segments that the decoder is done with, then those that it holds, and then those that wait on
the input (`Carries`). A step of the intake keeps that (`Carries.pull`), so it is so after all turns
(`Served.turns`).

Two things follow. The buffer stays small however long the messages are: a decoder that has no frame
to give holds no more than the limit, or one byte, and an intake no more than one read besides
(`buffer_bounded`). And the diagnostic at the end of the stream is right exactly if the bytes that
no delimiter ends are within the limit, or blank (`told_at_end_iff`): of more bytes only the last one
is still there, so either it is told of alone or nothing is.
-/

namespace PipeCall

namespace Frame

open Bytes (lineFeed)

/-! ## The size of the buffer -/

namespace Decoder

variable {d e : Decoder}

/-- After a search that found nothing the buffer is within the limit, or is one byte. -/
theorem length_shed_le (d : Decoder) : d.shed.buffer.length ≤ max d.limit 1 := by
  unfold shed
  split
  · rename_i hkeep
    have hwithin : d.buffer.length ≤ d.limit := hkeep.2
    exact Nat.le_trans hwithin (Nat.le_max_left _ _)
  · simp only [List.length_drop]
    omega

/-- Behind some blank frames the decoder finds no delimiter, or takes a frame out and hands it out
or reports it as too long. -/
theorem next_cases (d : Decoder) :
    ∃ c : Decoder, c.limit = d.limit ∧
      (d.next = (none, c.shed) ∨
        ∃ r stop, d.next = (some r, c.dropFrame stop) ∧
          ∀ fault, r = .error fault → ∃ size, fault = .oversized size d.limit) := by
  induction hn : d.buffer.length using Nat.strongRecOn generalizing d with
  | ind n ih =>
    cases hf : d.find? with
    | none => exact ⟨d, rfl, Or.inl (next_of_find_none hf)⟩
    | some stop =>
      have hshort := length_dropFrame hf
      rw [length_delimiter] at hshort
      rw [next_of_find_some hf]
      cases hd : d.discarded with
      | some dropped =>
        refine ⟨d, rfl, Or.inr ⟨_, stop, rfl, fun fault hfault => ?_⟩⟩
        exact ⟨_, (Except.error.inj hfault).symm⟩
      | none =>
        simp only
        split
        · -- The frame is blank, so the result is of what is behind it.
          obtain ⟨c, hlimit, hnext⟩ := ih _ (by omega) (d.dropFrame stop) rfl
          exact ⟨c, hlimit, hnext⟩
        · split
          · refine ⟨d, rfl, Or.inr ⟨_, stop, rfl, fun fault hfault => ?_⟩⟩
            exact ⟨_, (Except.error.inj hfault).symm⟩
          · exact ⟨d, rfl, Or.inr ⟨_, stop, rfl, by simp⟩⟩

/-- A decoder that has no frame to give holds no more than the limit, or one byte. -/
theorem length_next_of_none (h : d.next = (none, e)) : e.buffer.length ≤ max d.limit 1 := by
  obtain ⟨c, hlimit, hnext | ⟨r, stop, hnext, -⟩⟩ := next_cases d
  · rw [h] at hnext
    obtain rfl : e = c.shed := (Prod.mk.inj hnext).2
    rw [← hlimit]
    exact length_shed_le c
  · simp [h] at hnext

/-- What a decoder refuses to hand out is too long. -/
theorem oversized_of_next {fault : Fault} (h : d.next = (some (.error fault), e)) :
    ∃ size, fault = .oversized size d.limit := by
  obtain ⟨c, -, hnext | ⟨r, stop, hnext, hfault⟩⟩ := next_cases d
  · simp [h] at hnext
  · rw [h] at hnext
    exact hfault fault (Option.some.inj (Prod.mk.inj hnext).1).symm

end Decoder

/-! ## The turns of an intake -/

/-- The greatest number of bytes that an intake asks its stream for at a time. -/
def readSize : Nat := 8192

namespace Intake

/-- What can happen to an intake. -/
inductive Turn where
  /-- Bytes arrive on its stream. -/
  | arrive (bs : Bytes)
  /-- Nothing more will arrive. -/
  | close
  /-- The next read fails that finds nothing. -/
  | fail (reason : String)
  /-- A read gives so many bytes at most from now on. -/
  | cut (most : Nat) (pos : 0 < most) (le : most ≤ readSize)
  /-- It is asked for what there is. -/
  | pull

/-- The bytes that arrive in a turn. -/
def Turn.bytes : Turn → Bytes
  | .arrive bs => bs
  | _ => []

/-- An intake after a turn. -/
def turn (k : Intake) : Turn → Intake
  | .arrive bs => { k with input := { k.input with arrived := k.input.arrived ++ bs } }
  | .close => { k with input := { k.input with ended := true } }
  | .fail reason => { k with input := { k.input with failure := some reason } }
  | .cut most _ _ => { k with input := { k.input with chunk := most } }
  | .pull => k.pull.2

/-- An intake on whose stream nothing has happened yet. -/
def new (limit : Nat) : Intake := ⟨{}, { limit }⟩

variable {k l : Intake} {limit : Nat} {bytes : Bytes}

/-- What a step gives for a result of the decoder. -/
def Pulled.ofResult : Except Fault Bytes → Pulled
  | .ok body => .frame body
  | .error fault => .refused fault

/-- A step with a result of the decoder leaves the input as it is. -/
theorem pull_of_next_some {r : Except Fault Bytes} {d : Decoder}
    (h : k.decoder.next = (some r, d)) :
    k.pull = (.ofResult r, { k with decoder := d }) := by
  unfold pull
  rw [h]
  cases r <;> rfl

/-- A step without a result of the decoder reads the input. -/
theorem pull_of_next_none {d : Decoder} (h : k.decoder.next = (none, d)) :
    k.pull = match k.input.read with
      | (.bytes bs, i) => (.buffered, ⟨i, d.extend bs⟩)
      | (.failed reason, i) => (.failed (.stream reason), ⟨i, d⟩)
      | (.ended, i) => (.ended (leftover? d), ⟨i, d⟩)
      | (.waiting, i) => (.waiting, ⟨i, d⟩) := by
  rcases hread : k.input.read with ⟨r, i⟩
  cases r <;> simp only [pull, h, hread]

/-- The result of the decoder in what a step gives. -/
def Pulled.result? : Pulled → Option (Except Fault Bytes)
  | .frame body => some (.ok body)
  | .refused fault => some (.error fault)
  | _ => none

/-- A step gives the result of the decoder, if there is one. -/
theorem result?_of_pull {p : Pulled} (h : k.pull = (p, l)) : k.decoder.next.1 = p.result? := by
  rcases hnext : k.decoder.next with ⟨_ | r, d⟩
  · rw [pull_of_next_none hnext] at h
    split at h <;> obtain ⟨rfl, -⟩ := Prod.mk.inj h <;> rfl
  · rw [pull_of_next_some hnext] at h
    obtain ⟨rfl, -⟩ := Prod.mk.inj h
    cases r <;> rfl

/-- A call for the next thing to report makes some steps, and gives what the last of them gives. -/
theorem exists_pulls (fuel : Nat) (k : Intake) :
    ∃ n, nextWithin fuel k = ((List.replicate n Turn.pull).foldl turn k).pull := by
  induction fuel generalizing k with
  | zero => exact ⟨0, rfl⟩
  | succ fuel ih =>
    rw [nextWithin]
    split
    · rename_i l hpull
      obtain ⟨n, hn⟩ := ih l
      refine ⟨n + 1, ?_⟩
      have hturn : k.turn .pull = l := congrArg Prod.snd hpull
      rw [List.replicate_succ, List.foldl_cons, hturn, hn]
    · exact ⟨0, rfl⟩

/-! ## What has become of the bytes -/

/-- Of these bytes the decoder is done with some segments, and the others are unread: those that it
holds, and those on the input. -/
def Carries (k : Intake) (bytes : Bytes) : Prop :=
  ∃ done held, bytes = join done ++ (held ++ k.input.arrived) ∧
    (∀ b ∈ done, findDelimiter? (b ++ [lineFeed]) = none) ∧ k.decoder.Tracks held

/-- A step moves bytes on, and changes neither the limit nor the size of the reads. -/
theorem Carries.pull (h : k.Carries bytes) :
    k.pull.2.decoder.limit = k.decoder.limit ∧ k.pull.2.input.chunk = k.input.chunk ∧
      k.pull.2.Carries bytes := by
  obtain ⟨done, held, hbytes, hdone, htracks⟩ := h
  obtain ⟨hlimit, rest, htakes, hrest⟩ := htracks.next
  obtain ⟨segments, outs, hheld, hsegments, -, -⟩ := htakes.looks.lineUp
  have hall : ∀ b ∈ done ++ segments, findDelimiter? (b ++ [lineFeed]) = none :=
    List.forall_mem_append.2 ⟨hdone, hsegments⟩
  have hjoin : bytes = join (done ++ segments) ++ (rest ++ k.input.arrived) := by
    rw [hbytes, hheld, join_append, List.append_assoc, List.append_assoc]
  rcases hnext : k.decoder.next with ⟨_ | r, d⟩
  · -- The decoder has no result, so the input is read.
    rw [hnext] at hlimit hrest
    rw [pull_of_next_none hnext]
    rcases hread : k.input.read with ⟨r, i⟩
    obtain ⟨hchunk, harrived⟩ := Input.arrived_read hread
    cases r with
    | bytes bs =>
      refine ⟨hlimit, hchunk, _, rest ++ bs, ?_, hall, hrest.extend bs⟩
      rw [hjoin, harrived, List.append_assoc]
    | failed | ended | waiting =>
      refine ⟨hlimit, hchunk, _, rest, ?_, hall, hrest⟩
      rw [hjoin, harrived]
      rfl
  · -- A result is taken, and the input is left as it is.
    rw [hnext] at hlimit hrest
    rw [pull_of_next_some hnext]
    exact ⟨hlimit, rfl, _, rest, hjoin, hall, hrest⟩

/-- These bytes have arrived at an intake with this limit, whose reads are of a size that it asks
for. -/
structure Served (limit : Nat) (bytes : Bytes) (k : Intake) : Prop where
  limit : k.decoder.limit = limit
  pos : 0 < k.input.chunk
  le : k.input.chunk ≤ readSize
  carries : k.Carries bytes

/-- Nothing has arrived at a new intake. -/
theorem served_new (limit : Nat) : Served limit [] (new limit) where
  limit := rfl
  pos := Nat.succ_pos _
  le := Nat.le_refl _
  carries := ⟨[], [], rfl, by simp, Decoder.tracks_new limit⟩

/-- What arrives in a turn has arrived after it. -/
theorem Served.turn (h : Served limit bytes k) (t : Turn) :
    Served limit (bytes ++ t.bytes) (k.turn t) := by
  cases t with
  | arrive bs =>
    obtain ⟨done, held, hbytes, hdone, htracks⟩ := h.carries
    refine ⟨h.limit, h.pos, h.le, done, held, ?_, hdone, htracks⟩
    rw [Turn.bytes, hbytes, List.append_assoc, List.append_assoc]
    rfl
  | pull =>
    obtain ⟨hlimit, hchunk, hcarries⟩ := h.carries.pull
    have hnone : bytes ++ Turn.bytes .pull = bytes := List.append_nil bytes
    rw [hnone]
    exact ⟨hlimit.trans h.limit, hchunk ▸ h.pos, hchunk ▸ h.le, hcarries⟩
  | close | fail => exact (List.append_nil bytes).symm ▸ ⟨h.limit, h.pos, h.le, h.carries⟩
  | cut most pos le => exact (List.append_nil bytes).symm ▸ ⟨h.limit, pos, le, h.carries⟩

/-- What arrives in some turns has arrived after them. -/
theorem Served.turns (h : Served limit bytes k) (ts : List Turn) :
    Served limit (bytes ++ ts.flatMap Turn.bytes) (ts.foldl Intake.turn k) := by
  induction ts generalizing k bytes with
  | nil => simpa using h
  | cons t ts ih =>
    have hrest := ih (h.turn t)
    rw [List.append_assoc] at hrest
    exact hrest

/-- A new intake has been served what has arrived in its turns. -/
theorem served_turns (limit : Nat) (ts : List Turn) :
    Served limit (ts.flatMap Turn.bytes) (ts.foldl turn (new limit)) :=
  (served_new limit).turns ts

/-! ## How much is held -/

/-- One read more than the decoder keeps is the most that a turn leaves in the buffer. -/
theorem Served.length_turn (h : Served limit bytes k)
    (held : k.decoder.buffer.length ≤ max limit 1 + readSize) (t : Turn) :
    (k.turn t).decoder.buffer.length ≤ max limit 1 + readSize := by
  cases t with
  | arrive | close | fail | cut => exact held
  | pull =>
    show k.pull.2.decoder.buffer.length ≤ max limit 1 + readSize
    rcases hnext : k.decoder.next with ⟨_ | r, d⟩
    · have hkept := Decoder.length_next_of_none hnext
      rw [h.limit] at hkept
      rw [pull_of_next_none hnext]
      rcases hread : k.input.read with ⟨r, i⟩
      cases r with
      | bytes bs =>
        have hread := Input.length_le_of_read hread
        have hsize := h.le
        simp only [Decoder.extend, List.length_append]
        omega
      | failed | ended | waiting => exact Nat.le_trans hkept (Nat.le_add_right _ _)
    · have hshort := Decoder.length_next hnext
      rw [pull_of_next_some hnext]
      simp only
      omega

/-- One read more than the decoder keeps is the most that some turns leave in the buffer. -/
theorem Served.length_turns (h : Served limit bytes k)
    (held : k.decoder.buffer.length ≤ max limit 1 + readSize) (ts : List Turn) :
    (ts.foldl Intake.turn k).decoder.buffer.length ≤ max limit 1 + readSize := by
  induction ts generalizing k bytes with
  | nil => exact held
  | cons t ts ih => exact ih (h.turn t) (h.length_turn held t)

end Intake

/-- However long the messages are, a decoder that was asked for a frame and has none holds no more
than the limit, or one byte, whatever was done with it before; and an intake never holds more than
that and one read, whatever its stream does. -/
theorem buffer_bounded (limit : Nat) (uses : List Decoder.Use) (turns : List Intake.Turn) :
    (∀ d, (Decoder.play { limit } uses).2.next = (none, d) → d.buffer.length ≤ max limit 1) ∧
      (turns.foldl Intake.turn (Intake.new limit)).decoder.buffer.length ≤
        max limit 1 + readSize := by
  constructor
  · intro d hnone
    obtain ⟨hlimit, -⟩ := (Decoder.tracks_new limit).play uses
    have hkept := Decoder.length_next_of_none hnone
    rwa [hlimit] at hkept
  · exact (Intake.served_new limit).length_turns (Nat.zero_le _) turns

/-- Of five bytes with a limit of two, one is held. -/
theorem buffer_bounded_long_message :
    (Decoder.play { limit := 2 } [.extend [0x61, 0x61, 0x61], .next, .extend [0x61, 0x61]]).2.next =
        (none, ⟨2, [0x61], 1, some 4⟩) ∧
      (⟨2, [0x61], 1, some 4⟩ : Decoder).buffer.length ≤ max 2 1 :=
  ⟨rfl, (buffer_bounded 2 [.extend [0x61, 0x61, 0x61], .next, .extend [0x61, 0x61]]
    [.arrive [0x61], .pull]).1 _ rfl⟩

/-! ## What is told at the end of the stream -/

/-- What is left in the buffer of a decoder that has no frame to give: all that no delimiter ends,
or the last byte of it. -/
theorem Decoder.buffer_idle (limit : Nat) (tail : Bytes) :
    (Decoder.idle limit tail).buffer =
      if tail.length ≤ max limit 1 then tail else tail.drop (tail.length - 1) := by
  unfold idle shed
  by_cases hlimit : tail.length ≤ limit
  · have hmax : tail.length ≤ max limit 1 := Nat.le_trans hlimit (Nat.le_max_left _ _)
    rw [if_pos ⟨rfl, hlimit⟩, if_pos hmax]
  · rw [if_neg fun hkeep => hlimit hkeep.2]
    split
    · -- The limit is zero, and the one byte there is kept.
      have hzero : tail.length - 1 = 0 := by omega
      simp only [hzero, List.drop_zero]
    · rfl

namespace Intake

variable {k l : Intake} {limit : Nat} {bytes : Bytes} {leftover : Option Nat}

/-- What is noted of what a call gives. -/
def Pulled.events : Pulled → List Event
  | .ended leftover => (leftover.map Event.truncated).toList
  | _ => []

/-- The lines that are shown of what a call gives. -/
def Pulled.diagnostics (p : Pulled) : List String := p.events.filterMap Event.diagnostic?

/-- The line for bytes that no delimiter ends, with their number, and none if they are blank. -/
def incomplete (tail : Bytes) : List String :=
  if Bytes.blank tail then []
  else ["WARN Discarding " ++ Decimal.text tail.length ++
    " bytes of incomplete message at end of stream"]

/-- At the end of the stream the buffer of the decoder is told of. -/
theorem diagnostics_leftover? (d : Decoder) :
    (Pulled.ended (leftover? d)).diagnostics = incomplete d.buffer := by
  unfold leftover? incomplete
  split <;> rfl

/-- Different numbers of bytes have different lines. -/
theorem length_eq_of_incomplete {xs ys : Bytes} (hxs : Bytes.blank xs = false)
    (h : incomplete ys = incomplete xs) : ys.length = xs.length := by
  have hsome : ¬Bytes.blank xs = true := by simp [hxs]
  unfold incomplete at h
  rw [if_neg hsome] at h
  split at h
  · simp at h
  · have hline := List.head_eq_of_cons_eq h
    have hnumber := (String.append_left_inj _).1 hline
    exact Decimal.text_injective ((String.append_right_inj _).1 hnumber)

/-- A step that comes to the end of the stream finds what no delimiter ends in the decoder. -/
theorem Served.leftover_eq (h : Served limit bytes k) (hend : k.pull = (.ended leftover, l)) :
    leftover = leftover? (Decoder.idle limit (split bytes).2) := by
  obtain ⟨done, held, hbytes, hdone, htracks⟩ := h.carries
  rcases hnext : k.decoder.next with ⟨_ | r, d⟩
  · rw [pull_of_next_none hnext] at hend
    rcases hread : k.input.read with ⟨r, i⟩
    rw [hread] at hend
    cases r with
    | ended =>
      have harrived := Input.arrived_of_ended h.pos hread
      have htail : (split bytes).2 = (split held).2 := by
        rw [hbytes, harrived, List.append_nil, split_join hdone]
      obtain ⟨hidle, -⟩ := htracks.next_of_none (congrArg Prod.fst hnext)
      have hd : d = Decoder.idle limit (split bytes).2 := by
        rw [htail, ← h.limit]
        exact congrArg Prod.snd (hnext.symm.trans hidle)
      rw [← hd]
      exact (Pulled.ended.inj (congrArg Prod.fst hend)).symm
    | bytes | failed | waiting => simp at hend
  · rw [pull_of_next_some hnext] at hend
    cases r <;> simp [Pulled.ofResult] at hend

/-- Asking for something to report brings no bytes. -/
theorem flatMap_replicate_pull (n : Nat) :
    (List.replicate n Turn.pull).flatMap Turn.bytes = [] := by
  simp [Turn.bytes]

/-- A call that comes to the end of the stream finds what no delimiter ends in the decoder. -/
theorem Served.leftover_next (h : Served limit bytes k) (hend : k.next = (.ended leftover, l)) :
    leftover = leftover? (Decoder.idle limit (split bytes).2) := by
  obtain ⟨n, hn⟩ := exists_pulls k.input.arrived.length k
  have hserved := h.turns (List.replicate n Turn.pull)
  rw [flatMap_replicate_pull, List.append_nil] at hserved
  exact hserved.leftover_eq (hn.symm.trans hend)

end Intake

open Intake in
/-- A call that comes to the end of the stream tells of the bytes that no delimiter ends, or of the
last of them if they are more than the limit. So what it tells is right exactly if they are within
the limit, or one byte, or blank. -/
theorem told_at_end_iff (limit : Nat) (turns : List Turn) {leftover : Option Nat} {k : Intake}
    (h : (turns.foldl turn (new limit)).next = (.ended leftover, k)) :
    let tail := (split (turns.flatMap Turn.bytes)).2
    (Pulled.ended leftover).diagnostics =
        incomplete (if tail.length ≤ max limit 1 then tail else tail.drop (tail.length - 1)) ∧
      ((Pulled.ended leftover).diagnostics = incomplete tail ↔
        Bytes.blank tail ∨ tail.length ≤ max limit 1) := by
  intro tail
  have htold : (Pulled.ended leftover).diagnostics =
      incomplete (if tail.length ≤ max limit 1 then tail else tail.drop (tail.length - 1)) := by
    rw [(served_turns limit turns).leftover_next h, diagnostics_leftover?, Decoder.buffer_idle]
  refine ⟨htold, ?_⟩
  rw [htold]
  constructor
  · intro heq
    by_contra hnot
    obtain ⟨hblank, hlong⟩ := not_or.1 hnot
    rw [if_neg hlong] at heq
    -- One byte is told of, or none, and there are at least two.
    have hlen := length_eq_of_incomplete (by simpa using hblank) heq
    rw [List.length_drop] at hlen
    omega
  · rintro (hblank | hshort)
    · split
      · rfl
      · have hlast : Bytes.blank (tail.drop (tail.length - 1)) = true :=
          List.all_eq_true.2 fun b hb => List.all_eq_true.1 hblank b (List.mem_of_mem_drop hb)
        unfold incomplete
        rw [if_pos hblank, if_pos hlast]
    · rw [if_pos hshort]

open Intake in
/-- Three bytes that come in two reads are told of if four are allowed. -/
theorem told_at_end_of_two_reads :
    ([Turn.arrive [0x61, 0x62], .pull, .arrive [0x63], .close].foldl turn (new 4)).next =
        (.ended (some 3), ⟨{ ended := true }, ⟨4, [0x61, 0x62, 0x63], 3, none⟩⟩) ∧
      (Pulled.ended (some 3)).diagnostics = incomplete [0x61, 0x62, 0x63] :=
  ⟨rfl, (told_at_end_iff 4 [.arrive [0x61, 0x62], .pull, .arrive [0x63], .close] rfl).2.2
    (Or.inr (by decide))⟩

open Intake in
/-- Ten bytes are told of as one if four are allowed; with a line feed behind them nothing is told
of the eleven. -/
theorem last_byte_told_of_alone :
    let digits := Utf8.encode "0123456789"
    let line := Utf8.encode "0123456789\n"
    ([Turn.arrive digits, .close].foldl turn (new 4)).next.1 = .ended (some 1) ∧
      (Pulled.ended (some 1)).diagnostics =
        ["WARN Discarding 1 bytes of incomplete message at end of stream"] ∧
      incomplete (split digits).2 =
        ["WARN Discarding 10 bytes of incomplete message at end of stream"] ∧
      ([Turn.arrive line, .close].foldl turn (new 4)).next.1 = .ended none ∧
      (Pulled.ended none).diagnostics = [] ∧
      incomplete (split line).2 =
        ["WARN Discarding 11 bytes of incomplete message at end of stream"] :=
  ⟨rfl, rfl, rfl, rfl, rfl, rfl⟩

end Frame

end PipeCall
