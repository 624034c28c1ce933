import PipeCall.Message
import PipeCall.Proofs.Frame.Position
import PipeCall.Proofs.Json.Written

/-!
# Calls that are read back

The frames of some calls are put one behind the other and fed to a decoder in any pieces.
`readBack_of_exact` says that the decoder hands out their bodies, each once and in order, and that
each body spells the call. It takes three facts about a body: it has no line feed, so its delimiter is
the only one in its frame; it is not blank; and its members are read back as they were written.
-/

namespace PipeCall

open Bytes (lineFeed)

namespace Frame

/-- Bytes without a line feed are a segment. -/
theorem whole_of_not_mem {b : Bytes} (h : lineFeed ∉ b) : Whole b where
  undivided := by
    cases hfind : findDelimiter? b with
    | none => rfl
    | some stop =>
      obtain ⟨-, heq⟩ := eq_of_findDelimiter? hfind
      refine absurd ?_ h
      rw [heq]
      simp [delimiter]
  last := fun hlast => h (List.mem_of_getLast? hlast)

/-- A decoder that is fed segments whose reports are certain gives these, and nothing is left. -/
theorem Decoder.play_join {limit : Nat} {segments : List Bytes}
    (hwhole : ∀ s ∈ segments, Whole s) (hblank : ∀ s ∈ segments, Bytes.blank s = false)
    (hlimit : ∀ s ∈ segments, s.length < limit) {uses : List Use}
    (hfed : uses.flatMap Use.bytes = join segments) :
    (play { limit } uses).1 ++ (play { limit } uses).2.drain.1 = segments.map .ok ∧
      (play { limit } uses).2.drain.2.buffer = [] := by
  obtain ⟨hlimit', rest, hline, htracks⟩ := (tracks_new limit).play uses
  obtain ⟨hlimit'', rest', hline', htracks', hnone⟩ := htracks.drain
  rw [List.nil_append] at hline
  rw [hlimit'] at hline' hlimit''
  obtain ⟨outs, houts, hflat, htail⟩ := (hline.trans hline').forall₂ hnone
  have hsplit : split (uses.flatMap Use.bytes) = (segments, []) := by
    have hjoin := split_join (fun s hs => (hwhole s hs).segment) []
    rw [List.append_nil] at hjoin
    rw [hfed, hjoin]
    simp [split]
  rw [hsplit] at houts htail
  dsimp only at houts htail
  constructor
  · rw [← hflat]
    clear hflat hwhole hfed hsplit
    induction houts with
    | nil => rfl
    | @cons s out segments outs hout _ ih =>
      rw [List.flatten_cons, hout.ok (hblank s (by simp)) (hlimit s (by simp)),
        ih (fun s hs => hblank s (by simp [hs])) (fun s hs => hlimit s (by simp [hs]))]
      rfl
  · subst htail
    exact (htracks'.eq_buffer_of_le (Nat.zero_le _)).2

end Frame

namespace Request

/-- A call whose number fits 64 bits and whose parameters are exact and leave a level of nesting for
the call itself. -/
structure Exact (r : Request) : Prop where
  id : r.id < Decimal.wordLimit
  params : r.params.Exact 126

variable {r : Request}

/-- The members of a call, as they stand on the wire. -/
def members (r : Request) : List (String × Json) :=
  [("jsonrpc", .string "2.0"), ("id", .number (.integer r.id)), ("method", .string r.method),
    ("params", r.params)]

/-- The members of an exact call are exact. -/
theorem Exact.members (h : r.Exact) : ∀ m ∈ r.members, m.2.Exact 126 := by
  have hid : (r.id : Int) < Decimal.wordLimit := Int.ofNat_lt.2 h.id
  simp only [Request.members, List.mem_cons, List.not_mem_nil, or_false]
  rintro m (rfl | rfl | rfl | rfl)
  · exact .string _ _
  · exact .integer _ (by omega) hid
  · exact .string _ _
  · exact h.params

/-- The body of an exact call is one line. -/
theorem Exact.lineFeed_not_mem (h : r.Exact) : lineFeed ∉ r.body :=
  Json.lineFeed_not_mem_bytes <|
    Json.lineFeed_not_mem_object fun m hm => (h.members m hm).lineFeed_not_mem

/-- The body of an exact call is read as the object with the call's members, which come in the order
of their keys. -/
theorem Exact.parse?_body (h : r.Exact) :
    Json.parse? r.body =
      some (.object [("id", .number (.integer r.id)), ("jsonrpc", .string "2.0"),
        ("method", .string r.method), ("params", r.params)]) := by
  obtain ⟨es, hes⟩ := Json.exists_members fun m hm => (h.members m hm).exists_reads
  refine (Json.spells_object (Json.spelled_members hes)).parse? ?_
  rw [Json.maxLevels, Json.Document.value?, Json.memberValues?_eq hes]
  rfl

/-- The body of a call is not blank. -/
theorem blank_body (r : Request) : Bytes.blank r.body = false := rfl

/-- A call whose body is within the limit has a frame, its body and a delimiter. -/
theorem frame_eq_ok_iff {most : Nat} {frame : Bytes} :
    r.frame most = .ok frame ↔ r.body.length ≤ most ∧ frame = r.body ++ Frame.delimiter := by
  unfold Request.frame Frame.wrap
  split
  · rename_i hle
    simp [hle, eq_comm]
  · rename_i hlong
    simp [hlong]

end Request

/-- The frames of some calls were fed to a decoder in any pieces, which was asked for frames at any
times and, in the end, until there were none. -/
structure ReadBack (limit : Nat) (calls : List Request) (uses : List Frame.Decoder.Use) : Prop where
  /-- Its results are the bodies of the calls, one for each, in order. -/
  bodies : (Frame.Decoder.play { limit } uses).1 ++ (Frame.Decoder.play { limit } uses).2.drain.1 =
    calls.map fun c => .ok c.body
  /-- Nothing is left. -/
  emptied : (Frame.Decoder.play { limit } uses).2.drain.2.buffer = []
  /-- Each body is one line. -/
  one_line {c : Request} : c ∈ calls → lineFeed ∉ c.body
  /-- Each body is read as the object with the call's members, which come in the order of their keys.
  -/
  parsed {c : Request} : c ∈ calls →
    Json.parse? c.body =
      some (.object [("id", .number (.integer c.id)), ("jsonrpc", .string "2.0"),
        ("method", .string c.method), ("params", c.params)])

/-- The frames of exact calls are read back as these calls by a decoder whose limit is greater than
every body, however they are cut. -/
theorem readBack_of_exact {calls : List Request} {frames : List Bytes} {limit : Nat}
    {uses : List Frame.Decoder.Use} (hexact : ∀ c ∈ calls, c.Exact)
    (hframes : List.Forall₂ (fun c frame => ∃ most, Request.frame most c = .ok frame) calls frames)
    (hlimit : ∀ c ∈ calls, c.body.length < limit)
    (hfed : uses.flatMap Frame.Decoder.Use.bytes = frames.flatten) : ReadBack limit calls uses := by
  have hjoin : frames.flatten = Frame.join (calls.map Request.body) := by
    clear hexact hlimit hfed
    induction hframes with
    | nil => rfl
    | @cons c frame calls frames hframe _ ih =>
      obtain ⟨most, hframe⟩ := hframe
      rw [List.flatten_cons, ih, List.map_cons, Frame.join_cons, (Request.frame_eq_ok_iff.1 hframe).2]
  have hwhole : ∀ s ∈ calls.map Request.body, Frame.Whole s := by
    intro s hs
    obtain ⟨c, hc, rfl⟩ := List.mem_map.1 hs
    exact Frame.whole_of_not_mem (hexact c hc).lineFeed_not_mem
  have hblank : ∀ s ∈ calls.map Request.body, Bytes.blank s = false := by
    intro s hs
    obtain ⟨c, -, rfl⟩ := List.mem_map.1 hs
    exact c.blank_body
  have hshort : ∀ s ∈ calls.map Request.body, s.length < limit := by
    intro s hs
    obtain ⟨c, hc, rfl⟩ := List.mem_map.1 hs
    exact hlimit c hc
  obtain ⟨hbodies, hemptied⟩ :=
    Frame.Decoder.play_join hwhole hblank hshort (hfed.trans hjoin)
  refine ⟨?_, hemptied, fun hc => (hexact _ hc).lineFeed_not_mem, fun hc => (hexact _ hc).parse?_body⟩
  rw [hbodies, List.map_map]
  rfl

/-- Two calls are read back, one with line feeds in its method and with the greatest number and the
least integer there are, when the first piece ends in the middle of a delimiter and the second in the
middle of a body. -/
theorem readBack_of_exact_cut_delimiter :
    let calls : List Request :=
      [⟨18446744073709551615, "\n\n",
        .array [.number (.integer (-9223372036854775808)), .object [("", .null)]]⟩, ⟨1, "", .null⟩]
    let stream := calls.flatMap fun c => c.body ++ Frame.delimiter
    let uses : List Frame.Decoder.Use :=
      [.extend (stream.take 102), .next, .extend ((stream.drop 102).take 20), .next,
        .extend (stream.drop 122)]
    (∀ c ∈ calls, c.Exact) ∧ (∀ c ∈ calls, c.body.length < 102) ∧ ReadBack 102 calls uses := by
  intro calls stream uses
  have hparams : Json.Exact 126
      (.array [.number (.integer (-9223372036854775808)), .object [("", .null)]]) := by
    refine .array fun v hv => ?_
    simp only [List.mem_cons, List.not_mem_nil, or_false] at hv
    rcases hv with rfl | rfl
    · exact .integer _ (by decide) (by decide)
    · exact .object (List.pairwise_singleton _ _) (by simpa using Json.Exact.null 124)
  have hexact : ∀ c ∈ calls, c.Exact := by
    simp only [calls, List.mem_cons, List.not_mem_nil, or_false]
    rintro c (rfl | rfl)
    · exact ⟨by decide, hparams⟩
    · exact ⟨by decide, .null _⟩
  have hlimit : ∀ c ∈ calls, c.body.length < 102 := by decide +kernel
  have hframes : List.Forall₂ (fun c frame => ∃ most, Request.frame most c = .ok frame) calls
      (calls.map fun c => c.body ++ Frame.delimiter) :=
    .cons ⟨101, Request.frame_eq_ok_iff.2 ⟨by decide +kernel, rfl⟩⟩
      (.cons ⟨101, Request.frame_eq_ok_iff.2 ⟨by decide +kernel, rfl⟩⟩ .nil)
  exact ⟨hexact, hlimit, readBack_of_exact hexact hframes hlimit (by decide +kernel)⟩

end PipeCall
