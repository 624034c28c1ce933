import PipeCall.Proofs.Invocation
import PipeCall.Proofs.Message
import PipeCall.Proofs.Reply
import PipeCall.Proofs.Request
import PipeCall.Session.Move

/-!
# Calls that come back

A counterparty may send a call back, or make one of its own in the same form. What has a method is no
reply, whatever its identifier, and the members of a call that are not looked at, the parameters among
them, may be any value (`Request.parse_body`). So a client that is sent a call takes note of it and does
nothing else, also where a call of that number is outstanding (`echoed_of_frame`). The parameters need
only be finite, as those that a command line gives are (`Invocation.isFinite_of_parse`).
-/

namespace PipeCall

open Json (Document pieces)

namespace Request

variable {r : Request}

/-- A body is taken for a message of the counterparty's own with the method of a call. -/
structure Echoed (r : Request) (body : Bytes) : Prop where
  /-- It is read as a message with that method, whatever the identifier and the parameters. -/
  parsed : Inbound.parse body = .ok (.notification r.method)
  /-- It is a reply to no call. -/
  unkeyed : Inbound.keyed? body = none
  /-- All that a client does when it comes in is to note it. -/
  noted (s : Session) : s.dispatch body = s.note (.notification r.method)

/-- The body of a call is read as a message with the call's method. -/
theorem parse_body (hid : r.id < Decimal.wordLimit) (hparams : r.params.IsFinite) :
    Inbound.parse r.body = .ok (.notification r.method) := by
  obtain ⟨d, hspells⟩ := hparams.exists_spells
  let id : CallId := .number r.id
  have hspelled : List.Forall₂ Document.SpellsField r.members
      [("jsonrpc", .string (pieces "2.0".toList)), ("id", id.document),
        ("method", .string (pieces r.method.toList)), ("params", d)] :=
    .cons ⟨rfl, Json.spells_string "2.0"⟩ <| .cons ⟨rfl, id.spells_document⟩ <|
      .cons ⟨rfl, Json.spells_string r.method⟩ <| .cons ⟨rfl, hspells⟩ .nil
  have hnamed : Document.named? Inbound.memberNames
      [("jsonrpc", .string (pieces "2.0".toList)), ("id", id.document),
        ("method", .string (pieces r.method.toList)), ("params", d)] =
      some [("id", id.document), ("method", .string (pieces r.method.toList))] := by
    simp [Document.named?, Inbound.memberNames]
  have hmethod : Inbound.optional? Document.string? "method"
      [("id", id.document), ("method", .string (pieces r.method.toList))] = some (some r.method) := by
    rw [Inbound.optional?_of_lookup rfl Document.noConfusion, Document.string?, Json.text?_pieces,
      Option.map_some]
  have hread := Inbound.Members.ofFields?_eq_some (m := ⟨some id, some r.method, none, none⟩)
    (Inbound.optional?_id rfl hid) hmethod (Inbound.optional?_of_missing rfl)
    (Inbound.optional?_of_missing rfl)
  exact Inbound.parse_object (.refl _) hspelled hnamed hread

/-- The frame of a call, without its delimiter, is taken for a message of the counterparty's own with
the call's method. -/
theorem echoed_of_frame {limit : Nat} {frame : Bytes} (hid : r.id < Decimal.wordLimit)
    (hparams : r.params.IsFinite) (hframe : r.frame limit = .ok frame) :
    ∃ body, frame = body ++ Frame.delimiter ∧ Echoed r body := by
  obtain ⟨-, heq⟩ := frame_eq_ok_iff.1 hframe
  have hparsed := parse_body hid hparams
  refine ⟨r.body, heq, hparsed, ?_, fun s => ?_⟩
  · rw [Inbound.keyed?, hparsed]
  · rw [Session.dispatch, hparsed]

/-- A call whose parameters nest deeper than any value that is kept, with a double in the middle, is
taken for a message of the counterparty's own when it comes back. -/
theorem echoed_of_frame_deep_params :
    let params := (fun v => Json.array [v])^[130] (.number (.double ⟨true, 1, -1⟩))
    let r : Request := ⟨18446744073709551615, "result\"\n", params⟩
    ∃ frame, r.frame 1000 = .ok frame ∧ ∃ body, frame = body ++ Frame.delimiter ∧ Echoed r body := by
  intro params r
  have hdouble : Json.IsFinite (.number (.double ⟨true, 1, -1⟩)) :=
    .double ⟨by decide, by decide, by decide⟩
  have hparams : params.IsFinite := by
    have hstep : ∀ v : Json, v.IsFinite → (Json.array [v]).IsFinite := fun v hv =>
      .array (List.forall_mem_singleton.2 hv)
    exact Function.Iterate.rec Json.IsFinite hdouble hstep 130
  have hframe : r.frame 1000 = .ok (r.body ++ Frame.delimiter) :=
    frame_eq_ok_iff.2 ⟨by decide +kernel, rfl⟩
  exact ⟨_, hframe, echoed_of_frame (by decide) hparams hframe⟩

end Request

end PipeCall
