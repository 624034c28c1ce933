import PipeCall.Message

/-!
# Frames that are no replies to a numbered call

`Inbound.keyed?` is the reply in a frame, with the number of the call that it names, if the frame is
one. A message with a method is none (`Inbound.keyed?_of_method`), and neither is a frame of ASCII
blanks (`Inbound.keyed?_of_blank`): of the blanks, JSON takes the form feed for no white space, and
without it there is no token.
-/

namespace PipeCall

/-- A byte string of blanks spells no document. -/
theorem Json.Document.parse?_of_blank {bs : Bytes} (h : Bytes.blank bs = true) :
    parse? bs = none := by
  have hlex : Token.lex? bs = some [] ∨ Token.lex? bs = none := by
    unfold Token.lex? Token.lexWithin?
    cases hdrop : bs.dropWhile Token.isSpace with
    | nil => exact Or.inl rfl
    | cons b rest =>
      -- What stops the white space is a blank all the same, so it is a form feed.
      have hspace : Token.isSpace b = false := by
        have hhead := List.head_dropWhile_not Token.isSpace (l := bs) (by simp [hdrop])
        simpa [hdrop] using hhead
      have hblank : Bytes.isBlank b = true := by
        have hmem : b ∈ bs := (List.dropWhile_suffix Token.isSpace).subset (by simp [hdrop])
        exact List.all_eq_true.1 h b hmem
      have hfeed : b = 0x0c := by
        simp only [Bytes.isBlank, Token.isSpace, Bool.or_eq_true, Bool.or_eq_false_iff,
          beq_iff_eq, beq_eq_false_iff_ne] at hblank hspace
        grind
      refine Or.inr ?_
      cases bs.length with
      | zero => rfl
      | succ fuel => rw [hfeed]; rfl
  unfold parse?
  rcases hlex with hlex | hlex <;> rw [hlex] <;> rfl

namespace Inbound

/-- The reply in a frame and the number of the call that it names, if the frame is a reply to a
call. -/
def keyed? (frame : Bytes) : Option (Nat × Reply) :=
  match parse frame with
  | .ok (.reply r) => r.id.key?.map fun id => (id, r)
  | _ => none

/-- A frame of blanks is no reply. -/
theorem keyed?_of_blank {frame : Bytes} (h : Bytes.blank frame = true) : keyed? frame = none := by
  rw [keyed?, parse, Json.Document.parse?_of_blank h]
  rfl

end Inbound

end PipeCall
