import PipeCall.Proofs.Fields

/-!
# Messages written in another way

`Rearranges` lists what may be done to the members of an object without making another message of it:
they may change places, any members may come in whose keys are text and none of a message's names, and
a `null` may stand for a named member that is left out. With that, and whatever white space there is
between the tokens, the answer stays the same (`parse_of_rearranges`).

The key of a member that comes in has to be text, because every key is read as text before it is known
whether it is one of the names, while the value under another name is not read at all. An object with
a key that is no text is malformed, wherever it stands (`parse_of_unreadable_key`), so such a member
cannot be put in without harm (`unreadable_key_not_passed_over`).
-/

namespace PipeCall

open Json (Document Piece Token Writes pieces text?)

/-! ## White space -/

namespace Json.Token

variable {bs bs' space : Bytes} {ts ts' : List Token}

/-- White space may be put in front of tokens. -/
theorem Writes.spaced (blank : space.all isSpace = true) (h : Writes bs ts) :
    Writes (space ++ bs) ts := by
  cases h with
  | nil blank' => exact .nil (by rw [List.all_append, blank, blank', Bool.and_self])
  | cons blank' token more =>
    rw [← List.append_assoc]
    exact .cons (by rw [List.all_append, blank, blank', Bool.and_self]) token more

/-- Tokens may be put behind others. -/
theorem Writes.append (h : Writes bs ts) (h' : Writes bs' ts') : Writes (bs ++ bs') (ts ++ ts') := by
  induction h with
  | nil blank => exact Writes.spaced blank h'
  | cons blank token _ ih =>
    rw [List.append_assoc, List.append_assoc]
    exact .cons blank token ih

end Json.Token

namespace Inbound

variable {frame frame' : Bytes} {ms ms' : List (List Piece × Document)}

/-- The members of an object, and those of one that is the same message. -/
inductive Rearranges : List (List Piece × Document) → List (List Piece × Document) → Prop where
  /-- The members stand in another order. -/
  | permuted {ms ms' : List (List Piece × Document)} (order : ms.Perm ms') : Rearranges ms ms'
  /-- There is one more member, with any value, under a key that is text and none of the names. -/
  | added {before after : List (List Piece × Document)} {key : List Piece} {k : String} {d : Document}
      (spelled : text? key = some k) (other : k ∉ memberNames) :
      Rearranges (before ++ after) (before ++ (key, d) :: after)
  /-- There is a `null` for a named member that was not there. -/
  | nulled {before after : List (List Piece × Document)} {key : List Piece} {name : String}
      (spelled : text? key = some name) (named : name ∈ memberNames)
      (missing : ∀ m ∈ before ++ after, text? m.1 ≠ some name) :
      Rearranges (before ++ after) (before ++ (key, .null) :: after)
  /-- One change comes after another. -/
  | trans {ms ms' ms'' : List (List Piece × Document)} (first : Rearranges ms ms')
      (second : Rearranges ms' ms'') : Rearranges ms ms''

/-- The order of an object's members makes no difference. -/
theorem ofDocument?_of_perm (h : ms.Perm ms') :
    Members.ofDocument? (.object ms) = Members.ofDocument? (.object ms') :=
  Members.ofDocument?_congr (Document.fields?_perm h)

/-- Objects that differ in this way have the same members of a message. -/
theorem Rearranges.ofDocument?_eq (h : Rearranges ms ms') :
    Members.ofDocument? (.object ms) = Members.ofDocument? (.object ms') := by
  induction h with
  | permuted order => exact ofDocument?_of_perm order
  | @added before after key k d spelled other =>
    have hfields : (Document.object ((key, d) :: (before ++ after))).fields? memberNames =
        (Document.object (before ++ after)).fields? memberNames :=
      Document.fields?_cons_of_not_mem spelled other
    calc Members.ofDocument? (.object (before ++ after))
        = Members.ofDocument? (.object ((key, d) :: (before ++ after))) := by
          rw [Members.ofDocument?_eq, Members.ofDocument?_eq, hfields]
      _ = Members.ofDocument? (.object (before ++ (key, d) :: after)) :=
          ofDocument?_of_perm List.perm_middle.symm
  | @nulled before after key name spelled named missing =>
    calc Members.ofDocument? (.object (before ++ after))
        = Members.ofDocument? (.object ((key, .null) :: (before ++ after))) :=
          Members.ofDocument?_congr (Document.fields?_cons_null spelled named missing)
      _ = Members.ofDocument? (.object (before ++ (key, .null) :: after)) :=
          ofDocument?_of_perm List.perm_middle.symm
  | trans _ _ ih ih' => exact ih.trans ih'

/-- An object with a key that is no text is malformed. -/
theorem parse_of_unreadable_key {m : List Piece × Document} (hm : m ∈ ms) (hkey : text? m.1 = none)
    (written : Writes frame (Document.object ms).tokens) : parse frame = .error .malformed := by
  have hfields : (Document.object ms).fields? memberNames = none := by
    rw [Document.fields?_object, Document.keyed?_eq_none hm hkey, Option.bind_none]
  rw [parse_of_writes written, Members.ofDocument?_eq, hfields]
  rfl

/-- A frame that is one object gives the same answer when its members are rearranged, and when white
space is put between two of its tokens. -/
theorem parse_of_rearranges (h : Rearranges ms ms')
    (written : Writes frame (Document.object ms).tokens)
    (written' : Writes frame' (Document.object ms').tokens) :
    parse frame' = parse frame ∧
      ∀ (bs bs' space : Bytes) (ts ts' : List Token), Writes bs ts → Writes bs' ts' →
        ts ++ ts' = (Document.object ms).tokens → space.all Token.isSpace = true →
        parse (bs ++ (space ++ bs')) = parse (bs ++ bs') := by
  constructor
  · rw [parse_of_writes written, parse_of_writes written', h.ofDocument?_eq]
  · intro bs bs' space ts ts' hfront hback htokens hblank
    have hplain : Writes (bs ++ bs') (Document.object ms).tokens :=
      htokens ▸ Token.Writes.append hfront hback
    have hspaced : Writes (bs ++ (space ++ bs')) (Document.object ms).tokens :=
      htokens ▸ Token.Writes.append hfront (Token.Writes.spaced hblank hback)
    rw [parse_of_writes hplain, parse_of_writes hspaced]

set_option maxRecDepth 2000 in
/-- A reply stays the same reply when its members change places, a value of 130 levels comes in under
another name, a `null` for the method, and white space; and when its own key is spelled with an
escape. -/
theorem parse_of_rearranges_deep_value :
    let one : Document := .number ⟨false, ['1'], none, none⟩
    let two : Document := .number ⟨false, ['2'], none, none⟩
    let deep : Document := (fun d => Document.array [d])^[129] (.array [])
    let id : List Piece × Document := ([.unit 0x69, .byte 0x64], one)
    let result : List Piece × Document := (pieces "result".toList, two)
    let x : List Piece × Document := (pieces "x".toList, deep)
    let method : List Piece × Document := (pieces "method".toList, .null)
    let frame := Utf8.encode "\x7b\"\\u0069d\":1,\"result\":2\x7d"
    let frame' := Utf8.encode " \x7b \"x\" : " ++
      (List.replicate 130 0x5b ++ List.replicate 130 0x5d) ++
      Utf8.encode " , \"result\" : 2 ,\n\t\"method\":null, \"\\u0069d\" : 1 \x7d "
    Rearranges [id, result] [x, result, method, id] ∧
      Writes frame (Document.object [id, result]).tokens ∧
      Writes frame' (Document.object [x, result, method, id]).tokens ∧
      parse frame' = .ok (.reply ⟨.number 1, .ok (.number (.integer 2))⟩) := by
  intro one two deep id result x method frame frame'
  have hid : text? id.1 = some "id" := by decide
  have hresult : text? result.1 = some "result" := by decide
  have hx : text? x.1 = some "x" := by decide
  have hmethod : text? method.1 = some "method" := by decide
  have hswap : Rearranges [id, result] [result, id] := .permuted (.swap result id [])
  have hadded : Rearranges [result, id] [x, result, id] :=
    @Rearranges.added [] [result, id] _ _ _ hx (by decide)
  have hmissing : ∀ m ∈ [x, result] ++ [id], text? m.1 ≠ some "method" := by
    simp only [List.cons_append, List.nil_append, List.mem_cons, List.not_mem_nil, or_false]
    rintro m (rfl | rfl | rfl)
    · rw [hx]
      decide
    · rw [hresult]
      decide
    · rw [hid]
      decide
  have hnulled : Rearranges [x, result, id] [x, result, method, id] :=
    @Rearranges.nulled [x, result] [id] _ _ hmethod (by decide) hmissing
  have hrearranges := (hswap.trans hadded).trans hnulled
  have hparse : Document.parse? frame = some (.object [id, result]) := rfl
  have hparse' : Document.parse? frame' = some (.object [x, result, method, id]) := rfl
  have hwrites := Document.parse?_eq_some_iff.1 hparse
  have hwrites' := Document.parse?_eq_some_iff.1 hparse'
  have hreply : parse frame = .ok (.reply ⟨.number 1, .ok (.number (.integer 2))⟩) := by
    rw [parse_of_writes hwrites]
    rfl
  have hsame := (parse_of_rearranges hrearranges hwrites hwrites').1
  exact ⟨hrearranges, hwrites, hwrites', hsame.trans hreply⟩

/-- A member under a key that is no text is not passed over, although that key is none of the names: the
reply that it comes into is malformed. -/
theorem unreadable_key_not_passed_over :
    ¬ ∀ (frame frame' : Bytes) (before after : List (List Piece × Document)) (key : List Piece)
      (d : Document), Writes frame (Document.object (before ++ after)).tokens →
      Writes frame' (Document.object (before ++ (key, d) :: after)).tokens →
      (∀ name ∈ memberNames, text? key ≠ some name) → parse frame' = parse frame := by
  intro hpassed
  let id : List Piece × Document := (pieces "id".toList, .number ⟨false, ['1'], none, none⟩)
  let result : List Piece × Document := (pieces "result".toList, .number ⟨false, ['2'], none, none⟩)
  let three : Document := .number ⟨false, ['3'], none, none⟩
  -- Half of a surrogate pair is no text.
  have hkey : text? [.unit 0xd800] = none := by decide
  have hwrites : Writes (Utf8.encode "\x7b\"id\":1,\"result\":2\x7d")
      (Document.object ([id] ++ [result])).tokens := Document.parse?_eq_some_iff.1 rfl
  have hwrites' : Writes (Utf8.encode "\x7b\"id\":1,\"\\ud800\":3,\"result\":2\x7d")
      (Document.object ([id] ++ ([.unit 0xd800], three) :: [result])).tokens :=
    Document.parse?_eq_some_iff.1 rfl
  have hmem : (([.unit 0xd800], three) : List Piece × Document) ∈
      [id] ++ ([.unit 0xd800], three) :: [result] := by simp
  have hmalformed := parse_of_unreadable_key hmem hkey hwrites'
  have hreply : parse (Utf8.encode "\x7b\"id\":1,\"result\":2\x7d") =
      .ok (.reply ⟨.number 1, .ok (.number (.integer 2))⟩) := by
    rw [parse_of_writes hwrites]
    rfl
  have hsame := hpassed _ _ [id] [result] [.unit 0xd800] three hwrites hwrites' (by simp [hkey])
  rw [hmalformed, hreply] at hsame
  exact absurd hsame (by simp)

end Inbound

end PipeCall
