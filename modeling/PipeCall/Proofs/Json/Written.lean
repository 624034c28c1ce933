import Mathlib.Data.List.Forall2
import PipeCall.Proofs.Json.Grammar
import PipeCall.Proofs.Json.Spelling

/-!
# Values that are read back

`Exact levels v` says that a value nests at most `levels` deep, has integers of 64 bits for its
numbers, and its objects in order. The compact text of such a value spells a document that denotes the
value: `Reads levels v d` says both of a value and a document, there is a lemma for each kind of
container, and `Exact.exists_reads` puts them together. What was written can be followed by anything
that does not continue a number, which is how the items of a container, with their commas, come off
one after another. The text is one line, whatever the strings in it hold
(`Exact.lineFeed_not_mem`).
-/

namespace PipeCall.Json

open Token (Ended Lexes)

/-- A value whose numbers are integers that fit 64 bits, with or without a sign, whose objects have
their members in ascending order of their keys, and that nests at most `levels` deep. -/
inductive Exact : Nat → Json → Prop where
  | null (levels : Nat) : Exact levels .null
  | bool (levels : Nat) (b : Bool) : Exact levels (.bool b)
  | integer {n : Int} (levels : Nat) (low : -(Decimal.signedLimit : Int) ≤ n)
      (high : n < Decimal.wordLimit) : Exact levels (.number (.integer n))
  | string (levels : Nat) (s : String) : Exact levels (.string s)
  | array {levels : Nat} {items : List Json} (exact : ∀ v ∈ items, Exact levels v) :
      Exact (levels + 1) (.array items)
  | object {levels : Nat} {members : List (String × Json)}
      (sorted : members.Pairwise fun m m' => m.1 < m'.1) (exact : ∀ m ∈ members, Exact levels m.2) :
      Exact (levels + 1) (.object members)

/-- A text spells tokens, whatever follows it. -/
def Spells (text : List Char) (ts : List Token) : Prop :=
  ∀ rest, Ended rest → Lexes (Utf8.encodeChars text ++ rest) ts rest

/-- The text of a value spells a document. -/
def SpellsDocument (v : Json) (d : Document) : Prop := Spells v.compact d.tokens

/-- A document denotes a value, and the value's text spells it. -/
structure Reads (levels : Nat) (v : Json) (d : Document) : Prop where
  denotes : d.value? levels = some v
  spelled : SpellsDocument v d

/-- A member of an object and one of a document have the same key, and their values are related. -/
def Keyed (R : Json → Document → Prop) (m : String × Json) (e : List Piece × Document) : Prop :=
  e.1 = pieces m.1.toList ∧ R m.2 e.2

variable {levels : Nat} {v : Json} {d : Document} {vs : List Json} {ds : List Document}
  {ms : List (String × Json)} {es : List (List Piece × Document)} {rest : Bytes}

/-! ## Scalars -/

/-- `null` is spelled as such. -/
theorem spells_null : SpellsDocument .null .null :=
  fun _ _ => .cons rfl rfl (Nat.le_add_right _ 3) (.nil _)

/-- A truth value is spelled as such. -/
theorem spells_bool (b : Bool) : SpellsDocument (.bool b) (.bool b) := by
  intro _ _
  cases b with
  | false => exact .cons rfl rfl (Nat.le_add_right _ 4) (.nil _)
  | true => exact .cons rfl rfl (Nat.le_add_right _ 3) (.nil _)

/-- An integer is spelled by its digits. -/
theorem spells_integer (n : Int) : SpellsDocument (.number (.integer n)) (.number (integerLiteral n)) :=
  fun _ hrest => Token.lexes_of_writes (.number (writesNumber_integerChars n)) fun _ => hrest

/-- A string is spelled by the pieces of its text. -/
theorem spells_string (s : String) : SpellsDocument (.string s) (.string (pieces s.toList)) :=
  fun rest _ => Token.lexes_string s rest

/-! ## Containers -/

/-- No number goes on with a comma or a closing bracket. -/
theorem ended_cons {b : UInt8} (hb : b ∈ [0x2c, 0x5d, 0x7d]) (rest : Bytes) : Ended (b :: rest) := by
  intro c hc
  obtain rfl := Option.some.inj (Option.mem_def.1 hc)
  simp only [List.mem_cons, List.not_mem_nil, or_false] at hb
  rcases hb with rfl | rfl | rfl <;> decide

/-- A list has a counterpart if each of its members has one. -/
theorem exists_forall₂ {α β : Type} {R : α → β → Prop} {xs : List α} (h : ∀ x ∈ xs, ∃ y, R x y) :
    ∃ ys, List.Forall₂ R xs ys := by
  induction xs with
  | nil => exact ⟨[], .nil⟩
  | cons x xs ih =>
    obtain ⟨y, hy⟩ := h x (by simp)
    obtain ⟨ys, hys⟩ := ih fun x hx => h x (by simp [hx])
    exact ⟨y :: ys, .cons hy hys⟩

/-- The members of an object have counterparts if their values have. -/
theorem exists_members {R : Json → Document → Prop} (h : ∀ m ∈ ms, ∃ d, R m.2 d) :
    ∃ es, List.Forall₂ (Keyed R) ms es :=
  exists_forall₂ fun m hm =>
    have ⟨d, hd⟩ := h m hm
    ⟨(pieces m.1.toList, d), rfl, hd⟩

/-- Items are written with a comma between each and the next. -/
theorem compactItems_eq (vs : List Json) : compactItems vs = [','].intercalate (vs.map compact) := by
  induction vs with
  | nil => rfl
  | cons v vs ih =>
    cases vs with
    | nil => simp [compactItems]
    | cons v' vs =>
      rw [compactItems, ih]
      · simp only [List.map_cons, List.intercalate_cons_cons, List.append_assoc,
          List.singleton_append]
      · exact List.cons_ne_nil _ _

/-- Members are written with a comma between each and the next. -/
theorem compactMembers_eq (ms : List (String × Json)) :
    compactMembers ms = [','].intercalate (ms.map fun m => memberChars m.1 [':'] m.2.compact) := by
  induction ms with
  | nil => rfl
  | cons m ms ih =>
    cases ms with
    | nil => simp [compactMembers]
    | cons m' ms =>
      rw [compactMembers, ih]
      · simp only [List.map_cons, List.intercalate_cons_cons, List.append_assoc,
          List.singleton_append]
      · exact List.cons_ne_nil _ _

/-- Texts with commas between them spell the tokens of each, with commas between. -/
theorem spells_intercalate {texts : List (List Char)} {runs : List (List Token)}
    (h : List.Forall₂ Spells texts runs) :
    Spells ([','].intercalate texts) ([.comma].intercalate runs) := by
  intro rest hrest
  induction h with
  | nil => exact .nil rest
  | @cons text ts texts runs htext htexts ih =>
    cases htexts with
    | nil =>
      rw [List.intercalate_singleton, List.intercalate_singleton]
      exact htext rest hrest
    | @cons text' ts' texts runs _ _ =>
      rw [List.intercalate_cons_cons, List.intercalate_cons_cons, List.append_assoc,
        List.append_assoc, Utf8.encodeChars_append, List.append_assoc]
      exact (htext _ (ended_cons (by decide) _)).append (.cons rfl rfl (Nat.le_refl _) ih)

/-- The items of an array are spelled with their commas. -/
theorem spells_items (h : List.Forall₂ SpellsDocument vs ds) :
    Spells (compactItems vs) (Document.itemTokens ds) := by
  rw [compactItems_eq, Document.itemTokens_eq]
  refine spells_intercalate ?_
  rw [List.forall₂_map_left_iff, List.forall₂_map_right_iff]
  exact h

/-- A member of an object is spelled with its colon. -/
theorem Keyed.spelled {m : String × Json} {e : List Piece × Document} (h : Keyed SpellsDocument m e) :
    Spells (memberChars m.1 [':'] m.2.compact) (.string e.1 :: .colon :: e.2.tokens) := by
  intro rest hrest
  obtain ⟨hkey, hv⟩ := h
  have hcolon : Lexes (0x3a :: (Utf8.encodeChars m.2.compact ++ rest)) (.colon :: e.2.tokens) rest :=
    .cons rfl rfl (Nat.le_refl _) (hv rest hrest)
  rw [memberChars, Utf8.encodeChars_append, Utf8.encodeChars_append, List.append_assoc,
    List.append_assoc, hkey]
  exact (Token.lexes_string m.1 _).append hcolon

/-- The members of an object are spelled with their commas. -/
theorem spells_members (h : List.Forall₂ (Keyed SpellsDocument) ms es) :
    Spells (compactMembers ms) (Document.memberTokens es) := by
  rw [compactMembers_eq, Document.memberTokens_eq]
  refine spells_intercalate ?_
  rw [List.forall₂_map_left_iff, List.forall₂_map_right_iff]
  exact h.imp fun _ _ hm => hm.spelled

/-- The items of an array are denoted one by one. -/
theorem values?_eq (h : List.Forall₂ (Reads levels) vs ds) : Document.values? levels ds = some vs := by
  induction h with
  | nil => rfl
  | cons hv _ ih => simp [Document.values?, hv.denotes, ih]

/-- The members of an object are denoted one by one. -/
theorem memberValues?_eq (h : List.Forall₂ (Keyed (Reads levels)) ms es) :
    Document.memberValues? levels es = some ms := by
  induction h with
  | nil => rfl
  | @cons m e _ _ hm _ ih =>
    obtain ⟨hkey, hv⟩ := hm
    obtain ⟨key, d⟩ := e
    obtain rfl : key = _ := hkey
    simp [Document.memberValues?, text?_pieces, hv.denotes, ih]

/-- An array is spelled between its brackets. -/
theorem spells_array (h : List.Forall₂ SpellsDocument vs ds) :
    SpellsDocument (.array vs) (.array ds) := by
  intro rest _
  have hend : Lexes (0x5d :: rest) [.endArray] rest := .cons rfl rfl (Nat.le_refl _) (.nil rest)
  have hitems := (spells_items h _ (ended_cons (by decide) rest)).append hend
  have hbytes : Utf8.encodeChars (compact (.array vs)) ++ rest =
      0x5b :: (Utf8.encodeChars (compactItems vs) ++ 0x5d :: rest) := by
    rw [compact, List.cons_append, Utf8.encodeChars_cons, Utf8.encodeChars_append, List.append_assoc,
      List.append_assoc]
    rfl
  rw [hbytes, Document.tokens, List.cons_append]
  exact .cons rfl rfl (Nat.le_refl _) hitems

/-- An object is spelled between its braces. -/
theorem spells_object (h : List.Forall₂ (Keyed SpellsDocument) ms es) :
    SpellsDocument (.object ms) (.object es) := by
  intro rest _
  have hend : Lexes (0x7d :: rest) [.endObject] rest := .cons rfl rfl (Nat.le_refl _) (.nil rest)
  have hmembers := (spells_members h _ (ended_cons (by decide) rest)).append hend
  have hbytes : Utf8.encodeChars (compact (.object ms)) ++ rest =
      0x7b :: (Utf8.encodeChars (compactMembers ms) ++ 0x7d :: rest) := by
    rw [compact, List.cons_append, Utf8.encodeChars_cons, Utf8.encodeChars_append, List.append_assoc,
      List.append_assoc]
    rfl
  rw [hbytes, Document.tokens, List.cons_append]
  exact .cons rfl rfl (Nat.le_refl _) hmembers

/-- Members that are read are spelled. -/
theorem spelled_members (h : List.Forall₂ (Keyed (Reads levels)) ms es) :
    List.Forall₂ (Keyed SpellsDocument) ms es :=
  h.imp fun _ _ hm => ⟨hm.1, hm.2.spelled⟩

/-! ## The whole value -/

/-- A member that comes after all others is put last. -/
theorem insertMember_of_lt {key : String} (value : Json) (h : ∀ m ∈ ms, m.1 < key) :
    insertMember key value ms = ms ++ [(key, value)] := by
  induction ms with
  | nil => rfl
  | cons m ms ih =>
    have hm := h m (by simp)
    have hne : key ≠ m.1 := by
      intro heq
      rw [heq] at hm
      exact String.lt_irrefl _ hm
    rw [insertMember, if_neg (String.lt_asymm hm), if_neg hne, ih fun m hm => h m (by simp [hm])]
    rfl

/-- Members in ascending order are put one after another behind those that come before them. -/
theorem foldl_insertMember_of_sorted (sorted : List (String × Json))
    (h : (sorted ++ ms).Pairwise fun m m' => m.1 < m'.1) :
    ms.foldl (fun sorted m => insertMember m.1 m.2 sorted) sorted = sorted ++ ms := by
  induction ms generalizing sorted with
  | nil => simp
  | cons m ms ih =>
    have hlast : ∀ before ∈ sorted, before.1 < m.1 := fun before hbefore =>
      (List.pairwise_append.1 h).2.2 before hbefore m (by simp)
    rw [List.foldl_cons, insertMember_of_lt m.2 hlast, ih _ (by simpa using h)]
    simp

/-- Members in ascending order are those of their object. -/
theorem ofMembers_of_sorted (h : ms.Pairwise fun m m' => m.1 < m'.1) : ofMembers ms = .object ms :=
  congrArg Json.object (foldl_insertMember_of_sorted [] h)

/-- A value that is exact is read back from a document. -/
theorem Exact.exists_reads (h : Exact levels v) : ∃ d, Reads levels v d := by
  induction h with
  | null levels => exact ⟨.null, rfl, spells_null⟩
  | bool levels b => exact ⟨.bool b, rfl, spells_bool b⟩
  | integer levels low high =>
    refine ⟨.number _, ?_, spells_integer _⟩
    rw [Document.value?, number?_integerLiteral low high]
    rfl
  | string levels s =>
    refine ⟨.string _, ?_, spells_string s⟩
    rw [Document.value?, text?_pieces]
    rfl
  | array _ ih =>
    obtain ⟨ds, hds⟩ := exists_forall₂ ih
    refine ⟨.array ds, ?_, spells_array (hds.imp fun _ _ hv => hv.spelled)⟩
    rw [Document.value?, values?_eq hds]
    rfl
  | object sorted _ ih =>
    obtain ⟨es, hes⟩ := exists_members ih
    refine ⟨.object es, ?_, spells_object (spelled_members hes)⟩
    rw [Document.value?, memberValues?_eq hes, Option.map_some, ofMembers_of_sorted sorted]

/-- The bytes of a value whose text spells a document are parsed as that document. -/
theorem SpellsDocument.parse?_bytes (h : SpellsDocument v d) : Document.parse? v.bytes = some d := by
  have hlex := h [] (by simp [Ended])
  rw [List.append_nil] at hlex
  rw [Document.parse?, bytes, hlex.lex?, Option.bind_some, Document.ofTokens?_tokens]

/-- A value whose text spells a document has what that document denotes for its parse. -/
theorem SpellsDocument.parse? {w : Json} (hspelled : SpellsDocument v d)
    (hvalue : d.value? maxLevels = some w) : Json.parse? v.bytes = some w := by
  rw [Json.parse?, hspelled.parse?_bytes, Option.bind_some, hvalue]

/-! ## One line -/

/-- A line feed is written as an escape. -/
theorem lineFeed_not_mem_escaped (c : Char) : '\n' ∉ escaped c := by
  unfold escaped
  split
  case h_8 _ _ _ _ hfeed _ _ =>
    split
    · have hdigit : ∀ n < 16, '\n' ≠ hexDigit n := by decide
      simp only [List.mem_cons, List.not_mem_nil, or_false]
      rintro (h | h | h | h | h | h)
      · exact absurd h (by decide)
      · exact absurd h (by decide)
      · exact absurd h (by decide)
      · exact absurd h (by decide)
      · exact hdigit _ (by omega) h
      · exact hdigit _ (by omega) h
    · rw [List.mem_singleton]
      exact fun h => hfeed h.symm
  -- The others are written as a backslash and a letter.
  all_goals decide

/-- A written string holds no line feed. -/
theorem lineFeed_not_mem_stringChars (s : String) : '\n' ∉ stringChars s := by
  simp [stringChars, lineFeed_not_mem_escaped]

/-- A written integer holds no line feed. -/
theorem lineFeed_not_mem_integerChars (n : Int) : '\n' ∉ integerChars n := by
  have hdigits : '\n' ∉ Nat.toDigits 10 n.natAbs := fun h =>
    absurd (Decimal.isDigit_toDigits _ h) (by decide)
  unfold integerChars
  split
  · simpa using hdigits
  · exact hdigits

/-- Texts without a line feed have none with commas between them. -/
theorem lineFeed_not_mem_intercalate {texts : List (List Char)} (h : ∀ text ∈ texts, '\n' ∉ text) :
    '\n' ∉ [','].intercalate texts := by
  induction texts with
  | nil => simp
  | cons text texts ih =>
    have htext := h text (by simp)
    have hrest := ih fun text ht => h text (by simp [ht])
    cases texts with
    | nil => simpa using htext
    | cons text' texts =>
      rw [List.intercalate_cons_cons, List.append_assoc, List.mem_append, List.singleton_append,
        List.mem_cons]
      rintro (hmem | hmem | hmem)
      · exact htext hmem
      · exact absurd hmem (by decide)
      · exact hrest hmem

/-- An array whose items hold no line feed is written without one. -/
theorem lineFeed_not_mem_array (h : ∀ v ∈ vs, '\n' ∉ v.compact) : '\n' ∉ compact (.array vs) := by
  have hitems : '\n' ∉ compactItems vs := by
    rw [compactItems_eq]
    refine lineFeed_not_mem_intercalate fun text ht => ?_
    obtain ⟨v, hv, rfl⟩ := List.mem_map.1 ht
    exact h v hv
  simp [compact, hitems]

/-- An object whose members hold no line feed is written without one. -/
theorem lineFeed_not_mem_object (h : ∀ m ∈ ms, '\n' ∉ m.2.compact) :
    '\n' ∉ compact (.object ms) := by
  have hmembers : '\n' ∉ compactMembers ms := by
    rw [compactMembers_eq]
    refine lineFeed_not_mem_intercalate fun text ht => ?_
    obtain ⟨m, hm, rfl⟩ := List.mem_map.1 ht
    simp [memberChars, lineFeed_not_mem_stringChars, h m hm]
  simp [compact, hmembers]

/-- An exact value is written without a line feed. -/
theorem Exact.lineFeed_not_mem (h : Exact levels v) : '\n' ∉ v.compact := by
  induction h with
  | null => decide
  | bool levels b => cases b <;> decide
  | integer => exact lineFeed_not_mem_integerChars _
  | string => exact lineFeed_not_mem_stringChars _
  | array _ ih => exact lineFeed_not_mem_array ih
  | object _ _ ih => exact lineFeed_not_mem_object ih

/-- A text without a line feed has no line feed among its bytes. -/
theorem lineFeed_not_mem_bytes (h : '\n' ∉ v.compact) : Bytes.lineFeed ∉ v.bytes := by
  intro hmem
  obtain ⟨c, hc, hbyte⟩ := List.mem_flatMap.1 hmem
  by_cases hascii : c.toNat < 0x80
  · -- A character of ASCII is the byte of its number.
    rw [Utf8.encodeChar_of_lt hascii, List.mem_singleton] at hbyte
    have hnat := congrArg UInt8.toNat hbyte
    rw [UInt8.toNat_ofNat', Nat.mod_eq_of_lt (by omega)] at hnat
    obtain rfl : '\n' = c := Char.ext (UInt32.toNat_inj.1 hnat)
    exact h hc
  · exact absurd (Utf8.le_of_mem_encodeChar (Nat.le_of_not_lt hascii) hbyte) (by decide)

end PipeCall.Json
