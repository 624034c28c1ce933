import PipeCall.Json.Document

/-!
# Documents and the tokens that spell them

`Document.tokens` lists the tokens of a document, commas and colons in their places. The builder makes
the document from them again, whatever it is (`ofTokens?_tokens`): when it expects a value, and the
tokens of one come, it ends up after that value with the stack as it was (`readAll?_tokens`). The
containers are read item by item, with those already read on the stack, the latest first.
-/

namespace PipeCall.Json.Document

mutual

/-- The tokens that spell a document. -/
def tokens : Document → List Token
  | .null => [.null]
  | .bool b => [.bool b]
  | .number n => [.number n]
  | .string ps => [.string ps]
  | .array items => .beginArray :: itemTokens items ++ [.endArray]
  | .object members => .beginObject :: memberTokens members ++ [.endObject]

/-- The tokens of items, with commas between them. -/
def itemTokens : List Document → List Token
  | [] => []
  | [d] => tokens d
  | d :: ds => tokens d ++ .comma :: itemTokens ds

/-- The tokens of members, with commas between them. -/
def memberTokens : List (List Piece × Document) → List Token
  | [] => []
  | [(key, d)] => .string key :: .colon :: tokens d
  | (key, d) :: ms => .string key :: .colon :: tokens d ++ .comma :: memberTokens ms

end

/-- The tokens of several items begin with those of the first, and a comma. -/
theorem itemTokens_cons_cons (d d' : Document) (ds : List Document) :
    itemTokens (d :: d' :: ds) = d.tokens ++ .comma :: itemTokens (d' :: ds) := by
  rw [itemTokens]
  exact List.cons_ne_nil _ _

/-- The tokens of several members begin with those of the first, and a comma. -/
theorem memberTokens_cons_cons (key : List Piece) (d : Document) (m : List Piece × Document)
    (ms : List (List Piece × Document)) :
    memberTokens ((key, d) :: m :: ms) =
      .string key :: .colon :: (d.tokens ++ .comma :: memberTokens (m :: ms)) := by
  rw [memberTokens]
  · rfl
  · exact List.cons_ne_nil _ _

/-- Items are spelled with a comma between each and the next. -/
theorem itemTokens_eq (ds : List Document) : itemTokens ds = [.comma].intercalate (ds.map tokens) := by
  induction ds with
  | nil => rfl
  | cons d ds ih =>
    cases ds with
    | nil => simp [itemTokens]
    | cons d' ds =>
      simp only [itemTokens_cons_cons, ih, List.map_cons, List.intercalate_cons_cons,
        List.append_assoc, List.singleton_append]

/-- Members are spelled with a comma between each and the next. -/
theorem memberTokens_eq (ms : List (List Piece × Document)) :
    memberTokens ms = [.comma].intercalate (ms.map fun m => .string m.1 :: .colon :: m.2.tokens) := by
  induction ms with
  | nil => rfl
  | cons m ms ih =>
    cases ms with
    | nil => simp [memberTokens]
    | cons m' ms =>
      obtain ⟨key, d⟩ := m
      simp only [memberTokens_cons_cons, ih, List.map_cons, List.intercalate_cons_cons,
        List.append_assoc, List.cons_append, List.nil_append]

namespace Builder

/-- The first item of an array is read like any other. -/
theorem readAll?_firstItem (d : Document) (ds : List Document) (stack : List Open)
    (ts : List Token) :
    (Builder.mk stack .firstItem).readAll? (itemTokens (d :: ds) ++ ts) =
      (Builder.mk stack .value).readAll? (itemTokens (d :: ds) ++ ts) := by
  cases ds <;> cases d <;> rfl

/-- The first key of an object is read like any other. -/
theorem readAll?_firstKey (m : List Piece × Document) (ms : List (List Piece × Document))
    (stack : List Open) (ts : List Token) :
    (Builder.mk stack .firstKey).readAll? (memberTokens (m :: ms) ++ ts) =
      (Builder.mk stack (.key [])).readAll? (memberTokens (m :: ms) ++ ts) := by
  cases ms <;> rfl

mutual

/-- The tokens of a document are read as that document. -/
theorem readAll?_tokens : (d : Document) → (stack : List Open) → (ts : List Token) →
    (Builder.mk stack .value).readAll? (d.tokens ++ ts) =
      (Builder.mk stack (.after d)).readAll? ts
  | .null, _, _ | .bool _, _, _ | .number _, _, _ | .string _, _, _ => rfl
  | .array [], _, _ | .object [], _, _ => rfl
  | .array (d :: ds), stack, ts => by
    have hitems := readAll?_items (d :: ds) (List.cons_ne_nil d ds) stack ts []
    have hbegin : ∀ ts, (Builder.mk stack .value).readAll? (.beginArray :: ts) =
        (Builder.mk (.array [] :: stack) .firstItem).readAll? ts := fun _ => rfl
    rw [tokens, List.cons_append, List.cons_append, List.append_assoc, List.singleton_append, hbegin,
      readAll?_firstItem, hitems, List.reverse_nil, List.nil_append]
  | .object (m :: ms), stack, ts => by
    have hmembers := readAll?_members (m :: ms) (List.cons_ne_nil m ms) stack ts []
    have hbegin : ∀ ts, (Builder.mk stack .value).readAll? (.beginObject :: ts) =
        (Builder.mk stack .firstKey).readAll? ts := fun _ => rfl
    rw [tokens, List.cons_append, List.cons_append, List.append_assoc, List.singleton_append, hbegin,
      readAll?_firstKey, hmembers, List.reverse_nil, List.nil_append]

/-- The tokens of the items of an array that are still to come are read as these items. -/
theorem readAll?_items : (items : List Document) → items ≠ [] → (stack : List Open) →
    (ts : List Token) → (read : List Document) →
    (Builder.mk (.array read :: stack) .value).readAll? (itemTokens items ++ .endArray :: ts) =
      (Builder.mk stack (.after (.array (read.reverse ++ items)))).readAll? ts
  | [], hne, _, _, _ => absurd rfl hne
  | [d], _, stack, ts, read => by
    have hend : (Builder.mk (.array read :: stack) (.after d)).readAll? (.endArray :: ts) =
        (Builder.mk stack (.after (.array (d :: read).reverse))).readAll? ts := rfl
    rw [itemTokens, readAll?_tokens d, hend, List.reverse_cons]
  | d :: d' :: ds, _, stack, ts, read => by
    have hrest := readAll?_items (d' :: ds) (List.cons_ne_nil d' ds) stack ts (d :: read)
    have hcomma : ∀ ts, (Builder.mk (.array read :: stack) (.after d)).readAll? (.comma :: ts) =
        (Builder.mk (.array (d :: read) :: stack) .value).readAll? ts := fun _ => rfl
    rw [itemTokens_cons_cons, List.append_assoc, readAll?_tokens d, List.cons_append, hcomma, hrest,
      List.reverse_cons, List.append_assoc]
    rfl

/-- The tokens of the members of an object that are still to come are read as these members. -/
theorem readAll?_members : (members : List (List Piece × Document)) → members ≠ [] →
    (stack : List Open) → (ts : List Token) → (read : List (List Piece × Document)) →
    (Builder.mk stack (.key read)).readAll? (memberTokens members ++ .endObject :: ts) =
      (Builder.mk stack (.after (.object (read.reverse ++ members)))).readAll? ts
  | [], hne, _, _, _ => absurd rfl hne
  | [(key, d)], _, stack, ts, read => by
    have hkey : (Builder.mk stack (.key read)).readAll?
        (.string key :: .colon :: (d.tokens ++ .endObject :: ts)) =
        (Builder.mk (.object read key :: stack) .value).readAll? (d.tokens ++ .endObject :: ts) := rfl
    have hend : (Builder.mk (.object read key :: stack) (.after d)).readAll? (.endObject :: ts) =
        (Builder.mk stack (.after (.object ((key, d) :: read).reverse))).readAll? ts := rfl
    rw [memberTokens, List.cons_append, List.cons_append, hkey, readAll?_tokens d, hend,
      List.reverse_cons]
  | (key, d) :: m :: ms, _, stack, ts, read => by
    have hrest := readAll?_members (m :: ms) (List.cons_ne_nil m ms) stack ts ((key, d) :: read)
    have hkey : ∀ ts, (Builder.mk stack (.key read)).readAll? (.string key :: .colon :: ts) =
        (Builder.mk (.object read key :: stack) .value).readAll? ts := fun _ => rfl
    have hcomma : ∀ ts,
        (Builder.mk (.object read key :: stack) (.after d)).readAll? (.comma :: ts) =
          (Builder.mk stack (.key ((key, d) :: read))).readAll? ts := fun _ => rfl
    rw [memberTokens_cons_cons, List.cons_append, List.cons_append, List.append_assoc, hkey,
      readAll?_tokens d, List.cons_append, hcomma, hrest, List.reverse_cons, List.append_assoc]
    rfl

end

end Builder

/-- The tokens that spell a document are read as it. -/
theorem ofTokens?_tokens (d : Document) : ofTokens? d.tokens = some d := by
  have hread := Builder.readAll?_tokens d [] []
  rw [List.append_nil] at hread
  rw [ofTokens?, Builder.start, hread]
  rfl

end PipeCall.Json.Document
