import PipeCall.Proofs.Json.Grammar
import PipeCall.Proofs.Json.Spelling

/-!
# What a parse stands for

A builder has read certain tokens to get where it is: those of the containers that are still open, as
far as they go, and those of what it has after them (`Builder.written`). Each token that it reads is
added to these (`Builder.written_read?`), so a document that it hands out is spelled by the tokens
that went in. With what is known of the lexer, `parse?_eq_some_iff` says without either machine
what a byte string is parsed as: the document whose tokens are written there.
-/

namespace PipeCall.Json.Document

variable {b b' : Builder} {t : Token} {ts : List Token} {d v : Document} {bs : Bytes}

/-! ## Items with a comma after each -/

/-- The tokens of items that are followed by others. -/
def itemsBefore (ds : List Document) : List Token := ds.flatMap fun d => d.tokens ++ [.comma]

/-- The tokens of members that are followed by others. -/
def membersBefore (ms : List (List Piece × Document)) : List Token :=
  ms.flatMap fun m => .string m.1 :: .colon :: (m.2.tokens ++ [.comma])

/-- The last item has no comma after it. -/
theorem itemTokens_concat (ds : List Document) (d : Document) :
    itemTokens (ds ++ [d]) = itemsBefore ds ++ d.tokens := by
  induction ds with
  | nil => simp [itemTokens, itemsBefore]
  | cons e ds ih =>
    obtain ⟨f, fs, hcons⟩ := List.exists_cons_of_ne_nil (l := ds ++ [d]) (by simp)
    rw [List.cons_append, hcons, itemTokens_cons_cons, ← hcons, ih]
    simp [itemsBefore]

/-- The last member has no comma after it. -/
theorem memberTokens_concat (ms : List (List Piece × Document)) (key : List Piece) (d : Document) :
    memberTokens (ms ++ [(key, d)]) = membersBefore ms ++ .string key :: .colon :: d.tokens := by
  induction ms with
  | nil => simp [memberTokens, membersBefore]
  | cons m ms ih =>
    obtain ⟨n, ns, hcons⟩ := List.exists_cons_of_ne_nil (l := ms ++ [(key, d)]) (by simp)
    rw [List.cons_append, hcons, memberTokens_cons_cons, ← hcons, ih]
    simp [membersBefore]

/-! ## What a builder has read -/

/-- The tokens of an open container, up to where its next value begins. -/
def Open.written : Open → List Token
  | .array items => .beginArray :: itemsBefore items.reverse
  | .object members key =>
    .beginObject :: (membersBefore members.reverse ++ [.string key, .colon])

/-- The tokens behind those of the open containers. -/
def Expect.written : Expect → List Token
  | .value | .firstItem => []
  | .firstKey => [.beginObject]
  | .key members => .beginObject :: membersBefore members.reverse
  | .colon members k => .beginObject :: (membersBefore members.reverse ++ [.string k])
  | .after v => v.tokens

namespace Builder

/-- The tokens that a builder has read. -/
def written (b : Builder) : List Token := b.stack.reverse.flatMap Open.written ++ b.expect.written

/-- Where the first item of an array is expected, an array was just opened. -/
def Opened (b : Builder) : Prop :=
  match b.expect with
  | .firstItem => ∃ stack, b.stack = .array [] :: stack
  | _ => True

/-- A token that begins a value is added to what was read. -/
theorem written_readValue? {stack : List Open} (h : readValue? stack t = some b) :
    b.written = stack.reverse.flatMap Open.written ++ [t] ∧ b.Opened := by
  unfold readValue? at h
  split at h
  · obtain rfl := Option.some.inj h
    exact ⟨by simp [written, Open.written, Expect.written, itemsBefore], _, rfl⟩
  · obtain rfl := Option.some.inj h
    exact ⟨by simp [written, Expect.written], trivial⟩
  · obtain ⟨v, hscalar, rfl⟩ := Option.map_eq_some_iff.1 h
    have htokens : v.tokens = [t] := by
      cases t <;> simp only [scalar?, reduceCtorEq, Option.some.injEq] at hscalar <;>
        obtain rfl := hscalar <;> rfl
    exact ⟨by simp [written, Expect.written, htokens], trivial⟩

/-- A token behind a value is added to what was read. -/
theorem written_readAfter? {stack : List Open} (h : readAfter? v stack t = some b) :
    b.written = stack.reverse.flatMap Open.written ++ v.tokens ++ [t] ∧ b.Opened := by
  unfold readAfter? at h
  split at h
  · obtain rfl := Option.some.inj h
    exact ⟨by simp [written, Open.written, Expect.written, itemsBefore], trivial⟩
  · obtain rfl := Option.some.inj h
    exact ⟨by simp [written, Open.written, Expect.written, tokens, itemTokens_concat], trivial⟩
  · obtain rfl := Option.some.inj h
    exact ⟨by simp [written, Open.written, Expect.written, membersBefore], trivial⟩
  · obtain rfl := Option.some.inj h
    exact ⟨by simp [written, Open.written, Expect.written, tokens, memberTokens_concat], trivial⟩
  · simp at h

/-- A token is added to what was read. -/
theorem written_read? (opened : b.Opened) (h : b.read? t = some b') :
    b'.written = b.written ++ [t] ∧ b'.Opened := by
  obtain ⟨stack, expect⟩ := b
  cases expect with
  | value =>
    obtain ⟨hwritten, hopened⟩ := written_readValue? (t := t) h
    exact ⟨by rw [hwritten]; simp [written, Expect.written], hopened⟩
  | after v =>
    have hafter : readAfter? v stack t = some b' := by
      cases t <;> exact h
    exact written_readAfter? hafter
  | firstItem =>
    obtain ⟨outer, rfl⟩ := opened
    by_cases hend : t = .endArray
    · obtain rfl := hend
      obtain rfl := Option.some.inj h
      exact ⟨by simp [written, Open.written, Expect.written, itemsBefore, tokens, itemTokens],
        trivial⟩
    · have hvalue : readValue? (.array [] :: outer) t = some b' := by
        cases t <;> first | exact h | exact absurd rfl hend
      obtain ⟨hwritten, hopened⟩ := written_readValue? hvalue
      exact ⟨by rw [hwritten]; simp [written, Expect.written], hopened⟩
  | firstKey =>
    cases t with
    | endObject =>
      obtain rfl := Option.some.inj h
      exact ⟨by simp [written, Expect.written, tokens, memberTokens], trivial⟩
    | string ps =>
      obtain rfl := Option.some.inj h
      exact ⟨by simp [written, Expect.written, membersBefore], trivial⟩
    | _ => simp [read?] at h
  | key members =>
    cases t with
    | string ps =>
      obtain rfl := Option.some.inj h
      exact ⟨by simp [written, Expect.written], trivial⟩
    | _ => simp [read?] at h
  | colon members k =>
    cases t with
    | colon =>
      obtain rfl := Option.some.inj h
      exact ⟨by simp [written, Open.written, Expect.written], trivial⟩
    | _ => simp [read?] at h

/-- All tokens are added to what was read. -/
theorem written_readAll? (opened : b.Opened) (h : b.readAll? ts = some b') :
    b'.written = b.written ++ ts := by
  induction ts generalizing b with
  | nil =>
    obtain rfl := Option.some.inj h
    rw [List.append_nil]
  | cons t ts ih =>
    obtain ⟨b₁, hread, hmore⟩ := Option.bind_eq_some_iff.1 h
    obtain ⟨hwritten, hopened⟩ := written_read? opened hread
    rw [ih hopened hmore, hwritten, List.append_assoc, List.singleton_append]

end Builder

/-- The document that tokens spell is the one that is spelled by them. -/
theorem ofTokens?_eq_some_iff : ofTokens? ts = some d ↔ ts = d.tokens := by
  constructor
  · intro h
    obtain ⟨b, hread, hfinish⟩ := Option.bind_eq_some_iff.1 h
    have hstart : Builder.start.written = [] ∧ Builder.start.Opened := ⟨rfl, trivial⟩
    have hwritten := Builder.written_readAll? hstart.2 hread
    obtain ⟨stack, expect⟩ := b
    -- A builder hands out a document behind which nothing is open.
    unfold Builder.finish? at hfinish
    split at hfinish
    · rename_i heq
      obtain ⟨rfl, rfl⟩ := Builder.mk.inj heq
      obtain rfl := Option.some.inj hfinish
      rw [hstart.1, List.nil_append] at hwritten
      exact hwritten.symm
    · simp at hfinish
  · rintro rfl
    exact ofTokens?_tokens d

/-! ## Numbers stand apart -/

/-- No number stands next to another. -/
def Apart (ts : List Token) : Prop := ts.IsChain fun t t' => t.isNumber = true → t'.isNumber = false

/-- Numbers stay apart behind a token that is none. -/
theorem Apart.cons (ht : t.isNumber = false) (h : Apart ts) : Apart (t :: ts) := by
  refine List.isChain_cons.2 ⟨fun u _ hnumber => ?_, h⟩
  rw [ht] at hnumber
  exact absurd hnumber (by decide)

/-- Numbers are apart on both sides of a token that is none. -/
theorem Apart.append_cons {us : List Token} (h : Apart ts) (ht : t.isNumber = false) (h' : Apart us) :
    Apart (ts ++ t :: us) := by
  refine List.isChain_append.2 ⟨h, h'.cons ht, fun _ _ t' ht' _ => ?_⟩
  obtain rfl := Option.some.inj ht'
  exact ht

mutual

/-- In the tokens of a document no number stands next to another. -/
theorem apart_tokens : (d : Document) → Apart d.tokens
  | .null | .bool _ | .number _ | .string _ => List.isChain_singleton _
  | .array items => by
    have hitems := (apart_itemTokens items).append_cons (t := .endArray) rfl List.isChain_nil
    exact hitems.cons rfl
  | .object members => by
    have hmembers := (apart_memberTokens members).append_cons (t := .endObject) rfl List.isChain_nil
    exact hmembers.cons rfl

/-- In the tokens of items no number stands next to another. -/
theorem apart_itemTokens : (ds : List Document) → Apart (itemTokens ds)
  | [] => List.isChain_nil
  | [d] => by
    rw [itemTokens]
    exact apart_tokens d
  | d :: d' :: ds => by
    rw [itemTokens_cons_cons]
    exact (apart_tokens d).append_cons rfl (apart_itemTokens (d' :: ds))

/-- In the tokens of members no number stands next to another. -/
theorem apart_memberTokens : (ms : List (List Piece × Document)) → Apart (memberTokens ms)
  | [] => List.isChain_nil
  | [(key, d)] => by
    rw [memberTokens]
    exact ((apart_tokens d).cons rfl).cons rfl
  | (key, d) :: m :: ms => by
    rw [memberTokens_cons_cons]
    exact (((apart_tokens d).append_cons rfl (apart_memberTokens (m :: ms))).cons rfl).cons rfl

end

/-! ## What is parsed -/

/-- A byte string is parsed as the document whose tokens are written there. -/
theorem parse?_eq_some_iff : parse? bs = some d ↔ Writes bs d.tokens := by
  constructor
  · intro h
    obtain ⟨ts, hlex, htokens⟩ := Option.bind_eq_some_iff.1 h
    obtain rfl := ofTokens?_eq_some_iff.1 htokens
    exact Token.writes_of_lex? hlex
  · intro h
    rw [parse?, Token.lex?_of_writes h (apart_tokens d), Option.bind_some, ofTokens?_tokens]

/-- Only one document is written in a byte string. -/
theorem writes_unique (h : Writes bs d.tokens) (h' : Writes bs v.tokens) : d = v :=
  Option.some.inj ((parse?_eq_some_iff.2 h).symm.trans (parse?_eq_some_iff.2 h'))

end PipeCall.Json.Document
