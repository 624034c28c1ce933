import PipeCall.Json.Token

/-!
# JSON documents as written

A `Document` is the tree that a token list spells, with its numbers and strings still as written. It
is built by a machine that reads one token at a time and keeps the containers that are still open on
a stack, so a document may nest as deep as it likes.
-/

namespace PipeCall.Json

/-- A JSON document as written. -/
inductive Document where
  | null
  | bool (b : Bool)
  | number (literal : NumberLiteral)
  | string (pieces : List Piece)
  | array (items : List Document)
  | object (members : List (List Piece × Document))
  deriving Repr

namespace Document

/-- A container that is still open, with what it holds so far, the latest first; an object that
waits for a member's value knows the member's key. -/
inductive Open where
  | array (items : List Document)
  | object (members : List (List Piece × Document)) (key : List Piece)

/-- What a builder expects next. -/
inductive Expect where
  /-- A value. -/
  | value
  /-- The first item of an array, or its end. -/
  | firstItem
  /-- The first key of an object, or its end. -/
  | firstKey
  /-- A further key of an object with these members. -/
  | key (members : List (List Piece × Document))
  /-- The colon after a key of an object with these members. -/
  | colon (members : List (List Piece × Document)) (key : List Piece)
  /-- A comma or the end of the innermost open container, after this value. -/
  | after (value : Document)

/-- A document under construction. -/
structure Builder where
  stack : List Open
  expect : Expect

namespace Builder

/-- Nothing read yet. -/
def start : Builder := ⟨[], .value⟩

/-- A value that needs no further tokens. -/
def scalar? : Token → Option Document
  | .null => some .null
  | .bool b => some (.bool b)
  | .number n => some (.number n)
  | .string ps => some (.string ps)
  | _ => none

/-- One token where a value is expected. -/
def readValue? (stack : List Open) : Token → Option Builder
  | .beginArray => some ⟨.array [] :: stack, .firstItem⟩
  | .beginObject => some ⟨stack, .firstKey⟩
  | t => (scalar? t).map fun v => ⟨stack, .after v⟩

/-- One token after a complete value. -/
def readAfter? (value : Document) : List Open → Token → Option Builder
  | .array items :: stack, .comma => some ⟨.array (value :: items) :: stack, .value⟩
  | .array items :: stack, .endArray => some ⟨stack, .after (.array (value :: items).reverse)⟩
  | .object members key :: stack, .comma => some ⟨stack, .key ((key, value) :: members)⟩
  | .object members key :: stack, .endObject =>
    some ⟨stack, .after (.object ((key, value) :: members).reverse)⟩
  | _, _ => none

/-- One token. -/
def read? (b : Builder) (t : Token) : Option Builder :=
  match b.expect, t with
  | .value, t => readValue? b.stack t
  | .firstItem, .endArray => some ⟨b.stack.tail, .after (.array [])⟩
  | .firstItem, t => readValue? b.stack t
  | .firstKey, .endObject => some ⟨b.stack, .after (.object [])⟩
  | .firstKey, .string ps => some ⟨b.stack, .colon [] ps⟩
  | .key members, .string ps => some ⟨b.stack, .colon members ps⟩
  | .colon members key, .colon => some ⟨.object members key :: b.stack, .value⟩
  | .after v, t => readAfter? v b.stack t
  | _, _ => none

/-- The document, if it is complete. -/
def finish? : Builder → Option Document
  | ⟨[], .after v⟩ => some v
  | _ => none

/-- Every token of a list, one after the other. -/
def readAll? (b : Builder) : List Token → Option Builder
  | [] => some b
  | t :: ts => (b.read? t).bind fun b => b.readAll? ts

end Builder

/-- The document that a token list spells. -/
def ofTokens? (ts : List Token) : Option Document :=
  (Builder.start.readAll? ts).bind Builder.finish?

/-- The document that a byte string spells. -/
def parse? (bs : Bytes) : Option Document := (Token.lex? bs).bind ofTokens?

end Document

end PipeCall.Json
