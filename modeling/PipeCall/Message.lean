import PipeCall.CallId
import PipeCall.Frame

/-!
# Messages

A call goes out as a JSON object with the members `jsonrpc`, `id`, `method` and `params`. What comes
in is a reply, which names its call and carries a result or a failure, or a message of the
counterparty's own, which has a method. `Inbound.parse` reads one frame, `Request.frame` writes one.

An object of a known shape has named members. It may also be written as an array of their values in
the order of their names, and members with other names are passed over whatever they hold
(`Json.Document.fields?`).
-/

namespace PipeCall

namespace Json.Document

/-- The members of an object, their keys as text. -/
def keyed? : List (List Piece × Document) → Option (List (String × Document))
  | [] => some []
  | (key, d) :: rest => do
    let k ← text? key
    let ms ← keyed? rest
    pure ((k, d) :: ms)

/-- The named members of a document, each name at most once. -/
def fields? (names : List String) : Document → Option (List (String × Document))
  | .array items => if items.length ≤ names.length then some (names.zip items) else none
  | .object members => do
    let named := (← keyed? members).filter fun (k, _) => names.contains k
    if (named.map Prod.fst).Nodup then some named else none
  | _ => none

/-- The named member of a list, unless it is `null`. -/
def present? (name : String) (fields : List (String × Document)) : Option Document :=
  match fields.lookup name with
  | some .null => none
  | found => found

/-- A document as text. -/
def string? : Document → Option String
  | .string ps => text? ps
  | _ => none

/-- A document as an integer that fits 64 bits with its sign. -/
def int64? : Document → Option Int
  | .number n =>
    match n.number? with
    | some (.integer k) =>
      if -Decimal.signedLimit ≤ k ∧ k < Decimal.signedLimit then some k else none
    | _ => none
  | _ => none

end Json.Document

/-! ## Failures -/

/-- The error object of a failed reply. -/
structure Failure where
  code : Int
  message : String
  data : Option Json

namespace Failure

/-- The names of its members. -/
def memberNames : List String := ["code", "message", "data"]

/-- The failure that a document is, if it nests at most `levels` deep. The code must be there, the
message is empty and the data absent if they are not. -/
def ofDocument? (levels : Nat) (d : Json.Document) : Option Failure := do
  let fields ← d.fields? memberNames
  let code ← (← fields.lookup "code").int64?
  let message ← match fields.lookup "message" with
    | none => some ""
    | some m => m.string?
  let data ← match Json.Document.present? "data" fields with
    | none => some none
    | some v => (v.value? (levels - 1)).map some
  pure ⟨code, message, data⟩

/-- The failure that a byte string spells as a whole. -/
def parse? (bs : Bytes) : Option Failure :=
  (Json.Document.parse? bs).bind (ofDocument? Json.maxLevels)

/-- A failure as a JSON object; without data there is no such member. -/
def toJson (f : Failure) : Json :=
  .object <| [("code", .number (.integer f.code)), ("message", .string f.message)] ++
    f.data.toList.map fun v => ("data", v)

end Failure

/-! ## Inbound messages -/

/-- A reply: the call it answers, and how that call came out. -/
structure Reply where
  id : CallId
  outcome : Except Failure Json

/-- A message from the counterparty. -/
inductive Inbound where
  | reply (r : Reply)
  /-- A message of the counterparty's own. -/
  | notification (method : String)

namespace Inbound

/-- The names of the members of a message. -/
def memberNames : List String := ["id", "method", "result", "error"]

/-- A member that may be absent or `null`, read by `read`. -/
def optional? {α : Type} (read : Json.Document → Option α) (name : String)
    (fields : List (String × Json.Document)) : Option (Option α) :=
  match Json.Document.present? name fields with
  | none => some none
  | some d => (read d).map some

/-- The members of a message, each read as what it must be. -/
structure Members where
  id : Option CallId
  method : Option String
  result : Option Json
  error : Option Failure

/-- The members of a document. The document itself is the first level of nesting. -/
def Members.ofDocument? (d : Json.Document) : Option Members := do
  let fields ← d.fields? memberNames
  let id ← optional? CallId.ofDocument? "id" fields
  let method ← optional? Json.Document.string? "method" fields
  let result ← optional? (Json.Document.value? (Json.maxLevels - 1)) "result" fields
  let error ← optional? (Failure.ofDocument? (Json.maxLevels - 1)) "error" fields
  pure ⟨id, method, result, error⟩

/-- What a message with these members is. A method makes it the counterparty's own, whatever else
it has; a reply must name a call; an error outweighs a result, and with neither the result is
`null`. -/
def ofMembers (m : Members) : Except Fault Inbound :=
  match m.method, m.id with
  | some method, _ => .ok (.notification method)
  | none, none => .error .missingId
  | none, some id =>
    if id.isAbsent then .error .missingId
    else
      .ok <| .reply <| Reply.mk id <|
        match m.error with
        | some failure => .error failure
        | none => .ok (m.result.getD .null)

/-- The message in a frame. -/
def parse (frame : Bytes) : Except Fault Inbound :=
  match (Json.Document.parse? frame).bind Members.ofDocument? with
  | some m => ofMembers m
  | none => .error .malformed

end Inbound

/-! ## Outbound messages -/

/-- A call as it is sent. -/
structure Request where
  id : Nat
  method : String
  params : Json

namespace Request

/-- A call as a JSON object, in the order of its members on the wire. -/
def toJson (r : Request) : Json :=
  .object [("jsonrpc", .string "2.0"), ("id", .number (.integer r.id)),
    ("method", .string r.method), ("params", r.params)]

/-- The body of a call's frame. -/
def body (r : Request) : Bytes := r.toJson.bytes

/-- The frame of a call. -/
def frame (limit : Nat) (r : Request) : Except Fault Bytes := Frame.wrap limit r.body

end Request

end PipeCall
