import PipeCall.Decimal
import PipeCall.Text.Blank
import PipeCall.Text.Quoted
import PipeCall.Json.Printer

/-!
# Call identifiers

A call is numbered from 1 on. A reply names its call by the number itself or by the number's decimal
text, and `CallId.key?` is the call it names: two identifiers name the same call only if one of them
is the number and the other its canonical text, or they are equal.
-/

namespace PipeCall

/-- The identifier of a call as it appears in a message. -/
inductive CallId where
  | number (n : Nat)
  | text (s : String)
  deriving DecidableEq, Repr

namespace CallId

/-- The number of the call that an identifier names. Zero and a text that is not canonical name
none. -/
def key? : CallId → Option Nat
  | .number n => if n = 0 then none else some n
  | .text s => (Decimal.canonical? s.toList).filter (· ≠ 0)

/-- Whether an identifier is as good as none: zero, or a text of white space. -/
def isAbsent : CallId → Bool
  | .number n => n == 0
  | .text s => s.toList.all Text.isBlank

/-- An identifier as diagnostics show it. -/
def shown : CallId → String
  | .number n => Decimal.text n
  | .text s => Text.quoted s

/-- An identifier as a JSON value. -/
def toJson : CallId → Json
  | .number n => .number (.integer n)
  | .text s => .string s

/-- The identifier that a document is: an integer that fits 64 bits without a sign, or a string. -/
def ofDocument? : Json.Document → Option CallId
  | .number n =>
    match n.number? with
    | some (.integer k) => if 0 ≤ k then some (.number k.toNat) else none
    | _ => none
  | .string ps => (Json.text? ps).map .text
  | _ => none

/-- The identifier that a byte string spells as a whole. -/
def parse? (bs : Bytes) : Option CallId := (Json.Document.parse? bs).bind ofDocument?

/-- The identifiers of a client: 1, 2, 3 and so on. The counter of a client has 64 bits, and begins
anew when it has given all the identifiers that these can count; this one has no bound, so what is said
of it holds of a client that makes fewer calls. -/
structure Counter where
  next : Nat := 1
  deriving DecidableEq, Repr

/-- The next identifier, and the counter after it. -/
def Counter.take (c : Counter) : Nat × Counter := (c.next, ⟨c.next + 1⟩)

end CallId

end PipeCall
