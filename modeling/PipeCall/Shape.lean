import PipeCall.Json.Printer

/-!
# Expected results

A caller says what it expects of a result. `Shape.read?` checks a result against that and gives it
in normal form: an object of a known shape keeps its named members only, and may come as an array of
their values.
-/

namespace PipeCall

/-- What a caller expects of a result. -/
inductive Shape where
  /-- Anything. -/
  | value
  /-- Only `null`. -/
  | unit
  | bool
  /-- An integer that fits 64 bits without a sign. -/
  | unsigned
  /-- An integer that fits 64 bits with its sign. -/
  | signed
  | string
  | unsignedList
  /-- An object with the truth value `pong`. -/
  | pong
  /-- Such an object, or `null`. -/
  | optionalPong
  /-- An object with `peers`, a list of objects with the string `id` and the truth value
  `connected`. -/
  | peers
  deriving DecidableEq, Repr

namespace Shape

/-- An unsigned integer. -/
def readUnsigned? : Json → Option Json
  | .number (.integer n) => if 0 ≤ n then some (.number (.integer n)) else none
  | _ => none

/-- A signed integer. -/
def readSigned? : Json → Option Json
  | .number (.integer n) => if n < Decimal.signedLimit then some (.number (.integer n)) else none
  | _ => none

/-- A truth value. -/
def readBool? : Json → Option Json
  | .bool b => some (.bool b)
  | _ => none

/-- A string. -/
def readString? : Json → Option Json
  | .string s => some (.string s)
  | _ => none

/-- The items of an array, each read by `read`. -/
def readItems? (read : Json → Option Json) : Json → Option Json
  | .array items => (items.mapM read).map .array
  | _ => none

/-- The values of the named members of an object, or the items of an array of that length. -/
def memberValues? (names : List String) : Json → Option (List Json)
  | .array items => if items.length = names.length then some items else none
  | .object members => names.mapM fun name => members.lookup name
  | _ => none

/-- An object `{"pong": ..}`. -/
def readPong? (v : Json) : Option Json :=
  match memberValues? ["pong"] v with
  | some [answer] => (readBool? answer).map fun b => Json.ofMembers [("pong", b)]
  | _ => none

/-- An object `{"id": .., "connected": ..}`. -/
def readPeer? (v : Json) : Option Json :=
  match memberValues? ["id", "connected"] v with
  | some [id, connected] => do
    let i ← readString? id
    let c ← readBool? connected
    pure (Json.ofMembers [("id", i), ("connected", c)])
  | _ => none

/-- An object `{"peers": [..]}`. -/
def readPeers? (v : Json) : Option Json :=
  match memberValues? ["peers"] v with
  | some [list] => (readItems? readPeer? list).map fun ps => Json.ofMembers [("peers", ps)]
  | _ => none

/-- A result in the form that its caller expects, if it has it. -/
def read? : Shape → Json → Option Json
  | .value, v => some v
  | .unit, .null => some .null
  | .unit, _ => none
  | .bool, v => readBool? v
  | .unsigned, v => readUnsigned? v
  | .signed, v => readSigned? v
  | .string, v => readString? v
  | .unsignedList, v => readItems? readUnsigned? v
  | .pong, v => readPong? v
  | .optionalPong, .null => some .null
  | .optionalPong, v => readPong? v
  | .peers, v => readPeers? v

end Shape

end PipeCall
