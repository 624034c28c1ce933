import PipeCall.Bytes
import PipeCall.Fault

/-!
# Frames

A message is sent as its body and two line feeds. `Frame.wrap` makes a frame, unless the body is
longer than allowed.
-/

namespace PipeCall.Frame

/-- What ends a message: two line feeds. -/
def delimiter : Bytes := [Bytes.lineFeed, Bytes.lineFeed]

/-- The greatest length of a message unless it is set otherwise. -/
def defaultLimit : Nat := 104857600

/-- A body with its delimiter. -/
def wrap (limit : Nat) (body : Bytes) : Except Fault Bytes :=
  if body.length ≤ limit then .ok (body ++ delimiter) else .error (.oversized body.length limit)

end PipeCall.Frame
