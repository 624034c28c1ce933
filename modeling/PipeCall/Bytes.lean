/-!
# Bytes

The program moves bytes between two streams, so a byte string is the list of its bytes. A line feed
and the ASCII blanks are the only bytes that framing gives a meaning to.
-/

namespace PipeCall

/-- A byte string. -/
abbrev Bytes := List UInt8

namespace Bytes

/-- The line feed. -/
def lineFeed : UInt8 := 0x0a

/-- The ASCII blanks: space, tab, line feed, form feed and carriage return. -/
def isBlank (b : UInt8) : Bool :=
  b == 0x20 || b == 0x09 || b == 0x0a || b == 0x0c || b == 0x0d

/-- A byte string of ASCII blanks only; the empty one is blank too. -/
def blank (bs : Bytes) : Bool := bs.all isBlank

end Bytes

end PipeCall
