import PipeCall.Frame

/-!
# Splitting a stream into frames

A `Decoder` holds the bytes that have arrived and not yet been handed out. `Decoder.next` hands out
the next frame: blank frames are passed over, and a frame longer than the limit is reported once, by
its length, instead of being handed out. An unfinished frame that passes the limit is thrown away as
it arrives, all but its last byte, which may begin the delimiter.
-/

namespace PipeCall.Frame

/-- The offset of the first delimiter in a byte string. -/
def findDelimiter? : Bytes → Option Nat
  | a :: b :: rest =>
    if a = Bytes.lineFeed ∧ b = Bytes.lineFeed then some 0
    else (findDelimiter? (b :: rest)).map (· + 1)
  | _ => none

/-- A splitter of a byte stream. -/
structure Decoder where
  /-- The greatest length of a frame. -/
  limit : Nat
  /-- The bytes that have arrived and not been handed out or thrown away. -/
  buffer : Bytes := []
  /-- No delimiter starts in the buffer before the byte that precedes this offset. -/
  scanned : Nat := 0
  /-- The number of bytes thrown away of the unfinished frame, if it has passed the limit. -/
  discarded : Option Nat := none
  deriving DecidableEq, Repr

namespace Decoder

/-- More bytes arrive. -/
def extend (d : Decoder) (bs : Bytes) : Decoder := { d with buffer := d.buffer ++ bs }

/-- The offset of the first delimiter in the buffer, searched from where the last search ended. -/
def find? (d : Decoder) : Option Nat :=
  (findDelimiter? (d.buffer.drop (d.scanned - 1))).map (· + (d.scanned - 1))

/-- The decoder after the frame that ends at offset `stop`, and its delimiter, have left. -/
def dropFrame (d : Decoder) (stop : Nat) : Decoder :=
  { d with
    buffer := d.buffer.drop (stop + delimiter.length)
    scanned := 0
    discarded := none }

/-- The decoder after a search that found nothing: an unfinished frame that has passed the limit is
thrown away but for its last byte. -/
def shed (d : Decoder) : Decoder :=
  if d.discarded = none ∧ d.buffer.length ≤ d.limit then { d with scanned := d.buffer.length }
  else
    let drop := d.buffer.length - 1
    { d with
      buffer := d.buffer.drop drop
      scanned := (d.buffer.drop drop).length
      discarded := some (d.discarded.getD 0 + drop) }

/-- The next frame, with at most `fuel` blank ones before it. -/
def nextWithin : Nat → Decoder → Option (Except Fault Bytes) × Decoder
  | fuel, d =>
    match d.find? with
    | none => (none, d.shed)
    | some stop =>
      let frame := d.buffer.take stop
      let rest := d.dropFrame stop
      match d.discarded, fuel with
      | some dropped, _ => (some (.error (.oversized (dropped + frame.length) d.limit)), rest)
      | none, fuel =>
        if Bytes.blank frame then
          match fuel with
          | 0 => (none, rest)
          | fuel + 1 => nextWithin fuel rest
        else if d.limit < frame.length then
          (some (.error (.oversized frame.length d.limit)), rest)
        else (some (.ok frame), rest)

/-- The next frame, or nothing if more bytes are needed. Every blank frame takes two bytes of the
buffer, so its length bounds their number. -/
def next (d : Decoder) : Option (Except Fault Bytes) × Decoder := nextWithin d.buffer.length d

/-- Every frame that is there, at most `fuel` of them. -/
def drainWithin : Nat → Decoder → List (Except Fault Bytes) × Decoder
  | 0, d => ([], d)
  | fuel + 1, d =>
    match d.next with
    | (none, d) => ([], d)
    | (some r, d) =>
      let (rs, d) := drainWithin fuel d
      (r :: rs, d)

/-- Every frame that is there, in order, and the decoder that has no more of them. -/
def drain (d : Decoder) : List (Except Fault Bytes) × Decoder :=
  drainWithin (d.buffer.length + 1) d

end Decoder

end PipeCall.Frame
