import PipeCall.Frame.Decoder
import PipeCall.Stream

/-!
# Frames from a stream

An `Intake` is an input stream with the decoder of its frames. `Intake.pull` is its smallest step: a
frame that is complete, or one read if none is. `Intake.next` pulls until there is something to
report.
-/

namespace PipeCall.Frame

/-- An input stream and the decoder of its frames. -/
structure Intake where
  input : Input
  decoder : Decoder

namespace Intake

/-- What one step gives. -/
inductive Pulled where
  | frame (body : Bytes)
  /-- A frame that cannot be handed out. -/
  | refused (fault : Fault)
  /-- More bytes for the decoder. -/
  | buffered
  | failed (fault : Fault)
  /-- The end of the stream, with the number of bytes left of an unfinished message. -/
  | ended (leftover : Option Nat)
  /-- Nothing yet. -/
  | waiting

/-- The bytes of an unfinished message at the end of the stream; blanks are none. -/
def leftover? (d : Decoder) : Option Nat :=
  if Bytes.blank d.buffer then none else some d.buffer.length

/-- One step. -/
def pull (k : Intake) : Pulled × Intake :=
  match k.decoder.next with
  | (some (.ok body), d) => (.frame body, { k with decoder := d })
  | (some (.error fault), d) => (.refused fault, { k with decoder := d })
  | (none, d) =>
    match k.input.read with
    | (.bytes bs, i) => (.buffered, ⟨i, d.extend bs⟩)
    | (.failed reason, i) => (.failed (.stream reason), ⟨i, d⟩)
    | (.ended, i) => (.ended (leftover? d), ⟨i, d⟩)
    | (.waiting, i) => (.waiting, ⟨i, d⟩)

/-- At most `fuel` reads, and then what is to report. -/
def nextWithin : Nat → Intake → Pulled × Intake
  | 0, k => k.pull
  | fuel + 1, k =>
    match k.pull with
    | (.buffered, k) => nextWithin fuel k
    | other => other

/-- The next thing to report. Every read takes a byte, so their number bounds the reads. -/
def next (k : Intake) : Pulled × Intake := nextWithin k.input.arrived.length k

end Intake

end PipeCall.Frame
