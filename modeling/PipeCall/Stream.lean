import PipeCall.Fault
import PipeCall.Bytes

/-!
# The two streams of a client

An `Input` is what the counterparty has sent and the client has not read; an `Output` is what the
client has written, and how much more the counterparty takes. Reading an empty input waits, and so
does writing to a full output, unless the stream has failed or ended. `Output.send` writes a frame
as a whole and flushes it, in as many writes as it takes.
-/

namespace PipeCall

/-! ## Input -/

/-- The input stream. -/
structure Input where
  /-- What has arrived and not been read. -/
  arrived : Bytes := []
  /-- Whether nothing more will arrive. -/
  ended : Bool := false
  /-- Why the next read fails that finds nothing, if it does. -/
  failure : Option String := none
  /-- The greatest number of bytes that one read gives. -/
  chunk : Nat := 8192

namespace Input

/-- What a read gives. -/
inductive Read where
  | bytes (bs : Bytes)
  | failed (reason : String)
  | ended
  /-- Nothing yet. -/
  | waiting

/-- One read. A failure comes once; a read that gives no bytes is the end of the stream. -/
def read (i : Input) : Read × Input :=
  match i.arrived with
  | [] =>
    match i.failure with
    | some reason => (.failed reason, { i with failure := none })
    | none => if i.ended then (.ended, i) else (.waiting, i)
  | _ :: _ =>
    match i.arrived.take i.chunk with
    | [] => (.ended, i)
    | bs => (.bytes bs, { i with arrived := i.arrived.drop i.chunk })

end Input

/-! ## Output -/

/-- The output stream. -/
structure Output where
  /-- What the counterparty has taken. -/
  taken : Bytes := []
  /-- How many bytes more it takes, if there is a bound. -/
  room : Option Nat := none
  /-- The greatest number of bytes that one write takes, if there is a bound. -/
  burst : Option Nat := none
  /-- Why a write fails that has no room, if it does; without a bound there is no room then. -/
  failure : Option String := none
  /-- Why flushing fails, if it does. -/
  flushFailure : Option String := none
  /-- Why shutting it down fails, if it does. -/
  closeFailure : Option String := none
  /-- How often it was flushed. -/
  flushes : Nat := 0

namespace Output

/-- Whether a write has to wait: there is no room, and no failure. -/
def isStuck (o : Output) : Bool := o.room = some 0 && o.failure.isNone

/-- What a write does. -/
inductive Write where
  | took (n : Nat)
  | failed (reason : String)
  /-- Nothing can be taken yet. -/
  | waiting
  deriving DecidableEq, Repr

/-- The number of bytes that a stream of this room takes of `n`, in one write. -/
def portion (o : Output) (room : Option Nat) (n : Nat) : Nat :=
  min n (min (room.getD n) (o.burst.getD n))

/-- Takes the first `n` bytes of a byte string. -/
def accept (o : Output) (bs : Bytes) (n : Nat) : Output :=
  { o with taken := o.taken ++ bs.take n, room := o.room.map (· - n) }

/-- One write of a non-empty byte string. -/
def write (o : Output) (bs : Bytes) : Write × Output :=
  match o.room, o.failure with
  | none, some reason => (.failed reason, o)
  | some 0, some reason => (.failed reason, o)
  | some 0, none => (.waiting, o)
  | room, _ =>
    let n := o.portion room bs.length
    (.took n, o.accept bs n)

/-- How far a frame has got. -/
inductive Sending where
  /-- All of it was written and flushed. -/
  | done
  | failed (reason : String)
  /-- The output is full; so much of the frame is left. -/
  | waiting (rest : Bytes)
  deriving DecidableEq, Repr

/-- Flushes what was written. -/
def flush (o : Output) : Sending × Output :=
  match o.flushFailure with
  | some reason => (.failed reason, o)
  | none => (.done, { o with flushes := o.flushes + 1 })

/-- Writes a byte string in at most `fuel` writes and flushes it. A write that takes nothing is a
failure. -/
def sendWithin : Nat → Output → Bytes → Sending × Output
  | _, o, [] => o.flush
  | 0, o, bs => (.waiting bs, o)
  | fuel + 1, o, bs =>
    match o.write bs with
    | (.failed reason, o) => (.failed reason, o)
    | (.waiting, o) => (.waiting bs, o)
    | (.took 0, o) => (.failed "write zero", o)
    | (.took n, o) => sendWithin fuel o (bs.drop n)

/-- Writes a byte string and flushes it. Every write takes a byte, so its length bounds their
number. -/
def send (o : Output) (bs : Bytes) : Sending × Output := sendWithin bs.length o bs

end Output

end PipeCall
