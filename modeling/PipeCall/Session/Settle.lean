import PipeCall.Session.Move

/-!
# Running until nothing can go on

`Session.settle` makes moves until none is possible. Every move uses up some of `Session.work`,
which prices what is left to do: a call that waits for room will be put into the queue, written and
settled; a byte on the input will be buffered and handed out; a loop will end.
-/

namespace PipeCall.Session

/-- What is left to do for a call. -/
def Call.work : Call → Nat
  | .registered _ .waiting => 6
  | .registered _ .queued => 1
  | _ => 0

/-- What is left to do for some calls. -/
def callsWork : List Call → Nat
  | [] => 0
  | c :: cs => c.work + callsWork cs

/-- What is left to do for the writer. -/
def Writer.work : Writer → Nat
  | .writing _ _ => 3
  | .ready => 1
  | _ => 0

/-- What is left to do for the reader. -/
def Reader.work : Reader → Nat
  | .running => 2
  | .leaving => 1
  | _ => 0

/-- What is left to do for a shutdown. -/
def Closing.work : Closing → Nat
  | .writer _ _ => 2
  | .reader _ _ => 1
  | _ => 0

/-- Whether the output can be written to at all. -/
def outputWork (o : Output) : Nat := if o.isStuck then 0 else 1

/-- A bound on the moves that are left. -/
def work (s : Session) : Nat :=
  callsWork s.calls + 4 * s.queue.length + s.writer.work + outputWork s.output +
    2 * s.intake.input.arrived.length + s.intake.decoder.buffer.length + s.inFlight.length +
    s.reader.work + s.closing.work

/-- Makes at most `fuel` moves. -/
def run : Nat → Session → Session
  | 0, s => s
  | fuel + 1, s =>
    match s.next? with
    | some t => run fuel t
    | none => s

/-- Makes moves until none is possible. -/
def settle (s : Session) : Session := run s.work s

/-- Commands given one right after the other, and then everything that follows from them. -/
def step (s : Session) (commands : List Command) : Session :=
  (commands.foldl apply s).settle

/-- Lets time pass to the deadline that a shutdown waits for, if it waits. -/
def passDeadline (s : Session) : Session :=
  match s.closing with
  | .writer _ deadline | .reader _ deadline => s.step [.advance (deadline - s.clock)]
  | _ => s

/-- Starts the client and shuts it down at once, and waits until that is done: the writer and the
reader are each waited for no longer than to a deadline. A client that was shut down before has
nothing to wait for. -/
def startAndStop (s : Session) : Session :=
  let stopped := s.step [.start, .shutDown]
  match s.lifecycle with
  | .shutDown => stopped
  | _ => stopped.passDeadline.passDeadline

end PipeCall.Session
