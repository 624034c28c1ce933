import PipeCall.Counterparty.Run
import PipeCall.Session.Settle

/-!
# A client and its counterparty

A `Conversation` connects the two streams of a client to a process. `Conversation.exchange` hands
over what each has written; when neither can go on, time passes until one can.
`Conversation.converse` goes on until the client's first call is over, and `Conversation.finish`
shuts the client down and waits for the process.
-/

namespace PipeCall

open Counterparty in
/-- A client and the process it talks to. -/
structure Conversation where
  session : Session
  process : Process
  /-- How much of the client's output the process has been given. -/
  heard : Nat := 0

namespace Conversation

/-- How long a process may take to exit once its input is closed, in milliseconds. -/
def exitGrace : Nat := 500

/-- How often a process may go on before time passes. -/
def haste : Nat := 16

/-- What became of the client's first call. -/
def outcome? (c : Conversation) : Option Session.Outcome :=
  c.session.calls.head?.bind Session.Call.outcome?

/-- Gives the process what the client has written, and lets it go on. -/
def hear (c : Conversation) : Conversation :=
  let taken := c.session.output.taken
  let said := Counterparty.Octets.ofBytes (taken.drop c.heard)
  let process := { c.process with outputGone := c.session.reader.isGone }
  { c with
    process := (process.send said c.session.writer.isGone).run c.session.clock
    heard := taken.length }

/-- Gives the client what the process has written. A stream is closed when no task of the process
has it any more. -/
def reply (c : Conversation) : Conversation :=
  let written := Counterparty.Octets.toBytes c.process.output
  let ended : List Session.Command := if c.process.isHeld .output then [] else [.endInput]
  let broken : List Session.Command :=
    if c.process.isHeld .input then [] else [.failOutput "Broken pipe (os error 32)"]
  { c with
    session := c.session.step (.send written :: ended ++ broken)
    process := { c.process with output := [] } }

/-- Each hands over what it has written. -/
def exchange (c : Conversation) : Conversation := c.hear.reply

/-- Whether one of them can go on at once. -/
def isBusy (c : Conversation) : Bool :=
  decide (c.heard < c.session.output.taken.length) || c.process.isBusy c.session.clock

/-- The time at which something happens that nobody has to do anything for: a call's time is up, or
the process has slept enough. -/
def wakeTime? (c : Conversation) : Option Nat :=
  (c.process.wakeTime?.toList ++ c.session.liveTickets.map Session.Ticket.deadline).min?

/-- Lets time pass up to a time. -/
def sleepUntil (c : Conversation) (time : Nat) : Conversation :=
  { c with session := c.session.step [.advance (time - c.session.clock)] }

/-- At most `fuel` exchanges, until the first call is over; of these `haste` before time passes. -/
def converseWithin : Nat → Nat → Conversation → Conversation
  | 0, _, c => c
  | fuel + 1, hurry, c =>
    if c.outcome?.isSome then c
    else
      let c := c.exchange
      if c.outcome?.isSome then c
      else
        match hurry, c.isBusy with
        | hurry + 1, true => converseWithin fuel hurry c
        | _, _ =>
          match c.wakeTime? with
          | some time => converseWithin fuel haste (c.sleepUntil time)
          | none => c

/-- The greatest number of exchanges. -/
def patience : Nat := 10000

/-- Goes on until the first call is over. -/
def converse (c : Conversation) : Conversation := converseWithin patience haste c

/-- Lets the process go on at most `fuel` times, up to a time and until it has exited. -/
def lingerWithin : Nat → Nat → Nat → Conversation → Conversation
  | 0, _, _, c => c
  | fuel + 1, hurry, stop, c =>
    let c := c.hear
    if c.process.hasExited then c
    else
      match hurry, c.process.isBusy c.session.clock, c.process.wakeTime? with
      | hurry + 1, true, _ => lingerWithin fuel hurry stop c
      | _, _, some time =>
        if stop < time then c else lingerWithin fuel haste stop (c.sleepUntil time)
      | _, _, none => c

/-- Shuts the client down, and lets the process go on for as long as it may take to exit. -/
def finish (c : Conversation) : Conversation :=
  let c := { c with session := c.session.step [.shutDown] }
  let c := lingerWithin patience haste (c.session.clock + exitGrace) c
  { c with process := c.process.kill }

/-- Lets the other tasks of the process go on, as long as one of them may still report something. -/
def abandonWithin : Nat → Nat → Conversation → Conversation
  | 0, _, c => c
  | fuel + 1, hurry, c =>
    let c := c.hear
    if !c.process.isHeld .errors then c
    else
      match hurry, c.process.isBusy c.session.clock, c.process.wakeTime? with
      | hurry + 1, true, _ => abandonWithin fuel hurry c
      | _, _, some time => abandonWithin fuel haste (c.sleepUntil time)
      | _, _, none => c

/-- Leaves the process alone. -/
def abandon (c : Conversation) : Conversation := abandonWithin patience haste c

end Conversation

end PipeCall
