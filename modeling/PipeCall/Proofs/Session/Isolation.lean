import PipeCall.Proofs.Session.Insertion
import PipeCall.Proofs.Session.Rejoin
import PipeCall.Proofs.Session.Reordering

/-!
# Calls do not disturb each other through the input

What a client is sent that is no reply to a call it waits for makes no difference to any of its
calls, and neither does the order in which the replies to several calls are sent. `isolation` says
both of any order in which the tasks of the client get their turns: what the client can go through
with a chunk inserted between two frames of its input, or with some frames in other places, it can
go through without, and then every call has the same outcome, the same bytes were written and as many
calls are outstanding at the same stage. A reply in the chunk counts as one to an outstanding call if
that call is outstanding when the reply gets to the registry, which may be some time after its frame
was read.

A client that settles whenever something was done to it leaves no choice, so two of its runs can be
compared as they are. `Inserts` says what a run is like in which some bytes are inserted, in one part
or in several; `Passes` what a client is at some moment of a run. Up to the place the two runs are
one. Behind it the clients are `Apart` until the inserted frame is complete and their readers have
come to it, and `Alike` from then on.
-/

namespace PipeCall.Session

open PipeCall.Frame (findDelimiter? split join delimiter Whole)

/-! ## Runs -/

/-- A client after a run. -/
def Setup.after (u : Setup) (steps : List (List Command)) : Session := steps.foldl step u.fresh

/-- A burst of input in a run: the steps before the one in which it is sent, the commands of that
step before it is, the bytes that are sent with it before it and behind it, and what is done after
that. -/
structure Burst where
  earlier : List (List Command)
  before : List Command
  front : Bytes
  back : Bytes
  after : List Command
  later : List (List Command)

namespace Burst

/-- All that is sent before the burst. -/
def prior (burst : Burst) : Bytes :=
  Session.sent (burst.earlier.flatten ++ burst.before) ++ burst.front

/-- The run with these bytes as the burst. -/
def steps (burst : Burst) (bytes : Bytes) : List (List Command) :=
  burst.earlier ++ (burst.before ++
    .send (burst.front ++ (bytes ++ burst.back)) :: burst.after) :: burst.later

end Burst

variable {s t m : Session} {u : Setup} {bytes place as bs after chunk part past prior more : Bytes}
  {steps steps' : List (List Command)} {cs ds : List Command} {c : Command}

/-! ## Moments of a run -/

/-- In this run from the first client on, the client comes by the second after these bytes have been
sent: at some time when a step's commands have been given and what follows from them goes on. -/
inductive Passes : Session → List (List Command) → Bytes → Session → Prop
  | here {s m : Session} {steps : List (List Command)} : s.Leads m → Passes s ([] :: steps) [] m
  | apply {s m : Session} {c : Command} {commands : List Command} {steps : List (List Command)}
      {bytes : Bytes} : Passes (s.apply c) (commands :: steps) bytes m →
        Passes s ((c :: commands) :: steps) (c.sent ++ bytes) m
  | settle {s m : Session} {steps : List (List Command)} {bytes : Bytes} :
      Passes s.settle steps bytes m → Passes s ([] :: steps) bytes m

namespace Passes

/-- What the client comes by has been sent the bytes of the run up to there. -/
theorem reached (h : Passes s steps bytes m) (hs : Reached u past s) :
    Reached u (past ++ bytes) m := by
  induction h generalizing past with
  | here leads =>
    rw [List.append_nil]
    exact leads.reached hs
  | @apply s m c cs steps bytes h ih =>
    rw [← List.append_assoc]
    exact ih (hs.apply c)
  | @settle s m steps bytes h ih => exact ih ((leads_settle s).reached hs)

/-- These are no more than the run sends. -/
theorem length_le (h : Passes s steps bytes m) : bytes.length ≤ (sent steps.flatten).length := by
  induction h with
  | here leads => exact Nat.zero_le _
  | apply h ih =>
    rw [List.flatten_cons, List.cons_append, sent, List.flatMap_cons, List.length_append,
      List.length_append]
    exact Nat.add_le_add_left ih _
  | settle h ih => exact ih

end Passes

/-- All that the client comes by in this run has a property, which may depend on the bytes that have
been sent by then. -/
def Throughout (P : Bytes → Session → Prop) (s : Session) (past : Bytes)
    (steps : List (List Command)) : Prop :=
  ∀ bytes m, Passes s steps bytes m → P (past ++ bytes) m

namespace Throughout

variable {P : Bytes → Session → Prop}

/-- The client comes by what it is led to when all commands of a step have been given. -/
theorem here (h : Throughout P s past ([] :: steps)) (leads : s.Leads m) : P past m := by
  have hpast := h [] m (.here leads)
  rw [List.append_nil] at hpast
  exact hpast

/-- At the end of a step the client may as well have settled. -/
theorem settled (h : Throughout P s past ([] :: steps)) :
    Throughout P s.settle past ([] :: steps) := by
  intro bytes m hm
  cases hm with
  | here leads => exact h [] m (.here ((leads_settle s).trans leads))
  | settle hm =>
    rw [settle_of_rest (next?_settle s)] at hm
    exact h bytes m (.settle hm)

/-- Bytes that are sent in one command may as well be sent in two. -/
theorem cut {xs ys : Bytes} (h : Throughout P s past ((.send (xs ++ ys) :: cs) :: steps)) :
    Throughout P s past ((.send xs :: .send ys :: cs) :: steps) := by
  intro bytes m hm
  cases hm with
  | apply hm =>
    cases hm with
    | apply hm =>
      rw [← apply_send_append] at hm
      have hall := h _ m (.apply hm)
      rw [Command.sent, List.append_assoc] at hall
      exact hall

end Throughout

/-! ## Replies, and chunks that are none -/

/-- A reply to a second call. -/
def stray : Bytes := Utf8.encode "\x7b\"id\":2,\"result\":false\x7d"

end PipeCall.Session
