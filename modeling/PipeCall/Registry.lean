import PipeCall.Message

/-!
# The registry of outstanding calls

A call that waits for its reply has an entry in the `Registry`, and its caller has a `Slot` through
which the settlement comes: the reply, or the news that no reply can come any more. An entry leads
to one slot, and every successful registration makes a new one, so what happens to a later call of
the same number never reaches the slot of an earlier one.
-/

namespace PipeCall

/-- How a call is settled. -/
inductive Settlement where
  | reply (r : Reply)
  /-- The registry was drained before a reply came. -/
  | shutDown

/-- The caller's end of a registration. -/
inductive Slot where
  /-- Nothing has come yet. -/
  | waiting
  /-- A settlement has come and not been taken. -/
  | settled (s : Settlement)
  /-- The settlement was taken, or none can come. -/
  | closed
  /-- The caller has given the slot up. -/
  | dropped

namespace Slot

/-- A settlement arrives: a caller who waits for it gets it. -/
def deliver (s : Settlement) : Slot → Slot
  | .waiting => .settled s
  | slot => slot

/-- No settlement can arrive any more. -/
def close : Slot → Slot
  | .waiting => .closed
  | slot => slot

/-- The caller takes a settlement that has arrived. -/
def take : Slot → Slot
  | .settled _ => .closed
  | slot => slot

end Slot

/-- The calls that wait for a reply. -/
structure Registry where
  /-- Whether it takes no more registrations. -/
  closed : Bool := false
  /-- The outstanding calls, each with the number of its slot. -/
  entries : List (Nat × Nat) := []
  /-- Every slot ever made, by its number. -/
  slots : List Slot := []

namespace Registry

/-- Why a call cannot be registered. -/
inductive Refusal where
  | duplicate (id : Nat)
  | closed
  deriving DecidableEq, Repr

/-- The wording of a refusal. -/
def Refusal.text : Refusal → String
  | .duplicate id => "Call " ++ Decimal.text id ++ " is already registered"
  | .closed => "Registry is closed"

/-- The number of outstanding calls. -/
def size (r : Registry) : Nat := r.entries.length

/-- The numbers of the outstanding calls. -/
def ids (r : Registry) : List Nat := r.entries.map Prod.fst

/-- The number of the slot that an outstanding call's entry leads to. -/
def slotOf? (r : Registry) (id : Nat) : Option Nat := r.entries.lookup id

/-- Changes one slot. -/
def updateSlot (r : Registry) (slot : Nat) (f : Slot → Slot) : Registry :=
  { r with slots := r.slots.modify slot f }

/-- Removes the entry of a call. -/
def remove (r : Registry) (id : Nat) : Registry :=
  { r with entries := r.entries.filter fun e => e.1 ≠ id }

/-- Registers a call and makes a slot for it. -/
def register (r : Registry) (id : Nat) : Except Refusal (Nat × Registry) :=
  if r.closed then .error .closed
  else if (r.slotOf? id).isSome then .error (.duplicate id)
  else
    let slot := r.slots.length
    .ok (slot, { r with entries := r.entries ++ [(id, slot)], slots := r.slots ++ [.waiting] })

/-- Delivers a reply to a call and removes its entry; tells whether there was one. -/
def resolve (r : Registry) (id : Nat) (reply : Reply) : Bool × Registry :=
  match r.slotOf? id with
  | some slot => (true, (r.remove id).updateSlot slot (Slot.deliver (.reply reply)))
  | none => (false, r)

/-- Removes a call's entry without a settlement; tells whether there was one. -/
def cancel (r : Registry) (id : Nat) : Bool × Registry :=
  match r.slotOf? id with
  | some slot => (true, (r.remove id).updateSlot slot Slot.close)
  | none => (false, r)

/-- Settles every outstanding call without a reply, and takes no more registrations. Tells how many
calls were outstanding. -/
def drain (r : Registry) : Nat × Registry :=
  let released := r.entries.foldl (fun r e => r.updateSlot e.2 (Slot.deliver .shutDown)) r
  (r.size, { released with closed := true, entries := [] })

/-- What a caller sees in a slot. -/
inductive Look where
  | settled (s : Settlement)
  | waiting
  | closed
  | missing

/-- What is in a slot. -/
def look (r : Registry) (slot : Nat) : Look :=
  match r.slots[slot]? with
  | some .waiting => .waiting
  | some (.settled s) => .settled s
  | some .closed => .closed
  | some .dropped | none => .missing

/-- Looks into a slot and takes what has come. -/
def poll (r : Registry) (slot : Nat) : Look × Registry := (r.look slot, r.updateSlot slot Slot.take)

/-- The caller gives a slot up. The call stays outstanding. -/
def release (r : Registry) (slot : Nat) : Registry := r.updateSlot slot fun _ => .dropped

end Registry

end PipeCall
