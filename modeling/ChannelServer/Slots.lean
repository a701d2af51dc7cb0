import ChannelServer.Fault

/-!
# Slots

A container for entities that have an id, with a fixed number of slots. Entities keep the order in
which they came; putting one in fails when all slots are in use, and taking out one that is not
there changes nothing. Where two entities have the same id, the first of them is meant.

The module also finds the id for a new entity: the smallest positive number that is not in use.
-/

namespace ChannelServer

/-- Entities that are referred to by an id. -/
class Identified (α : Type) (κ : outParam Type) where
  id : α → κ

/-- Entities in the order in which they came, and the number of slots for them. -/
structure Slots (α : Type) where
  capacity : Nat
  entries : List α := []
deriving Repr

namespace Slots

variable {α κ : Type} [Identified α κ] [DecidableEq κ]

/-- The entity has this id. -/
def named (id : κ) (entry : α) : Bool := Identified.id entry = id

/-- The number of slots in use. -/
def size (slots : Slots α) : Nat := slots.entries.length

/-- No slot is left. -/
def isFull (slots : Slots α) : Bool := slots.capacity ≤ slots.entries.length

/-- Puts an entity at the end. -/
def insert (slots : Slots α) (entry : α) : Except Fault (Slots α) :=
  if slots.isFull then .error (.slotsFull slots.capacity)
  else .ok { slots with entries := slots.entries ++ [entry] }

/-- The entity with an id. -/
def get? (slots : Slots α) (id : κ) : Option α :=
  slots.entries.find? (named id)

/-- There is an entity with this id. -/
def contains (slots : Slots α) (id : κ) : Bool :=
  (slots.get? id).isSome

/-- The first entity of which something holds. -/
def find? (slots : Slots α) (p : α → Bool) : Option α :=
  slots.entries.find? p

/-- Takes out the entity with an id. -/
def erase (slots : Slots α) (id : κ) : Slots α :=
  { slots with entries := slots.entries.eraseP (named id) }

/-- Changes every entity. -/
def map (slots : Slots α) (f : α → α) : Slots α :=
  { slots with entries := slots.entries.map f }

/-- Changes the first member of a list of which something holds. -/
def modifyFirst (p : α → Bool) (f : α → α) : List α → List α
  | [] => []
  | entry :: rest => if p entry then f entry :: rest else entry :: modifyFirst p f rest

/-- Changes the entity with an id. -/
def modify (slots : Slots α) (id : κ) (f : α → α) : Slots α :=
  { slots with entries := modifyFirst (named id) f slots.entries }

end Slots

/-! ## Free ids -/

/-- The first number from `candidate` on that is missing in an ascending list. -/
def firstGap (candidate : Nat) : List Nat → Nat
  | [] => candidate
  | id :: rest =>
    if id = candidate then firstGap (candidate + 1) rest
    else if candidate < id then candidate
    else firstGap candidate rest

/-- The smallest positive number that is not in use, unless it is beyond the maximum. -/
def smallestFree? (used : List Nat) (max : Nat) : Option Nat :=
  let candidate := firstGap 1 (used.mergeSort (· ≤ ·))
  if candidate ≤ max then some candidate else none

end ChannelServer
