namespace TcpReactor

/-! # Slot tables

A slot table stores values under small numbers. The number of a value is the index of its slot, and
a freed slot is used again, the one freed last first. The free slots are threaded through the table
itself: `free` is the first of them, each holds the number of the next, and `noSlot` ends the list.
-/

/-- The number that stands for "no slot" at the end of the free list. -/
def noSlot : Nat := UInt64.size - 1

/-- One slot: a value, or a link to the next free slot. -/
inductive Slot (α : Type) where
  | vacant (next : Nat)
  | occupied (value : α)
  deriving Repr

/-- A table of slots, the number of values in it, and the first free slot. -/
structure Slots (α : Type) where
  cells : Array (Slot α) := #[]
  size : Nat := 0
  free : Nat := noSlot

namespace Slots

variable {α : Type}

def isEmpty (s : Slots α) : Bool := s.size == 0

/-- The number that the next value will get. -/
def nextKey (s : Slots α) : Nat := if s.free = noSlot then s.cells.size else s.free

/-- Store a value: its number, and the table then. -/
def insert (s : Slots α) (value : α) : Nat × Slots α :=
  if s.free = noSlot then
    -- no slot is free: the table grows by one
    (s.cells.size, { s with cells := s.cells.push (.occupied value), size := s.size + 1 })
  else
    -- the slot that is taken held the number of the next free one
    let next := match s.cells[s.free]? with
      | some (.vacant next) => next
      | _ => s.free
    (s.free, { cells := s.cells.setIfInBounds s.free (.occupied value)
               size := s.size + 1
               free := next })

/-- The value of a number. -/
def get? (s : Slots α) (key : Nat) : Option α :=
  match s.cells[key]? with
  | some (.occupied value) => some value
  | _ => none

/-- Put another value under a number that is in use. Other numbers are left alone. -/
def set (s : Slots α) (key : Nat) (value : α) : Slots α :=
  match s.cells[key]? with
  | some (.occupied _) => { s with cells := s.cells.setIfInBounds key (.occupied value) }
  | _ => s

/-- Take a value out and free its slot. -/
def remove (s : Slots α) (key : Nat) : Option α × Slots α :=
  match s.cells[key]? with
  | some (.occupied value) =>
      (some value, { cells := s.cells.setIfInBounds key (.vacant s.free)
                     size := s.size - 1
                     free := key })
  | _ => (none, s)

/-- All numbers in use with their values, in increasing order. -/
def toList (s : Slots α) : List (Nat × α) :=
  s.cells.toList.zipIdx.filterMap fun
    | (.occupied value, key) => some (key, value)
    | (.vacant _, _) => none

/-- Change every value. -/
def map (s : Slots α) (f : α → α) : Slots α :=
  { s with cells := s.cells.map fun
      | .occupied value => .occupied (f value)
      | .vacant next => .vacant next }

end Slots
end TcpReactor
