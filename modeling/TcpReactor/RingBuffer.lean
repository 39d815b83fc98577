import TcpReactor.Bytes

namespace TcpReactor

/-! # Ring buffers

A ring buffer keeps at most `capacity` bytes in an arena that is allocated once. Two cursors say
where the readable bytes begin and where the next byte goes; where they coincide, the flag `full`
tells a full buffer from an empty one. Copies that reach past the end of the arena go on at its
start, so the readable bytes are two contiguous `slices`, and `contents` is their concatenation.

What each operation does to `contents` is stated in `TcpReactor.RingBuffer.Contents`; here are the
definitions and the arithmetic of `length` and `freeSpace`.
-/

/-- A bounded circular byte store. Both cursors lie inside the arena, and the buffer is marked full
only if the cursors coincide in an arena that has room for a byte. -/
structure RingBuffer where
  arena : Array UInt8
  readPos : Nat
  writePos : Nat
  full : Bool
  readPos_inside : readPos = 0 ∨ readPos < arena.size
  writePos_inside : writePos = 0 ∨ writePos < arena.size
  full_coincide : full = true → readPos = writePos ∧ 0 < arena.size

namespace RingBuffer

/-- An empty buffer for `capacity` bytes. -/
def new (capacity : Nat) : RingBuffer where
  arena := .replicate capacity 0
  readPos := 0
  writePos := 0
  full := false
  readPos_inside := .inl rfl
  writePos_inside := .inl rfl
  full_coincide := by simp

def capacity (r : RingBuffer) : Nat := r.arena.size

/-- How many bytes can be read. -/
def length (r : RingBuffer) : Nat :=
  if r.full then r.capacity
  else if r.readPos ≤ r.writePos then r.writePos - r.readPos
  else r.capacity - (r.readPos - r.writePos)

/-- How many bytes can be written before the buffer is full. -/
def freeSpace (r : RingBuffer) : Nat := r.capacity - r.length

def isEmpty (r : RingBuffer) : Bool := !r.full && r.readPos == r.writePos

def isFull (r : RingBuffer) : Bool := r.full

theorem length_le_capacity (r : RingBuffer) : r.length ≤ r.capacity := by
  have := r.writePos_inside
  grind [length, capacity]

theorem length_add_freeSpace (r : RingBuffer) : r.length + r.freeSpace = r.capacity := by
  have := r.length_le_capacity
  unfold freeSpace
  omega

theorem isEmpty_iff (r : RingBuffer) : r.isEmpty = true ↔ r.length = 0 := by
  have := r.readPos_inside
  have := r.writePos_inside
  have := r.full_coincide
  grind [isEmpty, length, capacity]

/-! ## The readable bytes -/

/-- Drop all contents and put both cursors back to the start of the arena. -/
def reset (r : RingBuffer) : RingBuffer where
  arena := r.arena
  readPos := 0
  writePos := 0
  full := false
  readPos_inside := .inl rfl
  writePos_inside := .inl rfl
  full_coincide := by simp

/-- Where the first contiguous part of the readable bytes ends. -/
def headEnd (r : RingBuffer) : Nat :=
  if r.isEmpty then r.readPos
  else if r.readPos < r.writePos then r.writePos
  else r.capacity

/-- The readable bytes as two contiguous slices: up to the end of the arena, then the wrapped
part. -/
def slices (r : RingBuffer) : Bytes × Bytes :=
  if r.isEmpty then ([], [])
  else if r.readPos < r.writePos then ((r.arena.extract r.readPos r.writePos).toList, [])
  else ((r.arena.extract r.readPos r.capacity).toList, (r.arena.extract 0 r.writePos).toList)

/-- All readable bytes, oldest first. -/
def contents (r : RingBuffer) : Bytes := r.slices.1 ++ r.slices.2

/-- The first `n` readable bytes, or all if there are fewer. Nothing moves. -/
def peek (r : RingBuffer) (n : Nat) : Bytes :=
  let n := min n r.length
  -- what the first slice gives; the wrapped part gives the rest
  let first := min n (r.headEnd - r.readPos)
  (r.arena.extract r.readPos (r.readPos + first)).toList ++ (r.arena.extract 0 (n - first)).toList

/-- Move the read cursor over `n` bytes, around the end of the arena if need be. -/
def advance (r : RingBuffer) (n : Nat) (h : 0 < r.capacity) : RingBuffer where
  arena := r.arena
  readPos := (r.readPos + n) % r.capacity
  writePos := r.writePos
  full := false
  readPos_inside := .inr (Nat.mod_lt _ h)
  writePos_inside := r.writePos_inside
  full_coincide := by simp

/-- Take the first `n` readable bytes, or all if there are fewer, out of the buffer. -/
def read (r : RingBuffer) (n : Nat) : Bytes × RingBuffer :=
  let m := min n r.length
  if h : 0 < m then
    (r.peek n, r.advance m (by have := r.length_le_capacity; omega))
  else
    ([], r)

/-- Drop the first `n` readable bytes. Dropping all of them puts both cursors back to the start. -/
def consume (r : RingBuffer) (n : Nat) : RingBuffer :=
  if h : n = 0 ∨ r.length = 0 then r
  else if r.length ≤ n then r.reset
  else r.advance n (by have := r.length_le_capacity; omega)

/-- Peek into a caller's destination: how many bytes were copied, and the destination then. -/
def peekInto (r : RingBuffer) (dst : Bytes) : Nat × Bytes :=
  let data := r.peek dst.length
  (data.length, overlay data dst)

/-- Read into a caller's destination: how many bytes were copied, the destination, the buffer. -/
def readInto (r : RingBuffer) (dst : Bytes) : Nat × Bytes × RingBuffer :=
  let (data, r) := r.read dst.length
  (data.length, overlay data dst, r)

/-! ## Writing -/

/-- Put `src` into the arena from index `i` on. -/
def overwrite (arena : Array UInt8) (i : Nat) : Bytes → Array UInt8
  | [] => arena
  | b :: src => overwrite (arena.setIfInBounds i b) (i + 1) src

@[simp] theorem size_overwrite (arena : Array UInt8) (i : Nat) (src : Bytes) :
    (overwrite arena i src).size = arena.size := by
  induction src generalizing arena i with
  | nil => rfl
  | cons b src ih => simp [overwrite, ih]

/-- Append `src`, which is not empty and fits. The part that reaches past the end of the arena
goes to its start. -/
def append (r : RingBuffer) (src : Bytes) (hpos : 0 < src.length)
    (hfit : src.length ≤ r.freeSpace) : RingBuffer :=
  -- as much as there is room for before the end of the arena
  let first := min src.length (r.capacity - r.writePos)
  let writePos := (r.writePos + src.length) % r.capacity
  have hcap : 0 < r.arena.size := by
    have : r.freeSpace ≤ r.arena.size := Nat.sub_le _ _
    omega
  -- the rest goes to the start, which the read cursor has left behind
  { arena := overwrite (overwrite r.arena r.writePos (src.take first)) 0 (src.drop first)
    readPos := r.readPos
    writePos := writePos
    full := writePos == r.readPos
    readPos_inside := by simpa using r.readPos_inside
    writePos_inside := .inr (by simpa [writePos, capacity] using Nat.mod_lt _ hcap)
    full_coincide := by
      intro hfull
      exact ⟨(by simpa using hfull : writePos = r.readPos).symm, by simpa using hcap⟩ }

/-- Append as much of `src` as fits, and say how much that is. -/
def write (r : RingBuffer) (src : Bytes) : Nat × RingBuffer :=
  let n := min src.length r.freeSpace
  have hlength : n ≤ src.length := Nat.min_le_left ..
  have hroom : n ≤ r.freeSpace := Nat.min_le_right ..
  have htake : (src.take n).length = n := List.length_take_of_le hlength
  if h : 0 < n then
    (n, r.append (src.take n) (by omega) (by omega))
  else
    (0, r)

/-! ## Lengths after each operation -/

@[simp] theorem capacity_new (n : Nat) : (new n).capacity = n := by simp [new, capacity]

@[simp] theorem length_new (n : Nat) : (new n).length = 0 := by simp [new, length]

@[simp] theorem capacity_reset (r : RingBuffer) : r.reset.capacity = r.capacity := rfl

@[simp] theorem length_reset (r : RingBuffer) : r.reset.length = 0 := by simp [reset, length]

@[simp] theorem capacity_advance (r : RingBuffer) (n : Nat) (h : 0 < r.capacity) :
    (r.advance n h).capacity = r.capacity := rfl

@[simp] theorem capacity_append (r : RingBuffer) (src : Bytes) (hpos : 0 < src.length)
    (hfit : src.length ≤ r.freeSpace) : (r.append src hpos hfit).capacity = r.capacity := by
  simp [append, capacity]

theorem write_fst (r : RingBuffer) (src : Bytes) :
    (r.write src).1 = min src.length r.freeSpace := by
  grind [write]

@[simp] theorem capacity_write (r : RingBuffer) (src : Bytes) :
    (r.write src).2.capacity = r.capacity := by
  grind [write, capacity_append]

/-- A cursor that moves by at most the capacity passes the end of the arena at most once. -/
theorem add_mod_capacity {a b c : Nat} (h : a + b < 2 * c) :
    (a + b) % c = if a + b < c then a + b else a + b - c := by
  by_cases hlt : a + b < c
  · rw [if_pos hlt, Nat.mod_eq_of_lt hlt]
  · rw [if_neg hlt, Nat.mod_eq, if_pos (by omega), Nat.mod_eq_of_lt (by omega)]

theorem length_advance (r : RingBuffer) (n : Nat) (h : 0 < r.capacity) (hpos : 0 < n)
    (hn : n ≤ r.length) : (r.advance n h).length = r.length - n := by
  have := r.readPos_inside
  have := r.writePos_inside
  have := r.full_coincide
  have := r.length_le_capacity
  have hmod := add_mod_capacity (a := r.readPos) (b := n) (c := r.capacity)
  grind [length, advance, capacity]

theorem length_append (r : RingBuffer) (src : Bytes) (hpos : 0 < src.length)
    (hfit : src.length ≤ r.freeSpace) :
    (r.append src hpos hfit).length = r.length + src.length := by
  have := r.readPos_inside
  have := r.writePos_inside
  have := r.full_coincide
  have := r.length_add_freeSpace
  have hmod := add_mod_capacity (a := r.writePos) (b := src.length) (c := r.capacity)
  rw [length, capacity_append]
  grind [append, length, capacity]

theorem length_write (r : RingBuffer) (src : Bytes) :
    (r.write src).2.length = r.length + min src.length r.freeSpace := by
  grind [write, length_append]

end RingBuffer
end TcpReactor
