import TcpReactor.RingBuffer

namespace TcpReactor

/-! # Stream buffers

A stream buffer is a ring buffer with a lifecycle: it is closed or open, and only an open one takes
or gives bytes. Its writes are strict, so a write appends everything or nothing. A connection has
two of them, one for each direction.

Every operation that can fail gives either an error or the new buffer, so a failing operation
changes nothing. What a successful one does to `contents` is stated in
`TcpReactor.StreamBuffer.Contents`.
-/

/-- Why a stream buffer refuses an operation. -/
inductive BufferError
  | notOpen
  | invalidArgs
  /-- The write does not fit in the free space. -/
  | overflow
  /-- There is nothing to read, or less than was asked for. -/
  | underflow
  | internal
  deriving DecidableEq, Repr

def BufferError.message : BufferError → String
  | .notOpen => "buffer is not open"
  | .invalidArgs => "invalid arguments"
  | .overflow => "buffer overflow"
  | .underflow => "buffer underflow"
  | .internal => "internal buffer error"

/-- A ring buffer that is open or closed. -/
structure StreamBuffer where
  ring : RingBuffer
  isOpen : Bool

namespace StreamBuffer

/-- A closed buffer for `capacity` bytes. -/
def new (capacity : Nat) : StreamBuffer := ⟨.new capacity, false⟩

def capacity (b : StreamBuffer) : Nat := b.ring.capacity

/-- How many bytes can be read; none of a closed buffer. -/
def length (b : StreamBuffer) : Nat := if b.isOpen then b.ring.length else 0

/-- How many bytes can be written; none to a closed buffer. -/
def freeSpace (b : StreamBuffer) : Nat := if b.isOpen then b.ring.freeSpace else 0

def isEmpty (b : StreamBuffer) : Bool := !b.isOpen || b.ring.isEmpty

def isFull (b : StreamBuffer) : Bool := b.isOpen && b.ring.isFull

/-- The bytes of an open buffer, oldest first; a closed buffer has none. -/
def contents (b : StreamBuffer) : Bytes := if b.isOpen then b.ring.contents else []

/-! ## Lifecycle -/

/-- Open the buffer, empty. An open buffer and one without capacity cannot be opened. -/
def openUp (b : StreamBuffer) : Except BufferError StreamBuffer :=
  if b.isOpen || b.ring.capacity == 0 then .error .internal
  else .ok ⟨b.ring.reset, true⟩

/-- Drop the contents and stay open. -/
def reset (b : StreamBuffer) : Except BufferError StreamBuffer :=
  if b.isOpen then .ok { b with ring := b.ring.reset } else .error .notOpen

/-- Drop the contents and close. Closing twice is closing once. -/
def close (b : StreamBuffer) : StreamBuffer := ⟨b.ring.reset, false⟩

/-! ## Transfer -/

/-- Can `n` bytes be asked for? Only of an open buffer, only at least one, and only if something is
there; the first of these that fails is the error. -/
def checkReadable (b : StreamBuffer) (n : Nat) : Except BufferError Unit :=
  if !b.isOpen then .error .notOpen
  else if n = 0 then .error .invalidArgs
  else if b.ring.isEmpty then .error .underflow
  else .ok ()

/-- Take out up to `n` bytes. A short read is no error, an empty buffer is. -/
def read (b : StreamBuffer) (n : Nat) : Except BufferError (Bytes × StreamBuffer) := do
  b.checkReadable n
  let (data, ring) := b.ring.read n
  return (data, { b with ring })

/-- The bytes that `read` would take out. -/
def peek (b : StreamBuffer) (n : Nat) : Except BufferError Bytes := do
  b.checkReadable n
  return b.ring.peek n

/-- Drop exactly `n` bytes. -/
def consume (b : StreamBuffer) (n : Nat) : Except BufferError StreamBuffer :=
  if !b.isOpen then .error .notOpen
  else if b.ring.length < n then .error .underflow
  else .ok { b with ring := b.ring.consume n }

/-- Append all of `src`, which must not be empty, or nothing. -/
def write (b : StreamBuffer) (src : Bytes) : Except BufferError StreamBuffer :=
  if !b.isOpen then .error .notOpen
  else if src.isEmpty then .error .invalidArgs
  else if b.ring.freeSpace < src.length then .error .overflow
  else
    let (n, ring) := b.ring.write src
    if n ≠ src.length then .error .internal else .ok { b with ring }

/-- The readable bytes as two contiguous slices. -/
def slices (b : StreamBuffer) : Except BufferError (Bytes × Bytes) :=
  if b.isOpen then .ok b.ring.slices else .error .notOpen

/-! ## Lengths after a transfer -/

/-- A write that succeeds was of something, and takes its room. -/
theorem freeSpace_write {b b' : StreamBuffer} {src : Bytes} (h : b.write src = .ok b') :
    0 < src.length ∧ src.length ≤ b.freeSpace ∧ b'.freeSpace = b.freeSpace - src.length := by
  have := b.ring.length_write src
  have := b.ring.capacity_write src
  have := b.ring.length_add_freeSpace
  have := (b.ring.write src).2.length_add_freeSpace
  grind [write, freeSpace]

/-- What `consume` drops was there, and is gone. -/
theorem length_consume {b b' : StreamBuffer} {n : Nat} (h : b.consume n = .ok b') :
    n ≤ b.length ∧ b'.length = b.length - n := by
  grind [consume, length, RingBuffer.consume, RingBuffer.length_advance, RingBuffer.length_reset]

/-! ## The capacity never changes -/

theorem length_le_capacity (b : StreamBuffer) : b.length ≤ b.capacity := by
  have := b.ring.length_le_capacity
  grind [length, capacity]

/-- What is not taken of an open buffer is free. -/
theorem length_add_freeSpace {b : StreamBuffer} (h : b.isOpen = true) :
    b.length + b.freeSpace = b.capacity := by
  have := b.ring.length_add_freeSpace
  simpa [length, freeSpace, capacity, h] using this

@[simp] theorem capacity_close (b : StreamBuffer) : b.close.capacity = b.capacity := rfl

theorem capacity_openUp {b b' : StreamBuffer} (h : b.openUp = .ok b') :
    b'.capacity = b.capacity := by
  grind [openUp, capacity, RingBuffer.capacity_reset]

/-- A buffer that opens has room for something. -/
theorem capacity_pos_of_openUp {b b' : StreamBuffer} (h : b.openUp = .ok b') : 0 < b.capacity := by
  grind [openUp, capacity]

theorem capacity_write {b b' : StreamBuffer} {src : Bytes} (h : b.write src = .ok b') :
    b'.capacity = b.capacity := by
  grind [write, capacity, RingBuffer.capacity_write]

theorem capacity_consume {b b' : StreamBuffer} {n : Nat} (h : b.consume n = .ok b') :
    b'.capacity = b.capacity := by
  grind [consume, capacity, RingBuffer.consume, RingBuffer.capacity_advance,
    RingBuffer.capacity_reset]

theorem capacity_read {b b' : StreamBuffer} {n : Nat} {data : Bytes}
    (h : b.read n = .ok (data, b')) : b'.capacity = b.capacity := by
  rw [read] at h
  cases hcheck : b.checkReadable n with
  | error e => simp [hcheck, bind, Except.bind] at h
  | ok _ =>
      simp only [hcheck, bind, Except.bind, pure, Except.pure, Except.ok.injEq,
        Prod.mk.injEq] at h
      rw [← h.2]
      grind [capacity, RingBuffer.read, RingBuffer.capacity_advance]

end StreamBuffer
end TcpReactor
