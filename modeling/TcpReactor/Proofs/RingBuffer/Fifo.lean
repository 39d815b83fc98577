import TcpReactor.Proofs.RingBuffer.Checked
import TcpReactor.Proofs.Simulation

namespace TcpReactor.RingBuffer

/-! # A ring buffer is a bounded queue

Whoever uses a ring buffer cannot tell it from a list of at most `capacity` bytes: every sequence of
operations gets the same answers from both, and the readable bytes are that list
(`answers_eq_queue`). The two are related by `Represents`, which says all that can be observed
between operations; each operation keeps it (`represents_step`). The checked operations go along
without a failure (`step?_bare`).
-/

/-- The operations of a ring buffer, with the arguments that they are called with. -/
inductive Op where
  | write (src : Bytes)
  | read (dst : Bytes)
  | peek (dst : Bytes)
  | consume (n : Nat)
  | reset
deriving Repr, DecidableEq

/-- What an operation answers: nothing, a count, or a count with the destination afterwards. -/
inductive Answer where
  | done
  | count (n : Nat)
  | filled (n : Nat) (dst : Bytes)
deriving Repr, DecidableEq

def step (r : RingBuffer) : Op → Answer × RingBuffer
  | .write src => (.count (r.write src).1, (r.write src).2)
  | .read dst => (.filled (r.readInto dst).1 (r.readInto dst).2.1, (r.readInto dst).2.2)
  | .peek dst => (.filled (r.peekInto dst).1 (r.peekInto dst).2, r)
  | .consume n => (.done, r.consume n)
  | .reset => (.done, r.reset)

/-- The same with every index checked. -/
def Bare.step? (r : Bare) : Op → Option (Answer × Bare)
  | .write src => do
      let (n, r) ← r.write? src
      return (.count n, r)
  | .read dst => do
      let (n, dst, r) ← r.readInto? dst
      return (.filled n dst, r)
  | .peek dst => do
      let (n, dst) ← r.peekInto? dst
      return (.filled n dst, r)
  | .consume n => do
      return (.done, ← r.consume? n)
  | .reset => some (.done, r.reset)

/-- The specification: a list of at most `capacity` bytes, the oldest first. -/
def Queue.step (capacity : Nat) (q : Bytes) : Op → Answer × Bytes
  | .write src =>
      let n := min src.length (capacity - q.length)
      (.count n, q ++ src.take n)
  | .read dst =>
      let n := min dst.length q.length
      (.filled n (q.take n ++ dst.drop n), q.drop n)
  | .peek dst =>
      let n := min dst.length q.length
      (.filled n (q.take n ++ dst.drop n), q)
  | .consume n => (.done, q.drop (min n q.length))
  | .reset => (.done, [])

/-- All that can be observed of a ring buffer between two operations, if it stands for the list `q`
of at most `capacity` bytes. -/
structure Represents (r : RingBuffer) (capacity : Nat) (q : Bytes) : Prop where
  slices_eq : r.slices.1 ++ r.slices.2 = q
  capacity_eq : r.capacity = capacity
  length_eq : r.length = q.length
  room : r.length + r.freeSpace = capacity
  isEmpty_iff : r.isEmpty = true ↔ q.length = 0
  isFull_iff : r.isFull = true ↔ 0 < capacity ∧ q.length = capacity
  first_slice : q ≠ [] → r.slices.1 ≠ []

/-- A buffer is marked full exactly if it has room for a byte and holds as many as it can. -/
theorem isFull_iff (r : RingBuffer) :
    r.isFull = true ↔ 0 < r.capacity ∧ r.length = r.capacity := by
  have hread := r.readPos_inside
  have hwrite := r.writePos_inside
  have hcapacity : r.capacity = r.arena.size := rfl
  constructor
  · intro hfull
    exact ⟨(r.full_coincide hfull).2, if_pos hfull⟩
  · rintro ⟨hpos, hlength⟩
    by_cases hfull : r.full = true
    · exact hfull
    -- cursors inside the arena are less than its size apart
    have hshort : r.length < r.capacity := by
      unfold length
      rw [if_neg hfull]
      by_cases hle : r.readPos ≤ r.writePos
      · rw [if_pos hle]
        omega
      · rw [if_neg hle]
        omega
    omega

/-- A ring buffer stands for its contents. -/
theorem represents_contents (r : RingBuffer) : r.Represents r.capacity r.contents where
  slices_eq := rfl
  capacity_eq := rfl
  length_eq := r.length_contents.symm
  room := r.length_add_freeSpace
  isEmpty_iff := by rw [r.length_contents, r.isEmpty_iff]
  isFull_iff := by rw [r.length_contents, r.isFull_iff]
  first_slice := slices_fst_ne_nil

/-- The bounds of the contents suffice for the rest. -/
theorem represents_of_eq {r : RingBuffer} {capacity : Nat} {q : Bytes}
    (hcapacity : r.capacity = capacity) (hcontents : r.contents = q) : r.Represents capacity q := by
  subst hcapacity hcontents
  exact r.represents_contents

theorem represents_new (capacity : Nat) : (new capacity).Represents capacity [] :=
  represents_of_eq (capacity_new capacity) (contents_new capacity)

@[simp] theorem capacity_read (r : RingBuffer) (n : Nat) : (r.read n).2.capacity = r.capacity := by
  grind [read, capacity_advance]

@[simp] theorem capacity_consume (r : RingBuffer) (n : Nat) :
    (r.consume n).capacity = r.capacity := by
  grind [consume, capacity_advance, capacity_reset]

/-- Each operation answers as the queue does, and the buffer then stands for the next queue. -/
theorem represents_step {r : RingBuffer} {capacity : Nat} {q : Bytes} (op : Op)
    (h : r.Represents capacity q) :
    (step r op).1 = (Queue.step capacity q op).1 ∧
      (step r op).2.Represents capacity (Queue.step capacity q op).2 := by
  have hcontents : r.contents = q := h.slices_eq
  have hcapacity := h.capacity_eq
  have hlength := h.length_eq
  have hfree : r.freeSpace = capacity - q.length := by
    have := h.room
    omega
  -- the cursors never come up: each operation is known by what it does to the contents
  cases op with
  | write src =>
      constructor
      · show Answer.count _ = Answer.count _
        rw [r.write_fst, hfree]
      · refine represents_of_eq ((r.capacity_write src).trans hcapacity) ?_
        show (r.write src).2.contents = _
        rw [r.contents_write, hcontents, hfree]
        show q ++ _ = q ++ _
        rw [List.take_eq_take_iff.mpr]
        omega
  | read dst =>
      constructor
      · show Answer.filled _ _ = Answer.filled _ _
        rw [r.readInto_eq, r.peekInto_eq, hcontents, hlength]
      · show (r.readInto dst).2.2.Represents _ _
        rw [r.readInto_eq]
        refine represents_of_eq ((r.capacity_read dst.length).trans hcapacity) ?_
        rw [r.contents_read, hcontents]
        exact (List.drop_eq_drop_min ..)
  | peek dst =>
      constructor
      · show Answer.filled _ _ = Answer.filled _ _
        rw [r.peekInto_eq, hcontents, hlength]
      · exact h
  | consume n =>
      refine ⟨rfl, represents_of_eq ((r.capacity_consume n).trans hcapacity) ?_⟩
      show (r.consume n).contents = _
      rw [r.contents_consume, hcontents]
      exact (List.drop_eq_drop_min ..)
  | reset => exact ⟨rfl, represents_of_eq hcapacity r.contents_reset⟩

/-- No operation fails on the cells and cursors of a ring buffer. -/
theorem step?_bare (r : RingBuffer) (op : Op) :
    r.bare.step? op = some ((step r op).1, (step r op).2.bare) := by
  unfold Bare.step? step
  cases op with
  | write src =>
      simp only [write?_bare]
      rfl
  | read dst =>
      simp only [readInto?_bare]
      rfl
  | peek dst =>
      simp only [peekInto?_bare]
      rfl
  | consume n =>
      simp only [consume?_bare]
      rfl
  | reset => rfl

/-- A new ring buffer is a bounded queue, whatever its capacity: every sequence of operations gets
the answers of the queue, the buffer stands for the queue afterwards, and no index or divisor that
occurs on the way, or in looking at the buffer afterwards, is out of range. -/
theorem answers_eq_queue (capacity : Nat) (ops : List Op) :
    let (answered, r) := answers step (new capacity) ops
    let (expected, q) := answers (Queue.step capacity) [] ops
    answered = expected ∧ r.Represents capacity q ∧
      answers? Bare.step? (Bare.new capacity) ops = some (answered, r.bare) ∧
      r.bare.length? = some r.length ∧ r.bare.freeSpace? = some r.freeSpace ∧
      r.bare.slices? = some r.slices := by
  have hsame : (answers step (new capacity) ops).1 = (answers (Queue.step capacity) [] ops).1 ∧
      (answers step (new capacity) ops).2.Represents capacity
        (answers (Queue.step capacity) [] ops).2 :=
    answers_of_simulates (I := fun _ => True) (R := fun r q => Represents r capacity q)
      (fun _ _ _ => trivial) (fun _ _ op _ => represents_step op) trivial
      (represents_new capacity)
  have hchecked := answers?_of_follows step?_bare (new capacity) ops
  rw [bare_new] at hchecked
  exact ⟨hsame.1, hsame.2, hchecked, length?_bare _, freeSpace?_bare _, slices?_bare _⟩

end TcpReactor.RingBuffer
