import TcpReactor.Proofs.RingBuffer.Fifo
import TcpReactor.StreamBuffer.Contents

namespace TcpReactor.StreamBuffer

/-! # A stream buffer is a bounded queue with a lifecycle

Whoever uses a stream buffer cannot tell it from a value that is `closed`, or `opened` with a list
of at most `capacity` bytes: every sequence of operations gets the same answers from both
(`answers_eq_lifecycle`), and `Represents` says what can be observed in between.

* `writeInPlace` is `write` as it happens on the one buffer, where a count that falls short would be
  noticed after the fact. It never is (`writeInPlace_ne_internal`): the ring takes all that fits.
* `step_of_refused`: so an operation that is refused leaves the buffer as it was, to the last cell
  and cursor.
-/

/-- `write` on the one buffer: how much the ring took is compared with what it was given when it has
taken it. -/
def writeInPlace (b : StreamBuffer) (src : Bytes) : Except BufferError Nat × StreamBuffer :=
  if !b.isOpen then (.error .notOpen, b)
  else if src.isEmpty then (.error .invalidArgs, b)
  else if b.ring.freeSpace < src.length then (.error .overflow, b)
  else
    let (n, ring) := b.ring.write src
    (if n ≠ src.length then .error .internal else .ok n, { b with ring })

/-- `write` gives the buffer that it leaves behind if it succeeds. -/
theorem write_eq (b : StreamBuffer) (src : Bytes) :
    b.write src = match b.writeInPlace src with
      | (.ok _, b') => .ok b'
      | (.error e, _) => .error e := by
  unfold write writeInPlace
  -- the two make the same checks in the same order
  by_cases hopen : b.isOpen = true
  · by_cases hsrc : src.isEmpty = true
    · simp only [hopen, hsrc, Bool.not_true, Bool.false_eq_true, if_false, if_true]
    by_cases hroom : b.ring.freeSpace < src.length
    · simp only [hopen, hsrc, hroom, Bool.not_true, Bool.false_eq_true, if_false, if_true]
    simp only [hopen, hsrc, hroom, Bool.not_true, Bool.false_eq_true, if_false]
    by_cases hall : (b.ring.write src).1 = src.length
    · simp only [hall, ne_eq, not_true, if_false]
    · simp only [hall, ne_eq, not_false_eq_true, if_true]
  · simp only [hopen, Bool.not_false, if_true]

/-! ## Operations -/

/-- The operations of a stream buffer, with the arguments that they are called with. -/
inductive Op where
  | openUp
  | reset
  | close
  | read (dst : Bytes)
  | peek (dst : Bytes)
  | consume (n : Nat)
  | write (src : Bytes)
  | slices
deriving Repr, DecidableEq

/-- What an operation answers: nothing, a count, a count with the destination afterwards, or the
readable bytes; or why it is refused. -/
inductive Answer where
  | done
  | count (n : Nat)
  | filled (n : Nat) (dst : Bytes)
  | shown (bytes : Bytes)
  | refused (e : BufferError)
deriving Repr, DecidableEq

/-- An operation on the one buffer. All but `write` check first and then do their work, which cannot
fail. -/
def step (b : StreamBuffer) : Op → Answer × StreamBuffer
  | .openUp => changed b.openUp
  | .reset => changed b.reset
  | .close => (.done, b.close)
  | .read dst =>
      match b.read dst.length with
      | .ok (data, b') => (.filled data.length (overlay data dst), b')
      | .error e => (.refused e, b)
  | .peek dst =>
      match b.peek dst.length with
      | .ok data => (.filled data.length (overlay data dst), b)
      | .error e => (.refused e, b)
  | .consume n => changed (b.consume n)
  | .write src =>
      match b.writeInPlace src with
      | (.ok n, b') => (.count n, b')
      | (.error e, b') => (.refused e, b')
  | .slices =>
      match b.slices with
      | .ok (head, tail) => (.shown (head ++ tail), b)
      | .error e => (.refused e, b)
where
  /-- The answer of an operation that only changes the buffer. -/
  changed : Except BufferError StreamBuffer → Answer × StreamBuffer
    | .ok b' => (.done, b')
    | .error e => (.refused e, b)

/-- What a stream buffer is for those who use it. -/
inductive Lifecycle where
  | closed
  | opened (q : Bytes)
deriving Repr, DecidableEq

/-- Of a list of bytes that are to be read: how many are there for a destination, and what it is
then. -/
def Lifecycle.front (q dst : Bytes) : Answer :=
  .filled (min dst.length q.length) (q.take dst.length ++ dst.drop q.length)

/-- The specification: an open buffer is the list of its bytes, the oldest first. -/
def Lifecycle.step (capacity : Nat) : Lifecycle → Op → Answer × Lifecycle
  | .closed, .openUp =>
      if 0 < capacity then (.done, .opened []) else (.refused .internal, .closed)
  | .closed, .close => (.done, .closed)
  | .closed, _ => (.refused .notOpen, .closed)
  | .opened q, .openUp => (.refused .internal, .opened q)
  | .opened _, .close => (.done, .closed)
  | .opened _, .reset => (.done, .opened [])
  | .opened q, .read dst =>
      if dst = [] then (.refused .invalidArgs, .opened q)
      else if q = [] then (.refused .underflow, .opened q)
      else (front q dst, .opened (q.drop dst.length))
  | .opened q, .peek dst =>
      if dst = [] then (.refused .invalidArgs, .opened q)
      else if q = [] then (.refused .underflow, .opened q)
      else (front q dst, .opened q)
  | .opened q, .consume n =>
      if n ≤ q.length then (.done, .opened (q.drop n)) else (.refused .underflow, .opened q)
  | .opened q, .write src =>
      if src = [] then (.refused .invalidArgs, .opened q)
      else if q.length + src.length ≤ capacity then (.count src.length, .opened (q ++ src))
      else (.refused .overflow, .opened q)
  | .opened q, .slices => (.shown q, .opened q)

/-! ## What can be observed -/

/-- All that can be observed of a closed buffer. -/
structure Shut (b : StreamBuffer) (capacity : Nat) : Prop where
  isOpen_eq : b.isOpen = false
  capacity_eq : b.capacity = capacity
  length_eq : b.length = 0
  freeSpace_eq : b.freeSpace = 0
  isEmpty_eq : b.isEmpty = true
  isFull_eq : b.isFull = false

/-- All that can be observed of an open buffer with the bytes `q`. -/
structure Holds (b : StreamBuffer) (capacity : Nat) (q : Bytes) : Prop where
  isOpen_eq : b.isOpen = true
  capacity_eq : b.capacity = capacity
  capacity_pos : 0 < capacity
  length_eq : b.length = q.length
  bounded : q.length ≤ capacity
  room : b.length + b.freeSpace = capacity
  isEmpty_iff : b.isEmpty = true ↔ q = []
  isFull_iff : b.isFull = true ↔ q.length = capacity
  slices_eq : ∃ head tail, b.slices = .ok (head, tail) ∧ head ++ tail = q ∧ (q ≠ [] → head ≠ [])

/-- All that can be observed of a buffer between two operations. -/
def Represents (b : StreamBuffer) (capacity : Nat) : Lifecycle → Prop
  | .closed => b.Shut capacity
  | .opened q => b.Holds capacity q

/-- That it is closed suffices for the rest. -/
theorem shut_of_closed {b : StreamBuffer} {capacity : Nat} (hopen : b.isOpen = false)
    (hcapacity : b.capacity = capacity) : b.Shut capacity where
  isOpen_eq := hopen
  capacity_eq := hcapacity
  length_eq := by simp [length, hopen]
  freeSpace_eq := by simp [freeSpace, hopen]
  isEmpty_eq := by simp [isEmpty, hopen]
  isFull_eq := by simp [isFull, hopen]

/-- The contents suffice for the rest. -/
theorem holds_of_contents {b : StreamBuffer} {capacity : Nat} {q : Bytes} (hopen : b.isOpen = true)
    (hpos : 0 < capacity) (hcapacity : b.capacity = capacity) (hcontents : b.contents = q) :
    b.Holds capacity q := by
  have hlength : b.length = q.length := by rw [← hcontents, b.length_contents]
  have hring : b.ring.length = q.length := by simpa [length, hopen] using hlength
  have hslices : b.slices = .ok b.ring.slices := if_pos hopen
  exact
    { isOpen_eq := hopen
      capacity_eq := hcapacity
      capacity_pos := hpos
      length_eq := hlength
      bounded := by
        have := b.length_le_capacity
        omega
      room := by rw [length_add_freeSpace hopen, hcapacity]
      isEmpty_iff := by rw [b.isEmpty_iff, hcontents]
      isFull_iff := by
        have hfull : b.isFull = b.ring.isFull := by simp [isFull, hopen]
        have hsame : b.ring.capacity = capacity := hcapacity
        rw [hfull, b.ring.isFull_iff, hring, hsame]
        exact and_iff_right hpos
      slices_eq := by
        refine ⟨_, _, hslices, ?_, ?_⟩
        · rw [← hcontents, contents_of_slices hslices]
        · intro hsome
          rw [← hcontents] at hsome
          exact head_ne_nil_of_slices hslices hsome }

/-- What is held are the contents. -/
theorem Holds.contents_eq {b : StreamBuffer} {capacity : Nat} {q : Bytes} (h : b.Holds capacity q) :
    b.contents = q := by
  obtain ⟨head, tail, hslices, happend, _⟩ := h.slices_eq
  rw [contents_of_slices hslices, happend]

/-! ## Transfers of an open buffer -/

/-- Whether an open buffer can be read is a matter of its contents. -/
theorem checkReadable_of_open {b : StreamBuffer} (hopen : b.isOpen = true) (n : Nat) :
    b.checkReadable n =
      if n = 0 then .error .invalidArgs
      else if b.contents = [] then .error .underflow
      else .ok () := by
  have hempty : b.ring.isEmpty = true ↔ b.contents = [] := by
    rw [← b.isEmpty_iff, isEmpty, hopen]
    simp
  unfold checkReadable
  simp only [hopen, Bool.not_true, Bool.false_eq_true, if_false, hempty]

/-- A write to an open buffer: all of it or nothing. -/
theorem writeInPlace_of_open {b : StreamBuffer} (hopen : b.isOpen = true) (src : Bytes) :
    b.writeInPlace src =
      if src = [] then (.error .invalidArgs, b)
      else if b.length + src.length ≤ b.capacity then
        (.ok src.length, { b with ring := (b.ring.write src).2 })
      else (.error .overflow, b) := by
  have hroom := b.ring.length_add_freeSpace
  have hlength : b.length = b.ring.length := by simp [length, hopen]
  have hcapacity : b.capacity = b.ring.capacity := rfl
  unfold writeInPlace
  by_cases hsrc : src = []
  · simp [hopen, hsrc]
  have hnonempty : src.isEmpty = false := by simpa using hsrc
  simp only [hopen, hsrc, hnonempty, Bool.not_true, Bool.false_eq_true, if_false]
  by_cases hfits : b.length + src.length ≤ b.capacity
  · -- the ring takes as much as it has room for, and that is all of it
    have hall : (b.ring.write src).1 = src.length := by
      rw [b.ring.write_fst]
      omega
    rw [if_pos hfits, if_neg (by omega)]
    simp only [hall, ne_eq, not_true, if_false]
  · rw [if_neg hfits, if_pos (by omega)]

/-- The count never falls short. -/
theorem writeInPlace_ne_internal (b : StreamBuffer) (src : Bytes) :
    (b.writeInPlace src).1 ≠ .error .internal := by
  by_cases hopen : b.isOpen = true
  · rw [writeInPlace_of_open hopen]
    split
    · simp
    split
    · simp
    · simp
  · simp [writeInPlace, hopen]

/-- A write that fails has not touched the ring. -/
theorem writeInPlace_of_error {b : StreamBuffer} {src : Bytes} {e : BufferError}
    (h : (b.writeInPlace src).1 = .error e) : (b.writeInPlace src).2 = b := by
  by_cases hopen : b.isOpen = true
  · rw [writeInPlace_of_open hopen] at h ⊢
    split
    · rfl
    split
    · simp_all
    · rfl
  · simp [writeInPlace, hopen]

/-! ## Each operation -/

/-- An operation that is refused leaves the buffer exactly as it was. -/
theorem step_of_refused {b : StreamBuffer} {op : Op} {e : BufferError}
    (h : (step b op).1 = .refused e) : (step b op).2 = b := by
  -- most operations give a new buffer or an error, and with an error there is none to take
  have hchanged : ∀ {out}, (step.changed b out).1 = .refused e → (step.changed b out).2 = b := by
    intro out hout
    cases out with
    | ok b' => cases hout
    | error e' => rfl
  cases op with
  | openUp => exact hchanged h
  | reset => exact hchanged h
  | close => cases h
  | read dst =>
      simp only [step] at h ⊢
      split
      · simp_all
      · rfl
  | peek dst =>
      simp only [step]
      split <;> rfl
  | consume n => exact hchanged h
  | write src =>
      simp only [step] at h ⊢
      cases hout : b.writeInPlace src with
      | mk out b' =>
          rw [hout] at h
          cases out with
          | ok n => cases h
          | error e' =>
              have := writeInPlace_of_error (congrArg Prod.fst hout)
              rwa [hout] at this
  | slices =>
      simp only [step]
      split <;> rfl

/-- An answer and the buffer then are those of the specification. -/
def Agrees (capacity : Nat) (out : Answer × StreamBuffer) (expected : Answer × Lifecycle) : Prop :=
  out.1 = expected.1 ∧ out.2.Represents capacity expected.2

/-- A closed buffer can be opened and closed, nothing else. -/
theorem Shut.agrees {b : StreamBuffer} {capacity : Nat} (h : b.Shut capacity) (op : Op) :
    Agrees capacity (step b op) (Lifecycle.step capacity .closed op) := by
  have hopen := h.isOpen_eq
  have hcapacity : b.ring.capacity = capacity := h.capacity_eq
  cases op with
  | openUp =>
      simp only [step, Lifecycle.step]
      unfold openUp
      -- a buffer without room cannot be opened
      by_cases hpos : 0 < capacity
      · have hroom : (b.ring.capacity == 0) = false := by
          rw [hcapacity]
          simpa using Nat.ne_of_gt hpos
        rw [if_pos hpos, hopen, hroom]
        exact ⟨rfl, holds_of_contents rfl hpos hcapacity b.ring.contents_reset⟩
      · have hnone : (b.ring.capacity == 0) = true := by
          rw [hcapacity]
          simpa using hpos
        rw [if_neg hpos, hopen, hnone]
        exact ⟨rfl, h⟩
  | close => exact ⟨rfl, shut_of_closed rfl hcapacity⟩
  | reset =>
      simp only [step, reset, hopen]
      exact ⟨rfl, h⟩
  | read dst =>
      simp only [step, read, checkReadable, hopen]
      exact ⟨rfl, h⟩
  | peek dst =>
      simp only [step, peek, checkReadable, hopen]
      exact ⟨rfl, h⟩
  | consume n =>
      simp only [step, consume, hopen]
      exact ⟨rfl, h⟩
  | write src =>
      simp only [step, writeInPlace, hopen]
      exact ⟨rfl, h⟩
  | slices =>
      simp only [step, slices, hopen]
      exact ⟨rfl, h⟩

/-- Bytes laid over a destination: as many as are there. -/
theorem filled_overlay (q dst : Bytes) :
    Answer.filled (q.take dst.length).length (overlay (q.take dst.length) dst) =
      Lifecycle.front q dst := by
  unfold overlay Lifecycle.front
  rw [List.length_take]
  by_cases hle : dst.length ≤ q.length
  · rw [Nat.min_eq_left hle, List.drop_of_length_le (Nat.le_refl _), List.drop_of_length_le hle]
  · rw [Nat.min_eq_right (by omega)]

section Open

variable {b : StreamBuffer} {capacity : Nat} {q : Bytes}

/-- Whether the bytes can be read into a destination. -/
theorem Holds.checkReadable_eq (h : b.Holds capacity q) (dst : Bytes) :
    b.checkReadable dst.length =
      if dst = [] then .error .invalidArgs else if q = [] then .error .underflow else .ok () := by
  rw [checkReadable_of_open h.isOpen_eq, h.contents_eq]
  simp only [List.length_eq_zero_iff]

theorem Holds.agrees_read (h : b.Holds capacity q) (dst : Bytes) :
    Agrees capacity (step b (.read dst)) (Lifecycle.step capacity (.opened q) (.read dst)) := by
  have hcheck := h.checkReadable_eq dst
  simp only [step, Lifecycle.step]
  by_cases hdst : dst = []
  · rw [if_pos hdst] at hcheck
    rw [if_pos hdst, read, hcheck]
    exact ⟨rfl, h⟩
  by_cases hnil : q = []
  · rw [if_neg hdst, if_pos hnil] at hcheck
    rw [if_neg hdst, if_pos hnil, read, hcheck]
    exact ⟨rfl, h⟩
  -- something is there and something is wanted
  obtain ⟨data, b', hread⟩ := exists_read (b := b) (n := dst.length) (by simpa using hdst)
    (by rwa [h.contents_eq])
  obtain ⟨hdata, hrest, _⟩ := contents_read hread
  rw [h.contents_eq] at hdata hrest
  rw [if_neg hdst, if_neg hnil, hread, hdata]
  constructor
  · exact filled_overlay q dst
  · exact holds_of_contents (isOpen_read hread) h.capacity_pos
      ((capacity_read hread).trans h.capacity_eq) hrest

theorem Holds.agrees_peek (h : b.Holds capacity q) (dst : Bytes) :
    Agrees capacity (step b (.peek dst)) (Lifecycle.step capacity (.opened q) (.peek dst)) := by
  have hcheck := h.checkReadable_eq dst
  simp only [step, Lifecycle.step]
  by_cases hdst : dst = []
  · rw [if_pos hdst] at hcheck
    rw [if_pos hdst, peek, hcheck]
    exact ⟨rfl, h⟩
  by_cases hnil : q = []
  · rw [if_neg hdst, if_pos hnil] at hcheck
    rw [if_neg hdst, if_pos hnil, peek, hcheck]
    exact ⟨rfl, h⟩
  have hpeek := peek_of_contents (b := b) (n := dst.length) (by simpa using hdst)
    (by rwa [h.contents_eq])
  rw [if_neg hdst, if_neg hnil, hpeek, h.contents_eq]
  exact ⟨filled_overlay q dst, h⟩

theorem Holds.agrees_consume (h : b.Holds capacity q) (n : Nat) :
    Agrees capacity (step b (.consume n)) (Lifecycle.step capacity (.opened q) (.consume n)) := by
  simp only [step, Lifecycle.step]
  by_cases hn : n ≤ q.length
  · obtain ⟨b', hconsume⟩ := exists_consume h.isOpen_eq (n := n) (by rwa [h.length_eq])
    rw [if_pos hn, hconsume]
    -- the state after is given by the contents alone
    refine ⟨rfl, holds_of_contents (isOpen_consume hconsume) h.capacity_pos
      ((capacity_consume hconsume).trans h.capacity_eq) ?_⟩
    exact (contents_consume hconsume).trans (congrArg (List.drop n) h.contents_eq)
  · have hlength : b.ring.length = q.length := by
      simpa [length, h.isOpen_eq] using h.length_eq
    have hfew : b.consume n = .error .underflow := by
      simp [consume, h.isOpen_eq, hlength, Nat.lt_of_not_le hn]
    rw [if_neg hn, hfew]
    exact ⟨rfl, h⟩

theorem Holds.agrees_write (h : b.Holds capacity q) (src : Bytes) :
    Agrees capacity (step b (.write src)) (Lifecycle.step capacity (.opened q) (.write src)) := by
  have hwrite := b.write_eq src
  rw [writeInPlace_of_open h.isOpen_eq, h.length_eq, h.capacity_eq] at hwrite
  simp only [step, Lifecycle.step, writeInPlace_of_open h.isOpen_eq, h.length_eq, h.capacity_eq]
  by_cases hsrc : src = []
  · rw [if_pos hsrc, if_pos hsrc]
    exact ⟨rfl, h⟩
  by_cases hfits : q.length + src.length ≤ capacity
  · rw [if_neg hsrc, if_pos hfits] at hwrite
    rw [if_neg hsrc, if_neg hsrc, if_pos hfits, if_pos hfits]
    refine ⟨rfl, holds_of_contents h.isOpen_eq h.capacity_pos
      ((capacity_write hwrite).trans h.capacity_eq) ?_⟩
    rw [contents_write hwrite, h.contents_eq]
  · rw [if_neg hsrc, if_neg hsrc, if_neg hfits, if_neg hfits]
    exact ⟨rfl, h⟩

/-- An open buffer does with its bytes what is done with the list. -/
theorem Holds.agrees (h : b.Holds capacity q) (op : Op) :
    Agrees capacity (step b op) (Lifecycle.step capacity (.opened q) op) := by
  cases op with
  | openUp =>
      simp only [step, openUp, h.isOpen_eq]
      exact ⟨rfl, h⟩
  | reset =>
      have hreset : b.reset = .ok { b with ring := b.ring.reset } := if_pos h.isOpen_eq
      simp only [step, hreset]
      exact ⟨rfl, holds_of_contents h.isOpen_eq h.capacity_pos h.capacity_eq
        (contents_reset hreset)⟩
  | close => exact ⟨rfl, shut_of_closed rfl h.capacity_eq⟩
  | read dst => exact h.agrees_read dst
  | peek dst => exact h.agrees_peek dst
  | consume n => exact h.agrees_consume n
  | write src => exact h.agrees_write src
  | slices =>
      obtain ⟨head, tail, hslices, happend, _⟩ := h.slices_eq
      simp only [step, hslices]
      exact ⟨congrArg Answer.shown happend, h⟩

end Open

/-- Each operation answers as the specification does, and the buffer then stands for the next
state. -/
theorem represents_step {b : StreamBuffer} {capacity : Nat} {s : Lifecycle} (op : Op)
    (h : b.Represents capacity s) :
    Agrees capacity (step b op) (Lifecycle.step capacity s op) := by
  cases s with
  | closed => exact Shut.agrees h op
  | opened q => exact Holds.agrees h op

/-- A new stream buffer is a bounded queue with a lifecycle, whatever its capacity: every sequence
of operations gets the answers of the specification, and the buffer stands for the state of the
specification afterwards. Whatever the buffer, an operation that is refused changes nothing, and a
write is never refused because of an internal error. -/
theorem answers_eq_lifecycle (capacity : Nat) (ops : List Op) :
    let (answered, b) := answers step (new capacity) ops
    let (expected, s) := answers (Lifecycle.step capacity) .closed ops
    answered = expected ∧ b.Represents capacity s ∧
      (∀ (b : StreamBuffer) (op : Op) (e : BufferError),
        (step b op).1 = .refused e → (step b op).2 = b) ∧
      ∀ (b : StreamBuffer) (src : Bytes), (step b (.write src)).1 ≠ .refused .internal := by
  have hnew : (new capacity).Represents capacity .closed :=
    shut_of_closed rfl (RingBuffer.capacity_new capacity)
  have hsame : (answers step (new capacity) ops).1 =
        (answers (Lifecycle.step capacity) .closed ops).1 ∧
      (answers step (new capacity) ops).2.Represents capacity
        (answers (Lifecycle.step capacity) .closed ops).2 :=
    answers_of_simulates (I := fun _ => True) (R := fun b s => Represents b capacity s)
      (fun _ _ _ => trivial) (fun _ _ op _ => represents_step op) trivial hnew
  refine ⟨hsame.1, hsame.2, fun _ _ _ => step_of_refused, ?_⟩
  intro b src hinternal
  -- the step only wraps the answer of the write
  apply writeInPlace_ne_internal b src
  simp only [step] at hinternal
  cases hout : b.writeInPlace src with
  | mk out b' =>
      rw [hout] at hinternal
      cases out with
      | ok n => cases hinternal
      | error e => exact congrArg Except.error (Answer.refused.inj hinternal)

/-- A buffer for four bytes that wraps around, is filled to the last byte and refuses one more. -/
theorem answers_eq_lifecycle_wrapped :
    let ops : List Op := [.read [], .openUp, .peek [], .write [1, 2, 3], .consume 2,
      .write [4, 5, 6], .openUp, .write [7], .consume 5, .slices, .read [0, 0, 0, 0, 0], .read [0]]
    let full := (answers step (new 4) (ops.take 7)).2
    (answers step (new 4) ops).1 = [.refused .notOpen, .done, .refused .invalidArgs, .count 3,
      .done, .count 3, .refused .internal, .refused .overflow, .refused .underflow,
      .shown [3, 4, 5, 6], .filled 4 [3, 4, 5, 6, 0], .refused .underflow] ∧
    full.Represents 4 (.opened [3, 4, 5, 6]) ∧ (step full (.write [7])).2 = full := by
  intro ops full
  have hrun := answers_eq_lifecycle 4 ops
  have hfull := answers_eq_lifecycle 4 (ops.take 7)
  refine ⟨hrun.1.trans (by decide), hfull.2.1, ?_⟩
  exact hfull.2.2.1 full (.write [7]) .overflow (by decide +kernel)

end TcpReactor.StreamBuffer
