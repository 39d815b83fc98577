import TcpReactor.RingBuffer.Contents

namespace TcpReactor.RingBuffer

/-! # Ring buffers with every index checked

An operation of a ring buffer subtracts cursors, divides by the capacity and copies between slices.
None of this is total on a real machine. Here the operations are written once more on the `Bare`
cells and cursors, without the bounds that a `RingBuffer` carries, and with steps that fail where an
index is out of range, a difference is negative or a divisor is zero. The result is that none of
them fails on a ring buffer, and that they say and do the same.
-/

/-! ## Steps that may fail -/

/-- A difference that may not be negative. -/
def sub? (a b : Nat) : Option Nat :=
  if b ≤ a then some (a - b) else none

/-- A remainder of a divisor that may not be zero. -/
def mod? (a b : Nat) : Option Nat :=
  if b = 0 then none else some (a % b)

/-- The bytes from index `i` up to index `j`, both of which must be in range. -/
def part? (bytes : Bytes) (i j : Nat) : Option Bytes :=
  if i ≤ j ∧ j ≤ bytes.length then some (bytes.extract i j) else none

/-- Replace the bytes from index `i` up to index `j`, both of which must be in range, by as many
others. -/
def copy? (dst : Bytes) (i j : Nat) (src : Bytes) : Option Bytes :=
  if i ≤ j ∧ j ≤ dst.length ∧ src.length = j - i then some (dst.take i ++ src ++ dst.drop j)
  else none

theorem sub?_of_le {a b : Nat} (h : b ≤ a) : sub? a b = some (a - b) := if_pos h

theorem mod?_of_pos {a b : Nat} (h : 0 < b) : mod? a b = some (a % b) := if_neg (by omega)

theorem part?_of_le {bytes : Bytes} {i j : Nat} (h : i ≤ j) (h' : j ≤ bytes.length) :
    part? bytes i j = some (bytes.extract i j) := if_pos ⟨h, h'⟩

theorem copy?_of_le {dst src : Bytes} {i j : Nat} (h : i ≤ j) (h' : j ≤ dst.length)
    (hlength : src.length = j - i) :
    copy? dst i j src = some (dst.take i ++ src ++ dst.drop j) := if_pos ⟨h, h', hlength⟩

/-! ## The operations -/

/-- The cells and the cursors of a ring buffer, without any bounds. -/
structure Bare where
  arena : Bytes
  readPos : Nat
  writePos : Nat
  full : Bool
deriving Repr, DecidableEq

def bare (r : RingBuffer) : Bare :=
  ⟨r.arena.toList, r.readPos, r.writePos, r.full⟩

namespace Bare

def new (capacity : Nat) : Bare := ⟨.replicate capacity 0, 0, 0, false⟩

def isEmpty (r : Bare) : Bool := !r.full && r.readPos == r.writePos

def reset (r : Bare) : Bare := { r with readPos := 0, writePos := 0, full := false }

def length? (r : Bare) : Option Nat :=
  if r.full then some r.arena.length
  else if r.readPos ≤ r.writePos then sub? r.writePos r.readPos
  else do sub? r.arena.length (← sub? r.readPos r.writePos)

def freeSpace? (r : Bare) : Option Nat := do
  sub? r.arena.length (← r.length?)

def slices? (r : Bare) : Option (Bytes × Bytes) := do
  if r.isEmpty then
    return ([], [])
  if r.readPos < r.writePos then
    return (← part? r.arena r.readPos r.writePos, [])
  else
    return (← part? r.arena r.readPos r.arena.length, ← part? r.arena 0 r.writePos)

/-- Copy the first `n` bytes of `src` into the arena from index `i` on; what reaches past the end of
the arena goes to its start. -/
def copyIn? (arena : Bytes) (i : Nat) (src : Bytes) (n : Nat) : Option Bytes := do
  let first := min n (← sub? arena.length i)
  let arena ← copy? arena i (i + first) (← part? src 0 first)
  let rest ← sub? n first
  if 0 < rest then
    copy? arena 0 rest (← part? src first n)
  else
    return arena

def write? (r : Bare) (src : Bytes) : Option (Nat × Bare) := do
  let n := min src.length (← r.freeSpace?)
  if n = 0 then
    return (0, r)
  let arena ← copyIn? r.arena r.writePos src n
  let writePos ← mod? (r.writePos + n) r.arena.length
  return (n, ⟨arena, r.readPos, writePos, if writePos = r.readPos then true else r.full⟩)

/-- Copy the first `n` bytes of two slices into `dst`. -/
def copyOut? (head tail dst : Bytes) (n : Nat) : Option Bytes := do
  let first := min n head.length
  let dst ← copy? dst 0 first (← part? head 0 first)
  if first < n then
    copy? dst first n (← part? tail 0 (← sub? n first))
  else
    return dst

def peekInto? (r : Bare) (dst : Bytes) : Option (Nat × Bytes) := do
  let (head, tail) ← r.slices?
  let n := min dst.length (head.length + tail.length)
  if n = 0 then
    return (0, dst)
  return (n, ← copyOut? head tail dst n)

def readInto? (r : Bare) (dst : Bytes) : Option (Nat × Bytes × Bare) := do
  let (n, dst) ← r.peekInto? dst
  if 0 < n then
    return (n, dst, { r with readPos := ← mod? (r.readPos + n) r.arena.length, full := false })
  else
    return (n, dst, r)

def consume? (r : Bare) (n : Nat) : Option Bare := do
  let available ← r.length?
  if n = 0 ∨ available = 0 then
    return r
  if available ≤ n then
    return r.reset
  return { r with readPos := ← mod? (r.readPos + n) r.arena.length, full := false }

end Bare

/-! ## They do not fail -/

@[simp] theorem bare_new (capacity : Nat) : (new capacity).bare = Bare.new capacity := by
  simp [bare, new, Bare.new]

@[simp] theorem bare_reset (r : RingBuffer) : r.reset.bare = r.bare.reset := rfl

@[simp] theorem isEmpty_bare (r : RingBuffer) : r.bare.isEmpty = r.isEmpty := rfl

@[simp] theorem length_arena_bare (r : RingBuffer) : r.bare.arena.length = r.capacity :=
  Array.length_toList

theorem length?_bare (r : RingBuffer) : r.bare.length? = some r.length := by
  have hread := r.readPos_inside
  have hcapacity : r.capacity = r.arena.size := rfl
  unfold Bare.length? length
  rw [length_arena_bare]
  by_cases hfull : r.full = true
  · simp only [bare, hfull, if_true]
  by_cases hle : r.readPos ≤ r.writePos
  · simp [bare, hfull, hle, sub?_of_le hle]
  · -- the gap between the cursors is no longer than the arena, as the read cursor is inside
    have hgap : r.readPos - r.writePos ≤ r.capacity := by omega
    simp only [bare, hfull, hle, if_false]
    rw [sub?_of_le (by omega)]
    exact sub?_of_le hgap

theorem freeSpace?_bare (r : RingBuffer) : r.bare.freeSpace? = some r.freeSpace := by
  unfold Bare.freeSpace?
  rw [length?_bare, length_arena_bare]
  exact sub?_of_le r.length_le_capacity

theorem slices?_bare (r : RingBuffer) : r.bare.slices? = some r.slices := by
  have hread := r.readPos_inside
  have hwrite := r.writePos_inside
  have hsize : r.arena.toList.length = r.arena.size := Array.length_toList
  unfold Bare.slices? slices
  rw [isEmpty_bare]
  -- a slice is in range because the cursors are inside the arena, in whichever order they stand
  by_cases hempty : r.isEmpty = true
  · simp only [hempty, if_true, Option.pure_def]
  by_cases hlt : r.readPos < r.writePos
  · simp only [bare, hempty, hlt, if_true]
    rw [part?_of_le (by omega) (by omega), Array.toList_extract]
    rfl
  · simp only [bare, hempty, hlt, if_false]
    rw [part?_of_le (by omega) (by omega), part?_of_le (by omega) (by omega),
      Array.toList_extract, Array.toList_extract, hsize]
    rfl

/-- What lies in the arena around bytes that are put into it in one piece. -/
theorem toList_overwrite {arena : Array UInt8} {i : Nat} {src : Bytes}
    (h : i + src.length ≤ arena.size) :
    (overwrite arena i src).toList =
      arena.toList.take i ++ src ++ arena.toList.drop (i + src.length) := by
  refine List.ext_getElem? fun k => ?_
  rw [Array.getElem?_toList, getElem?_overwrite, List.getElem?_append, List.getElem?_append]
  simp only [List.length_append, List.length_take, Array.length_toList, List.getElem?_take,
    List.getElem?_drop, Array.getElem?_toList]
  -- before the piece, in it, behind it
  by_cases hbefore : k < i
  · rw [if_neg (by omega), if_pos (by omega), if_pos (by omega), if_pos hbefore]
  by_cases hin : k < i + src.length
  · rw [if_pos (by omega), if_pos (by omega), if_neg (by omega)]
    congr 1
    omega
  · rw [if_neg (by omega), if_neg (by omega)]
    congr 1
    omega

/-- Putting bytes into the arena in one piece is a copy within its bounds. -/
theorem copy?_arena {arena : Array UInt8} {i j : Nat} {src : Bytes}
    (h : i + src.length ≤ arena.size) (hj : j = i + src.length) :
    copy? arena.toList i j src = some (overwrite arena i src).toList := by
  subst hj
  rw [copy?_of_le (by omega) (by simpa using h) (by omega), toList_overwrite h]

theorem copyIn?_arena {arena : Array UInt8} {i n : Nat} {src : Bytes} (hi : i ≤ arena.size)
    (hn : n ≤ arena.size) (hsrc : n ≤ src.length) :
    Bare.copyIn? arena.toList i src n =
      some (overwrite (overwrite arena i ((src.take n).take (min n (arena.size - i)))) 0
        ((src.take n).drop (min n (arena.size - i)))).toList := by
  unfold Bare.copyIn?
  rw [sub?_of_le (by simpa using hi)]
  simp only [Option.bind_eq_bind, Option.bind_some, Array.length_toList]
  generalize hfirst : min n (arena.size - i) = first
  have htake : src.extract 0 first = (src.take n).take first := by
    simp [List.take_take, show min first n = first by omega]
  have hdrop : src.extract first n = (src.take n).drop first := by
    simp [List.drop_take]
  have hlength : ((src.take n).take first).length = first := by
    simp
    omega
  rw [part?_of_le (by omega) (by omega), htake, Option.bind_some,
    copy?_arena (by omega) (by omega), Option.bind_some, sub?_of_le (by omega), Option.bind_some]
  by_cases hrest : 0 < n - first
  · have hlength' : ((src.take n).drop first).length = n - first := by
      simp
      omega
    rw [if_pos hrest, part?_of_le (by omega) (by omega), hdrop, Option.bind_some]
    exact copy?_arena (by simp; omega) (by omega)
  · -- nothing is left for the start of the arena
    rw [if_neg hrest, List.drop_eq_nil_of_le (by simp; omega)]
    rfl

theorem write?_bare (r : RingBuffer) (src : Bytes) :
    r.bare.write? src = some ((r.write src).1, (r.write src).2.bare) := by
  have hwrite := r.writePos_inside
  have hsum := r.length_add_freeSpace
  have hcapacity : r.capacity = r.arena.size := rfl
  unfold Bare.write? write
  rw [freeSpace?_bare, length_arena_bare, Option.bind_eq_bind, Option.bind_some]
  by_cases hsome : 0 < min src.length r.freeSpace
  · have hlength : (src.take (min src.length r.freeSpace)).length = min src.length r.freeSpace := by
      simp
    -- there is room, so the buffer is not full and the capacity is positive
    have hfull : r.full = false := by
      rw [Bool.eq_false_iff]
      intro hfull
      have : r.length = r.capacity := if_pos hfull
      omega
    rw [if_neg (by omega), dif_pos hsome]
    simp only [bare, append, hlength]
    rw [copyIn?_arena (by omega) (by omega) (by omega), mod?_of_pos (by omega)]
    simp only [hfull, capacity, Option.bind_eq_bind, Option.bind_some, Option.pure_def,
      Bool.if_true_left, Bool.or_false]
    rfl
  · rw [if_pos (by omega), dif_neg hsome]
    rfl

theorem copyOut?_of_le {head tail dst : Bytes} {n : Nat} (hn : n ≤ head.length + tail.length)
    (hdst : n ≤ dst.length) :
    Bare.copyOut? head tail dst n = some ((head ++ tail).take n ++ dst.drop n) := by
  simp only [Bare.copyOut?]
  rw [part?_of_le (by omega) (by omega), Option.bind_eq_bind, Option.bind_some,
    copy?_of_le (by omega) (by omega) (by simp), Option.bind_eq_bind, Option.bind_some]
  -- the second copy starts where the head ends, which is inside the target as more was asked for
  by_cases hboth : head.length < n
  · have hfirst : min n head.length = head.length := by omega
    rw [hfirst, if_pos hboth, sub?_of_le (by omega), Option.bind_some,
      part?_of_le (by omega) (by omega), Option.bind_some,
      copy?_of_le (by omega) (by simp; omega) (by simp; omega)]
    have htail : (head ++ dst.drop head.length).drop n = dst.drop n := by
      rw [List.drop_append, List.drop_eq_nil_of_le (by omega), List.drop_drop]
      simp [show head.length + (n - head.length) = n by omega]
    simp [htail, List.take_append, List.take_of_length_le (show head.length ≤ n by omega)]
  · have hfirst : min n head.length = n := by omega
    rw [hfirst, if_neg (by omega)]
    simp [List.take_append_of_le_length (show n ≤ head.length by omega)]

/-- What peeking and reading put into a destination. -/
theorem peekInto_eq (r : RingBuffer) (dst : Bytes) :
    r.peekInto dst =
      (min dst.length r.length,
        r.contents.take (min dst.length r.length) ++ dst.drop (min dst.length r.length)) := by
  simp [peekInto, overlay, peek_eq_take, List.take_eq_take_iff]

theorem readInto_eq (r : RingBuffer) (dst : Bytes) :
    r.readInto dst = ((r.peekInto dst).1, (r.peekInto dst).2, (r.read dst.length).2) := by
  simp only [readInto, peekInto, read_fst, peek_eq_take]

theorem peekInto?_bare (r : RingBuffer) (dst : Bytes) :
    r.bare.peekInto? dst = some (r.peekInto dst) := by
  have hlength : r.slices.1.length + r.slices.2.length = r.length := by
    rw [← r.length_contents, contents, List.length_append]
  unfold Bare.peekInto?
  rw [slices?_bare, Option.bind_eq_bind, Option.bind_some, peekInto_eq]
  simp only [hlength]
  by_cases hnone : min dst.length r.length = 0
  · rw [if_pos hnone, hnone]
    rfl
  · rw [if_neg hnone, copyOut?_of_le (by omega) (by omega)]
    rfl

theorem readInto?_bare (r : RingBuffer) (dst : Bytes) :
    r.bare.readInto? dst =
      some ((r.readInto dst).1, (r.readInto dst).2.1, (r.readInto dst).2.2.bare) := by
  have hle := r.length_le_capacity
  unfold Bare.readInto?
  rw [peekInto?_bare, readInto_eq, peekInto_eq, Option.bind_eq_bind, Option.bind_some]
  by_cases hsome : 0 < min dst.length r.length
  · have hread : (r.read dst.length).2 = r.advance (min dst.length r.length) (by omega) := by
      rw [read, dif_pos hsome]
    simp only [hread, if_pos hsome]
    rw [length_arena_bare, mod?_of_pos (by omega)]
    rfl
  · have hread : (r.read dst.length).2 = r := by
      rw [read, dif_neg hsome]
    simp only [hread, if_neg hsome]
    rfl

theorem consume?_bare (r : RingBuffer) (n : Nat) :
    r.bare.consume? n = some (r.consume n).bare := by
  have hle := r.length_le_capacity
  unfold Bare.consume? consume
  rw [length?_bare, Option.bind_eq_bind, Option.bind_some]
  by_cases hnone : n = 0 ∨ r.length = 0
  · rw [if_pos hnone, dif_pos hnone]
    rfl
  rw [if_neg hnone, dif_neg hnone]
  by_cases hall : r.length ≤ n
  · rw [if_pos hall, if_pos hall]
    rfl
  · rw [if_neg hall, if_neg hall, length_arena_bare, mod?_of_pos (by omega)]
    rfl

end TcpReactor.RingBuffer
