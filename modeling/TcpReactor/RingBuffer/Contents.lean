import TcpReactor.RingBuffer

namespace TcpReactor.RingBuffer

/-! # The contents of a ring buffer

A ring buffer is a bounded queue: seen through `contents`, every operation is one on lists. The
`j`th readable byte lies in the arena `j` places after the read cursor, counted around its end
(`getElem?_contents`); all equations below follow from that.
-/

/-- The place in the arena of the `j`th readable byte. -/
def place (r : RingBuffer) (j : Nat) : Nat :=
  if r.readPos + j < r.capacity then r.readPos + j else r.readPos + j - r.capacity

theorem getElem?_contents (r : RingBuffer) (j : Nat) :
    r.contents[j]? = if j < r.length then r.arena[r.place j]? else none := by
  have hread := r.readPos_inside
  have hwrite := r.writePos_inside
  have hfull := r.full_coincide
  rw [contents, slices]
  split
  · -- nothing is readable
    have : r.length = 0 := r.isEmpty_iff.mp ‹_›
    simp [this]
  split
  · -- one slice
    have hlength : r.length = r.writePos - r.readPos := by grind [length, capacity]
    simp only [List.append_nil, Array.getElem?_toList, Array.getElem?_extract]
    by_cases hj : j < r.length
    · have hplace : r.place j = r.readPos + j := by grind [place, capacity]
      rw [if_pos (by omega), if_pos hj, hplace]
    · rw [if_neg (by omega), if_neg hj]
  · -- two slices, the second of which begins at the start of the arena
    have hlength : r.length = r.capacity - r.readPos + r.writePos := by
      grind [length, capacity, isEmpty]
    have hcapacity : r.capacity = r.arena.size := rfl
    simp only [List.getElem?_append, Array.getElem?_toList, Array.getElem?_extract,
      Array.length_toList, Array.size_extract, Nat.zero_add]
    by_cases hj : j < r.length
    · rw [if_pos hj]
      by_cases hfirst : j < r.capacity - r.readPos
      · have hplace : r.place j = r.readPos + j := by grind [place]
        rw [if_pos (by omega), if_pos (by omega), hplace]
      · have hplace : r.place j = j - (r.capacity - r.readPos) := by grind [place]
        rw [if_neg (by omega), if_pos (by omega), hplace]
        congr 1
        omega
    · rw [if_neg hj, if_neg (by omega), if_neg (by omega)]

@[simp] theorem length_contents (r : RingBuffer) : r.contents.length = r.length := by
  have hread := r.readPos_inside
  have hwrite := r.writePos_inside
  have hfull := r.full_coincide
  rw [contents, slices]
  split
  · simp [r.isEmpty_iff.mp ‹_›]
  split
  · simp
    grind [length, capacity]
  · simp
    grind [length, capacity, isEmpty]

/-- There is a first slice as soon as anything is readable. -/
theorem slices_fst_ne_nil {r : RingBuffer} (h : r.contents ≠ []) : r.slices.1 ≠ [] := by
  have hread := r.readPos_inside
  have hwrite := r.writePos_inside
  have hfull := r.full_coincide
  revert h
  rw [contents, slices]
  split
  · simp
  split
  · simp
  · simp
    grind [capacity, isEmpty]

/-! ## Reading -/

@[simp] theorem contents_new (n : Nat) : (new n).contents = [] :=
  List.length_eq_zero_iff.mp (by simp)

@[simp] theorem contents_reset (r : RingBuffer) : r.reset.contents = [] :=
  List.length_eq_zero_iff.mp (by simp)

theorem peek_eq_take (r : RingBuffer) (n : Nat) : r.peek n = r.contents.take n := by
  have hread := r.readPos_inside
  have hwrite := r.writePos_inside
  have hfull := r.full_coincide
  have hlength := r.length_le_capacity
  have hcapacity : r.capacity = r.arena.size := rfl
  have hhead : r.headEnd ≤ r.capacity := by grind [headEnd]
  -- a head that stops before the end of the arena is all there is
  have hone : r.headEnd < r.capacity → r.length ≤ r.headEnd - r.readPos := by
    grind [headEnd, length, isEmpty]
  refine List.ext_getElem? fun j => ?_
  rw [List.getElem?_take, getElem?_contents, peek]
  simp only [List.getElem?_append, Array.getElem?_toList, Array.getElem?_extract,
    Array.length_toList, Array.size_extract, Nat.zero_add]
  by_cases hj : j < n ∧ j < r.length
  · rw [if_pos hj.1, if_pos hj.2]
    by_cases hfirst : j < r.headEnd - r.readPos
    · have hplace : r.place j = r.readPos + j := by grind [place]
      rw [if_pos (by omega), if_pos (by omega), hplace]
    · -- the wrapped part
      have hplace : r.place j = j - (r.capacity - r.readPos) := by grind [place]
      rw [if_neg (by omega), if_pos (by omega), hplace]
      congr 1
      omega
  · rw [if_neg (by omega), if_neg (by omega)]
    by_cases hn : j < n
    · rw [if_pos hn, if_neg fun h => hj ⟨hn, h⟩]
    · rw [if_neg hn]

theorem contents_advance (r : RingBuffer) (n : Nat) (h : 0 < r.capacity) (hpos : 0 < n)
    (hn : n ≤ r.length) : (r.advance n h).contents = r.contents.drop n := by
  have hread := r.readPos_inside
  have hlength := r.length_le_capacity
  have hmod := add_mod_capacity (a := r.readPos) (b := n) (c := r.capacity)
  refine List.ext_getElem? fun j => ?_
  rw [List.getElem?_drop, getElem?_contents, getElem?_contents, length_advance r n h hpos hn]
  grind [place, advance, capacity]

theorem read_fst (r : RingBuffer) (n : Nat) : (r.read n).1 = r.contents.take n := by
  have := r.length_contents
  rw [read]
  split
  · exact r.peek_eq_take n
  · have : n = 0 ∨ r.contents = [] := by grind
    rcases this with h | h <;> simp [h]

theorem contents_read (r : RingBuffer) (n : Nat) :
    (r.read n).2.contents = r.contents.drop n := by
  have := r.length_contents
  rw [read]
  split
  · rw [contents_advance r _ _ ‹_› (Nat.min_le_right ..)]
    grind [List.drop_eq_nil_of_le]
  · have : n = 0 ∨ r.contents = [] := by grind
    rcases this with h | h <;> simp [h]

@[simp] theorem contents_consume (r : RingBuffer) (n : Nat) :
    (r.consume n).contents = r.contents.drop n := by
  have := r.length_contents
  rw [consume]
  split
  · grind
  split
  · rw [contents_reset, List.drop_eq_nil_of_le (by omega)]
  · exact contents_advance r n _ (by omega) (by omega)

/-! ## Writing -/

/-- The cells that `overwrite` puts bytes in, as far as they are in the arena. -/
theorem getElem?_overwrite (arena : Array UInt8) (i : Nat) (src : Bytes) (k : Nat) :
    (overwrite arena i src)[k]? =
      if k < arena.size ∧ i ≤ k ∧ k < i + src.length then src[k - i]? else arena[k]? := by
  induction src generalizing arena i with
  | nil =>
      have : ¬(i ≤ k ∧ k < i) := by omega
      simp [overwrite, this]
  | cons b src ih => grind [overwrite]

/-- The readable bytes end where the next byte goes. -/
theorem place_length_add (r : RingBuffer) {i : Nat} (h : i < r.freeSpace) :
    r.place (r.length + i) =
      if r.writePos + i < r.capacity then r.writePos + i else r.writePos + i - r.capacity := by
  have hread := r.readPos_inside
  have hwrite := r.writePos_inside
  have hfull := r.full_coincide
  have hsum := r.length_add_freeSpace
  grind [place, length, capacity]

theorem place_lt (r : RingBuffer) {i : Nat} (h : i < r.capacity) : r.place i < r.capacity := by
  have hread := r.readPos_inside
  grind [place, capacity]

/-- Only the cells behind the readable bytes are overwritten. -/
theorem getElem?_arena_append (r : RingBuffer) (src : Bytes) (hpos : 0 < src.length)
    (hfit : src.length ≤ r.freeSpace) {j : Nat} (hj : j < r.capacity) :
    (r.append src hpos hfit).arena[r.place j]? =
      if r.length ≤ j ∧ j < r.length + src.length then src[j - r.length]?
      else r.arena[r.place j]? := by
  have hread := r.readPos_inside
  have hwrite := r.writePos_inside
  have hfull := r.full_coincide
  have hsum := r.length_add_freeSpace
  have hlt := r.place_lt hj
  simp only [append, getElem?_overwrite, size_overwrite]
  by_cases h : r.length ≤ j
  · -- a free place: `j - length` cells behind the write cursor
    have hplace := r.place_length_add (i := j - r.length) (by omega)
    rw [show r.length + (j - r.length) = j by omega] at hplace
    simp only [List.getElem?_take, List.getElem?_drop, List.length_take, List.length_drop]
    grind [capacity]
  · -- a readable byte: outside of both parts
    have : ¬(r.writePos ≤ r.place j ∧ r.place j < r.writePos + src.length) := by
      grind [place, length, capacity]
    have : ¬(r.place j < src.length - (r.capacity - r.writePos)) := by
      grind [place, length, capacity]
    grind

theorem contents_append (r : RingBuffer) (src : Bytes) (hpos : 0 < src.length)
    (hfit : src.length ≤ r.freeSpace) :
    (r.append src hpos hfit).contents = r.contents ++ src := by
  have hlength := r.length_contents
  have hsum := r.length_add_freeSpace
  -- by the place of each byte: those in front are untouched, those behind are new
  refine List.ext_getElem? fun j => ?_
  rw [List.getElem?_append, getElem?_contents, getElem?_contents, length_append r src hpos hfit]
  have hplace : (r.append src hpos hfit).place j = r.place j := by
    rw [place, place, capacity_append]
    rfl
  have := r.getElem?_arena_append src hpos hfit (j := j)
  grind

theorem contents_write (r : RingBuffer) (src : Bytes) :
    (r.write src).2.contents = r.contents ++ src.take r.freeSpace := by
  rw [write]
  split
  · rw [contents_append]
    grind
  · have : src = [] ∨ r.freeSpace = 0 := by grind
    rcases this with h | h <;> simp [h]

/-! ## Writing in parts -/

/-- Every cell of the arena is the place of a byte. -/
theorem exists_place (r : RingBuffer) {k : Nat} (hk : k < r.capacity) :
    ∃ j, j < r.capacity ∧ r.place j = k := by
  have hread := r.readPos_inside
  by_cases h : r.readPos ≤ k
  · exact ⟨k - r.readPos, by omega, by grind [place, capacity]⟩
  · exact ⟨r.capacity - r.readPos + k, by grind [capacity], by grind [place, capacity]⟩

theorem eq_of_fields {r r' : RingBuffer} (harena : r.arena = r'.arena)
    (hread : r.readPos = r'.readPos) (hwrite : r.writePos = r'.writePos)
    (hfull : r.full = r'.full) : r = r' := by
  cases r
  cases r'
  cases harena
  cases hread
  cases hwrite
  cases hfull
  rfl

/-- Appending in two parts is appending at once, down to the cells that cannot be read. -/
theorem append_append (r : RingBuffer) (src more : Bytes) (hpos : 0 < src.length)
    (hfit : src.length ≤ r.freeSpace) (hpos' : 0 < more.length)
    (hfit' : more.length ≤ (r.append src hpos hfit).freeSpace) (hpos'' : 0 < (src ++ more).length)
    (hfit'' : (src ++ more).length ≤ r.freeSpace) :
    (r.append src hpos hfit).append more hpos' hfit' = r.append (src ++ more) hpos'' hfit'' := by
  have harena : ((r.append src hpos hfit).append more hpos' hfit').arena =
      (r.append (src ++ more) hpos'' hfit'').arena := by
    refine Array.ext_getElem? fun k => ?_
    by_cases hk : k < r.capacity
    · rcases r.exists_place hk with ⟨j, hj, rfl⟩
      have hplace : (r.append src hpos hfit).place j = r.place j := by
        rw [place, place, capacity_append]
        rfl
      have hsecond := (r.append src hpos hfit).getElem?_arena_append more hpos' hfit' (j := j)
        (by rw [capacity_append]; exact hj)
      have hlength := r.length_append src hpos hfit
      rw [hplace, hlength] at hsecond
      rw [hsecond, r.getElem?_arena_append src hpos hfit hj,
        r.getElem?_arena_append (src ++ more) hpos'' hfit'' hj]
      simp only [List.length_append, List.getElem?_append]
      grind
    · have hnone : ∀ (r' : RingBuffer), r'.capacity = r.capacity → r'.arena[k]? = none := by
        intro r' hr'
        exact Array.getElem?_eq_none (by rw [← capacity, hr']; omega)
      rw [hnone _ (by simp), hnone _ (by simp)]
  have hwritePos : ((r.append src hpos hfit).append more hpos' hfit').writePos =
      (r.append (src ++ more) hpos'' hfit'').writePos := by
    show ((r.writePos + src.length) % r.capacity + more.length) %
        (r.append src hpos hfit).capacity = (r.writePos + (src ++ more).length) % r.capacity
    rw [capacity_append, Nat.mod_add_mod, List.length_append, Nat.add_assoc]
  refine eq_of_fields harena rfl hwritePos ?_
  -- whether the buffer is full then is told by its cursors
  show (((r.append src hpos hfit).append more hpos' hfit').writePos == r.readPos) =
    ((r.append (src ++ more) hpos'' hfit'').writePos == r.readPos)
  rw [hwritePos]

theorem write_nil (r : RingBuffer) : (r.write []).2 = r := by
  simp [write]

/-- What fits is appended. -/
theorem write_of_room (r : RingBuffer) (src : Bytes) (hpos : 0 < src.length)
    (hfit : src.length ≤ r.freeSpace) : (r.write src).2 = r.append src hpos hfit := by
  have hall : src.take (min src.length r.freeSpace) = src := List.take_of_length_le (by omega)
  rw [write]
  split
  · simp only [hall]
  · omega

/-- Writing in two parts is writing at once. -/
theorem write_append (r : RingBuffer) (src more : Bytes)
    (hfit : (src ++ more).length ≤ r.freeSpace) :
    (r.write (src ++ more)).2 = ((r.write src).2.write more).2 := by
  by_cases hsrc : src = []
  · rw [hsrc, write_nil, List.nil_append]
  by_cases hmore : more = []
  · rw [hmore, write_nil, List.append_nil]
  have hpos : 0 < src.length := List.length_pos_iff.mpr hsrc
  have hpos' : 0 < more.length := List.length_pos_iff.mpr hmore
  have hlength : (src ++ more).length = src.length + more.length := List.length_append
  have hfirst : src.length ≤ r.freeSpace := by omega
  have hsecond : more.length ≤ (r.append src hpos hfirst).freeSpace := by
    have hsum := r.length_add_freeSpace
    have hsum' := (r.append src hpos hfirst).length_add_freeSpace
    rw [length_append, capacity_append] at hsum'
    omega
  rw [r.write_of_room (src ++ more) (by omega) hfit, r.write_of_room src hpos hfirst,
    write_of_room _ more hpos' hsecond, append_append]

end TcpReactor.RingBuffer
