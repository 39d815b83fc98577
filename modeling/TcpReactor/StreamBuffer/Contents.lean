import TcpReactor.RingBuffer.Contents
import TcpReactor.StreamBuffer

namespace TcpReactor.StreamBuffer

/-! # The contents of a stream buffer

What each operation that succeeds does to `contents`. A closed buffer has no contents, and an
operation that fails gives no buffer, so nothing else happens to them.
-/

@[simp] theorem length_contents (b : StreamBuffer) : b.contents.length = b.length := by
  rw [contents, length]
  split
  · exact b.ring.length_contents
  · rfl

@[simp] theorem contents_new (n : Nat) : (new n).contents = [] := rfl

@[simp] theorem contents_close (b : StreamBuffer) : b.close.contents = [] := rfl

theorem contents_openUp {b b' : StreamBuffer} (h : b.openUp = .ok b') : b'.contents = [] := by
  rw [openUp] at h
  split at h
  · cases h
  · cases h
    exact b.ring.contents_reset

theorem contents_reset {b b' : StreamBuffer} (h : b.reset = .ok b') : b'.contents = [] := by
  rw [reset] at h
  split at h
  · cases h
    simp [contents]
  · cases h

/-! ## Transfer -/

theorem contents_write {b b' : StreamBuffer} {src : Bytes} (h : b.write src = .ok b') :
    b'.contents = b.contents ++ src := by
  have hwrite := b.ring.contents_write src
  have hroom := freeSpace_write h
  rw [write] at h
  split at h
  · cases h
  split at h
  · cases h
  split at h
  · cases h
  · -- the write fits, so the ring takes all of it
    rename_i hopen _ hfits
    have hall : src.take b.ring.freeSpace = src := List.take_of_length_le (by omega)
    dsimp only at h
    split at h
    · cases h
    · cases h
      simp only [contents]
      simp_all

theorem contents_consume {b b' : StreamBuffer} {n : Nat} (h : b.consume n = .ok b') :
    b'.contents = b.contents.drop n := by
  rw [consume] at h
  split at h
  · cases h
  split at h
  · cases h
  · cases h
    simp_all [contents]

/-- Bytes can be asked for only if some are there and some are wanted. -/
theorem checkReadable_eq_ok {b : StreamBuffer} {n : Nat} (h : b.checkReadable n = .ok ()) :
    b.isOpen = true ∧ n ≠ 0 ∧ b.ring.contents ≠ [] := by
  rw [checkReadable] at h
  split at h
  · cases h
  split at h
  · cases h
  split at h
  · cases h
  · rename_i hopen hn hempty
    refine ⟨by simpa using hopen, hn, fun hnil => hempty ?_⟩
    rw [RingBuffer.isEmpty_iff, ← RingBuffer.length_contents, hnil]
    rfl

/-- What is read is the front of the contents, and at least one byte. -/
theorem contents_read {b b' : StreamBuffer} {n : Nat} {data : Bytes}
    (h : b.read n = .ok (data, b')) :
    data = b.contents.take n ∧ b'.contents = b.contents.drop n ∧ data ≠ [] := by
  rw [read] at h
  cases hcheck : b.checkReadable n with
  | error e => simp [hcheck, bind, Except.bind] at h
  | ok _ =>
      rcases checkReadable_eq_ok hcheck with ⟨hopen, hn, hsome⟩
      simp only [hcheck, bind, Except.bind, pure, Except.pure, Except.ok.injEq,
        Prod.mk.injEq] at h
      rcases h with ⟨rfl, rfl⟩
      simp only [contents, hopen, if_true]
      exact ⟨b.ring.read_fst n, b.ring.contents_read n, by
        simp [b.ring.read_fst, hn, hsome]⟩

/-- A read splits the contents. -/
theorem contents_of_read {b b' : StreamBuffer} {n : Nat} {data : Bytes}
    (h : b.read n = .ok (data, b')) : b.contents = data ++ b'.contents := by
  rcases contents_read h with ⟨hdata, hrest, _⟩
  rw [hdata, hrest, List.take_append_drop]

/-- What is peeked at is the front of the contents. -/
theorem eq_take_of_peek {b : StreamBuffer} {n : Nat} {data : Bytes} (h : b.peek n = .ok data) :
    data = b.contents.take n := by
  rw [peek] at h
  cases hcheck : b.checkReadable n with
  | error e => simp [hcheck, bind, Except.bind] at h
  | ok _ =>
      rcases checkReadable_eq_ok hcheck with ⟨hopen, _, _⟩
      simp only [hcheck, bind, Except.bind, pure, Except.pure, Except.ok.injEq] at h
      simp only [contents, hopen, if_true]
      rw [← h, b.ring.peek_eq_take]

theorem contents_of_slices {b : StreamBuffer} {head tail : Bytes}
    (h : b.slices = .ok (head, tail)) : b.contents = head ++ tail := by
  rw [slices] at h
  split at h
  · rename_i hopen
    have hslices : b.ring.slices = (head, tail) := Except.ok.inj h
    simp only [contents, hopen, if_true, RingBuffer.contents, hslices]
  · cases h

/-- As long as anything is readable, the first slice has some of it. -/
theorem head_ne_nil_of_slices {b : StreamBuffer} {head tail : Bytes}
    (h : b.slices = .ok (head, tail)) (hsome : b.contents ≠ []) : head ≠ [] := by
  rw [slices] at h
  split at h
  · rename_i hopen
    have hslices : b.ring.slices = (head, tail) := Except.ok.inj h
    rw [contents, if_pos hopen] at hsome
    have := RingBuffer.slices_fst_ne_nil hsome
    rwa [hslices] at this
  · cases h

/-! ## When a transfer succeeds -/

@[simp] theorem isOpen_close (b : StreamBuffer) : b.close.isOpen = false := rfl

theorem contents_of_closed {b : StreamBuffer} (h : b.isOpen = false) : b.contents = [] := by
  simp [contents, h]

theorem isOpen_of_contents {b : StreamBuffer} (h : b.contents ≠ []) : b.isOpen = true := by
  cases hopen : b.isOpen with
  | true => rfl
  | false => exact absurd (contents_of_closed hopen) h

theorem isOpen_of_freeSpace {b : StreamBuffer} (h : 0 < b.freeSpace) : b.isOpen = true := by
  cases hopen : b.isOpen with
  | true => rfl
  | false => simp [freeSpace, hopen] at h

theorem isEmpty_iff (b : StreamBuffer) : b.isEmpty = true ↔ b.contents = [] := by
  rw [isEmpty, contents]
  cases b.isOpen with
  | false => simp
  | true =>
      simp only [Bool.not_true, Bool.false_or, if_true]
      rw [RingBuffer.isEmpty_iff, ← RingBuffer.length_contents, List.length_eq_zero_iff]

theorem isOpen_openUp {b b' : StreamBuffer} (h : b.openUp = .ok b') : b'.isOpen = true := by
  grind [openUp]

/-- Only a closed buffer is opened. -/
theorem isOpen_of_openUp {b b' : StreamBuffer} (h : b.openUp = .ok b') : b.isOpen = false := by
  grind [openUp]

theorem isOpen_write {b b' : StreamBuffer} {src : Bytes} (h : b.write src = .ok b') :
    b.isOpen = true ∧ b'.isOpen = true := by
  grind [write]

theorem isOpen_consume {b b' : StreamBuffer} {n : Nat} (h : b.consume n = .ok b') :
    b'.isOpen = true := by
  rw [consume] at h
  split at h
  · cases h
  · rename_i hopen
    split at h
    · cases h
    · cases h
      simpa using hopen

/-- A write of something that fits. -/
theorem write_of_room {b : StreamBuffer} {src : Bytes} (hopen : b.isOpen = true) (hsrc : src ≠ [])
    (hfits : src.length ≤ b.freeSpace) :
    b.write src = .ok { b with ring := (b.ring.write src).2 } := by
  have hroom : src.length ≤ b.ring.freeSpace := by simpa [freeSpace, hopen] using hfits
  have hall := b.ring.write_fst src
  rw [Nat.min_eq_left hroom] at hall
  have hnonempty : src.isEmpty = false := by simpa using hsrc
  simp [write, hopen, hnonempty, hall, Nat.not_lt.mpr hroom]

/-- A write of something that does not fit. -/
theorem write_of_no_room {b : StreamBuffer} {src : Bytes} (hopen : b.isOpen = true)
    (hfull : b.freeSpace < src.length) : b.write src = .error .overflow := by
  have hnone : b.ring.freeSpace < src.length := by simpa [freeSpace, hopen] using hfull
  have hnonempty : src.isEmpty = false := by
    cases src with
    | nil => exact absurd hfull (Nat.not_lt_zero _)
    | cons => rfl
  simp [write, hopen, hnonempty, hnone]

/-- A write of something that fits succeeds. -/
theorem exists_write {b : StreamBuffer} {src : Bytes} (hopen : b.isOpen = true) (hsrc : src ≠ [])
    (hfits : src.length ≤ b.freeSpace) : ∃ b', b.write src = .ok b' :=
  ⟨_, write_of_room hopen hsrc hfits⟩

/-- What is there can be dropped. -/
theorem exists_consume {b : StreamBuffer} {n : Nat} (hopen : b.isOpen = true)
    (hn : n ≤ b.length) : ∃ b', b.consume n = .ok b' := by
  have hthere : n ≤ b.ring.length := by simpa [length, hopen] using hn
  refine ⟨{ b with ring := b.ring.consume n }, ?_⟩
  simp [consume, hopen, Nat.not_lt.mpr hthere]

theorem isOpen_read {b b' : StreamBuffer} {n : Nat} {data : Bytes}
    (h : b.read n = .ok (data, b')) : b'.isOpen = true := by
  rw [read] at h
  cases hcheck : b.checkReadable n with
  | error e => simp [hcheck, bind, Except.bind] at h
  | ok _ =>
      simp only [hcheck, bind, Except.bind, pure, Except.pure, Except.ok.injEq,
        Prod.mk.injEq] at h
      rw [← h.2]
      exact (checkReadable_eq_ok hcheck).1

/-- Bytes that are there can be asked for. -/
theorem checkReadable_of_contents {b : StreamBuffer} {n : Nat} (hn : n ≠ 0)
    (hsome : b.contents ≠ []) : b.checkReadable n = .ok () := by
  have hopen := isOpen_of_contents hsome
  have hnonempty : b.ring.isEmpty = false := by
    rw [← Bool.not_eq_true]
    intro hempty
    exact hsome (b.isEmpty_iff.mp (by simp [isEmpty, hempty]))
  simp [checkReadable, hopen, hn, hnonempty]

/-- What is there can be read. -/
theorem exists_read {b : StreamBuffer} {n : Nat} (hn : n ≠ 0) (hsome : b.contents ≠ []) :
    ∃ data b', b.read n = .ok (data, b') := by
  rw [read, checkReadable_of_contents hn hsome]
  exact ⟨_, _, rfl⟩

/-- What is there can be peeked at. -/
theorem peek_of_contents {b : StreamBuffer} {n : Nat} (hn : n ≠ 0) (hsome : b.contents ≠ []) :
    b.peek n = .ok (b.contents.take n) := by
  have hcheck := checkReadable_of_contents hn hsome
  have hpeek : b.peek n = .ok (b.ring.peek n) := by
    rw [peek, hcheck]
    rfl
  rw [hpeek, eq_take_of_peek hpeek]

end TcpReactor.StreamBuffer
