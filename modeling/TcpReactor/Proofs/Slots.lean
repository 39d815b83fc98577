import TcpReactor.Slots

namespace TcpReactor

/-! # Slot tables are maps

A slot table binds numbers to values. Its free slots are exactly those of the list that is threaded
through it (`Threaded`), so the next value gets the slot that was freed last, or else the first slot
behind the table, and never one that is in use. Every operation keeps this up, and for each one a
`get?_…` lemma says what it does to the map.
-/

/-- Does the slot hold a value? -/
def Slot.isOccupied {α : Type} : Slot α → Bool
  | .occupied _ => true
  | .vacant _ => false

namespace Slots

variable {α : Type} {s : Slots α} {cells cells' : Array (Slot α)} {frees : List Nat}
  {first k j next : Nat} {v w : α}

/-! ## Look-ups -/

theorem get?_eq_some : s.get? k = some v ↔ s.cells[k]? = some (.occupied v) := by
  rw [get?]
  rcases s.cells[k]? with _ | _ | value <;> simp

theorem lt_size_of_get? (h : s.get? k = some v) : k < s.cells.size :=
  (Array.getElem?_eq_some_iff.mp (get?_eq_some.mp h)).1

theorem mem_toList : (k, v) ∈ s.toList ↔ s.get? k = some v := by
  have hmem : (k, v) ∈ s.toList ↔ ((.occupied v, k) : Slot α × Nat) ∈ s.cells.toList.zipIdx := by
    rw [toList, List.mem_filterMap]
    constructor
    · rintro ⟨⟨_ | value, key⟩, hcell, hkey⟩
      · cases hkey
      · cases hkey
        exact hcell
    · exact fun hcell => ⟨_, hcell, rfl⟩
  rw [hmem, List.mem_zipIdx_iff_getElem?, get?_eq_some, Array.getElem?_toList]

/-- The numbers come in increasing order. -/
theorem increasing_toList (s : Slots α) : s.toList.Pairwise fun a b => a.1 < b.1 := by
  have hkeys : s.cells.toList.zipIdx.Pairwise fun a b => a.2 < b.2 := by
    rw [← List.pairwise_map (f := Prod.snd) (R := (· < ·)), List.zipIdx_map_snd]
    exact List.pairwise_lt_range'
  refine List.Pairwise.filterMap _ (fun a a' hlt b hb b' hb' => ?_) hkeys
  rcases a with ⟨_ | value, key⟩
  · cases hb
  rcases a' with ⟨_ | value', key'⟩
  · cases hb'
  cases hb
  cases hb'
  exact hlt

/-- There are as many entries as slots with a value. -/
theorem length_toList (s : Slots α) : s.toList.length = s.cells.countP Slot.isOccupied := by
  have hcells : s.cells.countP Slot.isOccupied =
      s.cells.toList.zipIdx.countP (Slot.isOccupied ∘ Prod.fst) := by
    rw [← List.countP_map, List.zipIdx_map_fst, Array.countP_toList]
  rw [toList, List.length_filterMap_eq_countP, hcells]
  congr 1
  funext ⟨cell, key⟩
  cases cell with
  | vacant next => rfl
  | occupied value => rfl

/-! ## The free list -/

/-- From `first` on, the slots of the list are vacant and each leads to the next one. -/
def Linked (cells : Array (Slot α)) : Nat → List Nat → Prop
  | first, [] => first = noSlot
  | first, k :: frees =>
      first = k ∧ ∃ next, cells[k]? = some (.vacant next) ∧ Linked cells next frees

/-- Only the slots of the list matter. -/
theorem Linked.congr (hcells : ∀ k ∈ frees, ∀ next, cells[k]? = some (.vacant next) →
    cells'[k]? = some (.vacant next)) (h : Linked cells first frees) :
    Linked cells' first frees := by
  induction frees generalizing first with
  | nil => exact h
  | cons k frees ih =>
      rcases h with ⟨hfirst, next, hk, hrest⟩
      rw [List.forall_mem_cons] at hcells
      exact ⟨hfirst, next, hcells.1 next hk, ih hcells.2 hrest⟩

theorem Linked.vacant (h : Linked cells first frees) :
    ∀ k ∈ frees, ∃ next, cells[k]? = some (.vacant next) := by
  induction frees generalizing first with
  | nil => simp
  | cons k frees ih =>
      rcases h with ⟨_, next, hk, hrest⟩
      exact List.forall_mem_cons.mpr ⟨⟨next, hk⟩, ih hrest⟩

/-- The free slots are those of `frees`, in the order in which they will be used again, and the
values are counted. -/
structure Threaded (s : Slots α) (frees : List Nat) : Prop where
  linked : Linked s.cells s.free frees
  nodup : frees.Nodup
  complete : ∀ k next, s.cells[k]? = some (.vacant next) → k ∈ frees
  counted : s.size = s.cells.countP Slot.isOccupied
  /-- The mark of the end is not the number of a slot. -/
  small : s.cells.size ≤ noSlot

theorem threaded_empty : ({} : Slots α).Threaded [] where
  linked := rfl
  nodup := .nil
  complete := by simp
  counted := rfl
  small := Nat.zero_le _

namespace Threaded

/-- A vacant slot is inside the table, so its number is not the mark of the end. -/
theorem lt_size (h : s.Threaded frees) (hk : k ∈ frees) : k < s.cells.size := by
  rcases h.linked.vacant k hk with ⟨next, hcell⟩
  exact (Array.getElem?_eq_some_iff.mp hcell).1

theorem free_eq_noSlot (h : s.Threaded frees) : s.free = noSlot ↔ frees = [] := by
  cases frees with
  | nil => simp [show s.free = noSlot from h.linked]
  | cons k frees =>
      have hlt := h.lt_size (List.mem_cons_self (a := k))
      have hsmall := h.small
      simp only [show s.free = k from h.linked.1, reduceCtorEq, iff_false]
      omega

/-- The slot that was freed last is used next. -/
theorem nextKey_eq (h : s.Threaded frees) : s.nextKey = frees.headD s.cells.size := by
  rw [nextKey]
  cases frees with
  | nil => exact if_pos h.linked
  | cons k frees =>
      rw [if_neg (fun hend => by cases h.free_eq_noSlot.mp hend)]
      exact h.linked.1

/-- The slot that is used next is not in use. -/
theorem get?_nextKey (h : s.Threaded frees) : s.get? s.nextKey = none := by
  rw [h.nextKey_eq, get?]
  cases frees with
  | nil => simp
  | cons k frees =>
      rcases h.linked.vacant k List.mem_cons_self with ⟨next, hcell⟩
      rw [List.headD_cons, hcell]

/-- A table in which nothing is found is empty. -/
theorem size_eq_zero (h : s.Threaded frees) (hnone : ∀ k, s.get? k = none) : s.size = 0 := by
  rw [h.counted, Array.countP_eq_zero]
  intro cell hcell hoccupied
  rcases Array.mem_iff_getElem?.mp hcell with ⟨k, hk⟩
  cases cell with
  | vacant next => cases hoccupied
  | occupied value =>
      have hsome := get?_eq_some.mpr hk
      rw [hnone k] at hsome
      cases hsome

/-- Without a free slot the table is full. -/
theorem size_of_full (h : s.Threaded []) : s.size = s.cells.size := by
  rw [h.counted, Array.countP_eq_size]
  intro cell hcell
  rcases Array.mem_iff_getElem?.mp hcell with ⟨k, hk⟩
  cases cell with
  | occupied => rfl
  | vacant next => cases h.complete k next hk

end Threaded

/-! ## Insertion -/

theorem insert_fst (s : Slots α) (v : α) : (s.insert v).1 = s.nextKey := by
  rw [insert, nextKey]
  split
  · rfl
  · rfl

/-- A full table grows. -/
theorem insert_of_full (h : s.Threaded []) : (s.insert v).2 =
    { s with cells := s.cells.push (.occupied v), size := s.size + 1 } := by
  have hfree : s.free = noSlot := h.linked
  rw [insert, if_pos hfree]

/-- Otherwise the first free slot is used. -/
theorem insert_of_free (h : s.Threaded (k :: frees)) : ∃ next,
    s.cells[k]? = some (.vacant next) ∧ Linked s.cells next frees ∧ (s.insert v).2 =
      { cells := s.cells.setIfInBounds k (.occupied v), size := s.size + 1, free := next } := by
  rcases h.linked with ⟨hfree, next, hcell, hrest⟩
  refine ⟨next, hcell, hrest, ?_⟩
  rw [insert, if_neg (fun hend => by cases h.free_eq_noSlot.mp hend), hfree, hcell]

/-- What replacing a slot does to the count of the values. -/
theorem countP_replace {cell : Slot α} (cell' : Slot α) (hcell : cells[k]? = some cell) :
    (cells.setIfInBounds k cell').countP Slot.isOccupied +
        (if cell.isOccupied then 1 else 0) =
      cells.countP Slot.isOccupied + (if cell'.isOccupied then 1 else 0) := by
  rcases Array.getElem?_eq_some_iff.mp hcell with ⟨hk, rfl⟩
  rw [Array.setIfInBounds, dif_pos hk, Array.countP_set]
  -- the count of the library subtracts, so an occupied slot must be known to be counted
  have hpos : cells[k].isOccupied = true → 0 < cells.countP Slot.isOccupied := fun h =>
    Array.countP_pos_iff.mpr ⟨_, Array.getElem_mem hk, h⟩
  split
  · have := hpos ‹_›
    omega
  · omega

theorem threaded_insert (h : s.Threaded frees) (hroom : s.nextKey < noSlot) :
    (s.insert v).2.Threaded frees.tail := by
  have hnext := h.nextKey_eq
  -- without a free slot the table grows; otherwise the head of the list is used up
  cases frees with
  | nil =>
      rw [insert_of_full h]
      rw [List.headD_nil] at hnext
      refine ⟨h.linked, .nil, fun k next hcell => ?_, ?_, ?_⟩
      · rw [Array.getElem?_push] at hcell
        split at hcell
        · cases hcell
        · exact h.complete k next hcell
      · rw [Array.countP_push_of_pos rfl, ← h.counted]
      · rw [Array.size_push]
        omega
  | cons k frees =>
      rcases insert_of_free (v := v) h with ⟨next, hcell, hrest, hinsert⟩
      have hnotin := (List.nodup_cons.mp h.nodup).1
      rw [hinsert]
      -- the rest of the list does not pass through the slot that is filled
      refine ⟨hrest.congr ?_, (List.nodup_cons.mp h.nodup).2, ?_, ?_, ?_⟩
      · intro j hj next' hvacant
        rw [Array.getElem?_setIfInBounds_ne (fun hkj => hnotin (by rw [hkj]; exact hj))]
        exact hvacant
      · intro j next' hvacant
        rw [Array.getElem?_setIfInBounds] at hvacant
        split at hvacant
        · split at hvacant <;> cases hvacant
        · rcases List.mem_cons.mp (h.complete j next' hvacant) with rfl | hj
          · exact absurd rfl ‹_›
          · exact hj
      · have hcount := countP_replace (.occupied v) hcell
        simp only [Slot.isOccupied, Bool.false_eq_true, if_false, if_true] at hcount
        rw [← h.counted] at hcount
        exact hcount.symm
      · rw [Array.size_setIfInBounds]
        exact h.small

theorem get?_insert (h : s.Threaded frees) :
    (s.insert v).2.get? j = if j = s.nextKey then some v else s.get? j := by
  have hnext := h.nextKey_eq
  -- both branches write at the key that was predicted
  cases frees with
  | nil =>
      rw [insert_of_full h, get?, hnext, List.headD_nil, Array.getElem?_push]
      by_cases hj : j = s.cells.size
      · rw [if_pos hj, if_pos hj]
      · rw [if_neg hj, if_neg hj]
        rfl
  | cons k frees =>
      rcases insert_of_free (v := v) h with ⟨next, hcell, _, hinsert⟩
      have hlt := (Array.getElem?_eq_some_iff.mp hcell).1
      rw [hinsert, get?, hnext, List.headD_cons, Array.getElem?_setIfInBounds]
      by_cases hj : j = k
      · simp [hj, hlt]
      · rw [if_neg (fun hkj => hj hkj.symm), if_neg hj]
        rfl

/-- The number of values grows by one. -/
theorem size_insert (s : Slots α) (v : α) : (s.insert v).2.size = s.size + 1 := by
  rw [insert]
  split
  · rfl
  · rfl

/-- No value has gone, and slots were added only when all were in use. -/
structure Grows (s s' : Slots α) : Prop where
  size : s.size ≤ s'.size
  cells : s'.cells.size ≤ max s.cells.size s'.size

theorem Grows.refl (s : Slots α) : s.Grows s := ⟨Nat.le_refl _, Nat.le_max_left _ _⟩

theorem Grows.trans {s' s'' : Slots α} (h : s.Grows s') (h' : s'.Grows s'') : s.Grows s'' where
  size := Nat.le_trans h.size h'.size
  cells := by
    have := h.cells
    have := h'.cells
    have := h'.size
    omega

theorem grows_insert (h : s.Threaded frees) : s.Grows (s.insert v).2 := by
  cases frees with
  | nil =>
      rw [insert_of_full h]
      refine ⟨Nat.le_succ _, ?_⟩
      rw [Array.size_push, h.size_of_full]
      exact Nat.le_max_right _ _
  | cons k frees =>
      rcases insert_of_free (v := v) h with ⟨next, _, _, hinsert⟩
      rw [hinsert]
      refine ⟨Nat.le_succ _, ?_⟩
      rw [Array.size_setIfInBounds]
      exact Nat.le_max_left _ _

/-! ## Removal -/

/-- What is taken out is the value of the number, and its slot is the next to be used. -/
theorem remove_of_get? (h : s.get? k = some v) : s.remove k =
    (some v,
      { cells := s.cells.setIfInBounds k (.vacant s.free), size := s.size - 1, free := k }) := by
  rw [remove, get?_eq_some.mp h]

theorem remove_of_get?_none (h : s.get? k = none) : s.remove k = (none, s) := by
  rw [get?] at h
  rw [remove]
  rcases hcell : s.cells[k]? with _ | _ | value
  · rfl
  · rfl
  · rw [hcell] at h
    cases h

theorem get?_remove : (s.remove k).2.get? j = if j = k then none else s.get? j := by
  cases hget : s.get? k with
  | none =>
      rw [remove_of_get?_none hget]
      split
      · rw [← hget, ‹j = k›]
      · rfl
  | some v =>
      rw [remove_of_get? hget, get?, Array.getElem?_setIfInBounds]
      by_cases hj : j = k
      · have hlt := lt_size_of_get? hget
        simp [hj, hlt]
      · rw [if_neg (fun hkj => hj hkj.symm), if_neg hj]
        rfl

/-- If there was such a value, the number of values goes down by one. -/
theorem size_remove (h : s.Threaded frees) (hget : s.get? k = some v) :
    (s.remove k).2.size + 1 = s.size := by
  have hcell := get?_eq_some.mp hget
  have hpos : 0 < s.size := by
    rw [h.counted]
    exact Array.countP_pos_iff.mpr ⟨_, Array.mem_of_getElem? hcell, rfl⟩
  rw [remove_of_get? hget]
  exact Nat.sub_add_cancel hpos

theorem size_cells_remove : (s.remove k).2.cells.size = s.cells.size := by
  cases hget : s.get? k with
  | none => rw [remove_of_get?_none hget]
  | some v => rw [remove_of_get? hget, Array.size_setIfInBounds]

/-- The slot of a value that is taken out goes in front of the free slots. -/
theorem threaded_remove_of_get? (h : s.Threaded frees) (hget : s.get? k = some v) :
    (s.remove k).2.Threaded (k :: frees) := by
  have hcell := get?_eq_some.mp hget
  have hlt := lt_size_of_get? hget
  -- an occupied slot is not on the list, so putting it in front keeps the list without repeats
  have hnotin : k ∉ frees := by
    intro hk
    rcases h.linked.vacant k hk with ⟨next, hvacant⟩
    rw [hcell] at hvacant
    cases hvacant
  rw [remove_of_get? hget]
  refine ⟨⟨rfl, s.free, ?_, h.linked.congr ?_⟩, List.nodup_cons.mpr ⟨hnotin, h.nodup⟩, ?_, ?_, ?_⟩
  · exact Array.getElem?_setIfInBounds_self_of_lt hlt
  · intro j hj next hvacant
    rw [Array.getElem?_setIfInBounds_ne (fun hkj => hnotin (by rw [hkj]; exact hj))]
    exact hvacant
  · intro j next hvacant
    rw [Array.getElem?_setIfInBounds] at hvacant
    split at hvacant
    · exact List.mem_cons.mpr (.inl ‹k = j›.symm)
    · exact List.mem_cons_of_mem _ (h.complete j next hvacant)
  · have hcount := countP_replace (.vacant s.free) hcell
    simp only [Slot.isOccupied, Bool.false_eq_true, if_false, if_true] at hcount
    rw [← h.counted] at hcount
    show s.size - 1 = (s.cells.setIfInBounds k (.vacant s.free)).countP Slot.isOccupied
    omega
  · rw [Array.size_setIfInBounds]
    exact h.small

theorem threaded_remove (h : s.Threaded frees) : ∃ frees', (s.remove k).2.Threaded frees' := by
  cases hget : s.get? k with
  | none =>
      rw [remove_of_get?_none hget]
      exact ⟨frees, h⟩
  | some v => exact ⟨k :: frees, threaded_remove_of_get? h hget⟩

/-! ## Replacement -/

/-- A table that has the same slots free and as many slots. -/
theorem Threaded.congr {s' : Slots α} (h : s.Threaded frees)
    (hvacant : ∀ k next : Nat, s'.cells[k]? = some (.vacant next) ↔
      s.cells[k]? = some (.vacant next))
    (hfree : s'.free = s.free) (hsize : s'.size = s.size) (hcells : s'.cells.size = s.cells.size)
    (hcount : s'.cells.countP Slot.isOccupied = s.cells.countP Slot.isOccupied) :
    s'.Threaded frees where
  linked := by
    rw [hfree]
    exact h.linked.congr fun k _ next hcell => (hvacant k next).mpr hcell
  nodup := h.nodup
  complete k next hcell := h.complete k next ((hvacant k next).mp hcell)
  counted := by rw [hsize, hcount, h.counted]
  small := by rw [hcells]; exact h.small

theorem set_of_get? (h : s.get? k = some w) :
    s.set k v = { s with cells := s.cells.setIfInBounds k (.occupied v) } := by
  rw [set, get?_eq_some.mp h]

theorem set_of_get?_none (h : s.get? k = none) : s.set k v = s := by
  rw [get?] at h
  rw [set]
  rcases hcell : s.cells[k]? with _ | _ | value
  · rfl
  · rfl
  · rw [hcell] at h
    cases h

theorem get?_set (h : s.get? k = some w) :
    (s.set k v).get? j = if j = k then some v else s.get? j := by
  have hlt := lt_size_of_get? h
  rw [set_of_get? h, get?, Array.getElem?_setIfInBounds]
  by_cases hj : j = k
  · simp [hj, hlt]
  · rw [if_neg (fun hkj => hj hkj.symm), if_neg hj]
    rfl

theorem size_cells_set : (s.set k v).cells.size = s.cells.size := by
  cases hget : s.get? k with
  | none => rw [set_of_get?_none hget]
  | some w => rw [set_of_get? hget, Array.size_setIfInBounds]

theorem size_set : (s.set k v).size = s.size := by
  cases hget : s.get? k with
  | none => rw [set_of_get?_none hget]
  | some w => rw [set_of_get? hget]

theorem threaded_set (h : s.Threaded frees) : (s.set k v).Threaded frees := by
  cases hget : s.get? k with
  | none =>
      rw [set_of_get?_none hget]
      exact h
  | some w =>
      have hcell := get?_eq_some.mp hget
      rw [set_of_get? hget]
      -- an occupied slot is occupied again: no vacant slot appears or goes
      refine h.congr (fun j next => ?_) rfl rfl Array.size_setIfInBounds ?_
      · dsimp only
        rw [Array.getElem?_setIfInBounds]
        split
        · rename_i hkj
          rw [← hkj, hcell]
          split <;> simp
        · rfl
      · have hcount := countP_replace (.occupied v) hcell
        simp only [Slot.isOccupied, if_true] at hcount
        exact Nat.add_right_cancel hcount

theorem get?_map (f : α → α) : (s.map f).get? k = (s.get? k).map f := by
  rw [get?, get?, map, Array.getElem?_map]
  rcases s.cells[k]? with _ | _ | value <;> rfl

theorem threaded_map (f : α → α) (h : s.Threaded frees) : (s.map f).Threaded frees := by
  refine h.congr (fun k next => ?_) rfl rfl Array.size_map ?_
  · rw [map, Array.getElem?_map]
    rcases s.cells[k]? with _ | _ | value <;> simp
  · rw [map, Array.countP_map]
    refine congrArg (Array.countP · s.cells) (funext fun cell => ?_)
    cases cell <;> rfl

end Slots
end TcpReactor
