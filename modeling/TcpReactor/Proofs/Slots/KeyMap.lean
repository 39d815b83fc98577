import Mathlib.Data.Finmap
import Mathlib.Data.Finset.Sort
import Mathlib.Order.Bounds.Basic
import TcpReactor.Proofs.Simulation
import TcpReactor.Proofs.Slots

namespace TcpReactor

/-! # A slot table is a map and a stack

Whoever uses a slot table cannot tell it from a finite map beside a stack of freed numbers: a new
value gets the number on top of the stack, or else the number of the slots, and the number of a
removed value is pushed (`Slots.answers_eq_keyMap`). The table keeps both in one array, in which the
stack is threaded through the vacant slots. There are never more slots than there once were values
at the same time (`Slots.isGreatest_size_cells`).
-/

namespace Slots

/-- What can be asked of a table. To update a value is to overwrite it in place. -/
inductive Op (α : Type) where
  | insert (value : α)
  | remove (key : Nat)
  | get (key : Nat)
  | update (key : Nat) (value : α)
  | list
  | size
  | nextKey

inductive Answer (α : Type) where
  | number (n : Nat)
  | value (value : Option α)
  | entries (entries : List (Nat × α))

end Slots

/-! ## The specification -/

/-- A finite map, a stack of numbers that were in use, and how many numbers have been given out. -/
structure KeyMap (α : Type) where
  bound : Finmap fun _ : Nat => α := ∅
  frees : List Nat := []
  slots : Nat := 0

namespace KeyMap

variable {α : Type}

def size (m : KeyMap α) : Nat := m.bound.keys.card

/-- The number of the next value: that on top of the stack, or else one that was never in use. -/
def nextKey (m : KeyMap α) : Nat := m.frees.headD m.slots

def insert (m : KeyMap α) (value : α) : KeyMap α where
  bound := m.bound.insert m.nextKey value
  frees := m.frees.tail
  slots := if m.frees = [] then m.slots + 1 else m.slots

def remove (m : KeyMap α) (key : Nat) : KeyMap α :=
  match m.bound.lookup key with
  | some _ => { m with bound := m.bound.erase key, frees := key :: m.frees }
  | none => m

def update (m : KeyMap α) (key : Nat) (value : α) : KeyMap α :=
  match m.bound.lookup key with
  | some _ => { m with bound := m.bound.insert key value }
  | none => m

/-- The numbers in use with their values, in increasing order. -/
def entries (m : KeyMap α) : List (Nat × α) :=
  (m.bound.keys.sort (· ≤ ·)).filterMap fun key => (m.bound.lookup key).map (key, ·)

def step (m : KeyMap α) : Slots.Op α → Slots.Answer α × KeyMap α
  | .insert value => (.number m.nextKey, m.insert value)
  | .remove key => (.value (m.bound.lookup key), m.remove key)
  | .get key => (.value (m.bound.lookup key), m)
  | .update key value => (.value (m.bound.lookup key), m.update key value)
  | .list => (.entries m.entries, m)
  | .size => (.number m.size, m)
  | .nextKey => (.number m.nextKey, m)

theorem mem_entries {m : KeyMap α} {key : Nat} {value : α} :
    (key, value) ∈ m.entries ↔ m.bound.lookup key = some value := by
  unfold entries
  rw [List.mem_filterMap]
  constructor
  · rintro ⟨key', _, hmap⟩
    obtain ⟨value', hlookup, heq⟩ := Option.map_eq_some_iff.mp hmap
    cases heq
    exact hlookup
  · intro hlookup
    refine ⟨key, ?_, Option.map_eq_some_iff.mpr ⟨value, hlookup, rfl⟩⟩
    rw [Finset.mem_sort, Finmap.mem_keys]
    exact Finmap.mem_of_lookup_eq_some hlookup

theorem increasing_entries (m : KeyMap α) : m.entries.Pairwise fun a b => a.1 < b.1 := by
  unfold entries
  refine List.Pairwise.filterMap _ (fun key key' hlt entry hentry entry' hentry' => ?_)
    (Finset.sortedLT_sort m.bound.keys).pairwise
  obtain ⟨value, _, heq⟩ := Option.map_eq_some_iff.mp hentry
  obtain ⟨value', _, heq'⟩ := Option.map_eq_some_iff.mp hentry'
  cases heq
  cases heq'
  exact hlt

end KeyMap

namespace Slots

variable {α : Type} {s : Slots α} {m : KeyMap α} {k : Nat} {v : α}

def step (s : Slots α) : Op α → Answer α × Slots α
  | .insert value => (.number (s.insert value).1, (s.insert value).2)
  | .remove key => (.value (s.remove key).1, (s.remove key).2)
  | .get key => (.value (s.get? key), s)
  | .update key value => (.value (s.get? key), s.set key value)
  | .list => (.entries s.toList, s)
  | .size => (.number s.size, s)
  | .nextKey => (.number s.nextKey, s)

/-! ## What a table shows -/

/-- A table that stands for a map and a stack: what it shows is in the map, its vacant slots are
threaded in the order of the stack, without a cycle, and the mark of the end is not the number of a
slot. -/
structure Represents (s : Slots α) (m : KeyMap α) : Prop where
  get?_eq : ∀ k, s.get? k = m.bound.lookup k
  toList_eq : s.toList = m.entries
  toList_increasing : s.toList.Pairwise fun a b => a.1 < b.1
  size_eq : s.size = m.size
  slots_eq : s.cells.size = m.slots
  nextKey_eq : s.nextKey = m.nextKey
  nextKey_unbound : m.nextKey ∉ m.bound
  linked : Linked s.cells s.free m.frees
  acyclic : m.frees.Nodup
  vacant_iff : ∀ k, k ∈ m.frees ↔ ∃ next, s.cells[k]? = some (.vacant next)
  noSlot_unused : noSlot ∉ m.frees ∧ noSlot ∉ m.bound ∧ m.nextKey ≠ noSlot

/-- Two lists in increasing order with the same entries are the same. -/
theorem eq_of_increasing {l l' : List (Nat × α)} (h : l.Pairwise fun a b => a.1 < b.1)
    (h' : l'.Pairwise fun a b => a.1 < b.1) (hmem : ∀ a, a ∈ l ↔ a ∈ l') : l = l' := by
  have hne : ∀ {a b : Nat × α}, a.1 < b.1 → a ≠ b := by
    rintro a b hlt rfl
    exact Nat.lt_irrefl _ hlt
  have hperm : l.Perm l' := (List.perm_ext_iff_of_nodup (h.imp hne) (h'.imp hne)).mpr hmem
  refine List.Perm.eq_of_pairwise (fun a b _ _ hab hba => ?_) h h' hperm
  omega

/-- What the table has to keep up for this. -/
structure Mirrors (s : Slots α) (m : KeyMap α) : Prop where
  threaded : s.Threaded m.frees
  slots_eq : s.cells.size = m.slots
  get?_eq : ∀ k, s.get? k = m.bound.lookup k

theorem mirrors_empty : ({} : Slots α).Mirrors {} := ⟨threaded_empty, rfl, fun _ => rfl⟩

theorem Mirrors.nextKey_eq (h : s.Mirrors m) : s.nextKey = m.nextKey := by
  rw [h.threaded.nextKey_eq, h.slots_eq]
  rfl

theorem Mirrors.toList_eq (h : s.Mirrors m) : s.toList = m.entries := by
  refine eq_of_increasing s.increasing_toList m.increasing_entries fun entry => ?_
  rw [mem_toList, KeyMap.mem_entries, h.get?_eq]

theorem Mirrors.size_eq (h : s.Mirrors m) : s.size = m.size := by
  -- the numbers in use, as a set, are those of the entries
  have hkeys : m.bound.keys = (s.toList.map Prod.fst).toFinset := by
    ext k
    rw [Finmap.mem_keys, Finmap.mem_iff, List.mem_toFinset, List.mem_map]
    constructor
    · rintro ⟨v, hlookup⟩
      exact ⟨(k, v), mem_toList.mpr ((h.get?_eq k).trans hlookup), rfl⟩
    · rintro ⟨⟨k', v⟩, hmem, rfl⟩
      exact ⟨v, (h.get?_eq k').symm.trans (mem_toList.mp hmem)⟩
  have hnodup : (s.toList.map Prod.fst).Nodup :=
    List.pairwise_map.mpr (s.increasing_toList.imp Nat.ne_of_lt)
  rw [h.threaded.counted, ← s.length_toList, KeyMap.size, hkeys,
    List.toFinset_card_of_nodup hnodup, List.length_map]

theorem Mirrors.nextKey_unbound (h : s.Mirrors m) : m.nextKey ∉ m.bound := by
  rw [← Finmap.lookup_eq_none, ← h.get?_eq, ← h.nextKey_eq]
  exact h.threaded.get?_nextKey

/-- The next number is smaller than the mark of the end as long as the table is. -/
theorem Mirrors.nextKey_lt (h : s.Mirrors m) (hsmall : s.cells.size < noSlot) :
    s.nextKey < noSlot := by
  rw [h.threaded.nextKey_eq]
  cases hfrees : m.frees with
  | nil => exact hsmall
  | cons k frees =>
      have hlt := h.threaded.lt_size (by rw [hfrees]; exact List.mem_cons_self (a := k))
      exact Nat.lt_trans hlt hsmall

theorem Mirrors.represents (h : s.Mirrors m) (hsmall : s.cells.size < noSlot) :
    s.Represents m where
  get?_eq := h.get?_eq
  toList_eq := h.toList_eq
  toList_increasing := s.increasing_toList
  size_eq := h.size_eq
  slots_eq := h.slots_eq
  nextKey_eq := h.nextKey_eq
  nextKey_unbound := h.nextKey_unbound
  linked := h.threaded.linked
  acyclic := h.threaded.nodup
  vacant_iff k :=
    ⟨h.threaded.linked.vacant k, fun ⟨next, hcell⟩ => h.threaded.complete k next hcell⟩
  noSlot_unused := by
    have hnext := h.nextKey_eq ▸ h.nextKey_lt hsmall
    -- every key in use or free is a place in the table, and the end mark lies behind all of them
    refine ⟨fun hmem => ?_, fun hmem => ?_, Nat.ne_of_lt hnext⟩
    · have hlt := h.threaded.lt_size hmem
      omega
    · obtain ⟨v, hlookup⟩ := Finmap.mem_iff.mp hmem
      have hlt := lt_size_of_get? ((h.get?_eq noSlot).trans hlookup)
      omega

/-! ## What an operation does to it -/

/-- The table never shrinks. -/
theorem size_cells_le_step (s : Slots α) (op : Op α) :
    s.cells.size ≤ (s.step op).2.cells.size := by
  cases op with
  | insert v =>
      show _ ≤ (s.insert v).2.cells.size
      unfold insert
      by_cases hfree : s.free = noSlot
      · rw [if_pos hfree, Array.size_push]
        exact Nat.le_succ _
      · rw [if_neg hfree, Array.size_setIfInBounds]
  | remove k => exact Nat.le_of_eq size_cells_remove.symm
  | update k v => exact Nat.le_of_eq size_cells_set.symm
  | get k => exact Nat.le_refl _
  | list => exact Nat.le_refl _
  | size => exact Nat.le_refl _
  | nextKey => exact Nat.le_refl _

theorem size_cells_lt_of_step {bound : Nat} (s : Slots α) (op : Op α)
    (h : (s.step op).2.cells.size < bound) : s.cells.size < bound :=
  Nat.lt_of_le_of_lt (s.size_cells_le_step op) h

theorem mirrors_insert (h : s.Mirrors m) (hsmall : s.cells.size < noSlot) :
    (s.insert v).2.Mirrors (m.insert v) where
  threaded := threaded_insert h.threaded (h.nextKey_lt hsmall)
  slots_eq := by
    have hthreaded := h.threaded
    have hslots := h.slots_eq
    show _ = if m.frees = [] then m.slots + 1 else m.slots
    -- the map grows by a slot exactly where the table does: if no slot is free
    cases hfrees : m.frees with
    | nil =>
        rw [hfrees] at hthreaded
        rw [insert_of_full hthreaded, if_pos rfl, Array.size_push, hslots]
    | cons k frees =>
        rw [hfrees] at hthreaded
        obtain ⟨next, _, _, hinsert⟩ := insert_of_free (v := v) hthreaded
        rw [hinsert, if_neg (List.cons_ne_nil k frees), Array.size_setIfInBounds, hslots]
  get?_eq k := by
    rw [get?_insert h.threaded, h.nextKey_eq]
    show _ = Finmap.lookup k (m.bound.insert m.nextKey v)
    by_cases hk : k = m.nextKey
    · rw [if_pos hk, hk, Finmap.lookup_insert]
    · rw [if_neg hk, Finmap.lookup_insert_of_ne _ hk, h.get?_eq]

theorem remove_fst (s : Slots α) (k : Nat) : (s.remove k).1 = s.get? k := by
  cases hget : s.get? k with
  | none => rw [remove_of_get?_none hget]
  | some v => rw [remove_of_get? hget]

theorem mirrors_remove (h : s.Mirrors m) : (s.remove k).2.Mirrors (m.remove k) := by
  unfold KeyMap.remove
  cases hget : s.get? k with
  | none =>
      rw [remove_of_get?_none hget, ← h.get?_eq, hget]
      exact h
  | some v =>
      have hlookup := (h.get?_eq k).symm.trans hget
      rw [hlookup]
      refine ⟨threaded_remove_of_get? h.threaded hget, ?_, fun j => ?_⟩
      · rw [size_cells_remove, h.slots_eq]
      · rw [get?_remove]
        by_cases hj : j = k
        · rw [if_pos hj, hj, Finmap.lookup_erase]
        · rw [if_neg hj, Finmap.lookup_erase_ne hj, h.get?_eq]

theorem mirrors_update (h : s.Mirrors m) : (s.set k v).Mirrors (m.update k v) := by
  unfold KeyMap.update
  cases hget : s.get? k with
  | none =>
      rw [set_of_get?_none hget, ← h.get?_eq, hget]
      exact h
  | some w =>
      have hlookup := (h.get?_eq k).symm.trans hget
      rw [hlookup]
      refine ⟨threaded_set h.threaded, ?_, fun j => ?_⟩
      · rw [size_cells_set, h.slots_eq]
      · rw [get?_set hget]
        by_cases hj : j = k
        · rw [if_pos hj, hj, Finmap.lookup_insert]
        · rw [if_neg hj, Finmap.lookup_insert_of_ne _ hj, h.get?_eq]

/-- Each operation gets the answer of the map, and the table then stands for the next map. -/
theorem mirrors_step (op : Op α) (hsmall : (s.step op).2.cells.size < noSlot)
    (h : s.Mirrors m) : (s.step op).1 = (m.step op).1 ∧ (s.step op).2.Mirrors (m.step op).2 := by
  -- the table never shrinks, so it was small enough before as well
  have hbefore := s.size_cells_lt_of_step op hsmall
  cases op with
  | insert v =>
      constructor
      · show Answer.number _ = Answer.number _
        rw [insert_fst, h.nextKey_eq]
      · exact mirrors_insert h hbefore
  | remove k =>
      constructor
      · show Answer.value _ = Answer.value _
        rw [remove_fst, h.get?_eq]
      · exact mirrors_remove h
  | get k => exact ⟨congrArg Answer.value (h.get?_eq k), h⟩
  | update k v => exact ⟨congrArg Answer.value (h.get?_eq k), mirrors_update h⟩
  | list => exact ⟨congrArg Answer.entries h.toList_eq, h⟩
  | size => exact ⟨congrArg Answer.number h.size_eq, h⟩
  | nextKey => exact ⟨congrArg Answer.number h.nextKey_eq, h⟩

/-! ## The number of slots -/

theorem Threaded.size_le {frees : List Nat} (h : s.Threaded frees) : s.size ≤ s.cells.size := by
  rw [h.counted]
  exact Array.countP_le_size

/-- A slot is added only for a value that makes them more than ever. -/
theorem size_cells_step (op : Op α) (hsmall : (s.step op).2.cells.size < noSlot)
    (h : s.Mirrors m) : (s.step op).2.cells.size = max s.cells.size (s.step op).2.size := by
  -- the values fit into the slots; only an insertion can need a new one
  have hle := (mirrors_step op hsmall h).2.threaded.size_le
  have hgrows := s.size_cells_le_step op
  cases op with
  | insert v =>
      have := (grows_insert (v := v) h.threaded).cells
      have : (s.step (.insert v)).2 = (s.insert v).2 := rfl
      rw [this] at hle hgrows ⊢
      omega
  | remove k =>
      have : (s.step (.remove k)).2.cells.size = s.cells.size := size_cells_remove
      omega
  | update k v =>
      have : (s.step (.update k v)).2.cells.size = s.cells.size := size_cells_set
      omega
  | get k => exact (Nat.max_eq_left hle).symm
  | list => exact (Nat.max_eq_left hle).symm
  | size => exact (Nat.max_eq_left hle).symm
  | nextKey => exact (Nat.max_eq_left hle).symm

/-- The sizes that a table has had once it has gone through all of `ops`. -/
def pastSizes (s : Slots α) (ops : List (Op α)) : Set Nat :=
  {n | ∃ before, before <+: ops ∧ n = (answers step s before).2.size}

theorem mem_pastSizes_cons {op : Op α} {ops : List (Op α)} {n : Nat} :
    n ∈ s.pastSizes (op :: ops) ↔ n = s.size ∨ n ∈ (s.step op).2.pastSizes ops := by
  unfold pastSizes
  constructor
  · -- a front part of the operations is empty, or has the first one and a front part of the rest
    rintro ⟨before, hbefore, rfl⟩
    cases before with
    | nil => exact .inl rfl
    | cons op' before =>
        obtain ⟨rfl, hrest⟩ := List.cons_prefix_cons.mp hbefore
        exact .inr ⟨before, hrest, rfl⟩
  · rintro (rfl | ⟨before, hbefore, rfl⟩)
    · exact ⟨[], List.nil_prefix, rfl⟩
    · exact ⟨op :: before, List.cons_prefix_cons.mpr ⟨rfl, hbefore⟩, rfl⟩

/-- The number of slots is what it was, or the largest size since. -/
theorem isGreatest_size_cells {ops : List (Op α)}
    (hsmall : (answers step s ops).2.cells.size < noSlot) (h : s.Mirrors m) :
    IsGreatest ({s.cells.size} ∪ s.pastSizes ops) (answers step s ops).2.cells.size := by
  -- on the operations; the sizes since then are the first one and those after the first operation
  induction ops generalizing s m with
  | nil =>
      refine ⟨.inl rfl, ?_⟩
      rintro n (rfl | ⟨before, hbefore, rfl⟩)
      · exact Nat.le_refl _
      · rw [List.prefix_nil.mp hbefore]
        exact h.threaded.size_le
  | cons op ops ih =>
      have hafter : (answers step (s.step op).2 ops).2.cells.size < noSlot := hsmall
      have hnext : (s.step op).2.cells.size < noSlot :=
        of_answers (I := fun s : Slots α => s.cells.size < noSlot) size_cells_lt_of_step hafter
      have hstep := size_cells_step op hnext h
      obtain ⟨hmem, hupper⟩ := ih hafter (mirrors_step op hnext h).2
      constructor
      · rcases hmem with hfirst | hlater
        · -- nothing was added after the first operation
          show (answers step (s.step op).2 ops).2.cells.size ∈ _
          rw [show _ = (s.step op).2.cells.size from hfirst, hstep]
          rcases Nat.le_total (s.step op).2.size s.cells.size with hle | hle
          · rw [Nat.max_eq_left hle]
            exact .inl rfl
          · rw [Nat.max_eq_right hle]
            exact .inr (mem_pastSizes_cons.mpr (.inr ⟨[], List.nil_prefix, rfl⟩))
        · exact .inr (mem_pastSizes_cons.mpr (.inr hlater))
      · have hslots := hupper (.inl rfl)
        rintro n (rfl | hn)
        · exact Nat.le_trans (s.size_cells_le_step op) hslots
        rcases mem_pastSizes_cons.mp hn with rfl | hlater
        · exact Nat.le_trans h.threaded.size_le
            (Nat.le_trans (s.size_cells_le_step op) hslots)
        · exact hupper (.inr hlater)

/-- A new slot table is a map and a stack of free numbers, as long as it has fewer slots than the
mark of the end: every sequence of operations gets the answers of the map, and the table stands for
the map afterwards. It has as many slots as there were ever values at once. -/
theorem answers_eq_keyMap (ops : List (Op α))
    (hsmall : (answers step {} ops).2.cells.size < noSlot) :
    let (answered, s) := answers step {} ops
    let (expected, m) := answers KeyMap.step {} ops
    answered = expected ∧ s.Represents m ∧ IsGreatest (pastSizes {} ops) s.cells.size := by
  have hsame : (answers step {} ops).1 = (answers KeyMap.step {} ops).1 ∧
      (answers step {} ops).2.Mirrors (answers KeyMap.step {} ops).2 :=
    answers_of_simulates (I := fun s => s.cells.size < noSlot) (R := Mirrors)
      size_cells_lt_of_step (fun _ _ op => mirrors_step op) hsmall mirrors_empty
  refine ⟨hsame.1, hsame.2.represents hsmall, ?_⟩
  have hgreatest := isGreatest_size_cells hsmall (mirrors_empty (α := α))
  have hnone : (({} : Slots α).cells.size) ∈ pastSizes ({} : Slots α) ops :=
    ⟨[], List.nil_prefix, rfl⟩
  rwa [Set.singleton_union, Set.insert_eq_of_mem hnone] at hgreatest

/-- Two numbers are given out; the first is freed, used again, and freed twice. -/
def reuse : List (Op Char) :=
  [.insert 'a', .insert 'b', .remove 0, .nextKey, .insert 'c', .update 0 'd', .remove 0, .remove 0,
    .list]

theorem answers_eq_keyMap_reuse :
    let (answered, s) := answers step {} reuse
    let (expected, m) := answers KeyMap.step {} reuse
    answered = expected ∧ s.Represents m ∧ IsGreatest (pastSizes {} reuse) s.cells.size :=
  answers_eq_keyMap reuse (by decide)

end Slots
end TcpReactor
