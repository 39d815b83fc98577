import Mathlib.Data.Multiset.MapFold
import TcpReactor.Proofs.Slots

namespace TcpReactor

/-! # The values of a slot table

What is left of a slot table if one does not look at the numbers: the values, each as often as it
occurs.
-/

/-- The value in a slot, if there is one. -/
def Slot.value? {α : Type} : Slot α → Option α
  | .occupied value => some value
  | .vacant _ => none

namespace Slots

variable {α : Type} {s : Slots α} {frees : List Nat} {k : Nat} {v w : α}

def values (s : Slots α) : Multiset α := s.cells.toList.filterMap Slot.value?

theorem mem_values : v ∈ s.values ↔ ∃ k, s.get? k = some v := by
  rw [values, Multiset.mem_coe, List.mem_filterMap]
  constructor
  · rintro ⟨cell, hcell, hvalue⟩
    rcases List.mem_iff_getElem?.mp hcell with ⟨k, hk⟩
    cases cell with
    | vacant next => cases hvalue
    | occupied value =>
        cases hvalue
        exact ⟨k, get?_eq_some.mpr (by rwa [Array.getElem?_toList] at hk)⟩
  · rintro ⟨k, hget⟩
    exact ⟨_, List.mem_of_getElem? (by rw [Array.getElem?_toList, get?_eq_some.mp hget]), rfl⟩

/-- No number is listed twice. -/
theorem pairwise_toList (s : Slots α) : s.toList.Pairwise fun a b => a.1 ≠ b.1 :=
  s.increasing_toList.imp Nat.ne_of_lt

/-- The slots but one are not concerned by what is in that one. -/
theorem exists_filterMap_set {cells : List (Slot α)} {cell : Slot α}
    (hcell : cells[k]? = some cell) :
    ∃ rest : Multiset α, cells.filterMap Slot.value? = cell.value?.toList + rest ∧
      ∀ cell' : Slot α, (cells.set k cell').filterMap Slot.value? = cell'.value?.toList + rest := by
  rcases List.getElem?_eq_some_iff.mp hcell with ⟨hlt, hk⟩
  let front := (cells.take k).filterMap Slot.value?
  let back := (cells.drop (k + 1)).filterMap Slot.value?
  have hset (cell' : Slot α) : (((cells.set k cell').filterMap Slot.value? : List α) : Multiset α) =
      cell'.value?.toList + ↑(front ++ back) := by
    rw [List.set_eq_take_append_cons_drop, if_pos hlt, List.filterMap_append,
      List.filterMap_cons, Multiset.coe_add]
    cases cell' with
    | vacant next => rfl
    | occupied value => exact Multiset.coe_eq_coe.mpr List.perm_middle
  refine ⟨_, ?_, hset⟩
  rw [← hset, ← hk, List.set_getElem_self]

/-- A value that is replaced or taken out is one of the values. -/
theorem exists_values_eq_cons (hget : s.get? k = some v) : ∃ rest : Multiset α,
    s.values = v ::ₘ rest ∧ (∀ w, (s.set k w).values = w ::ₘ rest) ∧
      (s.remove k).2.values = rest := by
  have hcell := get?_eq_some.mp hget
  rw [← Array.getElem?_toList] at hcell
  rcases exists_filterMap_set hcell with ⟨rest, hrest, hset⟩
  refine ⟨rest, hrest, fun w => ?_, ?_⟩
  · rw [set_of_get? hget, values, Array.toList_setIfInBounds]
    exact hset (.occupied w)
  · rw [remove_of_get? hget, values, Array.toList_setIfInBounds, hset]
    exact Multiset.zero_add rest

/-- A new value is added to the others, wherever it goes. -/
theorem values_insert (h : s.Threaded frees) (v : α) :
    (s.insert v).2.values = v ::ₘ s.values := by
  cases frees with
  | nil =>
      rw [insert_of_full h, values, values, Array.toList_push, List.filterMap_append]
      exact Multiset.coe_eq_coe.mpr List.perm_append_comm
  | cons k frees =>
      -- the slot was vacant, so it has not counted before
      rcases insert_of_free (v := v) h with ⟨next, hcell, _, hinsert⟩
      rw [← Array.getElem?_toList] at hcell
      rcases exists_filterMap_set hcell with ⟨rest, hrest, hset⟩
      rw [hinsert, values, values, Array.toList_setIfInBounds, hset, hrest]
      exact congrArg (v ::ₘ ·) (Multiset.zero_add rest).symm

theorem values_map (s : Slots α) (f : α → α) : (s.map f).values = s.values.map f := by
  rw [values, values, map, Array.toList_map, Multiset.map_coe, List.filterMap_map,
    List.map_filterMap]
  congr 2
  funext cell
  cases cell <;> rfl

end Slots
end TcpReactor
