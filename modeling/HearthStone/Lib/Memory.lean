/-
HearthStone.Lib.Memory — runs of cells in a flat memory.

A memory is a function from addresses. `load m p n` is what the `n` cells
from `p` on hold, `store m p xs` is the memory after a block copy to `p`.
A load splits where it is cut (`load_add`), returns what was stored there
and is not touched by a store next to it.
-/
import Mathlib.Data.List.Basic

namespace HearthStone.Lib

variable {α : Type*} {m m' : Nat → α} {p q n k : Nat} {xs ys : List α}

/-- The `n` cells from `p` on. -/
def load (m : Nat → α) (p n : Nat) : List α := (List.range n).map fun i => m (p + i)

/-- The memory after the copy of `xs` to `p`. -/
def store (m : Nat → α) (p : Nat) (xs : List α) : Nat → α :=
  fun a => if p ≤ a then (xs[a - p]?).getD (m a) else m a

@[simp] theorem length_load : (load m p n).length = n := by simp [load]

@[simp] theorem load_zero : load m p 0 = [] := rfl

theorem load_add (m : Nat → α) (p n k : Nat) :
    load m p (n + k) = load m p n ++ load m (p + n) k := by
  unfold load
  rw [List.range_add, List.map_append, List.map_map]
  congr 1
  refine List.map_congr_left ?_
  intro i _
  rw [Function.comp_apply, Nat.add_assoc]

theorem load_congr (h : ∀ a, p ≤ a → a < p + n → m' a = m a) : load m' p n = load m p n := by
  refine List.map_congr_left ?_
  intro i hi
  have hlt := List.mem_range.1 hi
  exact h (p + i) (by omega) (by omega)

/-- The first cells of a run. -/
theorem take_load (h : k ≤ n) : (load m p n).take k = load m p k := by
  obtain ⟨j, rfl⟩ := Nat.exists_eq_add_of_le h
  rw [load_add, List.take_left' length_load]

/-- What is left of a run without its first cells. -/
theorem drop_load (h : k ≤ n) : (load m p n).drop k = load m (p + k) (n - k) := by
  obtain ⟨j, rfl⟩ := Nat.exists_eq_add_of_le h
  rw [load_add, List.drop_left' length_load, Nat.add_sub_cancel_left]

theorem store_of_lt {a : Nat} (h : a < p) : store m p xs a = m a := if_neg (by omega)

theorem store_of_ge {a : Nat} (h : p + xs.length ≤ a) : store m p xs a = m a := by
  unfold store
  rw [if_pos (by omega), List.getElem?_eq_none (by omega), Option.getD_none]

theorem store_nil : store m p [] = m := by
  funext a
  rcases Nat.lt_or_ge a p with ha | ha
  · exact store_of_lt ha
  · exact store_of_ge ha

/-- A second store of the same length covers the first. -/
theorem store_store {ys : List α} (h : xs.length = ys.length) :
    store (store m p xs) p ys = store m p ys := by
  funext a
  by_cases ha : p + ys.length ≤ a
  · rw [store_of_ge ha, store_of_ge (by omega), store_of_ge ha]
  · by_cases hp : p ≤ a
    · have hlt : a - p < ys.length := by omega
      simp [store, hp, hlt]
    · rw [store_of_lt (by omega), store_of_lt (by omega), store_of_lt (by omega)]

/-- A store is read back. -/
theorem load_store (m : Nat → α) (p : Nat) (xs : List α) :
    load (store m p xs) p xs.length = xs := by
  refine List.ext_getElem (by simp) ?_
  intro i hi hlt
  simp [load, store, hlt]

/-- And leaves the cells before and behind it alone. -/
theorem load_store_of_disjoint (h : q + n ≤ p ∨ p + xs.length ≤ q) :
    load (store m p xs) q n = load m q n := by
  refine load_congr ?_
  intro a hqa hlt
  rcases h with h | h
  · exact store_of_lt (by omega)
  · exact store_of_ge (by omega)

/-- A store at the end of a run makes it longer. -/
theorem load_store_append (m : Nat → α) (p n : Nat) (xs : List α) :
    load (store m (p + n) xs) p (n + xs.length) = load m p n ++ xs := by
  rw [load_add, load_store_of_disjoint (Or.inl (Nat.le_refl _)), load_store]

end HearthStone.Lib
