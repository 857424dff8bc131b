/-
HearthStone.Lib.Probe — linear probing round a table, and the live cells
of a list before and after one cell is written.

`probeFrom n k curr` lists the `k` places visited from `curr`, one step
at a time round a table of `n`. From a place in the table, `n` steps
visit every place (`mem_probeFrom`).

`filterMap_set_none` and `filterMap_set_some` say what writing one cell
does to the list of what the cells carry, up to order.
-/
import Mathlib.Data.List.Perm.Basic
import Mathlib.Data.Nat.ModEq

namespace HearthStone.Lib

variable {α β : Type*}

/-- The places visited, from `curr`, in `k` steps round a table of `n`. -/
def probeFrom (n : Nat) : Nat → Nat → List Nat
  | 0, _ => []
  | k + 1, curr => curr :: probeFrom n k ((curr + 1) % n)

/-- Within `k` steps the place `d` ahead is visited. -/
theorem mod_mem_probeFrom {n : Nat} {k curr d : Nat} (hc : curr < n) (hd : d < k) :
    (curr + d) % n ∈ probeFrom n k curr := by
  induction k generalizing curr d with
  | zero => exact absurd hd (Nat.not_lt_zero d)
  | succ k ih =>
    have hn : 0 < n := Nat.zero_lt_of_lt hc
    cases d with
    | zero =>
      have hself : (curr + 0) % n = curr := Nat.mod_eq_of_lt hc
      rw [hself]
      exact List.mem_cons_self
    | succ d =>
      have hstep : (curr + (d + 1)) % n = ((curr + 1) % n + d) % n := by
        rw [Nat.mod_add_mod]
        congr 1
        omega
      rw [hstep]
      exact List.mem_cons_of_mem _ (ih (Nat.mod_lt _ hn) (Nat.lt_of_succ_lt_succ hd))

/-- A full turn visits every place. -/
theorem mem_probeFrom {n curr i : Nat} (hc : curr < n) (hi : i < n) :
    i ∈ probeFrom n n curr := by
  by_cases h : curr ≤ i
  · have hmem := mod_mem_probeFrom hc (show i - curr < n by omega)
    rwa [show curr + (i - curr) = i by omega, Nat.mod_eq_of_lt hi] at hmem
  · have hmem := mod_mem_probeFrom hc (show i + n - curr < n by omega)
    rwa [show curr + (i + n - curr) = i + n by omega, Nat.add_mod_right, Nat.mod_eq_of_lt hi] at hmem

/-! ## Writing one cell -/

variable {f : α → Option β} {l : List α} {i : Nat} {x y : α} {b : β}

/-- Writing a cell that carried nothing adds what it carries now. -/
theorem filterMap_set_some (hi : l[i]? = some x) (hx : f x = none) (hy : f y = some b) :
    ((l.set i y).filterMap f).Perm (b :: l.filterMap f) := by
  induction l generalizing i with
  | nil => cases hi
  | cons a l ih =>
    cases i with
    | zero =>
      cases hi
      rw [List.set_cons_zero, List.filterMap_cons_some hy, List.filterMap_cons_none hx]
    | succ i =>
      rw [List.set_cons_succ]
      cases ha : f a with
      | none =>
        rw [List.filterMap_cons_none ha, List.filterMap_cons_none ha]
        exact ih hi
      | some c =>
        rw [List.filterMap_cons_some ha, List.filterMap_cons_some ha]
        exact ((ih hi).cons c).trans (List.Perm.swap b c _)

/-- Blanking a cell takes out what it carried. -/
theorem filterMap_set_none (hi : l[i]? = some x) (hx : f x = some b) (hy : f y = none) :
    (l.filterMap f).Perm (b :: (l.set i y).filterMap f) := by
  induction l generalizing i with
  | nil => cases hi
  | cons a l ih =>
    cases i with
    | zero =>
      cases hi
      rw [List.set_cons_zero, List.filterMap_cons_some hx, List.filterMap_cons_none hy]
    | succ i =>
      rw [List.set_cons_succ]
      cases ha : f a with
      | none =>
        rw [List.filterMap_cons_none ha, List.filterMap_cons_none ha]
        exact ih hi
      | some c =>
        rw [List.filterMap_cons_some ha, List.filterMap_cons_some ha]
        exact ((ih hi).cons c).trans (List.Perm.swap b c _)

/-- With a carried value rewritten in place, as many are carried. -/
theorem length_filterMap_set (hi : l[i]? = some x) (hx : (f x).isSome) (hy : (f y).isSome) :
    ((l.set i y).filterMap f).length = (l.filterMap f).length := by
  induction l generalizing i with
  | nil => cases hi
  | cons a l ih =>
    cases i with
    | zero =>
      cases hi
      obtain ⟨b, hb⟩ := Option.isSome_iff_exists.1 hx
      obtain ⟨c, hc⟩ := Option.isSome_iff_exists.1 hy
      rw [List.set_cons_zero, List.filterMap_cons_some hb, List.filterMap_cons_some hc]
      rfl
    | succ i =>
      rw [List.set_cons_succ]
      cases ha : f a with
      | none =>
        rw [List.filterMap_cons_none ha, List.filterMap_cons_none ha]
        exact ih hi
      | some c =>
        rw [List.filterMap_cons_some ha, List.filterMap_cons_some ha]
        exact congrArg (· + 1) (ih hi)

end HearthStone.Lib
