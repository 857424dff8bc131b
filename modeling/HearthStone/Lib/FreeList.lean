/-
HearthStone.Lib.FreeList — numbers that are held by one holder at a time
and that go through a list of returned ones.

`own i` is the number of the holder `i`. `Sound own free` says that no
two holders have one number, that the list of returned numbers has none
twice, and that nobody holds a number of the list. A holder takes a
number that is nobody's (`Sound.fresh`) or the first of the list
(`Sound.reuse`); it gives its number back (`Sound.release`) or forgets it
(`Sound.drop`).
-/
import Mathlib.Data.List.Nodup
import Mathlib.Logic.Function.Basic

namespace HearthStone.Lib.FreeList

variable {ι α : Type*} {own : ι → Option α} {free : List α} {i j : ι} {n : α}

structure Sound (own : ι → Option α) (free : List α) : Prop where
  apart : ∀ i j n, own i = some n → own j = some n → i = j
  once : free.Nodup
  returned : ∀ i n, own i = some n → n ∉ free

theorem sound_empty : Sound (fun _ : ι => (none : Option α)) [] where
  apart := fun _ _ _ h => by cases h
  once := List.nodup_nil
  returned := fun _ _ h => by cases h

variable [DecidableEq ι]

/-- What is held after a change of one holder. -/
theorem update_eq_some {o : Option α} (h : Function.update own i o j = some n) :
    (j = i ∧ o = some n) ∨ (j ≠ i ∧ own j = some n) := by
  by_cases hj : j = i
  · rw [hj, Function.update_self] at h
    exact Or.inl ⟨hj, h⟩
  · rw [Function.update_of_ne hj] at h
    exact Or.inr ⟨hj, h⟩

/-- A number that is nobody's and not in the list. -/
theorem Sound.fresh (h : Sound own free) (hown : ∀ j, own j ≠ some n) (hfree : n ∉ free) :
    Sound (Function.update own i (some n)) free where
  apart := by
    intro j k m hj hk
    rcases update_eq_some hj with ⟨hji, hm⟩ | ⟨-, hjm⟩
    · rcases update_eq_some hk with ⟨hki, -⟩ | ⟨-, hkm⟩
      · rw [hji, hki]
      · obtain rfl := Option.some.inj hm
        exact absurd hkm (hown k)
    · rcases update_eq_some hk with ⟨-, hm⟩ | ⟨-, hkm⟩
      · obtain rfl := Option.some.inj hm
        exact absurd hjm (hown j)
      · exact h.apart j k m hjm hkm
  once := h.once
  returned := by
    intro j m hj
    rcases update_eq_some hj with ⟨-, hm⟩ | ⟨-, hj⟩
    · obtain rfl := Option.some.inj hm
      exact hfree
    · exact h.returned j m hj

/-- The first number of the list. -/
theorem Sound.reuse (h : Sound own (n :: free)) :
    Sound (Function.update own i (some n)) free := by
  have hrest : Sound own free := {
    apart := h.apart
    once := (List.nodup_cons.1 h.once).2
    returned := fun j m hj hm => h.returned j m hj (List.mem_cons_of_mem n hm) }
  exact hrest.fresh (fun j hj => h.returned j n hj List.mem_cons_self) (List.nodup_cons.1 h.once).1

/-- A holder has its number no more. -/
theorem Sound.drop (h : Sound own free) : Sound (Function.update own i none) free where
  apart := by
    intro j k m hj hk
    rcases update_eq_some hj with ⟨-, hm⟩ | ⟨-, hj⟩
    · cases hm
    · rcases update_eq_some hk with ⟨-, hm⟩ | ⟨-, hk⟩
      · cases hm
      · exact h.apart j k m hj hk
  once := h.once
  returned := by
    intro j m hj
    rcases update_eq_some hj with ⟨-, hm⟩ | ⟨-, hj⟩
    · cases hm
    · exact h.returned j m hj

/-- A holder gives its number back. -/
theorem Sound.release (h : Sound own free) (hi : own i = some n) :
    Sound (Function.update own i none) (free ++ [n]) where
  apart := h.drop.apart
  once := by
    refine List.nodup_append.2 ⟨h.once, List.nodup_singleton n, ?_⟩
    intro a ha b hb hab
    obtain rfl := List.mem_singleton.1 hb
    rw [hab] at ha
    exact h.returned i b hi ha
  returned := by
    intro j m hj hm
    rcases update_eq_some hj with ⟨-, hnone⟩ | ⟨hne, hj⟩
    · cases hnone
    · rcases List.mem_append.1 hm with hm | hm
      · exact h.returned j m hj hm
      · obtain rfl := List.mem_singleton.1 hm
        exact hne (h.apart j i m hj hi)

end HearthStone.Lib.FreeList
