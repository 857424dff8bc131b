/-
HearthStone.Lib.Slots — a family of slots, each empty or filled, and
what the filled ones need.

`Needed P slots` says that some slot holds an entry of which `P` holds.
An index kept beside the slots is right when it holds exactly what is
needed. Three writes are described: filling an empty slot, emptying one,
and emptying all slots of a kind (`needed_fill`, `needed_clear`,
`needed_clearAll`).
-/
import Mathlib.Data.Fintype.Basic
import Mathlib.Logic.Function.Basic

namespace HearthStone.Lib

variable {ι κ : Type*} {P Q : κ → Prop} {slots : ι → Option κ} {i : ι} {k : κ}

/-- Some slot holds an entry of which `P` holds. -/
def Needed (P : κ → Prop) (slots : ι → Option κ) : Prop := ∃ i, ∃ k ∈ slots i, P k

/-- Some slot other than `i` holds such an entry. -/
def NeededBesides (P : κ → Prop) (slots : ι → Option κ) (i : ι) : Prop :=
  ∃ j, j ≠ i ∧ ∃ k ∈ slots j, P k

instance [Fintype ι] [DecidablePred P] : Decidable (Needed P slots) :=
  inferInstanceAs (Decidable (∃ i, ∃ k ∈ slots i, P k))

instance [Fintype ι] [DecidableEq ι] [DecidablePred P] : Decidable (NeededBesides P slots i) :=
  inferInstanceAs (Decidable (∃ j, j ≠ i ∧ ∃ k ∈ slots j, P k))

theorem not_needed_empty : ¬ Needed P (fun _ : ι => none) := by
  rintro ⟨i, k, hk, -⟩
  cases hk

theorem NeededBesides.needed (h : NeededBesides P slots i) : Needed P slots := by
  obtain ⟨j, -, k, hk, hp⟩ := h
  exact ⟨j, k, hk, hp⟩

/-- What is needed is needed by a given filled slot or by another. -/
theorem needed_iff_of_mem (hk : k ∈ slots i) :
    Needed P slots ↔ P k ∨ NeededBesides P slots i := by
  constructor
  · rintro ⟨j, l, hl, hp⟩
    by_cases hj : j = i
    · subst hj
      left
      rw [Option.mem_unique hk hl]
      exact hp
    · exact Or.inr ⟨j, hj, l, hl, hp⟩
  · rintro (hp | h)
    · exact ⟨i, k, hk, hp⟩
    · exact h.needed

variable [DecidableEq ι]

/-- Filling an empty slot adds what the new entry needs. -/
theorem needed_fill (hi : slots i = none) :
    Needed P (Function.update slots i (some k)) ↔ P k ∨ Needed P slots := by
  constructor
  · rintro ⟨j, l, hl, hp⟩
    by_cases hj : j = i
    · subst hj
      rw [Function.update_self] at hl
      cases hl
      exact Or.inl hp
    · rw [Function.update_of_ne hj] at hl
      exact Or.inr ⟨j, l, hl, hp⟩
  · rintro (hp | ⟨j, l, hl, hp⟩)
    · exact ⟨i, k, by rw [Function.update_self]; rfl, hp⟩
    · have hj : j ≠ i := by
        intro hji
        rw [hji, hi] at hl
        cases hl
      exact ⟨j, l, by rw [Function.update_of_ne hj]; exact hl, hp⟩

/-- Emptying a slot leaves what the others need. -/
theorem needed_clear :
    Needed P (Function.update slots i none) ↔ NeededBesides P slots i := by
  constructor
  · rintro ⟨j, l, hl, hp⟩
    have hj : j ≠ i := by
      intro hji
      rw [hji, Function.update_self] at hl
      cases hl
    rw [Function.update_of_ne hj] at hl
    exact ⟨j, hj, l, hl, hp⟩
  · rintro ⟨j, hj, l, hl, hp⟩
    exact ⟨j, l, by rw [Function.update_of_ne hj]; exact hl, hp⟩

omit [DecidableEq ι] in
/-- Emptying every slot of a kind leaves what the rest need. -/
theorem needed_clearAll [DecidablePred Q] :
    Needed P (fun i => (slots i).filter fun k => decide (¬ Q k)) ↔
      Needed (fun k => ¬ Q k ∧ P k) slots := by
  constructor
  · rintro ⟨j, l, hl, hp⟩
    obtain ⟨hl, hq⟩ := Option.mem_filter_iff.1 hl
    exact ⟨j, l, hl, of_decide_eq_true hq, hp⟩
  · rintro ⟨j, l, hl, hq, hp⟩
    exact ⟨j, l, Option.mem_filter_iff.2 ⟨hl, decide_eq_true hq⟩, hp⟩

end HearthStone.Lib
