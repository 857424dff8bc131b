/-
HearthStone.Lib.Placement — partial maps from places to objects that
hold each object at most once.

A container of any kind is a map `m : P → Option G`: what is at each
place, if anything. Three writes make up every operation on one: an
object is put at an empty place, a place is cleared, two places are
exchanged. Each has one lemma for `AtMostOnce` and one for `Placed`, the
set of objects the map holds; an exchange is the composition with a
transposition (`update_update_eq_swap`).
-/
import Mathlib.Logic.Equiv.Basic

namespace HearthStone.Lib

variable {P G : Type*} [DecidableEq P] {m : P → Option G} {p q : P} {g x : G}

/-- The object is at some place. -/
def Placed (m : P → Option G) (g : G) : Prop := ∃ p, m p = some g

/-- No object is at two places. -/
def AtMostOnce (m : P → Option G) : Prop := ∀ p q g, m p = some g → m q = some g → p = q

/-! ## Putting -/

theorem AtMostOnce.put (h : AtMostOnce m) (hg : ¬ Placed m g) :
    AtMostOnce (Function.update m p (some g)) := by
  intro a b x ha hb
  by_cases hap : a = p
  · subst hap
    rw [Function.update_self] at ha
    obtain rfl := Option.some.inj ha
    by_cases hbp : b = a
    · exact hbp.symm
    · rw [Function.update_of_ne hbp] at hb
      exact absurd ⟨b, hb⟩ hg
  · rw [Function.update_of_ne hap] at ha
    by_cases hbp : b = p
    · subst hbp
      rw [Function.update_self] at hb
      obtain rfl := Option.some.inj hb
      exact absurd ⟨a, ha⟩ hg
    · rw [Function.update_of_ne hbp] at hb
      exact h a b x ha hb

theorem placed_put (hp : m p = none) :
    Placed (Function.update m p (some g)) x ↔ x = g ∨ Placed m x := by
  constructor
  · rintro ⟨a, ha⟩
    by_cases hap : a = p
    · subst hap
      rw [Function.update_self] at ha
      exact Or.inl (Option.some.inj ha).symm
    · rw [Function.update_of_ne hap] at ha
      exact Or.inr ⟨a, ha⟩
  · rintro (rfl | ⟨a, ha⟩)
    · exact ⟨p, Function.update_self ..⟩
    · have hap : a ≠ p := by
        rintro rfl
        rw [hp] at ha
        cases ha
      exact ⟨a, by rw [Function.update_of_ne hap, ha]⟩

/-! ## Clearing -/

/-- What a place holds after another was cleared was there before. -/
theorem of_clear (h : Function.update m p none q = some x) : q ≠ p ∧ m q = some x := by
  by_cases hqp : q = p
  · rw [hqp, Function.update_self] at h
    cases h
  · rw [Function.update_of_ne hqp] at h
    exact ⟨hqp, h⟩

theorem AtMostOnce.clear (h : AtMostOnce m) : AtMostOnce (Function.update m p none) :=
  fun a b x ha hb => h a b x (of_clear ha).2 (of_clear hb).2

theorem placed_clear (h : AtMostOnce m) (hp : m p = some g) :
    Placed (Function.update m p none) x ↔ x ≠ g ∧ Placed m x := by
  constructor
  · rintro ⟨a, ha⟩
    obtain ⟨hap, ha⟩ := of_clear ha
    refine ⟨?_, a, ha⟩
    rintro rfl
    exact hap (h a p x ha hp)
  · rintro ⟨hxg, a, ha⟩
    have hap : a ≠ p := by
      rintro rfl
      exact hxg (Option.some.inj (ha.symm.trans hp))
    exact ⟨a, by rw [Function.update_of_ne hap, ha]⟩

/-! ## Exchanging -/

/-- The contents of two places written crosswise. -/
theorem update_update_eq_swap {β : Type*} (f : P → β) (p q : P) :
    Function.update (Function.update f p (f q)) q (f p) = f ∘ Equiv.swap p q := by
  funext a
  by_cases haq : a = q
  · subst haq
    rw [Function.update_self, Function.comp_apply, Equiv.swap_apply_right]
  · rw [Function.update_of_ne haq]
    by_cases hap : a = p
    · subst hap
      rw [Function.update_self, Function.comp_apply, Equiv.swap_apply_left]
    · rw [Function.update_of_ne hap, Function.comp_apply, Equiv.swap_apply_of_ne_of_ne hap haq]

omit [DecidableEq P] in
theorem AtMostOnce.comp (h : AtMostOnce m) (σ : Equiv.Perm P) : AtMostOnce (m ∘ σ) :=
  fun a b x ha hb => σ.injective (h (σ a) (σ b) x ha hb)

end HearthStone.Lib
