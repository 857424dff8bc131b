/-
HearthStone.Lib.Peak — a cached maximum.

Nothing here names the server. A table gives scores to some keys, and
next to it stand the greatest score and a key that has it. The lemmas
say which changes of the table leave the two right, and which new pair
is right after the others.

* `Peak f h t` — `h` is the greatest score of `f`, and `t` has it.
* `Peak.update_above` — a score over the greatest becomes the greatest.
* `Peak.update_below` — one that is not over it changes nothing, unless
  it is that of `t`.
* `Peak.restrict` — keys other than `t` may go.
-/
import Mathlib.Order.Bounds.Basic
import Mathlib.Logic.Function.Basic

namespace HearthStone.Lib

variable {κ γ : Type*} [LinearOrder γ]

/-- `h` is the greatest score of the table, and `t` has it. -/
structure Peak (f : κ → Option γ) (h : γ) (t : κ) : Prop where
  top : f t = some h
  bound : ∀ k x, f k = some x → x ≤ h

namespace Peak

variable {f g : κ → Option γ} {h h' x : γ} {t t' k : κ}

theorem isGreatest (hp : Peak f h t) : IsGreatest {x | ∃ k, f k = some x} h := by
  refine ⟨⟨t, hp.top⟩, ?_⟩
  rintro x ⟨k, hk⟩
  exact hp.bound k x hk

/-- Keys other than `t` may go. -/
theorem restrict (hp : Peak f h t) (hg : ∀ k, g k = f k ∨ g k = none) (ht : g t = f t) :
    Peak g h t := by
  refine ⟨ht.trans hp.top, ?_⟩
  intro k x hk
  rcases hg k with hsame | hnone
  · exact hp.bound k x (hsame ▸ hk)
  · rw [hnone] at hk
    cases hk

variable [DecidableEq κ]

theorem update_above (hbound : ∀ k x, f k = some x → x ≤ h) (hx : h < x) :
    Peak (Function.update f k (some x)) x k := by
  refine ⟨Function.update_self k _ f, ?_⟩
  intro l y hl
  by_cases hlk : l = k
  · subst hlk
    rw [Function.update_self] at hl
    exact (Option.some.inj hl).ge
  · rw [Function.update_of_ne hlk] at hl
    exact (hbound l y hl).trans hx.le

theorem update_below (hp : Peak f h t) (hx : x ≤ h) (hk : k = t → x = h) :
    Peak (Function.update f k (some x)) h t := by
  refine ⟨?_, ?_⟩
  · by_cases hkt : k = t
    · rw [hkt, Function.update_self, hk hkt]
    · rw [Function.update_of_ne (Ne.symm hkt)]
      exact hp.top
  · intro l y hl
    by_cases hlk : l = k
    · rw [hlk, Function.update_self] at hl
      exact (Option.some.inj hl) ▸ hx
    · rw [Function.update_of_ne hlk] at hl
      exact hp.bound l y hl

end Peak

end HearthStone.Lib
