/-
HearthStone.Lib.Custody — things that are put into places and taken out
of them again.

Nothing here names the server. `holds` says where a thing lies; `put` and
`taken` count how often it was put in and taken out. `Sound` custody has
every thing in one place at most, and never gives out more than was put
in; what still lies somewhere can be taken once more.

`Sound.shrink`, `Sound.place` and `Sound.take` are the three things that
may happen: places lose things, a place receives things that lie nowhere,
and a thing that lies nowhere any more is counted as taken.
-/
import Mathlib.Data.Set.Basic

namespace HearthStone.Lib

structure Custody (κ α : Type*) where
  holds : κ → α → Prop
  put : α → Nat
  taken : α → Nat

namespace Custody

variable {κ α : Type*} {c c' : Custody κ α}

structure Sound (c : Custody κ α) : Prop where
  single : ∀ {k k' a}, c.holds k a → c.holds k' a → k = k'
  books : ∀ a, c.taken a ≤ c.put a
  held : ∀ {k a}, c.holds k a → c.taken a < c.put a

/-- Nothing is held that was not held before. -/
theorem Sound.shrink (h : c.Sound) (hsub : ∀ k a, c'.holds k a → c.holds k a)
    (hput : ∀ a, c.put a ≤ c'.put a) (htaken : c'.taken = c.taken) : c'.Sound where
  single hk hk' := h.single (hsub _ _ hk) (hsub _ _ hk')
  books a := by
    rw [htaken]
    exact Nat.le_trans (h.books a) (hput a)
  held hk := by
    rw [htaken]
    exact Nat.lt_of_lt_of_le (h.held (hsub _ _ hk)) (hput _)

/-- A place receives things that lay nowhere. -/
theorem Sound.place (h : c.Sound) (k : κ) (s : Set α)
    (hsub : ∀ j a, c'.holds j a → c.holds j a ∨ j = k ∧ a ∈ s)
    (hfree : ∀ a ∈ s, ∀ j, ¬ c.holds j a) (hopen : ∀ a ∈ s, c.taken a < c.put a)
    (hput : c'.put = c.put) (htaken : c'.taken = c.taken) : c'.Sound where
  single {i j a} hi hj := by
    rcases hsub i a hi with hi | ⟨rfl, ha⟩
    · rcases hsub j a hj with hj | ⟨rfl, ha⟩
      · exact h.single hi hj
      · exact absurd hi (hfree a ha i)
    · rcases hsub j a hj with hj | ⟨rfl, -⟩
      · exact absurd hj (hfree a ha j)
      · rfl
  books a := by
    rw [htaken, hput]
    exact h.books a
  held {j a} hj := by
    rw [htaken, hput]
    rcases hsub j a hj with hj | ⟨-, ha⟩
    · exact h.held hj
    · exact hopen a ha

/-- A thing that lies nowhere any more is taken. -/
theorem Sound.take [DecidableEq α] (h : c.Sound) (a : α) (hfree : ∀ k, ¬ c.holds k a)
    (hopen : c.taken a < c.put a) (hholds : c'.holds = c.holds) (hput : c'.put = c.put)
    (htaken : ∀ b, c'.taken b = c.taken b + if b = a then 1 else 0) : c'.Sound where
  single hk hk' := by
    rw [hholds] at hk hk'
    exact h.single hk hk'
  books b := by
    have hb := h.books b
    rw [htaken, hput]
    by_cases heq : b = a
    · subst heq
      rw [if_pos rfl]
      exact hopen
    · rw [if_neg heq]
      exact hb
  held {k b} hk := by
    rw [hholds] at hk
    have hne : b ≠ a := by
      rintro rfl
      exact hfree k hk
    rw [htaken, hput, if_neg hne]
    exact h.held hk

end Custody

end HearthStone.Lib
