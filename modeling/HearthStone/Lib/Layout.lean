/-
HearthStone.Lib.Layout — a list read letter by letter, each letter's place
decided by what stands before it.

`cuts p seen xs` has, for each letter of `xs` that `p` marks, all that was
read before it: `seen` and the letters of `xs` in front of it. What a reader
notes at the marked letters is a function mapped over the cuts, so two
readers note the same exactly when their functions agree at every cut
(`map_cuts_eq_iff`).
-/
import Mathlib.Data.List.Basic

namespace HearthStone.Lib

variable {α β : Type*} {p : α → Bool} {seen pre xs : List α}

/-- What was read before each marked letter. -/
def cuts (p : α → Bool) : List α → List α → List (List α)
  | _, [] => []
  | seen, x :: xs => (if p x then [seen] else []) ++ cuts p (seen ++ [x]) xs

theorem cuts_of_marked {x : α} (h : p x = true) :
    cuts p seen (x :: xs) = seen :: cuts p (seen ++ [x]) xs := by
  simp [cuts, h]

theorem cuts_of_unmarked {x : α} (h : p x = false) :
    cuts p seen (x :: xs) = cuts p (seen ++ [x]) xs := by
  simp [cuts, h]

theorem mem_cuts : pre ∈ cuts p seen xs ↔
    ∃ ys x zs, xs = ys ++ x :: zs ∧ p x = true ∧ pre = seen ++ ys := by
  induction xs generalizing seen with
  | nil => simp [cuts]
  | cons x xs ih =>
    simp only [cuts, List.mem_append, ih]
    constructor
    · rintro (hhere | ⟨ys, y, zs, rfl, hy, rfl⟩)
      · by_cases hx : p x = true
        · rw [if_pos hx, List.mem_singleton] at hhere
          exact ⟨[], x, xs, rfl, hx, by simp [hhere]⟩
        · rw [if_neg hx] at hhere
          cases hhere
      · exact ⟨x :: ys, y, zs, rfl, hy, by simp⟩
    · rintro ⟨ys, y, zs, hsplit, hy, rfl⟩
      cases ys with
      | nil =>
        obtain ⟨rfl, rfl⟩ := List.cons.inj hsplit
        exact Or.inl (by simp [hy])
      | cons y' ys =>
        obtain ⟨rfl, rfl⟩ := List.cons.inj hsplit
        exact Or.inr ⟨ys, y, zs, rfl, hy, by simp⟩

/-- Two readers note the same at the marked letters. -/
theorem map_cuts_eq_iff {f g : List α → β} :
    (cuts p [] xs).map f = (cuts p [] xs).map g ↔
      ∀ ys x zs, xs = ys ++ x :: zs → p x = true → f ys = g ys := by
  rw [List.map_inj_left]
  constructor
  · intro h ys x zs hxs hx
    exact h ys (mem_cuts.2 ⟨ys, x, zs, hxs, hx, rfl⟩)
  · intro h pre hpre
    obtain ⟨ys, x, zs, hxs, hx, hpre⟩ := mem_cuts.1 hpre
    rw [hpre]
    exact h ys x zs hxs hx

/-- No marked letter comes after one that `q` holds of. -/
theorem pairwise_iff_cut {q : α → Prop} :
    (xs.Pairwise fun a b => q a → p b = false) ↔
      ∀ ys x zs, xs = ys ++ x :: zs → p x = true → ∀ y ∈ ys, ¬ q y := by
  constructor
  · rintro h ys x zs rfl hx y hy hq
    have hfree := (List.pairwise_append.1 h).2.2 y hy x List.mem_cons_self hq
    rw [hx] at hfree
    cases hfree
  · intro h
    induction xs with
    | nil => exact List.Pairwise.nil
    | cons a xs ih =>
      refine List.Pairwise.cons ?_ (ih ?_)
      · intro b hb hq
        obtain ⟨ys, zs, rfl⟩ := List.append_of_mem hb
        by_contra hmarked
        exact h (a :: ys) b zs rfl (eq_true_of_ne_false hmarked) a
          List.mem_cons_self hq
      · rintro ys x zs rfl hx y hy
        exact h (a :: ys) x zs rfl hx y (List.mem_cons_of_mem a hy)

end HearthStone.Lib
