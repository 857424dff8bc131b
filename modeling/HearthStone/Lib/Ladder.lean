/-
HearthStone.Lib.Ladder — a ladder with a price on every rung.

Nothing here names the server. Rung `k` costs `price k`; whoever has `t` to
spend takes the rungs one after the other as long as the next one can be
paid, `room` of them at most. `Climbs price room t n r` says that this ends
after `n` rungs with `r` left.

* `Climbs.unique` — where a climb ends depends on the amount alone.
* `Climbs.eq_card` — `n` counts the rungs whose price, together with that of
  all rungs below, `t` covers.
* `Climbs.trans` — a climb that goes on after a pause ends where one with both
  amounts does.
-/
import Mathlib

namespace HearthStone.Lib.Ladder

/-- The first `n` rungs together. -/
def cost (price : ℕ → ℕ) (n : ℕ) : ℕ := ∑ k ∈ Finset.range n, price k

variable {price : ℕ → ℕ} {room t n m r s a : ℕ}

@[simp] theorem cost_zero : cost price 0 = 0 := rfl

theorem cost_succ (n : ℕ) : cost price (n + 1) = cost price n + price n :=
  Finset.sum_range_succ price n

/-- The first rung, and the ladder that starts above it. -/
theorem cost_succ' (n : ℕ) : cost price (n + 1) = price 0 + cost (fun k => price (k + 1)) n := by
  rw [cost, Finset.sum_range_succ', Nat.add_comm]
  rfl

theorem cost_add (n m : ℕ) : cost price (n + m) = cost price n + cost (fun k => price (n + k)) m :=
  Finset.sum_range_add price n m

theorem cost_mono (h : n ≤ m) : cost price n ≤ cost price m :=
  Finset.sum_le_sum_of_subset (Finset.range_mono h)

/-- `t` pays for `n` rungs of at most `room`, `r` is left, and it does not pay
for another one. -/
structure Climbs (price : ℕ → ℕ) (room t n r : ℕ) : Prop where
  le : n ≤ room
  total : cost price n + r = t
  rest : n < room → r < price n

namespace Climbs

/-- No climb with the same amount goes further. -/
theorem le_of (h : Climbs price room t n r) (h' : Climbs price room t m s) : m ≤ n := by
  by_contra hlt
  have hroom := h'.le
  have hrest := h.rest (by omega)
  have hmono : cost price (n + 1) ≤ cost price m := cost_mono (by omega)
  have htotal := h.total
  have htotal' := h'.total
  rw [cost_succ] at hmono
  omega

theorem unique (h : Climbs price room t n r) (h' : Climbs price room t m s) : n = m ∧ r = s := by
  have hn : n = m := Nat.le_antisymm (h'.le_of h) (h.le_of h')
  subst hn
  have htotal := h.total
  have htotal' := h'.total
  exact ⟨rfl, by omega⟩

/-- Whether rung `k` was taken. -/
theorem lt_iff (h : Climbs price room t n r) {k : ℕ} (hk : k < room) :
    k < n ↔ cost price (k + 1) ≤ t := by
  have htotal := h.total
  constructor
  · intro hlt
    have hmono : cost price (k + 1) ≤ cost price n := cost_mono hlt
    omega
  · intro hle
    by_contra hge
    have hmono : cost price (n + 1) ≤ cost price (k + 1) := cost_mono (by omega)
    have hrest := h.rest (by omega)
    rw [cost_succ] at hmono
    omega

theorem eq_card (h : Climbs price room t n r) :
    n = ((Finset.range room).filter fun k => cost price (k + 1) ≤ t).card := by
  have hset : ((Finset.range room).filter fun k => cost price (k + 1) ≤ t) = Finset.range n := by
    ext k
    have hle := h.le
    simp only [Finset.mem_filter, Finset.mem_range]
    constructor
    · rintro ⟨hk, hcost⟩
      exact (h.lt_iff hk).2 hcost
    · intro hk
      exact ⟨by omega, (h.lt_iff (by omega)).1 hk⟩
  rw [hset, Finset.card_range]

/-- A climb by one rung, and the climb from there. -/
theorem cons (hroom : 0 < room) (hpay : price 0 ≤ t)
    (h : Climbs (fun k => price (k + 1)) (room - 1) (t - price 0) n r) :
    Climbs price room t (n + 1) r := by
  refine ⟨by have := h.le; omega, ?_, fun hlt => h.rest (by omega)⟩
  have htotal := h.total
  rw [cost_succ']
  omega

/-- A climb, a pause, and a climb with what was left and `a` more. -/
theorem trans (h : Climbs price room t n r)
    (h' : Climbs (fun k => price (n + k)) (room - n) (r + a) m s) :
    Climbs price room (t + a) (n + m) s := by
  have htotal := h.total
  have htotal' := h'.total
  refine ⟨by have := h.le; have := h'.le; omega, ?_, fun hlt => h'.rest (by omega)⟩
  rw [cost_add]
  omega

end Climbs

end HearthStone.Lib.Ladder
