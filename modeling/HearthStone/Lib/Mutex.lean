/-
HearthStone.Lib.Mutex — a recursive mutex.

The thread that holds it may acquire it again, and it is free once it has
been released as often. `attemptAcquire` is undefined where a caller that
waits would wait and a caller that does not wait would be refused.
-/
import Mathlib.Logic.Basic

namespace HearthStone.Lib

inductive Mutex (τ : Type*)
  | free
  | held (owner : τ) (depth : Nat)
  deriving DecidableEq

namespace Mutex

variable {τ : Type*} [DecidableEq τ] {m m' : Mutex τ} {t u : τ} {n : Nat}

def attemptAcquire (t : τ) : Mutex τ → Option (Mutex τ)
  | free => some (held t 1)
  | held u n => if u = t then some (held u (n + 1)) else none

def release : Mutex τ → Mutex τ
  | free => free
  | held u n => if n ≤ 1 then free else held u (n - 1)

/-- Whoever acquires it was its owner, or it was free. -/
theorem attemptAcquire_some (h : m.attemptAcquire t = some m') :
    (m = free ∧ m' = held t 1) ∨ ∃ n, m = held t n ∧ m' = held t (n + 1) := by
  cases m with
  | free =>
    cases h
    exact Or.inl ⟨rfl, rfl⟩
  | held u n =>
    unfold attemptAcquire at h
    rw [Option.ite_none_right_eq_some] at h
    obtain ⟨rfl, h⟩ := h
    cases h
    exact Or.inr ⟨n, rfl, rfl⟩

omit [DecidableEq τ] in
theorem release_once : (held t 1).release = free := rfl

end Mutex

end HearthStone.Lib
