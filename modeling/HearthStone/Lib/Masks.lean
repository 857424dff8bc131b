/-
HearthStone.Lib.Masks — words as sets of bits: unions, and what is left
when some of the united words are cleared again.

Nothing here names the server. A word that is cleared takes its bits away
from everybody, so the rest is the union of the others exactly when they
share no bit with it.

* `union` — the union of a list of words.
* `clear` — the bits of some words are cleared, one after the other.
* `clear_union` — the others stay.
-/
import Mathlib

namespace HearthStone.Lib.Masks

/-- The union of a list of words. -/
def union (ms : List UInt32) : UInt32 := ms.foldr (· ||| ·) 0

/-- The bits of some words are cleared. -/
def clear (w : UInt32) (ms : List UInt32) : UInt32 := ms.foldl (fun w m => w &&& ~~~m) w

/-- The bits of some words are set. -/
def set (w : UInt32) (ms : List UInt32) : UInt32 := ms.foldl (· ||| ·) w

/-- No word of the one list has a bit in common with one of the other. -/
def Disjoint (ms rest : List UInt32) : Prop := ∀ m ∈ ms, ∀ m' ∈ rest, m &&& m' = 0

instance (ms rest : List UInt32) : Decidable (Disjoint ms rest) :=
  @List.decidableBAll _ (fun m => ∀ m' ∈ rest, m &&& m' = 0)
    (fun m => List.decidableBAll (fun m' => m &&& m' = 0) rest) ms

variable {w w' m : UInt32} {ms ms' rest all : List UInt32} {i : Nat}

theorem ext (h : ∀ i < 32, w.toNat.testBit i = w'.toNat.testBit i) : w = w' := by
  refine UInt32.toNat_inj.1 (Nat.eq_of_testBit_eq fun i => ?_)
  by_cases hi : i < 32
  · exact h i hi
  · have hpow : 2 ^ 32 ≤ 2 ^ i := Nat.pow_le_pow_right (by decide) (not_lt.1 hi)
    rw [Nat.testBit_lt_two_pow (w.toNat_lt.trans_le hpow),
      Nat.testBit_lt_two_pow (w'.toNat_lt.trans_le hpow)]

theorem testBit_or (w m : UInt32) (i : Nat) :
    (w ||| m).toNat.testBit i = (w.toNat.testBit i || m.toNat.testBit i) := by
  rw [UInt32.toNat_or, Nat.testBit_or]

theorem testBit_and_not (hi : i < 32) :
    (w &&& ~~~m).toNat.testBit i = (w.toNat.testBit i && !m.toNat.testBit i) := by
  rw [UInt32.toNat_and, Nat.testBit_and, UInt32.toNat_not]
  have hsize : UInt32.size - 1 - m.toNat = 2 ^ 32 - (m.toNat + 1) := by
    rw [UInt32.size]
    omega
  rw [hsize, Nat.testBit_two_pow_sub_succ m.toNat_lt, decide_eq_true hi, Bool.true_and]

theorem testBit_union : (union ms).toNat.testBit i = ms.any fun m => m.toNat.testBit i := by
  induction ms with
  | nil => simp [union]
  | cons m rest ih =>
    rw [List.any_cons, ← ih]
    exact testBit_or m (union rest) i

theorem testBit_clear (hi : i < 32) :
    (clear w ms).toNat.testBit i =
      (w.toNat.testBit i && !ms.any fun m => m.toNat.testBit i) := by
  induction ms generalizing w with
  | nil => simp [clear]
  | cons m rest ih =>
    have hstep : clear w (m :: rest) = clear (w &&& ~~~m) rest := rfl
    rw [hstep, ih, testBit_and_not hi, List.any_cons, Bool.not_or, Bool.and_assoc]

theorem testBit_set : (set w ms).toNat.testBit i =
    (w.toNat.testBit i || ms.any fun m => m.toNat.testBit i) := by
  induction ms generalizing w with
  | nil => simp [set]
  | cons m rest ih =>
    have hstep : set w (m :: rest) = set (w ||| m) rest := rfl
    rw [hstep, ih, testBit_or, List.any_cons, Bool.or_assoc]

theorem set_union (h : ∀ m, m ∈ all ↔ m ∈ ms ∨ m ∈ rest) : set (union rest) ms = union all := by
  refine ext fun i _ => ?_
  rw [testBit_set, testBit_union, testBit_union, Bool.eq_iff_iff, Bool.or_eq_true,
    List.any_eq_true, List.any_eq_true, List.any_eq_true]
  constructor
  · rintro (⟨m, hm, hbit⟩ | ⟨m, hm, hbit⟩)
    · exact ⟨m, (h m).2 (.inr hm), hbit⟩
    · exact ⟨m, (h m).2 (.inl hm), hbit⟩
  · rintro ⟨m, hm, hbit⟩
    rcases (h m).1 hm with hm | hm
    · exact .inr ⟨m, hm, hbit⟩
    · exact .inl ⟨m, hm, hbit⟩

/-- Words without a bit in common. -/
theorem testBit_of_disjoint {m' : UInt32} (h : m &&& m' = 0) (hbit : m.toNat.testBit i = true) :
    m'.toNat.testBit i = false := by
  have hand : (m &&& m').toNat.testBit i = false := by rw [h]; simp
  rw [UInt32.toNat_and, Nat.testBit_and, hbit, Bool.true_and] at hand
  exact hand

theorem clear_union (h : ∀ m, m ∈ all ↔ m ∈ ms ∨ m ∈ rest)
    (hdisjoint : Disjoint ms rest) : clear (union all) ms = union rest := by
  refine ext fun i hi => ?_
  rw [testBit_clear hi, testBit_union, testBit_union, Bool.eq_iff_iff, Bool.and_eq_true,
    Bool.not_eq_true', List.any_eq_true, List.any_eq_true, List.any_eq_false]
  constructor
  · rintro ⟨⟨m, hm, hbit⟩, hnone⟩
    rcases (h m).1 hm with hm | hm
    · exact absurd hbit (hnone m hm)
    · exact ⟨m, hm, hbit⟩
  · rintro ⟨m, hm, hbit⟩
    refine ⟨⟨m, (h m).2 (.inr hm), hbit⟩, fun m' hm' hbit' => ?_⟩
    rw [testBit_of_disjoint (hdisjoint m' hm' m hm) hbit'] at hbit
    cases hbit

theorem union_perm (h : ms.Perm ms') : union ms = union ms' := by
  refine ext fun i _ => ?_
  rw [testBit_union, testBit_union, h.any_eq]

/-- A union is empty when every word is. -/
theorem union_eq_zero : union ms = 0 ↔ ∀ m ∈ ms, m = 0 := by
  induction ms with
  | nil => simp [union]
  | cons m rest ih =>
    have hstep : union (m :: rest) = m ||| union rest := rfl
    rw [hstep, UInt32.or_eq_zero_iff, ih, List.forall_mem_cons]

end HearthStone.Lib.Masks
