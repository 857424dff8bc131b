/-
HearthStone.Object.UnsignedValue — `Object::ModUnsigned32Value` on one
of an object's 32-bit fields (`Object.cpp`).

Coinage, bank balances and stack counts are all changed through it. The
modifier is a signed 32-bit number, the field an unsigned one; the sum
is taken modulo 2^32 and a result that reads as negative is replaced by
zero. That clamp is meant to stop a field from going below zero, and it
also erases every value from 2^31 on.

* `toNat_credit` / `toNat_debit` — what adding or taking an unsigned
  amount leaves.
* `credit_exact_iff` / `debit_exact_iff` — when that is the sum or the
  difference.

The marking of the update mask and the power-update packet are left out:
no field below depends on them.
-/
import Mathlib.Tactic.Ring
import Mathlib.Order.Basic

namespace HearthStone

/-- The low GUID of an existing character: never zero. -/
abbrev PlayerGuid := { guid : UInt32 // guid ≠ 0 }

/-- `Object::ModUnsigned32Value(index, mod)` on the field's value. -/
def modUnsigned32Value (value : UInt32) (mod : Int32) : UInt32 :=
  if mod = 0 then value
  else
    let value' := value + mod.toUInt32
    if value'.toInt32 < 0 then 0 else value'

/-- A `uint32` amount passed where the code takes an `int32`. -/
def credit (value amount : UInt32) : UInt32 :=
  modUnsigned32Value value amount.toInt32

/-- The idiom `ModUnsigned32Value(index, -(int32)amount)`. -/
def debit (value amount : UInt32) : UInt32 :=
  modUnsigned32Value value (-amount.toInt32)

/-- The value of `(int32)x`. -/
theorem toInt_toInt32 (x : UInt32) :
    x.toInt32.toInt = if x.toNat < 2 ^ 31 then (x.toNat : Int) else x.toNat - 2 ^ 32 := by
  have hsigned : x.toInt32.toInt = x.toBitVec.toInt := rfl
  rw [hsigned, BitVec.toInt_eq_toNat_cond]
  simp only [UInt32.toNat_toBitVec]
  split <;> split <;> omega

/-- `(int32)x < 0` is the upper half of the unsigned range. -/
theorem toInt32_neg_iff (x : UInt32) : x.toInt32 < 0 ↔ 2 ^ 31 ≤ x.toNat := by
  have hlt := x.toNat_lt
  rw [Int32.lt_iff_toInt_lt, toInt_toInt32, Int32.toInt_zero]
  split <;> omega

theorem toInt32_eq_zero_iff (x : UInt32) : x.toInt32 = 0 ↔ x = 0 := by
  constructor
  · intro h
    exact congrArg Int32.toUInt32 h
  · rintro rfl
    rfl

@[simp] theorem modUnsigned32Value_zero (v : UInt32) : modUnsigned32Value v 0 = v := by
  simp [modUnsigned32Value]

/-- The sum modulo 2^32, or zero when it is in the upper half. -/
theorem toNat_modUnsigned32Value {m : Int32} (hm : m ≠ 0) (v : UInt32) :
    (modUnsigned32Value v m).toNat =
      if (v.toNat + m.toUInt32.toNat) % 2 ^ 32 < 2 ^ 31
      then (v.toNat + m.toUInt32.toNat) % 2 ^ 32 else 0 := by
  simp only [modUnsigned32Value, if_neg hm, toInt32_neg_iff, UInt32.toNat_add]
  by_cases h : (v.toNat + m.toUInt32.toNat) % 2 ^ 32 < 2 ^ 31
  · rw [if_pos h, if_neg (by omega), UInt32.toNat_add]
  · rw [if_neg h, if_pos (by omega)]
    rfl

@[simp] theorem credit_zero (v : UInt32) : credit v 0 = v := modUnsigned32Value_zero v
@[simp] theorem debit_zero (v : UInt32) : debit v 0 = v := modUnsigned32Value_zero v

theorem toNat_credit {x : UInt32} (hx : x ≠ 0) (v : UInt32) :
    (credit v x).toNat =
      if (v.toNat + x.toNat) % 2 ^ 32 < 2 ^ 31 then (v.toNat + x.toNat) % 2 ^ 32 else 0 := by
  have hm : x.toInt32 ≠ 0 := fun h => hx ((toInt32_eq_zero_iff x).mp h)
  rw [credit, toNat_modUnsigned32Value hm, UInt32.toUInt32_toInt32]

theorem toNat_debit {x : UInt32} (hx : x ≠ 0) (v : UInt32) :
    (debit v x).toNat =
      if (v.toNat + (2 ^ 32 - x.toNat)) % 2 ^ 32 < 2 ^ 31
      then (v.toNat + (2 ^ 32 - x.toNat)) % 2 ^ 32 else 0 := by
  have hm : -x.toInt32 ≠ 0 := by
    intro h
    have h' : -x = 0 := congrArg Int32.toUInt32 h
    exact hx (by simpa using congrArg (fun y => -y) h')
  have hpos : 0 < x.toNat := Nat.pos_of_ne_zero fun h => hx (UInt32.toNat_inj.mp h)
  have hneg : (-x).toNat = 2 ^ 32 - x.toNat := by
    rw [UInt32.toNat_neg, show UInt32.size = 2 ^ 32 from rfl]
    omega
  rw [debit, toNat_modUnsigned32Value hm, Int32.toUInt32_neg, UInt32.toUInt32_toInt32, hneg]

/-! ## When the clamp does not act -/

/-- A credit is exact when the sum stays in the lower half. -/
theorem credit_exact_iff (v x : UInt32) :
    (credit v x).toNat = v.toNat + x.toNat ↔ x = 0 ∨ v.toNat + x.toNat < 2 ^ 31 := by
  by_cases hx : x = 0
  · subst hx; simp
  · have hpos : 0 < x.toNat := Nat.pos_of_ne_zero fun h => hx (UInt32.toNat_inj.mp h)
    rw [toNat_credit hx]
    simp only [hx, false_or]
    split <;> omega

/-- A debit is exact when it is covered and leaves a lower-half value. -/
theorem debit_exact_iff (v x : UInt32) :
    (debit v x).toNat + x.toNat = v.toNat ↔
      x = 0 ∨ (x.toNat ≤ v.toNat ∧ v.toNat < x.toNat + 2 ^ 31) := by
  by_cases hx : x = 0
  · subst hx; simp
  · have hpos : 0 < x.toNat := Nat.pos_of_ne_zero fun h => hx (UInt32.toNat_inj.mp h)
    have hv := v.toNat_lt
    rw [toNat_debit hx]
    simp only [hx, false_or]
    split <;> omega

/-- No field that was in the lower half leaves it. -/
theorem modUnsigned32Value_lt {v : UInt32} (hv : v.toNat < 2 ^ 31) (m : Int32) :
    (modUnsigned32Value v m).toNat < 2 ^ 31 := by
  by_cases hm : m = 0
  · subst hm; simpa using hv
  · rw [toNat_modUnsigned32Value hm]
    split <;> omega

end HearthStone
