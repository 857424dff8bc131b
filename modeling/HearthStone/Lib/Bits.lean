/-
HearthStone.Lib.Bits — an array of bits kept in a list of bytes.

Bit `i` is bit `i % 8` of byte `i / 8`, the lowest bit of a byte first.
`setBitAt` and `clearBitAt` change one bit and no other
(`bitAt_setBitAt`, `bitAt_clearBitAt`); the bits behind the end read as
unset.
-/
import Mathlib

namespace HearthStone.Lib

variable {bs bs' : List UInt8} {m : UInt8} {i j k n : Nat}

/-! ## One byte -/

theorem testBit_bit (hn : n < 8) (hi : i < 8) :
    ((1 : UInt8) <<< UInt8.ofNat n).toNat.testBit i = decide (i = n) := by
  have hall : ∀ n < 8, ∀ i < 8,
      ((1 : UInt8) <<< UInt8.ofNat n).toNat.testBit i = decide (i = n) := by decide
  exact hall n hn i hi

/-- Setting one bit. -/
theorem testBit_setBit (hn : n < 8) (hi : i < 8) :
    (m ||| 1 <<< UInt8.ofNat n).toNat.testBit i = (m.toNat.testBit i || decide (i = n)) := by
  rw [UInt8.toNat_or, Nat.testBit_or, testBit_bit hn hi]

/-- Clearing one bit. -/
theorem testBit_clearBit (hn : n < 8) (hi : i < 8) :
    (m &&& ((0xff : UInt8) ^^^ 1 <<< UInt8.ofNat n)).toNat.testBit i =
      (m.toNat.testBit i && decide (i ≠ n)) := by
  have hall : ∀ i < 8, (0xff : UInt8).toNat.testBit i = true := by decide
  rw [UInt8.toNat_and, Nat.testBit_and, UInt8.toNat_xor, Nat.testBit_xor, testBit_bit hn hi,
    hall i hi, Bool.true_xor, decide_not]

theorem and_bit_ne_zero (m : UInt8) (hn : n < 8) :
    m &&& 1 <<< UInt8.ofNat n ≠ 0 ↔ m.toNat.testBit n = true := by
  have hall : ∀ k < 256, ∀ n < 8,
      (UInt8.ofNat k &&& 1 <<< UInt8.ofNat n ≠ 0 ↔ (UInt8.ofNat k).toNat.testBit n = true) := by
    decide +kernel
  have h := hall m.toNat m.toNat_lt n hn
  rwa [UInt8.ofNat_toNat] at h

theorem testBit_of_zero (i : Nat) : (0 : UInt8).toNat.testBit i = false := by simp

/-! ## Many bytes -/

def bitAt (bs : List UInt8) (i : Nat) : Bool :=
  decide (bs.getD (i / 8) 0 &&& 1 <<< UInt8.ofNat (i % 8) ≠ 0)

def setBitAt (bs : List UInt8) (i : Nat) : List UInt8 :=
  bs.modify (i / 8) fun b => b ||| 1 <<< UInt8.ofNat (i % 8)

def clearBitAt (bs : List UInt8) (i : Nat) : List UInt8 :=
  bs.modify (i / 8) fun b => b &&& ((0xff : UInt8) ^^^ 1 <<< UInt8.ofNat (i % 8))

theorem bitAt_eq (bs : List UInt8) (i : Nat) :
    bitAt bs i = (bs.getD (i / 8) 0).toNat.testBit (i % 8) := by
  have h := and_bit_ne_zero (bs.getD (i / 8) 0) (Nat.mod_lt i (by decide : 0 < 8))
  refine Bool.eq_iff_iff.2 ?_
  unfold bitAt
  rw [decide_eq_true_iff, h]

@[simp] theorem length_setBitAt : (setBitAt bs i).length = bs.length := List.length_modify _ _ _

@[simp] theorem length_clearBitAt : (clearBitAt bs i).length = bs.length :=
  List.length_modify _ _ _

/-- The bits behind the end are not set. -/
theorem bitAt_of_length_le (h : 8 * bs.length ≤ i) : bitAt bs i = false := by
  rw [bitAt_eq, List.getD_eq_default _ _ (by omega)]
  exact testBit_of_zero _

theorem bitAt_replicate_zero : bitAt (List.replicate n 0) i = false := by
  have hzero : (List.replicate n (0 : UInt8)).getD (i / 8) 0 = 0 := by
    rw [List.getD_eq_getElem?_getD, List.getElem?_replicate]
    split <;> rfl
  rw [bitAt_eq, hzero]
  exact testBit_of_zero _

theorem getD_modify (f : UInt8 → UInt8) (h : i < bs.length) :
    (bs.modify i f).getD j 0 = if i = j then f (bs.getD j 0) else bs.getD j 0 := by
  rw [List.getD_eq_getElem?_getD, List.getD_eq_getElem?_getD, List.getElem?_modify]
  by_cases hij : i = j
  · subst hij
    simp [List.getElem?_eq_getElem h]
  · simp [hij]

theorem bitAt_setBitAt (h : i < 8 * bs.length) :
    bitAt (setBitAt bs i) j = (bitAt bs j || decide (j = i)) := by
  have hi := Nat.mod_lt i (by decide : 0 < 8)
  have hj := Nat.mod_lt j (by decide : 0 < 8)
  rw [bitAt_eq, bitAt_eq, setBitAt, getD_modify _ (by omega)]
  by_cases hbyte : i / 8 = j / 8
  · have hsame : j % 8 = i % 8 ↔ j = i := by omega
    rw [if_pos hbyte, testBit_setBit hi hj, decide_eq_decide.2 hsame]
  · have hne : j ≠ i := by
      rintro rfl
      exact hbyte rfl
    rw [if_neg hbyte, decide_eq_false hne, Bool.or_false]

theorem bitAt_clearBitAt (h : i < 8 * bs.length) :
    bitAt (clearBitAt bs i) j = (bitAt bs j && decide (j ≠ i)) := by
  have hi := Nat.mod_lt i (by decide : 0 < 8)
  have hj := Nat.mod_lt j (by decide : 0 < 8)
  rw [bitAt_eq, bitAt_eq, clearBitAt, getD_modify _ (by omega)]
  by_cases hbyte : i / 8 = j / 8
  · have hsame : j % 8 ≠ i % 8 ↔ j ≠ i := by omega
    rw [if_pos hbyte, testBit_clearBit hi hj, decide_eq_decide.2 hsame]
  · have hne : j ≠ i := by
      rintro rfl
      exact hbyte rfl
    rw [if_neg hbyte, decide_eq_true hne, Bool.and_true]

/-- The bits set in both of two arrays. -/
theorem bitAt_zipWith_and :
    bitAt (List.zipWith (· &&& ·) bs bs') i = (bitAt bs i && bitAt bs' i) := by
  have hget : (List.zipWith (· &&& ·) bs bs').getD (i / 8) 0 =
      bs.getD (i / 8) 0 &&& bs'.getD (i / 8) 0 := by
    simp only [List.getD_eq_getElem?_getD, List.getElem?_zipWith]
    cases bs[i / 8]? <;> cases bs'[i / 8]? <;> simp
  rw [bitAt_eq, bitAt_eq, bitAt_eq, hget, UInt8.toNat_and, Nat.testBit_and]

/-- The bits of the first bytes. -/
theorem bitAt_take (h : i < 8 * k) : bitAt (bs.take k) i = bitAt bs i := by
  rw [bitAt_eq, bitAt_eq, List.getD_eq_getElem?_getD, List.getD_eq_getElem?_getD,
    List.getElem?_take_of_lt (by omega)]

/-- A bit is set in a byte that is not zero. -/
theorem getD_ne_zero_of_bitAt (h : bitAt bs i = true) : bs.getD (i / 8) 0 ≠ 0 := by
  intro hzero
  rw [bitAt_eq, hzero, testBit_of_zero] at h
  cases h

end HearthStone.Lib
