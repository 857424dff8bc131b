/-
HearthStone.Object.UpdateMask — the set of an object's fields that have
to be sent (`UpdateMask.h`).

The mask of an object with `n` fields is kept in blocks of 32 bits, bytes
of a little-endian host. An index is below `n`, so the assertions on it
hold. `bounded` is what they are for: the bits of the last block that
belong to no field are never set.

* `getUpdateBlockCount` — the blocks up to the last one that is not zero,
  and at least one; `lt_of_getBit` says that all set bits are in them.
-/
import HearthStone.Lib.Bits

namespace HearthStone

open Lib

/-- `mBlocks` of a mask of `n` values. -/
def maskBlocks (n : Nat) : Nat := n / 32 + if n % 32 = 0 then 0 else 1

theorem le_maskBlocks (n : Nat) : n ≤ 32 * maskBlocks n := by
  unfold maskBlocks
  split <;> omega

theorem maskBlocks_le {n k : Nat} (h : n ≤ 32 * k) : maskBlocks n ≤ k := by
  unfold maskBlocks
  split <;> omega

structure UpdateMask (n : Nat) where
  /-- `mUpdateMask`, as `GetMask` shows it. -/
  bytes : List UInt8
  length_bytes : bytes.length = 4 * maskBlocks n
  bounded : ∀ i, n ≤ i → bitAt bytes i = false

namespace UpdateMask

variable {n : Nat} {i j : Fin n}

theorem lt_bits (m : UpdateMask n) (i : Fin n) : i.val < 8 * m.bytes.length := by
  have h := le_maskBlocks n
  rw [m.length_bytes]
  omega

/-- `SetCount(n)`, and `Clear`. -/
def clear (n : Nat) : UpdateMask n where
  bytes := List.replicate (4 * maskBlocks n) 0
  length_bytes := List.length_replicate
  bounded := fun _ _ => bitAt_replicate_zero

def getBit (m : UpdateMask n) (i : Fin n) : Bool := bitAt m.bytes i

def setBit (m : UpdateMask n) (i : Fin n) : UpdateMask n where
  bytes := setBitAt m.bytes i
  length_bytes := by rw [length_setBitAt, m.length_bytes]
  bounded := by
    intro j hj
    have hne : j ≠ i := by omega
    rw [bitAt_setBitAt (m.lt_bits i), m.bounded j hj, decide_eq_false hne, Bool.or_false]

def unsetBit (m : UpdateMask n) (i : Fin n) : UpdateMask n where
  bytes := clearBitAt m.bytes i
  length_bytes := by rw [length_clearBitAt, m.length_bytes]
  bounded := by
    intro j hj
    rw [bitAt_clearBitAt (m.lt_bits i), m.bounded j hj, Bool.false_and]

/-- `operator &=`. -/
def inter (m m' : UpdateMask n) : UpdateMask n where
  bytes := List.zipWith (· &&& ·) m.bytes m'.bytes
  length_bytes := by rw [List.length_zipWith, m.length_bytes, m'.length_bytes, Nat.min_self]
  bounded := by
    intro j hj
    rw [bitAt_zipWith_and, m.bounded j hj, Bool.false_and]

def getBlockCount (_ : UpdateMask n) : Nat := maskBlocks n

/-- `mUpdateMask[x]` is not zero. -/
def hasBlock (m : UpdateMask n) (x : Nat) : Bool :=
  (List.range 4).any fun k => decide (m.bytes.getD (4 * x + k) 0 ≠ 0)

/-- The loop of `GetUpdateBlockCount`, from block `x` down. -/
def lastBlock (m : UpdateMask n) : Nat → Nat
  | 0 => 0
  | x + 1 => if m.hasBlock (x + 1) then x + 1 else lastBlock m x

def getUpdateBlockCount (m : UpdateMask n) : Nat := m.lastBlock (maskBlocks n - 1) + 1

/-! ## The bits -/

@[simp] theorem getBit_clear : (clear n).getBit i = false := bitAt_replicate_zero

@[simp] theorem getBit_setBit (m : UpdateMask n) :
    (m.setBit i).getBit j = (m.getBit j || decide (j = i)) := by
  have hval : j.val = i.val ↔ j = i := Fin.val_inj
  have h := bitAt_setBitAt (j := j.val) (m.lt_bits i)
  rwa [decide_eq_decide.2 hval] at h

@[simp] theorem getBit_unsetBit (m : UpdateMask n) :
    (m.unsetBit i).getBit j = (m.getBit j && decide (j ≠ i)) := by
  have hval : j.val ≠ i.val ↔ j ≠ i := not_congr Fin.val_inj
  have h := bitAt_clearBitAt (j := j.val) (m.lt_bits i)
  rwa [decide_eq_decide.2 hval] at h

@[simp] theorem getBit_inter (m m' : UpdateMask n) :
    (m.inter m').getBit i = (m.getBit i && m'.getBit i) := bitAt_zipWith_and

/-- Setting the bits of a list one after the other. -/
theorem getBit_foldl_setBit (l : List (Fin n)) (m : UpdateMask n) :
    (l.foldl setBit m).getBit j = (m.getBit j || decide (j ∈ l)) := by
  induction l generalizing m with
  | nil => simp
  | cons i l ih =>
    rw [List.foldl_cons, ih, getBit_setBit, Bool.or_assoc]
    simp [List.mem_cons, Bool.decide_or]

/-! ## The blocks that are sent -/

theorem lastBlock_le (m : UpdateMask n) (x : Nat) : m.lastBlock x ≤ x := by
  induction x with
  | zero => exact Nat.le_refl 0
  | succ x ih =>
    unfold lastBlock
    split
    · exact Nat.le_refl _
    · exact Nat.le_succ_of_le ih

theorem le_lastBlock {m : UpdateMask n} {x y : Nat} (hy : y ≤ x) (h : m.hasBlock y = true) :
    y ≤ m.lastBlock x := by
  induction x with
  | zero => exact hy
  | succ x ih =>
    unfold lastBlock
    split
    · exact hy
    · rename_i hnot
      have hne : y ≠ x + 1 := by
        rintro rfl
        exact hnot h
      exact ih (by omega)

theorem getUpdateBlockCount_le (m : UpdateMask n) (hn : 0 < n) :
    m.getUpdateBlockCount ≤ maskBlocks n := by
  have h := m.lastBlock_le (maskBlocks n - 1)
  have hpos := le_maskBlocks n
  unfold getUpdateBlockCount
  omega

theorem hasBlock_of_getBit {m : UpdateMask n} (h : m.getBit i = true) :
    m.hasBlock (i.val / 32) = true := by
  have hbyte := getD_ne_zero_of_bitAt h
  refine List.any_eq_true.2 ⟨i.val / 8 % 4, List.mem_range.2 (Nat.mod_lt _ (by decide)), ?_⟩
  have hindex : 4 * (i.val / 32) + i.val / 8 % 4 = i.val / 8 := by omega
  rw [hindex]
  exact decide_eq_true hbyte

/-- Every set bit is in a block that is sent. -/
theorem lt_of_getBit {m : UpdateMask n} (h : m.getBit i = true) :
    i.val < 32 * m.getUpdateBlockCount := by
  have hn := le_maskBlocks n
  have hblock := le_lastBlock (x := maskBlocks n - 1) (by omega) (hasBlock_of_getBit h)
  unfold getUpdateBlockCount
  omega

end UpdateMask

end HearthStone
