/-
HearthStone.Object.MaskOperators — masks joined and cut (`UpdateMask.h`).

`operator &=` and `operator |=` walk over the blocks of the mask on the left
and read the other one at the same places. The assertion on the counts lets
the other mask be the shorter one, and then the last reads are behind its
array. What lies there is a parameter.

* `opAssign` — the loop of both operators, with the blocks it reads.
* `updateBlockScan` — the loop of `GetUpdateBlockCount`, whose index is a
  `uint32`: without a block it starts at the largest one.
* `setAlgebra_iff` — the operators are union and intersection, nothing is
  read outside, and the counts are the least ones, exactly when both masks
  have as many blocks and neither is empty.
-/
import HearthStone.Object.UpdateMask

namespace HearthStone.UpdateMask

open Lib

variable {n k : Nat} {behind : Nat → UInt8} {op : UInt8 → UInt8 → UInt8}

/-- Byte `j` of the array, or of what lies behind it. -/
def byteAt (behind : Nat → UInt8) (m : UpdateMask n) (j : Nat) : UInt8 :=
  m.bytes.getD j (behind (j - m.bytes.length))

/-- Bit `i`; one that the mask does not have is 0. -/
def bit (m : UpdateMask n) (i : Nat) : Bool := if h : i < n then m.getBit ⟨i, h⟩ else false

/-! ## The operators -/

/-- What a loop has made of the array, and the blocks of the other mask it
has read. -/
structure Joined where
  bytes : List UInt8
  reads : List Nat

/-- The body of the loop, `mUpdateMask[i] op= mask.mUpdateMask[i]`. -/
def joinBlock (op : UInt8 → UInt8 → UInt8) (operand : Nat → UInt8) (s : Joined) (i : Nat) :
    Joined where
  bytes := s.bytes.mapIdx fun j b => if j / 4 = i then op b (operand j) else b
  reads := s.reads ++ [i]

def opAssign (op : UInt8 → UInt8 → UInt8) (behind : Nat → UInt8) (m : UpdateMask n)
    (mask : UpdateMask k) : Joined :=
  (List.range m.getBlockCount).foldl (joinBlock op (mask.byteAt behind)) ⟨m.bytes, []⟩

/-- `operator &=`. -/
def andAssign (behind : Nat → UInt8) (m : UpdateMask n) (mask : UpdateMask k) : Joined :=
  opAssign (· &&& ·) behind m mask

/-- `operator |=`. -/
def orAssign (behind : Nat → UInt8) (m : UpdateMask n) (mask : UpdateMask k) : Joined :=
  opAssign (· ||| ·) behind m mask

/-- `operator =`: the count, and the blocks copied. -/
def assign (mask : UpdateMask n) : UpdateMask n where
  bytes := mask.bytes.take (4 * mask.getBlockCount)
  length_bytes := by
    rw [getBlockCount, List.length_take, mask.length_bytes, Nat.min_self]
  bounded := by
    intro i hi
    rw [getBlockCount, List.take_of_length_le (Nat.le_of_eq mask.length_bytes)]
    exact mask.bounded i hi

/-- `operator &`. -/
def and (behind : Nat → UInt8) (m : UpdateMask n) (mask : UpdateMask k) : Joined :=
  m.assign.andAssign behind mask

/-- `operator |`. -/
def or (behind : Nat → UInt8) (m : UpdateMask n) (mask : UpdateMask k) : Joined :=
  m.assign.orAssign behind mask

theorem assign_eq (m : UpdateMask n) : m.assign = m := by
  cases m
  simp only [assign, getBlockCount, UpdateMask.mk.injEq]
  exact List.take_of_length_le (by omega)

/-! ## The bits of the results -/

/-- The loop over the first `b` blocks. -/
theorem foldl_joinBlock (operand : Nat → UInt8) (bytes : List UInt8) (b : Nat) :
    (List.range b).foldl (joinBlock op operand) ⟨bytes, []⟩ =
      ⟨bytes.mapIdx fun j x => if j / 4 < b then op x (operand j) else x, List.range b⟩ := by
  induction b with
  | zero =>
    have hsame : bytes = bytes.mapIdx fun _ x => x := List.ext_getElem (by simp) (by simp)
    simpa using hsame
  | succ b ih =>
    rw [List.range_succ, List.foldl_append, ih, List.foldl_cons, List.foldl_nil, joinBlock,
      List.mapIdx_mapIdx]
    congr 2
    funext j x
    by_cases hlt : j / 4 < b
    · have hne : j / 4 ≠ b := by omega
      have hsucc : j / 4 < b + 1 := by omega
      simp [hlt, hne, hsucc]
    · by_cases heq : j / 4 = b
      · simp [heq]
      · have hsucc : ¬ j / 4 < b + 1 := by omega
        simp [hlt, heq, hsucc]

theorem reads_opAssign (m : UpdateMask n) (mask : UpdateMask k) :
    (opAssign op behind m mask).reads = List.range (maskBlocks n) := by
  rw [opAssign, foldl_joinBlock, getBlockCount]

theorem bytes_opAssign (m : UpdateMask n) (mask : UpdateMask k) :
    (opAssign op behind m mask).bytes =
      m.bytes.mapIdx fun j x => op x (mask.byteAt behind j) := by
  rw [opAssign, foldl_joinBlock, getBlockCount]
  refine List.mapIdx_eq_mapIdx_iff.2 ?_
  intro j hj
  rw [m.length_bytes] at hj
  rw [if_pos (by omega)]

/-- A bit of the result, for an operator that works bit by bit. -/
theorem bitAt_opAssign {bop : Bool → Bool → Bool}
    (hop : ∀ x y t, (op x y).toNat.testBit t = bop (x.toNat.testBit t) (y.toNat.testBit t))
    (m : UpdateMask n) (mask : UpdateMask k) (i : Fin n) :
    bitAt (opAssign op behind m mask).bytes i =
      bop (m.getBit i) ((mask.byteAt behind (i.val / 8)).toNat.testBit (i.val % 8)) := by
  have hbyte : i.val / 8 < m.bytes.length := by
    have hi := m.lt_bits i
    omega
  have hget : (opAssign op behind m mask).bytes.getD (i.val / 8) 0 =
      op (m.bytes.getD (i.val / 8) 0) (mask.byteAt behind (i.val / 8)) := by
    rw [bytes_opAssign]
    simp [List.getD_eq_getElem?_getD, List.getElem?_eq_getElem hbyte]
  rw [bitAt_eq, hget, hop, getBit, bitAt_eq]

/-- Inside the array of the other mask its own bit is read. -/
theorem testBit_byteAt (mask : UpdateMask k) {i : Nat} (hi : i < 32 * maskBlocks k) :
    (mask.byteAt behind (i / 8)).toNat.testBit (i % 8) = mask.bit i := by
  have hbyte : i / 8 < mask.bytes.length := by
    rw [mask.length_bytes]
    omega
  have hget : mask.byteAt behind (i / 8) = mask.bytes.getD (i / 8) 0 := by
    simp [byteAt, List.getD_eq_getElem?_getD, List.getElem?_eq_getElem hbyte]
  rw [hget, ← bitAt_eq, bit]
  by_cases hk : i < k
  · rw [dif_pos hk, getBit]
  · rw [dif_neg hk, mask.bounded i (by omega)]

theorem testBit_or (x y : UInt8) (t : Nat) :
    (x ||| y).toNat.testBit t = (x.toNat.testBit t || y.toNat.testBit t) := by
  rw [UInt8.toNat_or, Nat.testBit_or]

theorem testBit_and (x y : UInt8) (t : Nat) :
    (x &&& y).toNat.testBit t = (x.toNat.testBit t && y.toNat.testBit t) := by
  rw [UInt8.toNat_and, Nat.testBit_and]

/-! ## The number of blocks -/

/-- `mUpdateMask[x]` is not zero. -/
def hasBlockAt (behind : Nat → UInt8) (m : UpdateMask n) (x : Nat) : Bool :=
  (List.range 4).any fun i => decide (m.byteAt behind (4 * x + i) ≠ 0)

/-- `for( ;x;x--) if(mUpdateMask[x])break;`: the index it ends with, and
the blocks it has read. -/
def scan (block : Nat → Bool) : Nat → Nat × List Nat
  | 0 => (0, [])
  | x + 1 =>
    if block (x + 1) then (x + 1, [x + 1])
    else ((scan block x).1, (x + 1) :: (scan block x).2)

/-- `mBlocks - 1` of `uint32`. -/
def lastIndex (n : Nat) : Nat := (maskBlocks n + (2 ^ 32 - 1)) % 2 ^ 32

def updateBlockScan (behind : Nat → UInt8) (m : UpdateMask n) : Nat × List Nat :=
  scan (m.hasBlockAt behind) (lastIndex n)

/-- `GetUpdateBlockCount`. -/
def updateBlockCount (behind : Nat → UInt8) (m : UpdateMask n) : Nat :=
  ((m.updateBlockScan behind).1 + 1) % 2 ^ 32

theorem mem_scan_le {block : Nat → Bool} {x y : Nat} (h : y ∈ (scan block x).2) : y ≤ x := by
  induction x with
  | zero => cases h
  | succ x ih =>
    unfold scan at h
    split at h
    · rw [List.mem_singleton] at h
      exact Nat.le_of_eq h
    · rcases List.mem_cons.1 h with h | h
      · exact Nat.le_of_eq h
      · exact Nat.le_succ_of_le (ih h)

/-- The scan begins with its first block, if that is not block 0. -/
theorem mem_scan_self (block : Nat → Bool) (x : Nat) : x + 1 ∈ (scan block (x + 1)).2 := by
  unfold scan
  split
  · exact List.mem_singleton_self _
  · exact List.mem_cons_self

/-- Inside the array the scan finds the last block that is not zero. -/
theorem scan_fst (m : UpdateMask n) {x : Nat} (hx : x < maskBlocks n) :
    (scan (m.hasBlockAt behind) x).1 = m.lastBlock x := by
  induction x with
  | zero => rfl
  | succ x ih =>
    have hbyte : ∀ i < 4, m.byteAt behind (4 * (x + 1) + i) = m.bytes.getD (4 * (x + 1) + i) 0 := by
      intro i hi
      have hlt : 4 * (x + 1) + i < m.bytes.length := by
        rw [m.length_bytes]
        omega
      simp [byteAt, List.getD_eq_getElem?_getD, List.getElem?_eq_getElem hlt]
    have hblock : m.hasBlockAt behind (x + 1) = m.hasBlock (x + 1) := by
      unfold hasBlockAt hasBlock
      rw [Bool.eq_iff_iff, List.any_eq_true, List.any_eq_true]
      refine exists_congr fun i => and_congr_right fun hi => ?_
      rw [hbyte i (List.mem_range.1 hi)]
    unfold scan lastBlock
    rw [hblock, ← ih (by omega)]
    split <;> rfl

theorem lastIndex_of_pos (hpos : 0 < maskBlocks n) (hn : n < 2 ^ 32) :
    lastIndex n = maskBlocks n - 1 := by
  have hle : maskBlocks n ≤ 2 ^ 27 := maskBlocks_le (by omega)
  unfold lastIndex
  omega

theorem lastIndex_of_zero (hzero : maskBlocks n = 0) : lastIndex n = 2 ^ 32 - 1 := by
  unfold lastIndex
  rw [hzero]
  rfl

theorem updateBlockCount_eq (m : UpdateMask n) (hpos : 0 < maskBlocks n) (hn : n < 2 ^ 32) :
    m.updateBlockCount behind = m.getUpdateBlockCount := by
  have hle : maskBlocks n ≤ 2 ^ 27 := maskBlocks_le (by omega)
  have hlast := m.lastBlock_le (maskBlocks n - 1)
  rw [updateBlockCount, updateBlockScan, lastIndex_of_pos hpos hn, scan_fst m (by omega),
    getUpdateBlockCount]
  omega

/-- The number of blocks that hold all the bits that are set. -/
def Covers (m : UpdateMask n) (b : Nat) : Prop := ∀ i, m.getBit i = true → i.val < 32 * b

/-- A block that is not zero has a bit. -/
theorem exists_getBit {m : UpdateMask n} {x : Nat} (h : m.hasBlock x = true) :
    ∃ i : Fin n, m.getBit i = true ∧ 32 * x ≤ i.val := by
  obtain ⟨k, hk, hbyte⟩ := List.any_eq_true.1 h
  rw [List.mem_range] at hk
  have hne : (m.bytes.getD (4 * x + k) 0).toNat ≠ 0 := by
    intro hzero
    exact of_decide_eq_true hbyte (UInt8.toNat.inj hzero)
  obtain ⟨t, ht⟩ := Nat.exists_testBit_of_ne_zero hne
  have ht8 : t < 8 := by
    by_contra hge
    have hlt : (m.bytes.getD (4 * x + k) 0).toNat < 2 ^ t :=
      Nat.lt_of_lt_of_le (UInt8.toNat_lt _) (Nat.pow_le_pow_right (by decide) (not_lt.1 hge))
    rw [Nat.testBit_lt_two_pow hlt] at ht
    cases ht
  have hdiv : (8 * (4 * x + k) + t) / 8 = 4 * x + k := by omega
  have hmod : (8 * (4 * x + k) + t) % 8 = t := by omega
  have hbit : bitAt m.bytes (8 * (4 * x + k) + t) = true := by rw [bitAt_eq, hdiv, hmod, ht]
  have hlt : 8 * (4 * x + k) + t < n := by
    by_contra hge
    rw [m.bounded _ (not_lt.1 hge)] at hbit
    cases hbit
  exact ⟨⟨_, hlt⟩, hbit, by simp only; omega⟩

/-- The block the scan ends at is not zero, if any is not. -/
theorem hasBlock_lastBlock {m : UpdateMask n} {x y : Nat} (hy : y ≤ x)
    (h : m.hasBlock y = true) : m.hasBlock (m.lastBlock x) = true := by
  induction x with
  | zero =>
    obtain rfl := Nat.le_zero.1 hy
    exact h
  | succ x ih =>
    unfold lastBlock
    split
    case isTrue hlast => exact hlast
    case isFalse hnot =>
      have hne : y ≠ x + 1 := by
        rintro rfl
        exact hnot h
      exact ih (by omega)

theorem isLeast_getUpdateBlockCount {m : UpdateMask n} {i : Fin n} (h : m.getBit i = true) :
    IsLeast {b | m.Covers b} m.getUpdateBlockCount := by
  have hn := le_maskBlocks n
  constructor
  · exact fun j hj => lt_of_getBit hj
  · intro b hb
    have hlast := hasBlock_lastBlock (x := maskBlocks n - 1) (by omega) (hasBlock_of_getBit h)
    obtain ⟨j, hj, hle⟩ := exists_getBit hlast
    have hlt := hb j hj
    unfold getUpdateBlockCount
    omega

/-! ## The algebra of the masks -/

/-- What the loop of `GetUpdateBlockCount` is to do. -/
structure Counts (behind : Nat → UInt8) (m : UpdateMask n) : Prop where
  inside : ∀ x ∈ (m.updateBlockScan behind).2, x < maskBlocks n
  least : IsLeast {b | m.Covers b} (m.updateBlockCount behind)

/-- Union and intersection of two masks, nothing read outside an array, and
the least numbers of blocks. -/
structure SetAlgebra (behind behind' : Nat → UInt8) (m : UpdateMask n) (mask : UpdateMask k) :
    Prop where
  union : ∀ i : Fin n, bitAt (m.or behind' mask).bytes i = (m.getBit i || mask.bit i)
  intersection : ∀ i : Fin n, bitAt (m.and behind' mask).bytes i = (m.getBit i && mask.bit i)
  inside : ∀ x ∈ (m.or behind' mask).reads ++ (m.and behind' mask).reads,
    x < maskBlocks n ∧ x < maskBlocks k
  left : m.Counts behind
  right : mask.Counts behind'

theorem counts_iff (m : UpdateMask n) (hn : n < 2 ^ 32) :
    m.Counts behind ↔ ∃ i, m.getBit i = true := by
  constructor
  · intro h
    have hpos : 0 < maskBlocks n := by
      by_contra hnot
      have hread : 2 ^ 32 - 1 ∈ (m.updateBlockScan behind).2 := by
        rw [updateBlockScan, lastIndex_of_zero (by omega)]
        exact mem_scan_self _ _
      have hlt := h.inside _ hread
      omega
    by_contra hnone
    have hzero : m.Covers 0 := by
      intro i hi
      exact absurd ⟨i, hi⟩ hnone
    have hle := h.least.2 hzero
    rw [updateBlockCount_eq m hpos hn, getUpdateBlockCount] at hle
    omega
  · rintro ⟨i, hi⟩
    have hlt := i.isLt
    have hle := le_maskBlocks n
    have hpos : 0 < maskBlocks n := by omega
    constructor
    · intro x hx
      rw [updateBlockScan, lastIndex_of_pos hpos hn] at hx
      have hx' := mem_scan_le hx
      omega
    · rw [updateBlockCount_eq m hpos hn]
      exact isLeast_getUpdateBlockCount hi

theorem setAlgebra_iff (n k : UInt32) (hassert : k ≤ n) (behind behind' : Nat → UInt8)
    (m : UpdateMask n.toNat) (mask : UpdateMask k.toNat) :
    SetAlgebra behind behind' m mask ↔
      maskBlocks k.toNat = maskBlocks n.toNat ∧
      (∃ i, m.getBit i = true) ∧ ∃ i, mask.getBit i = true := by
  have hn : n.toNat < 2 ^ 32 := n.toNat_lt
  have hk : k.toNat < 2 ^ 32 := k.toNat_lt
  have hle : k.toNat ≤ n.toNat := UInt32.le_iff_toNat_le.1 hassert
  have hblocks : maskBlocks k.toNat ≤ maskBlocks n.toNat :=
    maskBlocks_le (Nat.le_trans hle (le_maskBlocks _))
  have hreads : (m.or behind' mask).reads ++ (m.and behind' mask).reads =
      List.range (maskBlocks n.toNat) ++ List.range (maskBlocks n.toNat) := by
    rw [or, and, orAssign, andAssign, reads_opAssign, reads_opAssign]
  constructor
  · intro h
    refine ⟨?_, (counts_iff m hn).1 h.left, (counts_iff mask hk).1 h.right⟩
    have hinside := h.inside
    rw [hreads] at hinside
    by_contra hne
    have hread := hinside (maskBlocks k.toNat)
      (List.mem_append_left _ (List.mem_range.2 (by omega)))
    exact Nat.lt_irrefl _ hread.2
  · rintro ⟨heq, hm, hmask⟩
    have hbit : ∀ i : Fin n.toNat, i.val < 32 * maskBlocks k.toNat := by
      intro i
      have hi := i.isLt
      have hcover := le_maskBlocks n.toNat
      omega
    refine ⟨?_, ?_, ?_, (counts_iff m hn).2 hm, (counts_iff mask hk).2 hmask⟩
    · intro i
      rw [or, orAssign, assign_eq, bitAt_opAssign testBit_or, testBit_byteAt mask (hbit i)]
    · intro i
      rw [and, andAssign, assign_eq, bitAt_opAssign testBit_and, testBit_byteAt mask (hbit i)]
    · intro x hx
      rw [hreads, List.mem_append, List.mem_range, or_self] at hx
      exact ⟨hx, by omega⟩

/-- Two masks of 40 and of 33 values. -/
theorem setAlgebra_40_33 :
    SetAlgebra (fun _ => 0xff) (fun _ => 0xff)
      ((UpdateMask.clear (40 : UInt32).toNat).setBit ⟨39, by decide⟩)
      ((UpdateMask.clear (33 : UInt32).toNat).setBit ⟨0, by decide⟩) :=
  (setAlgebra_iff 40 33 (by decide) _ _ _ _).2
    ⟨rfl, ⟨⟨39, by decide⟩, by decide⟩, ⟨0, by decide⟩, by decide⟩

/-- Of a mask of 40 values and one of 32, with a 1 behind the array of the
second: bit 32 is in neither, and it is in the union. -/
theorem or_reads_behind :
    let m := (UpdateMask.clear (40 : UInt32).toNat).setBit ⟨39, by decide⟩
    let mask := (UpdateMask.clear (32 : UInt32).toNat).setBit ⟨0, by decide⟩
    (32 : UInt32) ≤ 40 ∧ m.getBit ⟨32, by decide⟩ = false ∧ mask.bit 32 = false ∧
      bitAt (m.or (fun _ => 1) mask).bytes 32 = true ∧
      1 ∈ (m.or (fun _ => 1) mask).reads ∧ ¬ 1 < maskBlocks (32 : UInt32).toNat ∧
      ¬ SetAlgebra (fun _ => 1) (fun _ => 1) m mask := by
  refine ⟨by decide, by decide, by decide, by decide, by decide, by decide, ?_⟩
  intro h
  have hbit := h.union ⟨32, by decide⟩
  revert hbit
  decide

end HearthStone.UpdateMask
