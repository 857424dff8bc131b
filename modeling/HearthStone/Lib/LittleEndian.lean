/-
HearthStone.Lib.LittleEndian — numbers of a fixed width as they lie in
the memory of a little-endian host.

`leBytes w n` are the `w` low bytes of `n`, least significant first;
`ofLeBytes` is the number they stand for. Of a number below `256 ^ w` all
comes back (`ofLeBytes_leBytes`).
-/
import Mathlib

namespace HearthStone.Lib

/-- The `w` low bytes of a number, least significant first. -/
def leBytes : Nat → Nat → List UInt8
  | 0, _ => []
  | w + 1, n => UInt8.ofNat n :: leBytes w (n / 256)

/-- The number that bytes stand for. -/
def ofLeBytes : List UInt8 → Nat
  | [] => 0
  | b :: bs => b.toNat + 256 * ofLeBytes bs

@[simp] theorem length_leBytes (w n : Nat) : (leBytes w n).length = w := by
  induction w generalizing n with
  | zero => rfl
  | succ w ih => exact congrArg (· + 1) (ih (n / 256))

theorem ofLeBytes_leBytes_mod (w n : Nat) : ofLeBytes (leBytes w n) = n % 256 ^ w := by
  induction w generalizing n with
  | zero =>
    show 0 = n % 1
    omega
  | succ w ih =>
    show (UInt8.ofNat n).toNat + 256 * ofLeBytes (leBytes w (n / 256)) = n % 256 ^ (w + 1)
    have hbyte : (UInt8.ofNat n).toNat = n % 256 := by simp
    rw [ih, hbyte, pow_succ', Nat.mod_mul]

/-- A number of the width is read back. -/
theorem ofLeBytes_leBytes {w n : Nat} (h : n < 256 ^ w) : ofLeBytes (leBytes w n) = n := by
  rw [ofLeBytes_leBytes_mod, Nat.mod_eq_of_lt h]

theorem ofLeBytes_replicate_zero (w : Nat) : ofLeBytes (List.replicate w 0) = 0 := by
  induction w with
  | zero => rfl
  | succ w ih =>
    rw [List.replicate_succ]
    show (0 : UInt8).toNat + 256 * ofLeBytes (List.replicate w 0) = 0
    rw [ih]
    rfl

theorem ofLeBytes_lt (bs : List UInt8) : ofLeBytes bs < 256 ^ bs.length := by
  induction bs with
  | nil => exact Nat.one_pos
  | cons b bs ih =>
    have hb := b.toNat_lt
    rw [List.length_cons, Nat.pow_succ, ofLeBytes]
    omega

/-- Bytes are read back from the number they stand for. -/
theorem leBytes_ofLeBytes (bs : List UInt8) : leBytes bs.length (ofLeBytes bs) = bs := by
  induction bs with
  | nil => rfl
  | cons b bs ih =>
    have hb := b.toNat_lt
    have hlow : UInt8.ofNat (b.toNat + 256 * ofLeBytes bs) = b := by
      refine UInt8.toNat.inj ?_
      rw [UInt8.toNat_ofNat']
      omega
    have hhigh : (b.toNat + 256 * ofLeBytes bs) / 256 = ofLeBytes bs := by omega
    rw [List.length_cons, ofLeBytes, leBytes, hlow, hhigh, ih]

/-- A word of `w` bytes is read back. -/
theorem ofNat_ofLeBytes {w : Nat} (x : BitVec (8 * w)) :
    BitVec.ofNat (8 * w) (ofLeBytes (leBytes w x.toNat)) = x := by
  have hlt : x.toNat < 256 ^ w := by
    have h := x.isLt
    rwa [pow_mul] at h
  rw [ofLeBytes_leBytes hlt, BitVec.ofNat_toNat, BitVec.setWidth_eq]

/-! ## As many bytes as a number has

`minBytes n` ends with the highest byte that is not 0. In a fixed width the
zeros behind it are missing (`leBytes_eq`), and bytes come back from the
number they stand for exactly when the last is no zero
(`minBytes_ofLeBytes_iff`). -/

variable {n k : Nat} {bs : List UInt8}

/-- The bytes of a number, least significant first. -/
def minBytes (n : Nat) : List UInt8 := (Nat.digits 256 n).map UInt8.ofNat

theorem ofLeBytes_append (bs cs : List UInt8) :
    ofLeBytes (bs ++ cs) = ofLeBytes bs + 256 ^ bs.length * ofLeBytes cs := by
  induction bs with
  | nil => simp [ofLeBytes]
  | cons b bs ih =>
    rw [List.cons_append, ofLeBytes, ih, ofLeBytes, List.length_cons]
    ring

/-- Bytes are determined by their number and how many they are. -/
theorem eq_leBytes_of_ofLeBytes (hlength : bs.length = k) (h : ofLeBytes bs = n) :
    bs = leBytes k n := by
  subst hlength h
  exact (leBytes_ofLeBytes bs).symm

theorem ofLeBytes_minBytes (n : Nat) : ofLeBytes (minBytes n) = n := by
  have hdigits : ∀ ds : List Nat, (∀ d ∈ ds, d < 256) →
      ofLeBytes (ds.map UInt8.ofNat) = Nat.ofDigits 256 ds := by
    intro ds hds
    induction ds with
    | nil => rfl
    | cons d ds ih =>
      have hd : (UInt8.ofNat d).toNat = d := by
        rw [UInt8.toNat_ofNat']
        exact Nat.mod_eq_of_lt (hds d List.mem_cons_self)
      rw [List.map_cons, ofLeBytes, hd, ih fun e he => hds e (List.mem_cons_of_mem _ he),
        Nat.ofDigits_cons]
  rw [minBytes, hdigits _ fun d hd => Nat.digits_lt_base (by omega) hd, Nat.ofDigits_digits]

theorem length_minBytes_le_iff : (minBytes n).length ≤ k ↔ n < 256 ^ k := by
  rw [minBytes, List.length_map]
  exact Nat.digits_length_le_iff (by omega) n

theorem lt_length_minBytes_iff : k < (minBytes n).length ↔ 256 ^ k ≤ n := by
  rw [← not_le, length_minBytes_le_iff, not_lt]

theorem length_minBytes_eq_iff : (minBytes n).length = k + 1 ↔ 256 ^ k ≤ n ∧ n < 256 ^ (k + 1) := by
  rw [← lt_length_minBytes_iff, ← length_minBytes_le_iff]
  omega

/-- In a fixed width there are zeros behind the bytes of the number. -/
theorem leBytes_eq (h : n < 256 ^ k) :
    leBytes k n = minBytes n ++ List.replicate (k - (minBytes n).length) 0 := by
  have hle := length_minBytes_le_iff.2 h
  refine (eq_leBytes_of_ofLeBytes ?_ ?_).symm
  · rw [List.length_append, List.length_replicate]
    omega
  · rw [ofLeBytes_append, ofLeBytes_minBytes, ofLeBytes_replicate_zero, Nat.mul_zero, Nat.add_zero]

theorem minBytes_eq_leBytes_iff (h : n < 256 ^ k) :
    minBytes n = leBytes k n ↔ (minBytes n).length = k := by
  constructor
  · intro heq
    rw [heq, length_leBytes]
  · intro hlength
    rw [leBytes_eq h, hlength, Nat.sub_self]
    exact (List.append_nil _).symm

/-- The highest byte is no zero when the number has its full length. -/
theorem getLast_ne_zero_iff : bs.getLast? ≠ some 0 ↔ (minBytes (ofLeBytes bs)).length = bs.length := by
  rcases List.eq_nil_or_concat' bs with rfl | ⟨cs, b, rfl⟩
  · simp [ofLeBytes, minBytes]
  · have hlow := ofLeBytes_lt cs
    have hb := b.toNat_lt
    have hvalue : ofLeBytes (cs ++ [b]) = ofLeBytes cs + 256 ^ cs.length * b.toNat := by
      rw [ofLeBytes_append]
      simp [ofLeBytes]
    rw [List.getLast?_concat, List.length_append, List.length_singleton, length_minBytes_eq_iff,
      hvalue]
    constructor
    · intro hne
      have hpos : 1 ≤ b.toNat := by
        rw [Nat.one_le_iff_ne_zero]
        intro hzero
        exact hne (congrArg some (UInt8.toNat.inj hzero))
      constructor
      · calc 256 ^ cs.length = 256 ^ cs.length * 1 := (Nat.mul_one _).symm
          _ ≤ 256 ^ cs.length * b.toNat := Nat.mul_le_mul_left _ hpos
          _ ≤ _ := Nat.le_add_left _ _
      · calc ofLeBytes cs + 256 ^ cs.length * b.toNat
            < 256 ^ cs.length + 256 ^ cs.length * b.toNat := by omega
          _ = 256 ^ cs.length * (b.toNat + 1) := by ring
          _ ≤ 256 ^ cs.length * 256 := Nat.mul_le_mul_left _ (by omega)
          _ = 256 ^ (cs.length + 1) := (Nat.pow_succ ..).symm
    · rintro ⟨hle, -⟩ hzero
      obtain rfl : b = 0 := Option.some.inj hzero
      rw [UInt8.toNat_zero, Nat.mul_zero, Nat.add_zero] at hle
      omega

/-- Bytes come back from their number exactly when the last is no zero. -/
theorem minBytes_ofLeBytes_iff : minBytes (ofLeBytes bs) = bs ↔ bs.getLast? ≠ some 0 := by
  rw [getLast_ne_zero_iff, ← minBytes_eq_leBytes_iff (ofLeBytes_lt bs), leBytes_ofLeBytes]

end HearthStone.Lib
