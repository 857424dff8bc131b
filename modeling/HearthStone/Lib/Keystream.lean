/-
HearthStone.Lib.Keystream — bytes under a keystream.

Nothing here names a cipher. A keystream is a function from positions to
bytes, and `xorFrom ks n bs` are the bytes `bs` under the part of it that
begins at position `n`. The same keystream at the same position takes it
off again (`xorFrom_xorFrom`); of two pieces the second begins where the
first ends (`xorFrom_append`), so it does not matter into which pieces a
text is cut as long as no position is used twice or left out.
-/
import Mathlib

namespace HearthStone.Lib

/-- Bytes under a keystream, from a position on. -/
def xorFrom (ks : Nat → UInt8) : Nat → List UInt8 → List UInt8
  | _, [] => []
  | n, b :: bs => (b ^^^ ks n) :: xorFrom ks (n + 1) bs

variable (ks : Nat → UInt8) (n : Nat)

@[simp] theorem xorFrom_nil : xorFrom ks n [] = [] := rfl

@[simp] theorem length_xorFrom (bs : List UInt8) : (xorFrom ks n bs).length = bs.length := by
  induction bs generalizing n with
  | nil => rfl
  | cons b bs ih => simp [xorFrom, ih]

theorem xorFrom_append (xs ys : List UInt8) :
    xorFrom ks n (xs ++ ys) = xorFrom ks n xs ++ xorFrom ks (n + xs.length) ys := by
  induction xs generalizing n with
  | nil => simp
  | cons x xs ih =>
    have hnext : n + 1 + xs.length = n + (xs.length + 1) := by omega
    simp [xorFrom, ih, hnext]

/-- What the keystream has put on it takes off again. -/
@[simp] theorem xorFrom_xorFrom (bs : List UInt8) : xorFrom ks n (xorFrom ks n bs) = bs := by
  induction bs generalizing n with
  | nil => rfl
  | cons b bs ih => simp [xorFrom, ih]

/-- A keystream read from its second byte on. -/
theorem xorFrom_succ (bs : List UInt8) :
    xorFrom ks (n + 1) bs = xorFrom (fun i => ks (i + 1)) n bs := by
  induction bs generalizing n with
  | nil => rfl
  | cons b bs ih => simp [xorFrom, ih]

end HearthStone.Lib
