/-
HearthStone.Lib.Sparse — lists stored as their nonzero entries and the
flags that say where they are.

`support` has a flag for each entry, `nonzero` the entries that are not
zero, and `expand` puts such entries back where the flags are. The two
directions are inverse to each other as long as no stored entry is zero
(`expand_support`, `support_expand`, `nonzero_expand`).
-/
import Mathlib.Data.List.Basic

namespace HearthStone.Lib

variable {α : Type*} [Zero α] [DecidableEq α] {xs fs : List α} {bs : List Bool}

/-- Which entries are not zero. -/
def support (xs : List α) : List Bool := xs.map fun x => decide (x ≠ 0)

/-- The entries that are not zero, in order. -/
def nonzero (xs : List α) : List α := xs.filter fun x => decide (x ≠ 0)

omit [DecidableEq α] in
/-- One entry for each flag that is set, zero for the others. -/
def expand : List Bool → List α → List α
  | [], _ => []
  | false :: bs, fs => 0 :: expand bs fs
  | true :: bs, f :: fs => f :: expand bs fs
  | true :: bs, [] => 0 :: expand bs []

omit [DecidableEq α] in
@[simp] theorem length_expand : (expand bs fs).length = bs.length := by
  induction bs generalizing fs with
  | nil => rfl
  | cons b bs ih => cases b <;> cases fs <;> simp [expand, ih]

omit [DecidableEq α] in
theorem expand_nil (bs : List Bool) : expand bs ([] : List α) = List.replicate bs.length 0 := by
  induction bs with
  | nil => rfl
  | cons b bs ih => cases b <;> simp [expand, ih, List.replicate_succ]

@[simp] theorem nonzero_nil : nonzero ([] : List α) = [] := rfl

@[simp] theorem support_cons (x : α) (xs : List α) :
    support (x :: xs) = decide (x ≠ 0) :: support xs := rfl

@[simp] theorem nonzero_cons_zero (xs : List α) : nonzero ((0 : α) :: xs) = nonzero xs := by
  simp [nonzero]

@[simp] theorem nonzero_cons {x : α} (hx : x ≠ 0) (xs : List α) :
    nonzero (x :: xs) = x :: nonzero xs := by
  simp [nonzero, hx]

theorem zero_notMem_nonzero : 0 ∉ nonzero xs := by
  intro h
  simpa using (List.mem_filter.1 h).2

/-- As many entries are stored as flags are set. -/
theorem length_nonzero (xs : List α) : (nonzero xs).length = (support xs).count true := by
  induction xs with
  | nil => rfl
  | cons x xs ih =>
    by_cases hx : x = 0
    · subst hx
      simpa using ih
    · simpa [hx] using ih

theorem expand_support (xs : List α) : expand (support xs) (nonzero xs) = xs := by
  induction xs with
  | nil => rfl
  | cons x xs ih =>
    by_cases hx : x = 0
    · subst hx
      simpa [expand] using ih
    · simpa [hx, expand] using ih

theorem support_expand (hlen : fs.length = bs.count true) (hfs : 0 ∉ fs) :
    support (expand bs fs) = bs := by
  induction bs generalizing fs with
  | nil => rfl
  | cons b bs ih =>
    cases b with
    | false =>
      have hrest : fs.length = bs.count true := by simpa using hlen
      simpa [expand] using ih hrest hfs
    | true =>
      cases fs with
      | nil => simp at hlen
      | cons f fs =>
        have hrest : fs.length = bs.count true := by simpa using hlen
        rw [List.mem_cons, not_or] at hfs
        have hf : f ≠ 0 := fun h => hfs.1 h.symm
        simpa [expand, hf] using ih hrest hfs.2

theorem nonzero_expand (hlen : fs.length = bs.count true) (hfs : 0 ∉ fs) :
    nonzero (expand bs fs) = fs := by
  induction bs generalizing fs with
  | nil =>
    cases fs with
    | nil => rfl
    | cons f fs => simp at hlen
  | cons b bs ih =>
    cases b with
    | false =>
      have hrest : fs.length = bs.count true := by simpa using hlen
      simpa [expand] using ih hrest hfs
    | true =>
      cases fs with
      | nil => simp at hlen
      | cons f fs =>
        have hrest : fs.length = bs.count true := by simpa using hlen
        rw [List.mem_cons, not_or] at hfs
        have hf : f ≠ 0 := fun h => hfs.1 h.symm
        simpa [expand, hf] using ih hrest hfs.2

omit [DecidableEq α] in
/-- Later flags take the entries the earlier ones have left. -/
theorem expand_append (bs bs' : List Bool) (fs : List α) :
    expand (bs ++ bs') fs = expand bs fs ++ expand bs' (fs.drop (bs.count true)) := by
  induction bs generalizing fs with
  | nil => simp [expand]
  | cons b bs ih =>
    cases b with
    | false => simp [expand, ih]
    | true =>
      cases fs with
      | nil => simp [expand, ih]
      | cons f fs => simp [expand, ih]

omit [DecidableEq α] in
/-- Entries behind the last flag are not looked at. -/
theorem expand_take (bs : List Bool) (fs : List α) :
    expand bs (fs.take (bs.count true)) = expand bs fs := by
  induction bs generalizing fs with
  | nil => rfl
  | cons b bs ih =>
    cases b with
    | false => simp [expand, ih]
    | true =>
      cases fs with
      | nil => simp [expand]
      | cons f fs => simp [expand, ih]

end HearthStone.Lib
