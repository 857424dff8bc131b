/-
HearthStone.Lib.Shift — an array that is filled from the front, and
closing a gap in it.

* The entries behind an index are copied one place forward, one after the
  other, up to the first `n` entries. What lies behind them is not
  touched, so the last of them is there twice; counted one shorter, the
  front is the old front without the entry (`take_shiftDown`).
* Counted entries are the front when none of them comes after one that is
  not counted (`front_iff`).
-/
import Mathlib.Data.List.Basic

namespace HearthStone.Lib

variable {α : Type*}

/-- One entry is copied one place forward. -/
def copyDown (l : List α) (j : Nat) : List α :=
  match l[j]? with
  | some a => l.set (j - 1) a
  | none => l

/-- The entries after `i`, of the first `n`, are copied forward. -/
def shiftDown (l : List α) (i n : Nat) : List α :=
  (List.range' (i + 1) (n - (i + 1))).foldl copyDown l

theorem copyDown_eq {l : List α} {j : Nat} {a : α} (h : l[j]? = some a) :
    copyDown l j = l.set (j - 1) a := by
  unfold copyDown
  rw [h]

theorem length_copyDown (l : List α) (j : Nat) : (copyDown l j).length = l.length := by
  unfold copyDown
  split
  · exact List.length_set
  · rfl

theorem length_foldl_copyDown (js : List Nat) (l : List α) :
    (js.foldl copyDown l).length = l.length := by
  induction js generalizing l with
  | nil => rfl
  | cons j js ih =>
    rw [List.foldl_cons, ih, length_copyDown]

theorem length_shiftDown (l : List α) (i n : Nat) : (shiftDown l i n).length = l.length :=
  length_foldl_copyDown _ l

/-- The first `c` copies have been made. -/
theorem getElem?_foldl_copyDown (l : List α) (i c k : Nat) (h : i + c < l.length) :
    ((List.range' (i + 1) c).foldl copyDown l)[k]? =
      if i ≤ k ∧ k < i + c then l[k + 1]? else l[k]? := by
  induction c generalizing k with
  | zero =>
    rw [if_neg (by omega)]
    rfl
  | succ c ih =>
    -- the next entry to be copied has not been touched
    have hnext : ((List.range' (i + 1) c).foldl copyDown l)[i + 1 + c]? = l[i + 1 + c]? := by
      rw [ih (i + 1 + c) (by omega), if_neg (by omega)]
    rw [List.getElem?_eq_getElem (show i + 1 + c < l.length by omega)] at hnext
    rw [List.range'_concat, List.foldl_append, List.foldl_cons, List.foldl_nil, Nat.one_mul,
      copyDown_eq hnext, show i + 1 + c - 1 = i + c by omega, List.getElem?_set,
      length_foldl_copyDown]
    by_cases hk : i + c = k
    · subst hk
      rw [if_pos rfl, if_pos (by omega), if_pos (by omega), ← List.getElem?_eq_getElem]
      congr 1
      omega
    · rw [if_neg hk, ih k (by omega)]
      by_cases hin : i ≤ k ∧ k < i + c
      · rw [if_pos hin, if_pos (by omega)]
      · rw [if_neg hin, if_neg (by omega)]

theorem take_shiftDown (l : List α) (i n : Nat) (hi : i < n) (hn : n ≤ l.length) :
    (shiftDown l i n).take (n - 1) = (l.take n).eraseIdx i := by
  apply List.ext_getElem?
  intro k
  unfold shiftDown
  rw [List.getElem?_take, List.getElem?_eraseIdx, getElem?_foldl_copyDown l i _ k (by omega)]
  by_cases hk : k < n - 1
  · rw [if_pos hk]
    by_cases hik : k < i
    · rw [if_neg (by omega), if_pos hik, List.getElem?_take, if_pos (by omega)]
    · rw [if_pos (by omega), if_neg hik, List.getElem?_take, if_pos (by omega)]
  · rw [if_neg hk, if_neg (by omega), List.getElem?_take, if_neg (by omega)]

/-! ## The front -/

/-- As many entries as are counted stand at the front exactly when no
other entry comes before one of them. -/
theorem front_iff (p : α → Bool) (l : List α) :
    (∀ a ∈ l.take (l.countP p), p a = true) ↔
      l.Pairwise fun a b => p b = true → p a = true := by
  induction l with
  | nil => simp
  | cons a l ih =>
    rw [List.pairwise_cons, List.countP_cons]
    by_cases ha : p a = true
    · rw [if_pos ha, List.take_succ_cons, ← ih]
      simp [ha]
    · rw [if_neg ha, Nat.add_zero]
      constructor
      · intro hfront
        have hzero : l.countP p = 0 := by
          by_contra hne
          obtain ⟨k, hk⟩ := Nat.exists_eq_succ_of_ne_zero hne
          rw [hk] at hfront
          exact ha (hfront a List.mem_cons_self)
        have hnone := List.countP_eq_zero.1 hzero
        refine ⟨fun b hb hpb => absurd hpb (hnone b hb), ih.1 ?_⟩
        rw [hzero]
        intro b hb
        cases hb
      · rintro ⟨hbefore, -⟩
        have hzero : l.countP p = 0 :=
          List.countP_eq_zero.2 (fun b hb hpb => ha (hbefore b hb hpb))
        rw [hzero]
        intro b hb
        cases hb

/-- The entries behind the front are not counted. -/
theorem not_counted_of_front {p : α → Bool} {l : List α}
    (h : ∀ a ∈ l.take (l.countP p), p a = true) :
    ∀ a ∈ l.drop (l.countP p), p a = false := by
  have hsplit : (l.take (l.countP p)).countP p + (l.drop (l.countP p)).countP p = l.countP p := by
    rw [← List.countP_append, List.take_append_drop]
  rw [List.countP_eq_length.2 h, List.length_take, Nat.min_eq_left List.countP_le_length] at hsplit
  have hzero : (l.drop (l.countP p)).countP p = 0 := by omega
  intro a ha
  exact Bool.not_eq_true _ ▸ List.countP_eq_zero.1 hzero a ha

end HearthStone.Lib
