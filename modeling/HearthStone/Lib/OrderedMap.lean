/-
HearthStone.Lib.OrderedMap — a map as the list of its entries in the order
of the keys, and an iterator that survives changes of the map.

Nothing here names the server. An iterator is the key it has passed: `next`
is the first entry behind it in the map as it is now.

* `insertNew` — an insertion that never overwrites.
* `adjust` — a change of values that keeps the keys.
* `next_split` — what a walk that has passed a first part finds.
-/
import Mathlib

namespace HearthStone.Lib.OrderedMap

variable {κ ν : Type*} [LinearOrder κ]

/-- The keys ascend. -/
def Ordered (l : List (κ × ν)) : Prop := l.Pairwise fun a b => a.1 < b.1

def find (k : κ) : List (κ × ν) → Option ν
  | [] => none
  | e :: rest => if e.1 = k then some e.2 else find k rest

def insertNew (k : κ) (v : ν) : List (κ × ν) → List (κ × ν)
  | [] => [(k, v)]
  | e :: rest =>
    if k < e.1 then (k, v) :: e :: rest
    else if e.1 = k then e :: rest
    else e :: insertNew k v rest

def erase (k : κ) (l : List (κ × ν)) : List (κ × ν) := l.filter fun e => e.1 ≠ k

/-- The values of some keys change. -/
def adjust (f : κ → ν → ν) (l : List (κ × ν)) : List (κ × ν) := l.map fun e => (e.1, f e.1 e.2)

/-- The first entry behind a key. -/
def next (l : List (κ × ν)) : Option κ → Option (κ × ν)
  | none => l.head?
  | some k => l.find? fun e => k < e.1

variable {k k' : κ} {v : ν} {e : κ × ν} {l done rest : List (κ × ν)} {f : κ → ν → ν}

/-! ## Keys -/

theorem mem_of_find (h : find k l = some v) : (k, v) ∈ l := by
  induction l with
  | nil => cases h
  | cons e rest ih =>
    unfold find at h
    split at h
    case isTrue hk =>
      cases h
      exact hk ▸ List.mem_cons_self
    case isFalse => exact List.mem_cons_of_mem _ (ih h)

theorem find_eq_none : find k l = none ↔ ∀ e ∈ l, e.1 ≠ k := by
  induction l with
  | nil => simp [find]
  | cons e rest ih =>
    unfold find
    split
    case isTrue hk => simp [hk]
    case isFalse hk => simp [hk, ih]

theorem find_isSome_of_mem (h : e ∈ l) : (find e.1 l).isSome = true := by
  rw [Option.isSome_iff_ne_none]
  exact fun hnone => find_eq_none.1 hnone e h rfl

theorem insertNew_of_found (hl : Ordered l) (h : (find k l).isSome = true) :
    ∀ v, insertNew k v l = l := by
  intro v
  induction l with
  | nil => cases h
  | cons e rest ih =>
    obtain ⟨hlt, hrest⟩ := List.pairwise_cons.1 hl
    unfold insertNew
    unfold find at h
    split at h
    case isTrue hk => rw [if_neg (hk ▸ lt_irrefl _), if_pos hk]
    case isFalse hk =>
      have hnot : ¬ k < e.1 := by
        intro hbefore
        obtain ⟨v', hv'⟩ := Option.isSome_iff_exists.1 h
        exact lt_asymm hbefore (hlt _ (mem_of_find hv'))
      rw [if_neg hnot, if_neg hk, ih hrest h]

theorem mem_insertNew (hk : find k l = none) : e ∈ insertNew k v l ↔ e = (k, v) ∨ e ∈ l := by
  induction l with
  | nil => simp [insertNew]
  | cons e' rest ih =>
    rw [find_eq_none] at hk
    have hrest : find k rest = none :=
      find_eq_none.2 fun x hx => hk x (List.mem_cons_of_mem _ hx)
    unfold insertNew
    split
    case isTrue => simp
    case isFalse =>
      rw [if_neg (hk e' List.mem_cons_self), List.mem_cons, ih hrest, List.mem_cons]
      tauto

theorem mem_of_mem_insertNew (hl : Ordered l) (he : e ∈ insertNew k v l) : e = (k, v) ∨ e ∈ l := by
  cases hfind : find k l with
  | none => exact (mem_insertNew hfind).1 he
  | some v' =>
    rw [insertNew_of_found hl (by rw [hfind]; rfl)] at he
    exact .inr he

theorem find_insertNew (hl : Ordered l) : (find k (insertNew k v l)).isSome = true := by
  cases hfind : find k l with
  | none => exact find_isSome_of_mem ((mem_insertNew hfind).2 (.inl rfl))
  | some v' =>
    rw [insertNew_of_found hl (by rw [hfind]; rfl), hfind]
    rfl

/-- A key has one entry. -/
theorem find_of_mem (hl : Ordered l) (he : e ∈ l) : find e.1 l = some e.2 := by
  induction l with
  | nil => cases he
  | cons e' rest ih =>
    obtain ⟨hlt, hrest⟩ := List.pairwise_cons.1 hl
    unfold find
    rcases List.mem_cons.1 he with rfl | he
    · exact if_pos rfl
    · rw [if_neg (hlt e he).ne, ih hrest he]

theorem Ordered.insertNew (hl : Ordered l) (k : κ) (v : ν) : Ordered (insertNew k v l) := by
  induction l with
  | nil => exact List.pairwise_singleton _ _
  | cons e rest ih =>
    obtain ⟨hlt, hrest⟩ := List.pairwise_cons.1 hl
    unfold OrderedMap.insertNew
    split
    case isTrue hk =>
      refine List.pairwise_cons.2 ⟨?_, hl⟩
      intro x hx
      rcases List.mem_cons.1 hx with rfl | hx
      · exact hk
      · exact hk.trans (hlt x hx)
    case isFalse hk =>
      split
      case isTrue => exact hl
      case isFalse hne =>
        refine List.pairwise_cons.2 ⟨?_, ih hrest⟩
        intro x hx
        have hafter : e.1 < k := lt_of_le_of_ne (not_lt.1 hk) hne
        cases hfind : find k rest with
        | none =>
          rcases (mem_insertNew hfind).1 hx with rfl | hx
          · exact hafter
          · exact hlt x hx
        | some v' =>
          rw [insertNew_of_found hrest (by rw [hfind]; rfl)] at hx
          exact hlt x hx

theorem Ordered.filter (hl : Ordered l) (p : κ × ν → Bool) : Ordered (l.filter p) :=
  List.Pairwise.filter p hl

theorem Ordered.adjust (hl : Ordered l) (f : κ → ν → ν) : Ordered (adjust f l) := by
  unfold Ordered OrderedMap.adjust
  rw [List.pairwise_map]
  exact hl

omit [LinearOrder κ] in
theorem mem_adjust : e ∈ adjust f l ↔ ∃ v, (e.1, v) ∈ l ∧ e.2 = f e.1 v := by
  unfold adjust
  rw [List.mem_map]
  constructor
  · rintro ⟨x, hx, rfl⟩
    exact ⟨x.2, hx, rfl⟩
  · rintro ⟨v, hv, he⟩
    exact ⟨(e.1, v), hv, Prod.ext rfl he.symm⟩

/-! ## Walks -/

/-- A walk that has passed the first part goes on with the rest. -/
theorem next_split (hdone : ∀ e ∈ done, e.1 ≤ k) (hrest : ∀ e ∈ rest, k < e.1) :
    next (done ++ rest) (some k) = rest.head? := by
  have hnone : done.find? (fun e => decide (k < e.1)) = none := by
    rw [List.find?_eq_none]
    exact fun e he hlt => not_lt.2 (hdone e he) (of_decide_eq_true hlt)
  change (done ++ rest).find? (fun e => decide (k < e.1)) = rest.head?
  rw [List.find?_append, hnone, Option.none_or]
  cases rest with
  | nil => rfl
  | cons e rest =>
    rw [List.find?_cons, decide_eq_true (hrest e List.mem_cons_self)]
    rfl

end HearthStone.Lib.OrderedMap
