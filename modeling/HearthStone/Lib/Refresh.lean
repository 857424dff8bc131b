/-
HearthStone.Lib.Refresh — marks that say whether something lies nearby,
brought up to date place by place.

Nothing here names the server. A state has something to be seen at every
place (`seen`) and a mark there (`mark`). The mark is `Current` when it
says whether an occupied place is near.

* `Refreshes` — one write makes the mark of one place current and leaves
  the rest alone; `refresh_list` is a loop of them.
* `refresh_covers` — after a change of what is seen, a loop over every
  place that is near the change makes all marks current again.
-/
import Mathlib.Data.List.Basic

namespace HearthStone.Lib

variable {M P S : Type*}

/-- An occupied place is near. -/
def Nearby (near : P → P → Prop) (occ : S → Prop) (s : P → S) (p : P) : Prop :=
  ∃ q, near p q ∧ occ (s q)

theorem nearby_congr {near : P → P → Prop} {occ : S → Prop} {s s' : P → S} {p : P}
    (h : ∀ q, near p q → s q = s' q) : Nearby near occ s p ↔ Nearby near occ s' p := by
  constructor
  · rintro ⟨q, hq, hocc⟩
    exact ⟨q, hq, h q hq ▸ hocc⟩
  · rintro ⟨q, hq, hocc⟩
    exact ⟨q, hq, (h q hq).symm ▸ hocc⟩

variable (near : P → P → Prop) (occ : S → Prop) (seen : M → P → S) (mark : M → P → Prop)

/-- The mark of a place is right. -/
def Current (m : M) (p : P) : Prop := mark m p ↔ Nearby near occ (seen m) p

/-- The write is defined, sets the mark of the place, and changes no other
mark and nothing that is seen. -/
def Refreshes (write : M → P → Option M) (p : P) : Prop :=
  ∀ m, ∃ m', write m p = some m' ∧ seen m' = seen m ∧
    Current near occ seen mark m' p ∧ ∀ q, q ≠ p → (mark m' q ↔ mark m q)

variable {near occ seen mark} {write : M → P → Option M} {ps : List P}

/-- A loop of writes: the places it went over are current, and the marks
of the others are what they were. -/
theorem refresh_list (h : ∀ p ∈ ps, Refreshes near occ seen mark write p) (m : M) :
    ∃ m', ps.foldlM write m = some m' ∧ seen m' = seen m ∧
      (∀ p ∈ ps, Current near occ seen mark m' p) ∧ ∀ q, q ∉ ps → (mark m' q ↔ mark m q) := by
  induction ps generalizing m with
  | nil => exact ⟨m, rfl, rfl, by simp, fun q _ => Iff.rfl⟩
  | cons p ps ih =>
    obtain ⟨m₁, hwrite, hseen₁, hcur₁, hmark₁⟩ := h p (List.mem_cons_self ..) m
    obtain ⟨m₂, hfold, hseen₂, hcur₂, hmark₂⟩ :=
      ih (fun q hq => h q (List.mem_cons_of_mem _ hq)) m₁
    refine ⟨m₂, ?_, hseen₂.trans hseen₁, ?_, ?_⟩
    · rw [List.foldlM_cons, hwrite]
      exact hfold
    · intro q hq
      by_cases hmem : q ∈ ps
      · exact hcur₂ q hmem
      · -- only the first write was made at this place
        obtain rfl : q = p := (List.mem_cons.1 hq).resolve_right hmem
        unfold Current at hcur₁ ⊢
        rw [hmark₂ q hmem, hseen₂]
        exact hcur₁
    · intro q hq
      rw [List.mem_cons, not_or] at hq
      exact (hmark₂ q hq.2).trans (hmark₁ q hq.1)

/-- What is seen has changed, and the loop goes over every place that is
near a change. -/
theorem refresh_covers {m₀ m : M} (hcur : ∀ p, Current near occ seen mark m₀ p)
    (hmark : ∀ p, mark m p ↔ mark m₀ p)
    (hcover : ∀ p, p ∉ ps → ∀ q, near p q → seen m q = seen m₀ q)
    (h : ∀ p ∈ ps, Refreshes near occ seen mark write p) :
    ∃ m', ps.foldlM write m = some m' ∧ seen m' = seen m ∧
      ∀ p, Current near occ seen mark m' p := by
  obtain ⟨m', hfold, hseen, hdone, hrest⟩ := refresh_list h m
  refine ⟨m', hfold, hseen, ?_⟩
  intro p
  by_cases hp : p ∈ ps
  · exact hdone p hp
  · unfold Current at hcur ⊢
    rw [hrest p hp, hmark p, hcur p, hseen]
    exact (nearby_congr (hcover p hp)).symm

end HearthStone.Lib
