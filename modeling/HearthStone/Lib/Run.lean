/-
HearthStone.Lib.Run — runs of a labelled step relation, and the two
induction rules every state machine below is verified with.

Nothing here names the server. A step relation says which state may
follow which under which label; `Run R s as t` chains the labels `as`
from `s` to `t`. A prefix of a run is a run, so a statement about the
last state of every run is a statement about every state reached.

`Guarded Ok R` keeps the steps taken where `Ok` holds. A run of it is a
run whose steps all meet the condition, which is the shape a result
takes when the plain invariant fails on some step.
-/
import Mathlib.Logic.Relation

namespace HearthStone.Lib

variable {σ α : Type*}

/-- The runs of a step relation. -/
inductive Run (R : σ → α → σ → Prop) : σ → List α → σ → Prop
  | nil (s : σ) : Run R s [] s
  | cons {s t u : σ} {a : α} {as : List α} : R s a t → Run R t as u → Run R s (a :: as) u

/-- The steps of `R` taken from a state and a label that meet `Ok`. -/
def Guarded (Ok : σ → α → Prop) (R : σ → α → σ → Prop) : σ → α → σ → Prop :=
  fun s a t => Ok s a ∧ R s a t

/-- The step relation of a function. -/
def FunStep (step : σ → α → σ) : σ → α → σ → Prop := fun s a t => t = step s a

/-- The step relation of a function that may be undefined. -/
def PartialStep (step : σ → α → Option σ) : σ → α → σ → Prop :=
  fun s a t => step s a = some t

namespace Run

variable {R R' : σ → α → σ → Prop} {s t u : σ} {a : α} {as bs : List α}

/-- The run of a function. -/
theorem foldl (step : σ → α → σ) (s : σ) (as : List α) :
    Run (FunStep step) s as (as.foldl step s) := by
  induction as generalizing s with
  | nil => exact .nil s
  | cons a as ih => exact .cons rfl (ih (step s a))

/-- A run of a function that may be undefined, each step of which meets
the condition. -/
theorem of_foldlM {step : σ → α → Option σ} {Ok : σ → α → Prop} [∀ s a, Decidable (Ok s a)]
    (h : as.foldlM (fun s a => if Ok s a then step s a else none) s = some t) :
    Run (Guarded Ok (PartialStep step)) s as t := by
  induction as generalizing s with
  | nil =>
    cases h
    exact .nil _
  | cons a as ih =>
    rw [List.foldlM_cons, Option.bind_eq_bind, Option.bind_eq_some_iff] at h
    obtain ⟨u, hstep, hrest⟩ := h
    rw [Option.ite_none_right_eq_some] at hstep
    exact .cons hstep (ih hrest)

theorem append (h₁ : Run R s as t) (h₂ : Run R t bs u) : Run R s (as ++ bs) u := by
  induction h₁ with
  | nil s => exact h₂
  | cons hr _ ih => exact .cons hr (ih h₂)

/-- The invariant rule: what every step preserves, every run preserves. -/
theorem invariant (Inv : σ → Prop) (hstep : ∀ s a t, Inv s → R s a t → Inv t)
    (hrun : Run R s as t) (h0 : Inv s) : Inv t := by
  induction hrun with
  | nil s => exact h0
  | cons hr _ ih => exact ih (hstep _ _ _ h0 hr)

/-- The invariant rule for a relation between the first and the last
state, for example that a sum is the same in both. -/
theorem relates (Inv : σ → Prop) (Rel : σ → σ → Prop) (hrefl : ∀ s, Rel s s)
    (htrans : ∀ s t u, Rel s t → Rel t u → Rel s u)
    (hstep : ∀ s a t, Inv s → R s a t → Inv t ∧ Rel s t)
    (hrun : Run R s as t) (h0 : Inv s) : Rel s t := by
  induction hrun with
  | nil s => exact hrefl s
  | cons hr _ ih =>
    obtain ⟨hinv, hrel⟩ := hstep _ _ _ h0 hr
    exact htrans _ _ _ hrel (ih hinv)

/-- A run stays a run when its steps are weakened. -/
theorem mono (himp : ∀ s a t, R s a t → R' s a t) (hrun : Run R s as t) :
    Run R' s as t := by
  induction hrun with
  | nil s => exact .nil s
  | cons hr _ ih => exact .cons (himp _ _ _ hr) ih

end Run

end HearthStone.Lib
