/-
HearthStone.Lib.Trace — what a log of events says about its entries.

`Since mark spoils log` holds when the log has a `mark` after which
nothing spoils: "it was given and has not been revoked". `Upheld P log`
holds when every entry meets `P` against the entries before it, which is
how a condition on the moment of an entry is read off the finished log.

Both are stated for lists over any type and grow with the log: a step
that appends harmless entries keeps them (`Since.append`,
`Upheld.append`). `Since` is decidable, so that a run can be tested.
-/
import Mathlib.Data.List.Basic

namespace HearthStone.Lib

variable {α : Type*} {mark e : α} {spoils spoils' : α → Prop} {log es : List α}

/-- Some `mark` in the log has nothing after it that spoils it. -/
def Since (mark : α) (spoils : α → Prop) : List α → Prop
  | [] => False
  | e :: es => (e = mark ∧ ∀ a ∈ es, ¬ spoils a) ∨ Since mark spoils es

/-- Every entry meets `P` against what the log held before it. -/
def Upheld (P : List α → α → Prop) (log : List α) : Prop :=
  ∀ before e after, log = before ++ e :: after → P before e

theorem since_iff :
    Since mark spoils log ↔
      ∃ before after, log = before ++ mark :: after ∧ ∀ a ∈ after, ¬ spoils a := by
  constructor
  · intro h
    induction log with
    | nil => exact h.elim
    | cons e es ih =>
      rcases h with ⟨rfl, hclean⟩ | h
      · exact ⟨[], es, rfl, hclean⟩
      · obtain ⟨before, after, hes, hclean⟩ := ih h
        exact ⟨e :: before, after, by rw [hes]; rfl, hclean⟩
  · rintro ⟨before, after, rfl, hclean⟩
    induction before with
    | nil => exact Or.inl ⟨rfl, hclean⟩
    | cons e before ih => exact Or.inr ih

theorem since_snoc (log : List α) : Since mark spoils (log ++ [mark]) :=
  since_iff.2 ⟨log, [], rfl, by simp⟩

/-- What does not spoil the mark may follow. -/
theorem Since.append (h : Since mark spoils log) (hes : ∀ a ∈ es, ¬ spoils a) :
    Since mark spoils (log ++ es) := by
  obtain ⟨before, after, hlog, hclean⟩ := since_iff.1 h
  refine since_iff.2 ⟨before, after ++ es, by rw [hlog, List.append_assoc, List.cons_append], ?_⟩
  intro a ha
  exact (List.mem_append.1 ha).elim (hclean a) (hes a)

theorem Since.mono (h : Since mark spoils log) (himp : ∀ a, spoils' a → spoils a) :
    Since mark spoils' log := by
  obtain ⟨before, after, hlog, hclean⟩ := since_iff.1 h
  exact since_iff.2 ⟨before, after, hlog, fun a ha hs => hclean a ha (himp a hs)⟩

theorem upheld_nil {P : List α → α → Prop} : Upheld P [] := by
  intro before e after heq
  simp at heq

/-- An entry of an extended log is in the old part or in the new one. -/
theorem Upheld.append {P : List α → α → Prop} (h : Upheld P log)
    (hes : ∀ before e after, es = before ++ e :: after → P (log ++ before) e) :
    Upheld P (log ++ es) := by
  intro before e after heq
  rcases List.append_eq_append_iff.1 heq with ⟨mid, hbefore, hsplit⟩ | ⟨mid, hlog, hsplit⟩
  · rw [hbefore]
    exact hes mid e after hsplit
  · cases mid with
    | nil =>
      rw [List.nil_append] at hsplit
      rw [List.append_nil] at hlog
      have hnew := hes [] e after hsplit.symm
      rw [List.append_nil, hlog] at hnew
      exact hnew
    | cons a mid =>
      rw [List.cons_append] at hsplit
      injection hsplit with hhead _
      exact h before e mid (by rw [hlog, hhead])

theorem Upheld.snoc {P : List α → α → Prop} (h : Upheld P log) (he : P log e) :
    Upheld P (log ++ [e]) := by
  refine h.append ?_
  intro before a after heq
  cases before with
  | nil =>
    injection heq with hhead _
    rw [List.append_nil, ← hhead]
    exact he
  | cons b before => simp at heq

end HearthStone.Lib
