/-
HearthStone.Quest.QuestIndex — `quest_mobs` and `quest_spells` against the
quests in the log.

The two sets hold one mark for an objective, however many quests share
it. Filing a quest marks its objectives (`indexed_Init`), the turn-in
unmarks them although another quest may still need one, and the other
ways out of the log unmark nothing. So the sets stay exact for an
objective precisely through the steps of `StepOk`
(`quest_index_exact`).
-/
import HearthStone.Quest.QuestLog
import HearthStone.Lib.Run

namespace HearthStone

open Lib

/-- What the two sets are about: a creature to kill or a spell to cast. -/
inductive Objective where
  | mob (entry : Nat)
  | spell (spellid : Nat)

namespace Quest

/-- The slot of the quest asks for the objective: a creature where no
spell is named, or a spell. -/
def RequiresAt (q : Quest) (i : Fin 4) : Objective → Prop
  | .mob e => e ≠ 0 ∧ q.required_spell i = 0 ∧ q.required_mob i = e ∧
      q.required_mobtype i = .creature
  | .spell s => s ≠ 0 ∧ q.required_spell i = s

/-- `Init` marks the objective for this slot, whatever kind of mob it names. -/
def FiledAt (q : Quest) (i : Fin 4) : Objective → Prop
  | .mob e => e ≠ 0 ∧ q.required_spell i = 0 ∧ q.required_mob i = e
  | .spell s => s ≠ 0 ∧ q.required_spell i = s

/-- The second loop of the turn-in unmarks the objective for this slot. -/
def CleanedAt (q : Quest) (i : Fin 4) : Objective → Prop
  | .mob e => q.is_repeatable = .no ∧ e ≠ 0 ∧ q.required_mob i = e
  | .spell s => q.is_repeatable = .no ∧ s ≠ 0 ∧ q.required_spell i = s

def Requires (q : Quest) (t : Objective) : Prop := ∃ i, q.RequiresAt i t

def Filed (q : Quest) (t : Objective) : Prop := ∃ i, q.FiledAt i t

/-- The turn-in unmarks the objective in one of its loops. -/
def Dropped (q : Quest) (t : Objective) : Prop := ∃ i, q.FiledAt i t ∨ q.CleanedAt i t

instance (q : Quest) (i : Fin 4) : (t : Objective) → Decidable (q.RequiresAt i t)
  | .mob e => inferInstanceAs (Decidable (e ≠ 0 ∧ q.required_spell i = 0 ∧ q.required_mob i = e ∧
      q.required_mobtype i = .creature))
  | .spell s => inferInstanceAs (Decidable (s ≠ 0 ∧ q.required_spell i = s))

instance (q : Quest) (i : Fin 4) : (t : Objective) → Decidable (q.FiledAt i t)
  | .mob e => inferInstanceAs (Decidable (e ≠ 0 ∧ q.required_spell i = 0 ∧ q.required_mob i = e))
  | .spell s => inferInstanceAs (Decidable (s ≠ 0 ∧ q.required_spell i = s))

instance (q : Quest) (i : Fin 4) : (t : Objective) → Decidable (q.CleanedAt i t)
  | .mob e => inferInstanceAs (Decidable (q.is_repeatable = .no ∧ e ≠ 0 ∧ q.required_mob i = e))
  | .spell s =>
    inferInstanceAs (Decidable (q.is_repeatable = .no ∧ s ≠ 0 ∧ q.required_spell i = s))

instance (q : Quest) (t : Objective) : Decidable (q.Requires t) :=
  inferInstanceAs (Decidable (∃ i, q.RequiresAt i t))

instance (q : Quest) (t : Objective) : Decidable (q.Filed t) :=
  inferInstanceAs (Decidable (∃ i, q.FiledAt i t))

instance (q : Quest) (t : Objective) : Decidable (q.Dropped t) :=
  inferInstanceAs (Decidable (∃ i, q.FiledAt i t ∨ q.CleanedAt i t))

variable {q : Quest} {t : Objective}

/-- What a quest requires is marked for it. -/
theorem Requires.filed (h : q.Requires t) : q.Filed t := by
  obtain ⟨i, hi⟩ := h
  cases t with
  | mob e => exact ⟨i, hi.1, hi.2.1, hi.2.2.1⟩
  | spell s => exact ⟨i, hi⟩

theorem Requires.dropped (h : q.Requires t) : q.Dropped t := by
  obtain ⟨i, hi⟩ := h.filed
  exact ⟨i, Or.inl hi⟩

end Quest

namespace QuestPlayer

variable {p : QuestPlayer} {q : Quest} {t : Objective} {slot : Fin 25}

/-- The objective is in its set. -/
def Indexed (p : QuestPlayer) : Objective → Prop
  | .mob e => p.HasQuestMob e = true
  | .spell s => p.HasQuestSpell s = true

instance (p : QuestPlayer) : (t : Objective) → Decidable (p.Indexed t)
  | .mob e => inferInstanceAs (Decidable (p.HasQuestMob e = true))
  | .spell s => inferInstanceAs (Decidable (p.HasQuestSpell s = true))

/-- The quests in the log. -/
def quests (p : QuestPlayer) (i : Fin 25) : Option Quest :=
  (p.m_questlog i).map QuestLogEntry.m_quest

/-- Some quest in the log requires the objective. -/
def Requires (p : QuestPlayer) (t : Objective) : Prop := Needed (fun q => q.Requires t) p.quests

/-- Some quest in another slot requires it. -/
def RequiresBesides (p : QuestPlayer) (t : Objective) (slot : Fin 25) : Prop :=
  NeededBesides (fun q => q.Requires t) p.quests slot

/-- The objective is marked exactly when some quest in the log requires it. -/
def IndexExact (p : QuestPlayer) (t : Objective) : Prop := p.Indexed t ↔ p.Requires t

instance (p : QuestPlayer) (t : Objective) : Decidable (p.Requires t) :=
  inferInstanceAs (Decidable (Needed (fun q => q.Requires t) p.quests))

instance (p : QuestPlayer) (t : Objective) (slot : Fin 25) : Decidable (p.RequiresBesides t slot) :=
  inferInstanceAs (Decidable (NeededBesides (fun q => q.Requires t) p.quests slot))

instance (p : QuestPlayer) (t : Objective) : Decidable (p.IndexExact t) :=
  inferInstanceAs (Decidable (p.Indexed t ↔ p.Requires t))

/-! ## The marks -/

theorem indexed_congr {p p' : QuestPlayer} (hm : p'.quest_mobs = p.quest_mobs)
    (hs : p'.quest_spells = p.quest_spells) : p'.Indexed t ↔ p.Indexed t := by
  cases t with
  | mob e => simp only [Indexed, HasQuestMob, hm]
  | spell s => simp only [Indexed, HasQuestSpell, hs]

@[simp] theorem indexed_setQuestLogSlot {entry : Option QuestLogEntry} :
    (p.SetQuestLogSlot entry slot).Indexed t ↔ p.Indexed t :=
  indexed_congr rfl rfl

theorem indexed_file (i : Fin 4) :
    (file q p i).Indexed t ↔ q.FiledAt i t ∨ p.Indexed t := by
  unfold file
  cases t <;> simp only [Indexed, Quest.FiledAt, HasQuestMob, HasQuestSpell] <;> grind

theorem indexed_unfile (i : Fin 4) :
    (unfile q p i).Indexed t ↔ p.Indexed t ∧ ¬ q.FiledAt i t := by
  unfold unfile RemoveQuestSpell RemoveQuestMob
  cases t <;> simp only [Indexed, Quest.FiledAt, HasQuestMob, HasQuestSpell] <;> grind

theorem indexed_cleanup (i : Fin 4) :
    (cleanup slot q p i).Indexed t ↔ p.Indexed t ∧ ¬ q.CleanedAt i t := by
  unfold cleanup
  cases t <;>
    simp only [Indexed, Quest.CleanedAt, HasQuestMob, HasQuestSpell, RemoveQuestSpell,
      RemoveQuestMob, SetQuestLogSlot] <;>
    grind

theorem indexed_foldl_file (l : List (Fin 4)) :
    (l.foldl (file q) p).Indexed t ↔ (∃ i ∈ l, q.FiledAt i t) ∨ p.Indexed t := by
  induction l generalizing p with
  | nil => simp
  | cons i l ih =>
    rw [List.foldl_cons, ih, indexed_file]
    simp only [List.mem_cons, exists_eq_or_imp]
    rw [or_assoc, or_left_comm]

/-- A fold that unmarks leaves what no turn unmarks. -/
theorem indexed_foldl_drop {f : QuestPlayer → Fin 4 → QuestPlayer} {D : Fin 4 → Prop}
    (hf : ∀ p i, (f p i).Indexed t ↔ p.Indexed t ∧ ¬ D i) (l : List (Fin 4)) :
    (l.foldl f p).Indexed t ↔ p.Indexed t ∧ ¬ ∃ i ∈ l, D i := by
  induction l generalizing p with
  | nil => simp
  | cons i l ih =>
    rw [List.foldl_cons, ih, hf]
    simp only [List.mem_cons, exists_eq_or_imp]
    rw [not_or, and_assoc]

/-! ## The log -/

theorem foldl_questlog {f : QuestPlayer → Fin 4 → QuestPlayer}
    (hf : ∀ p i, (f p i).m_questlog = p.m_questlog) (l : List (Fin 4)) :
    (l.foldl f p).m_questlog = p.m_questlog := by
  induction l generalizing p with
  | nil => rfl
  | cons i l ih => rw [List.foldl_cons, ih, hf]

theorem file_questlog (p : QuestPlayer) (i : Fin 4) : (file q p i).m_questlog = p.m_questlog := by
  unfold file
  split_ifs <;> rfl

theorem unfile_questlog (p : QuestPlayer) (i : Fin 4) :
    (unfile q p i).m_questlog = p.m_questlog := by
  unfold unfile
  split_ifs <;> rfl

theorem quests_setQuestLogSlot {entry : Option QuestLogEntry} :
    (p.SetQuestLogSlot entry slot).quests =
      Function.update p.quests slot (entry.map QuestLogEntry.m_quest) := by
  funext i
  by_cases hi : i = slot
  · subst hi
    simp [quests, SetQuestLogSlot]
  · simp [quests, SetQuestLogSlot, hi]

/-- A write that keeps the quest of the slot keeps the quests. -/
theorem quests_setQuestLogSlot_same {entry : Option QuestLogEntry}
    (h : entry.map QuestLogEntry.m_quest = p.quests slot) :
    (p.SetQuestLogSlot entry slot).quests = p.quests := by
  rw [quests_setQuestLogSlot, h, Function.update_eq_self]

theorem quests_eq_none : p.quests slot = none ↔ p.m_questlog slot = none := by
  simp [quests]

theorem quests_of_eq {qle : QuestLogEntry} (h : p.m_questlog slot = some qle) :
    p.quests slot = some qle.m_quest := by
  simp [quests, h]

theorem quests_cleanup (i : Fin 4) : (cleanup slot q p i).quests = p.quests := by
  unfold cleanup
  split_ifs
  · apply quests_setQuestLogSlot_same
    cases hs : p.m_questlog slot with
    | none => simp [quests, hs]
    | some qle => simp [quests, hs, QuestLogEntry.SetMobCount]
  · rfl
  all_goals
    dsimp only
    split_ifs <;> rfl

theorem quests_foldl_cleanup (l : List (Fin 4)) :
    (l.foldl (cleanup slot q) p).quests = p.quests := by
  induction l generalizing p with
  | nil => rfl
  | cons i l ih => rw [List.foldl_cons, ih, quests_cleanup]

/-! ## What Init and the turn-in do -/

theorem indexed_Init : (p.Init q slot).Indexed t ↔ q.Filed t ∨ p.Indexed t := by
  unfold Init
  rw [indexed_setQuestLogSlot, indexed_foldl_file]
  simp [Quest.Filed]

theorem quests_Init : (p.Init q slot).quests = Function.update p.quests slot (some q) := by
  unfold Init
  rw [quests_setQuestLogSlot]
  have hlog : ((List.finRange 4).foldl (file q) p).quests = p.quests := by
    unfold quests
    rw [foldl_questlog file_questlog]
  rw [hlog]
  rfl

theorem quests_Finish : (p.Finish slot).quests = Function.update p.quests slot none :=
  quests_setQuestLogSlot

theorem requires_iff_of_slot (hs : p.quests slot = some q) :
    p.Requires t ↔ q.Requires t ∨ p.RequiresBesides t slot :=
  needed_iff_of_mem hs

@[simp] theorem indexed_Finish : (p.Finish slot).Indexed t ↔ p.Indexed t := indexed_setQuestLogSlot

theorem indexed_addToFinishedDaily {n : Nat} :
    (p.AddToFinishedDailyQuests n).Indexed t ↔ p.Indexed t := by
  unfold AddToFinishedDailyQuests
  split_ifs
  · rfl
  · exact indexed_congr rfl rfl

theorem quests_addToFinishedDaily {n : Nat} : (p.AddToFinishedDailyQuests n).quests = p.quests := by
  unfold AddToFinishedDailyQuests
  split_ifs <;> rfl

/-- The turn-in unmarks what its loops name and empties the slot. -/
theorem onQuestFinished_spec {g : Bool} (hs : p.GetQuestLogForEntry q.id = some slot) :
    ((p.OnQuestFinished q g).Indexed t ↔ p.Indexed t ∧ ¬ q.Dropped t) ∧
      (p.OnQuestFinished q g).quests = Function.update p.quests slot none := by
  have hmid : (((List.finRange 4).foldl (cleanup slot q)
        ((List.finRange 4).foldl (unfile q) p)).Finish slot).Indexed t ↔
      p.Indexed t ∧ ¬ q.Dropped t := by
    rw [indexed_Finish, indexed_foldl_drop (fun _ i => indexed_cleanup i),
      indexed_foldl_drop (fun _ i => indexed_unfile i)]
    simp only [Quest.Dropped, List.mem_finRange, true_and, exists_or]
    tauto
  have hlog : (((List.finRange 4).foldl (cleanup slot q)
        ((List.finRange 4).foldl (unfile q) p)).Finish slot).quests =
      Function.update p.quests slot none := by
    rw [quests_Finish, quests_foldl_cleanup]
    unfold quests
    rw [foldl_questlog unfile_questlog]
  unfold OnQuestFinished
  rw [hs]
  split_ifs
  · exact ⟨hmid, hlog⟩
  · cases q.is_repeatable with
    | daily => exact ⟨indexed_addToFinishedDaily.trans hmid, quests_addToFinishedDaily.trans hlog⟩
    | no => exact ⟨hmid, hlog⟩
    | repeatable => exact ⟨hmid, hlog⟩

/-! ## Progress keeps the quests -/

theorem countKill_keeps (e : Nat) (is : List (Fin 25)) :
    ((countKill e is p).Indexed t ↔ p.Indexed t) ∧ (countKill e is p).quests = p.quests := by
  induction is generalizing p with
  | nil => exact ⟨Iff.rfl, rfl⟩
  | cons i is ih =>
    unfold countKill
    cases hi : p.m_questlog i with
    | none => exact ih
    | some qle =>
      cases hk : killObjective qle e with
      | none =>
        simp only [hk, ite_self]
        exact ih
      | some j =>
        simp only [hk]
        split_ifs
        · exact ih
        · exact ⟨Iff.rfl, rfl⟩
        · obtain ⟨hidx, hq⟩ := ih (p := p.SetQuestLogSlot
            (some (qle.SetMobCount j (qle.m_mobcount j + 1))) i)
          have hsame : (p.SetQuestLogSlot
              (some (qle.SetMobCount j (qle.m_mobcount j + 1))) i).quests = p.quests :=
            quests_setQuestLogSlot_same (quests_of_eq hi).symm
          exact ⟨hidx.trans indexed_setQuestLogSlot, hq.trans hsame⟩

theorem countCast_keeps (s e g : Nat) (i : Fin 25) :
    ((countCast s e g p i).Indexed t ↔ p.Indexed t) ∧ (countCast s e g p i).quests = p.quests := by
  unfold countCast
  cases hi : p.m_questlog i with
  | none => exact ⟨Iff.rfl, rfl⟩
  | some qle =>
    dsimp only
    split_ifs
    · exact ⟨Iff.rfl, rfl⟩
    · cases castObjective qle s e g with
      | none => exact ⟨Iff.rfl, rfl⟩
      | some j =>
        exact ⟨indexed_setQuestLogSlot, quests_setQuestLogSlot_same (quests_of_eq hi).symm⟩

theorem foldl_countCast_keeps (s e g : Nat) (is : List (Fin 25)) :
    ((is.foldl (countCast s e g) p).Indexed t ↔ p.Indexed t) ∧
      (is.foldl (countCast s e g) p).quests = p.quests := by
  induction is generalizing p with
  | nil => exact ⟨Iff.rfl, rfl⟩
  | cons i is ih =>
    obtain ⟨hidx, hq⟩ := countCast_keeps (p := p) (t := t) s e g i
    exact ⟨ih.1.trans hidx, ih.2.trans hq⟩

/-! ## When a step keeps an objective exact -/

/-- Filing the quest marks the objective only if some quest requires it:
the quest itself, or one already in the log. -/
def FileOk (p : QuestPlayer) (t : Objective) (q : Quest) : Prop :=
  q.Filed t → q.Requires t ∨ p.Requires t

/-- Emptying the slot without unmarking: what its quest requires, another
one requires too. -/
def LeaveOk (p : QuestPlayer) (t : Objective) (slot : Fin 25) : Prop :=
  ∀ q ∈ p.quests slot, q.Requires t → p.RequiresBesides t slot

/-- The turn-in: no other quest requires what the loops unmark. -/
def TurnInOk (p : QuestPlayer) (t : Objective) (slot : Fin 25) (q : Quest) : Prop :=
  q.Dropped t → ¬ p.RequiresBesides t slot

/-- The condition on a step, by what the step does to the log. -/
def StepOk (S : QuestStorage) (t : Objective) (p : QuestPlayer) : QuestAction → Prop
  | .load questid slot _ =>
    ∀ q ∈ S.LookupEntry questid, p.m_questlog slot = none → p.FileOk t q
  | .accept quest_id available =>
    ∀ q ∈ S.LookupEntry quest_id, p.GetQuestLogForEntry q.id = none →
      ¬ ((q.is_repeatable = .no ∧ p.HasFinishedQuest q.id) ∨ !available) →
      p.GetOpenQuestSlot ≠ none → p.FileOk t q
  | .startCommand quest_id =>
    ∀ q ∈ S.LookupEntry quest_id,
      ¬ (p.HasFinishedQuest quest_id || p.HasFinishedDailyQuest quest_id) →
      p.GetQuestLogForEntry quest_id = none → p.GetOpenQuestSlot ≠ none → p.FileOk t q
  | .chooseReward quest_id available _ =>
    ∀ q ∈ S.LookupEntry quest_id, available = true →
      ∀ slot ∈ p.GetQuestLogForEntry q.id, p.TurnInOk t slot q
  | .removeQuest quest_slot => p.LeaveOk t quest_slot
  | .removeCommand quest_id =>
    ∀ q ∈ S.LookupEntry quest_id, ∀ slot ∈ p.GetQuestLogForEntry q.id, p.LeaveOk t slot
  | .finishCommand quest_id =>
    ∀ q ∈ S.LookupEntry quest_id,
      ¬ (p.HasFinishedQuest quest_id || p.HasFinishedDailyQuest quest_id) →
      ¬ (q.is_repeatable = .daily ∧ p.m_finishedDailyQuests.card ≥ 25) →
      ∀ slot ∈ p.GetQuestLogForEntry quest_id, p.LeaveOk t slot
  | .unlearn skill_line =>
    p.Requires t →
      Needed (fun q => ¬ q.required_tradeskill = skill_line ∧ q.Requires t) p.quests
  | .relog _ _ | .kill _ | .cast _ _ _ | .credit _ _ _ | .resetDailies => True

instance (p : QuestPlayer) (t : Objective) (q : Quest) : Decidable (p.FileOk t q) :=
  inferInstanceAs (Decidable (q.Filed t → q.Requires t ∨ p.Requires t))

instance (p : QuestPlayer) (t : Objective) (slot : Fin 25) : Decidable (p.LeaveOk t slot) :=
  inferInstanceAs (Decidable (∀ q ∈ p.quests slot, q.Requires t → p.RequiresBesides t slot))

instance (p : QuestPlayer) (t : Objective) (slot : Fin 25) (q : Quest) :
    Decidable (p.TurnInOk t slot q) :=
  inferInstanceAs (Decidable (q.Dropped t → ¬ p.RequiresBesides t slot))

instance (S : QuestStorage) (t : Objective) (p : QuestPlayer) :
    (a : QuestAction) → Decidable (StepOk S t p a)
  | .load questid slot _ =>
    inferInstanceAs (Decidable (∀ q ∈ S.LookupEntry questid,
      p.m_questlog slot = none → p.FileOk t q))
  | .accept quest_id available =>
    inferInstanceAs (Decidable (∀ q ∈ S.LookupEntry quest_id, p.GetQuestLogForEntry q.id = none →
      ¬ ((q.is_repeatable = .no ∧ p.HasFinishedQuest q.id) ∨ !available) →
      p.GetOpenQuestSlot ≠ none → p.FileOk t q))
  | .startCommand quest_id =>
    inferInstanceAs (Decidable (∀ q ∈ S.LookupEntry quest_id,
      ¬ (p.HasFinishedQuest quest_id || p.HasFinishedDailyQuest quest_id) →
      p.GetQuestLogForEntry quest_id = none → p.GetOpenQuestSlot ≠ none → p.FileOk t q))
  | .chooseReward quest_id available _ =>
    inferInstanceAs (Decidable (∀ q ∈ S.LookupEntry quest_id, available = true →
      ∀ slot ∈ p.GetQuestLogForEntry q.id, p.TurnInOk t slot q))
  | .removeQuest quest_slot => inferInstanceAs (Decidable (p.LeaveOk t quest_slot))
  | .removeCommand quest_id =>
    inferInstanceAs (Decidable (∀ q ∈ S.LookupEntry quest_id,
      ∀ slot ∈ p.GetQuestLogForEntry q.id, p.LeaveOk t slot))
  | .finishCommand quest_id =>
    inferInstanceAs (Decidable (∀ q ∈ S.LookupEntry quest_id,
      ¬ (p.HasFinishedQuest quest_id || p.HasFinishedDailyQuest quest_id) →
      ¬ (q.is_repeatable = .daily ∧ p.m_finishedDailyQuests.card ≥ 25) →
      ∀ slot ∈ p.GetQuestLogForEntry quest_id, p.LeaveOk t slot))
  | .unlearn skill_line =>
    inferInstanceAs (Decidable (p.Requires t →
      Needed (fun q => ¬ q.required_tradeskill = skill_line ∧ q.Requires t) p.quests))
  | .relog _ _ => .isTrue trivial
  | .kill _ => .isTrue trivial
  | .cast _ _ _ => .isTrue trivial
  | .credit _ _ _ => .isTrue trivial
  | .resetDailies => .isTrue trivial

/-! ## One step -/

/-- Filing a quest in an empty slot. -/
theorem indexExact_Init_iff (hp : p.IndexExact t) (hs : p.m_questlog slot = none) :
    (p.Init q slot).IndexExact t ↔ p.FileOk t q := by
  have hreq : (p.Init q slot).Requires t ↔ q.Requires t ∨ p.Requires t := by
    unfold Requires
    rw [quests_Init]
    exact needed_fill (quests_eq_none.2 hs)
  unfold IndexExact FileOk at *
  rw [indexed_Init, hreq, hp]
  constructor
  · intro h hf
    exact h.1 (Or.inl hf)
  · intro h
    constructor
    · rintro (hf | hr)
      · exact h hf
      · exact Or.inr hr
    · rintro (hq | hr)
      · exact Or.inl hq.filed
      · exact Or.inr hr

/-- A state whose sets and quests are those of another is as exact. -/
theorem indexExact_congr {p' : QuestPlayer} (hi : p'.Indexed t ↔ p.Indexed t)
    (hq : p'.quests = p.quests) : p'.IndexExact t ↔ p.IndexExact t := by
  unfold IndexExact Requires
  rw [hi, hq]

/-- Emptying a slot while the sets stay. -/
theorem indexExact_leave_iff {p' : QuestPlayer} (hp : p.IndexExact t)
    (hi : p'.Indexed t ↔ p.Indexed t)
    (hq : p'.quests = Function.update p.quests slot none) (hs : p.quests slot = some q) :
    p'.IndexExact t ↔ p.LeaveOk t slot := by
  have hreq : p'.Requires t ↔ p.RequiresBesides t slot := by
    unfold Requires RequiresBesides
    rw [hq, needed_clear]
  have hleave : p.LeaveOk t slot ↔ (q.Requires t → p.RequiresBesides t slot) := by
    unfold LeaveOk
    rw [hs]
    simp
  unfold IndexExact at *
  rw [hi, hp, hreq, hleave, requires_iff_of_slot hs]
  tauto

/-- The turn-in of the quest in a slot. -/
theorem indexExact_turnIn_iff {p' : QuestPlayer} (hp : p.IndexExact t)
    (hi : p'.Indexed t ↔ p.Indexed t ∧ ¬ q.Dropped t)
    (hq : p'.quests = Function.update p.quests slot none) (hs : p.quests slot = some q) :
    p'.IndexExact t ↔ p.TurnInOk t slot q := by
  have hreq : p'.Requires t ↔ p.RequiresBesides t slot := by
    unfold Requires RequiresBesides
    rw [hq, needed_clear]
  have hdrop : q.Requires t → q.Dropped t := Quest.Requires.dropped
  unfold IndexExact TurnInOk at *
  rw [hi, hp, hreq, requires_iff_of_slot hs]
  tauto

/-! ## The log holds quests of the table -/

variable {S : QuestStorage}

/-- Every quest in the log is the table's quest of its number. -/
def Stored (S : QuestStorage) (p : QuestPlayer) : Prop :=
  ∀ i, ∀ q ∈ p.quests i, q ∈ S.LookupEntry q.id

theorem stored_update {p' : QuestPlayer} {o : Option Quest} (h : p.Stored S)
    (ho : ∀ q ∈ o, q ∈ S.LookupEntry q.id) (hs : p'.quests = Function.update p.quests slot o) :
    p'.Stored S := by
  unfold Stored
  rw [hs]
  exact (Function.forall_update_iff p.quests fun _ o => ∀ q ∈ o, q ∈ S.LookupEntry q.id).2
    ⟨ho, fun i _ => h i⟩

theorem stored_clear {p' : QuestPlayer} (h : p.Stored S)
    (hs : p'.quests = Function.update p.quests slot none) : p'.Stored S :=
  stored_update h (by simp) hs

theorem stored_congr {p' : QuestPlayer} (h : p.Stored S) (hs : p'.quests = p.quests) :
    p'.Stored S := by
  unfold Stored
  rw [hs]
  exact h

/-- The slot found under a quest's number holds that quest. -/
theorem quests_of_getQuestLogForEntry (h : p.Stored S) (hq : q ∈ S.LookupEntry q.id)
    (hs : p.GetQuestLogForEntry q.id = some slot) : p.quests slot = some q := by
  have hany := List.find?_some hs
  cases hl : p.m_questlog slot with
  | none =>
    rw [hl] at hany
    cases hany
  | some qle =>
    rw [hl] at hany
    have hid : qle.m_quest.id = q.id := by simpa using hany
    have hquest := quests_of_eq hl
    have hstored := h slot qle.m_quest hquest
    rw [hid] at hstored
    rw [hquest, Option.mem_unique hstored hq]

theorem questlog_of_getOpenQuestSlot (hs : p.GetOpenQuestSlot = some slot) :
    p.m_questlog slot = none := by
  have hnone := List.find?_some hs
  exact Option.isNone_iff_eq_none.1 hnone

theorem mem_lookup_id {n : Nat} (hq : q ∈ S.LookupEntry n) : q ∈ S.LookupEntry q.id := by
  rw [S.id_eq hq]
  exact hq

theorem forall_lookup {n : Nat} {P : Quest → Prop} (hlook : S.LookupEntry n = some q) :
    (∀ q' ∈ S.LookupEntry n, P q') ↔ P q := by
  simp [hlook]

/-! ## The handlers, one by one -/

/-- What every handler is shown to do: the log stays one of the table's
quests, and the objective stays exact precisely when `C` holds. -/
def Keeps (S : QuestStorage) (t : Objective) (p' : QuestPlayer) (C : Prop) : Prop :=
  p'.Stored S ∧ (p'.IndexExact t ↔ C)

theorem keeps_same {p' : QuestPlayer} {C : Prop} (h : p.Stored S) (hp : p.IndexExact t)
    (hi : p'.Indexed t ↔ p.Indexed t) (hq : p'.quests = p.quests) (hC : C) :
    Keeps S t p' C := by
  have hexact : p'.IndexExact t := (indexExact_congr hi hq).2 hp
  exact ⟨stored_congr h hq, fun _ => hC, fun _ => hexact⟩

theorem keeps_Init (h : p.Stored S) (hp : p.IndexExact t) (hq : q ∈ S.LookupEntry q.id)
    (hs : p.m_questlog slot = none) : Keeps S t (p.Init q slot) (p.FileOk t q) :=
  ⟨stored_update h (fun _ hq' => Option.mem_some_iff.1 hq' ▸ hq) quests_Init,
    indexExact_Init_iff hp hs⟩

theorem Keeps.imp {p' : QuestPlayer} {C D : Prop} (h : Keeps S t p' C) (hCD : C ↔ D) :
    Keeps S t p' D := ⟨h.1, h.2.trans hCD⟩

theorem keeps_loadRow (h : p.Stored S) (hp : p.IndexExact t) (questid : Nat) (slot : Fin 25)
    (counts : Fin 4 → Nat) :
    Keeps S t (p.loadRow S questid slot counts) (StepOk S t p (.load questid slot counts)) := by
  unfold loadRow StepOk
  cases hlook : S.LookupEntry questid with
  | none => exact keeps_same h hp Iff.rfl rfl (by simp [hlook])
  | some q =>
    have hq : q ∈ S.LookupEntry q.id := mem_lookup_id hlook
    cases hs : p.m_questlog slot with
    | some qle => exact keeps_same h hp Iff.rfl rfl (by simp [hs])
    | none =>
      have hinit := keeps_Init h hp hq hs
      -- the row's counters replace those of `Init`, its quest is the same
      have hsame : ((p.Init q slot).SetQuestLogSlot
          (some { m_quest := q, m_mobcount := counts, m_affected_units := ∅ }) slot).quests =
          (p.Init q slot).quests := by
        apply quests_setQuestLogSlot_same
        rw [quests_Init, Function.update_self]
        rfl
      have hkeeps : Keeps S t ((p.Init q slot).SetQuestLogSlot
          (some { m_quest := q, m_mobcount := counts, m_affected_units := ∅ }) slot)
          (p.FileOk t q) :=
        ⟨stored_congr hinit.1 hsame,
          (indexExact_congr indexed_setQuestLogSlot hsame).trans hinit.2⟩
      exact hkeeps.imp (by simp [hlook, hs])

theorem keeps_AcceptQuest (h : p.Stored S) (hp : p.IndexExact t) (quest_id : Nat)
    (available : Bool) :
    Keeps S t (p.AcceptQuest S quest_id available) (StepOk S t p (.accept quest_id available)) := by
  unfold AcceptQuest StepOk
  cases hlook : S.LookupEntry quest_id with
  | none => exact keeps_same h hp Iff.rfl rfl (by simp [hlook])
  | some q =>
    have hq : q ∈ S.LookupEntry q.id := mem_lookup_id hlook
    dsimp only
    rw [forall_lookup hlook]
    split_ifs with hin hbar
    · refine keeps_same h hp Iff.rfl rfl fun hnone => ?_
      rw [hnone] at hin
      cases hin
    · exact keeps_same h hp Iff.rfl rfl fun _ hno => absurd hbar hno
    · have hout : p.GetQuestLogForEntry q.id = none := Option.not_isSome_iff_eq_none.1 hin
      cases hopen : p.GetOpenQuestSlot with
      | none => exact keeps_same h hp Iff.rfl rfl (fun _ _ hno => absurd rfl hno)
      | some slot =>
        refine (keeps_Init h hp hq (questlog_of_getOpenQuestSlot hopen)).imp ?_
        exact ⟨fun hok _ _ _ => hok, fun hall => hall hout hbar (by simp)⟩

theorem keeps_QuestStartCommand (h : p.Stored S) (hp : p.IndexExact t) (quest_id : Nat) :
    Keeps S t (p.QuestStartCommand S quest_id) (StepOk S t p (.startCommand quest_id)) := by
  unfold QuestStartCommand StepOk
  cases hlook : S.LookupEntry quest_id with
  | none => exact keeps_same h hp Iff.rfl rfl (by simp [hlook])
  | some q =>
    have hq : q ∈ S.LookupEntry q.id := mem_lookup_id hlook
    dsimp only
    rw [forall_lookup hlook]
    split_ifs with hdone hin
    · exact keeps_same h hp Iff.rfl rfl (fun hno => absurd hdone hno)
    · refine keeps_same h hp Iff.rfl rfl fun _ hnone => ?_
      rw [hnone] at hin
      cases hin
    · have hout : p.GetQuestLogForEntry quest_id = none := Option.not_isSome_iff_eq_none.1 hin
      cases hopen : p.GetOpenQuestSlot with
      | none => exact keeps_same h hp Iff.rfl rfl (fun _ _ hno => absurd rfl hno)
      | some slot =>
        refine (keeps_Init h hp hq (questlog_of_getOpenQuestSlot hopen)).imp ?_
        exact ⟨fun hok _ _ _ => hok, fun hall => hall hdone hout (by simp)⟩

theorem keeps_ChooseReward (h : p.Stored S) (hp : p.IndexExact t) (quest_id : Nat)
    (available giver : Bool) :
    Keeps S t (p.ChooseReward S quest_id available giver)
      (StepOk S t p (.chooseReward quest_id available giver)) := by
  unfold ChooseReward StepOk
  cases hlook : S.LookupEntry quest_id with
  | none => exact keeps_same h hp Iff.rfl rfl (by simp [hlook])
  | some q =>
    have hq : q ∈ S.LookupEntry q.id := mem_lookup_id hlook
    cases available with
    | false => exact keeps_same h hp Iff.rfl rfl (by simp)
    | true =>
      cases hs : p.GetQuestLogForEntry q.id with
      | none =>
        have hsame : p.OnQuestFinished q giver = p := by
          unfold OnQuestFinished
          rw [hs]
        refine keeps_same h hp ?_ ?_ (by simp [hlook, hs])
        · simp [hsame]
        · simp [hsame]
      | some slot =>
        obtain ⟨hi, hquests⟩ := onQuestFinished_spec (t := t) (g := giver) hs
        have hquest := quests_of_getQuestLogForEntry h hq hs
        have hkeeps : Keeps S t (p.OnQuestFinished q giver) (p.TurnInOk t slot q) :=
          ⟨stored_clear h hquests, indexExact_turnIn_iff hp hi hquests hquest⟩
        exact hkeeps.imp (by simp [hlook, hs])

theorem keeps_QuestlogRemoveQuest (h : p.Stored S) (hp : p.IndexExact t) (quest_slot : Fin 25) :
    Keeps S t (p.QuestlogRemoveQuest quest_slot) (StepOk S t p (.removeQuest quest_slot)) := by
  unfold QuestlogRemoveQuest StepOk
  cases hs : p.m_questlog quest_slot with
  | none =>
    refine keeps_same h hp Iff.rfl rfl ?_
    intro q hq
    rw [quests_eq_none.2 hs] at hq
    cases hq
  | some qle =>
    exact ⟨stored_clear h quests_Finish,
      indexExact_leave_iff hp indexed_Finish quests_Finish (quests_of_eq hs)⟩

/-- The sets of finished quests play no part. -/
theorem keeps_RemoveQuestFromPlayer (h : p.Stored S) (hp : p.IndexExact t) (quest_id : Nat) :
    Keeps S t (p.RemoveQuestFromPlayer S quest_id) (StepOk S t p (.removeCommand quest_id)) := by
  unfold RemoveQuestFromPlayer StepOk
  cases hlook : S.LookupEntry quest_id with
  | none => exact keeps_same h hp Iff.rfl rfl (by simp [hlook])
  | some q =>
    have hq : q ∈ S.LookupEntry q.id := mem_lookup_id hlook
    have hsame : ({ p with
        m_finishedQuests := p.m_finishedQuests.erase q.id
        m_finishedDailyQuests := p.m_finishedDailyQuests.erase q.id } :
          QuestPlayer).GetQuestLogForEntry q.id = p.GetQuestLogForEntry q.id := rfl
    dsimp only
    rw [hsame]
    cases hs : p.GetQuestLogForEntry q.id with
    | none => exact keeps_same h hp (indexed_congr rfl rfl) rfl (by simp [hlook, hs])
    | some slot =>
      have hquest := quests_of_getQuestLogForEntry h hq hs
      have hkeeps : Keeps S t (({ p with
          m_finishedQuests := p.m_finishedQuests.erase q.id
          m_finishedDailyQuests := p.m_finishedDailyQuests.erase q.id } :
            QuestPlayer).Finish slot) (p.LeaveOk t slot) :=
        ⟨stored_clear h quests_Finish,
          indexExact_leave_iff hp (indexed_Finish.trans (indexed_congr rfl rfl)) quests_Finish
            hquest⟩
      exact hkeeps.imp (by simp [hlook, hs])

theorem keeps_QuestFinishCommand (h : p.Stored S) (hp : p.IndexExact t) (quest_id : Nat) :
    Keeps S t (p.QuestFinishCommand S quest_id) (StepOk S t p (.finishCommand quest_id)) := by
  unfold QuestFinishCommand StepOk
  cases hlook : S.LookupEntry quest_id with
  | none => exact keeps_same h hp Iff.rfl rfl (by simp [hlook])
  | some q =>
    have hq : q ∈ S.LookupEntry q.id := mem_lookup_id hlook
    have hid : q.id = quest_id := S.id_eq hlook
    -- the marks and the quests are those of the player without the finished sets
    have hsets : ∀ p' : QuestPlayer, ∀ C, Keeps S t p' C →
        Keeps S t (if q.is_repeatable = .daily then p'.AddToFinishedDailyQuests quest_id
          else p'.AddToFinishedQuests quest_id) C := by
      intro p' C hk
      split_ifs
      · exact ⟨stored_congr hk.1 quests_addToFinishedDaily,
          (indexExact_congr indexed_addToFinishedDaily quests_addToFinishedDaily).trans hk.2⟩
      · exact hk
    dsimp only
    rw [forall_lookup hlook]
    by_cases hdone : (p.HasFinishedQuest quest_id || p.HasFinishedDailyQuest quest_id) = true
    · rw [if_pos hdone]
      exact keeps_same h hp Iff.rfl rfl (fun hno => absurd hdone hno)
    rw [if_neg hdone]
    by_cases hfull : q.is_repeatable = .daily ∧ p.m_finishedDailyQuests.card ≥ 25
    · rw [if_pos hfull]
      exact keeps_same h hp Iff.rfl rfl fun _ hno => absurd hfull hno
    rw [if_neg hfull]
    apply hsets
    cases hs : p.GetQuestLogForEntry quest_id with
    | none => exact keeps_same h hp Iff.rfl rfl (fun _ _ _ hslot => nomatch hslot)
    | some slot =>
      have hquest : p.quests slot = some q := by
        rw [← hid] at hs
        exact quests_of_getQuestLogForEntry h hq hs
      have hkeeps : Keeps S t (p.Finish slot) (p.LeaveOk t slot) :=
        ⟨stored_clear h quests_Finish,
          indexExact_leave_iff hp indexed_Finish quests_Finish hquest⟩
      refine hkeeps.imp ⟨?_, fun hall => hall hdone hfull slot rfl⟩
      intro hok _ _ slot' hslot'
      cases hslot'
      exact hok

theorem keeps_RemoveQuestsFromLine (h : p.Stored S) (hp : p.IndexExact t) (skill_line : Nat) :
    Keeps S t (p.RemoveQuestsFromLine S skill_line) (StepOk S t p (.unlearn skill_line)) := by
  have hquests : (p.RemoveQuestsFromLine S skill_line).quests = fun i =>
      (p.quests i).filter fun q => decide (¬ q.required_tradeskill = skill_line) := by
    funext i
    unfold RemoveQuestsFromLine quests
    cases hl : p.m_questlog i with
    | none => simp [hl]
    | some qle =>
      by_cases hk : qle.m_quest.required_tradeskill = skill_line
      · simp [hl, Option.filter, hk]
      · simp [hl, Option.filter, hk]
  have hreq : (p.RemoveQuestsFromLine S skill_line).Requires t ↔
      Needed (fun q => ¬ q.required_tradeskill = skill_line ∧ q.Requires t) p.quests := by
    unfold Requires
    rw [hquests, needed_clearAll]
  have hweaker : Needed (fun q => ¬ q.required_tradeskill = skill_line ∧ q.Requires t) p.quests →
      p.Requires t := by
    rintro ⟨i, q, hq, -, hr⟩
    exact ⟨i, q, hq, hr⟩
  constructor
  · intro i q hq
    rw [hquests] at hq
    exact h i q (Option.mem_filter_iff.1 hq).1
  · have hi : (p.RemoveQuestsFromLine S skill_line).Indexed t ↔ p.Indexed t :=
      indexed_congr rfl rfl
    unfold IndexExact StepOk at *
    rw [hi, hp, hreq]
    exact ⟨fun hiff => hiff.1, fun himp => ⟨himp, hweaker⟩⟩

/-! ## Runs -/

theorem keeps_OnPlayerKill (h : p.Stored S) (hp : p.IndexExact t) (e : Nat) :
    Keeps S t (p.OnPlayerKill e) True := by
  unfold OnPlayerKill
  split_ifs
  · obtain ⟨hi, hq⟩ := countKill_keeps (p := p) (t := t) e (List.finRange 25)
    exact keeps_same h hp hi hq trivial
  · exact keeps_same h hp Iff.rfl rfl trivial

theorem keeps_OnPlayerCast (h : p.Stored S) (hp : p.IndexExact t) (s e g : Nat) :
    Keeps S t (p.OnPlayerCast s e g) True := by
  unfold OnPlayerCast
  split_ifs
  · exact keeps_same h hp Iff.rfl rfl trivial
  · obtain ⟨hi, hq⟩ := foldl_countCast_keeps (p := p) (t := t) s e g (List.finRange 25)
    exact keeps_same h hp hi hq trivial

theorem indexExact_new {finished daily : Finset Nat} : (new finished daily).IndexExact t := by
  have hnone : ¬ (new finished daily).Requires t := not_needed_empty
  have hempty : ¬ (new finished daily).Indexed t := by
    cases t <;> simp [Indexed, new, HasQuestMob, HasQuestSpell]
  exact iff_of_false hempty hnone

theorem stored_new {finished daily : Finset Nat} : (new finished daily).Stored S := by
  intro i q hq
  cases hq

/-- Every action, from an exact state. -/
theorem keeps_step (h : p.Stored S) (hp : p.IndexExact t) (a : QuestAction) :
    Keeps S t (questStep S p a) (StepOk S t p a) := by
  cases a with
  | relog finished daily =>
    exact ⟨stored_new, fun _ => trivial, fun _ => indexExact_new⟩
  | load questid slot counts => exact keeps_loadRow h hp questid slot counts
  | accept quest_id available => exact keeps_AcceptQuest h hp quest_id available
  | startCommand quest_id => exact keeps_QuestStartCommand h hp quest_id
  | kill e => exact keeps_OnPlayerKill h hp e
  | cast s e g => exact keeps_OnPlayerCast h hp s e g
  | credit slot i count =>
    refine keeps_same h hp indexed_setQuestLogSlot ?_ trivial
    apply quests_setQuestLogSlot_same
    cases hs : p.m_questlog slot with
    | none => simp [quests, hs]
    | some qle => simp [quests, hs, QuestLogEntry.SetMobCount]
  | chooseReward quest_id available giver =>
    exact keeps_ChooseReward h hp quest_id available giver
  | removeQuest quest_slot => exact keeps_QuestlogRemoveQuest h hp quest_slot
  | removeCommand quest_id => exact keeps_RemoveQuestFromPlayer h hp quest_id
  | finishCommand quest_id => exact keeps_QuestFinishCommand h hp quest_id
  | unlearn skill_line => exact keeps_RemoveQuestsFromLine h hp skill_line
  | resetDailies => exact keeps_same h hp (indexed_congr rfl rfl) rfl trivial

/-- **The index.** Through every run whose steps meet the condition for an
objective, the objective is marked exactly when some quest in the log
requires it; and a further step keeps that exactly when it meets the
condition. -/
theorem quest_index_exact (S : QuestStorage) (t : Objective) {finished daily : Finset Nat}
    {as : List QuestAction} {p : QuestPlayer}
    (hrun : Run (Guarded (StepOk S t) (FunStep (questStep S))) (new finished daily) as p) :
    p.IndexExact t ∧ ∀ a, (questStep S p a).IndexExact t ↔ StepOk S t p a := by
  have hinv : p.Stored S ∧ p.IndexExact t := by
    refine hrun.invariant (fun p => p.Stored S ∧ p.IndexExact t) ?_
      ⟨stored_new, indexExact_new⟩
    intro p a p' hp hstep
    obtain ⟨hok, rfl⟩ := hstep
    obtain ⟨hstored, hiff⟩ := keeps_step hp.1 hp.2 a
    exact ⟨hstored, hiff.2 hok⟩
  exact ⟨hinv.2, fun a => (keeps_step hinv.1 hinv.2 a).2⟩

/-! ## Two quests for one creature -/

/-- A quest to kill `count` creatures of one kind. -/
def killQuest (id entry count : Nat) : Quest where
  id := id
  required_mob := fun i => if i = 0 then entry else 0
  required_mobcount := fun i => if i = 0 then count else 0
  required_mobtype := fun i => if i = 0 then .creature else .none
  required_spell := fun _ => 0
  required_tradeskill := 0
  is_repeatable := .no

/-- A table of two such quests. -/
def killQuests (entry₁ entry₂ : Nat) : QuestStorage where
  LookupEntry := fun n =>
    if n = 1 then some (killQuest 1 entry₁ 1) else if n = 2 then some (killQuest 2 entry₂ 2)
    else none
  id_eq := by
    intro n q hq
    split_ifs at hq with h1 h2
    · cases hq
      exact h1.symm
    · cases hq
      exact h2.symm
    · cases hq

/-- Both quests ask for creature 40. One kill completes the first; its
turn-in unmarks the creature although the second, in slot 1, has counted
one of two, and the next kill is not counted. -/
theorem shared_creature_forgotten :
    let S := killQuests 40 40
    let p := [.accept 1 true, .accept 2 true, .kill 40, .chooseReward 1 true true].foldl
      (questStep S) (new ∅ ∅)
    ¬ p.IndexExact (.mob 40) ∧
      (p.m_questlog 1).map (fun qle => (qle.m_quest.id, qle.m_mobcount 0)) = some (2, 1) ∧
      ((questStep S p (.kill 40)).m_questlog 1).map (fun qle => qle.m_mobcount 0) = some 1 := by
  decide +kernel

/-- Two quests for different creatures: the mark of the second outlives
the turn-in of the first. -/
theorem quest_index_exact_two_creatures :
    let S := killQuests 40 41
    ([.accept 1 true, .accept 2 true, .kill 40, .chooseReward 1 true true].foldl
      (questStep S) (new ∅ ∅)).IndexExact (.mob 41) := by
  intro S
  have hrun : Run (Guarded (StepOk S (.mob 41)) (FunStep (questStep S))) (new ∅ ∅)
      [.accept 1 true, .accept 2 true, .kill 40, .chooseReward 1 true true] _ :=
    .cons ⟨by decide +kernel, rfl⟩ (.cons ⟨by decide +kernel, rfl⟩
      (.cons ⟨by decide +kernel, rfl⟩ (.cons ⟨by decide +kernel, rfl⟩ (.nil _))))
  exact (quest_index_exact S (.mob 41) hrun).1

end QuestPlayer

end HearthStone
