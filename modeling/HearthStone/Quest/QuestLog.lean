/-
HearthStone.Quest.QuestLog — a player's quest log and the two sets that
say which kills and casts are worth looking at.

* `Quest` holds the fields of the quest table the log code reads.
* `QuestPlayer` is the part of a player that holds the 25 log slots, `quest_mobs` and `quest_spells`, and
  the sets of finished quests.
* `QuestLogEntry::Init` files the objectives of a quest, `Finish` empties
  a slot; the handlers and commands that call them are the actions.

Scripts, items and rewards touch neither the log nor the sets and are
left out; what a handler checks about the giver, the level and the bags
is the `available` flag of its action.
-/
import HearthStone.Lib.Slots
import Mathlib.Data.Finset.Card
import Mathlib.Data.Fintype.Fin

namespace HearthStone

/-- `QUEST_MOB_TYPES`, zero where the quest table names no mob. -/
inductive QuestMobType where
  | none
  | creature
  | gameobject
  deriving DecidableEq, Repr

/-- The repeatable flag of a quest. -/
inductive Repeatable where
  | no
  | repeatable
  | daily
  deriving DecidableEq, Repr

structure Quest where
  id : Nat
  required_mob : Fin 4 → Nat
  required_mobcount : Fin 4 → Nat
  required_mobtype : Fin 4 → QuestMobType
  required_spell : Fin 4 → Nat
  required_tradeskill : Nat
  is_repeatable : Repeatable

namespace Quest

/-- Counted when the quests are loaded: the slots that name a mob. -/
def count_required_mob (q : Quest) : Nat := ((List.finRange 4).filter fun i => q.required_mob i ≠ 0).length

/-- `IsCastQuest`: set by `Init` when some slot names a spell. -/
def iscastquest (q : Quest) : Bool := (List.finRange 4).any fun i => decide (q.required_spell i ≠ 0)

end Quest

/-- The quest table: the row found under a number carries that number. -/
structure QuestStorage where
  LookupEntry : Nat → Option Quest
  id_eq : ∀ {n : Nat} {q : Quest}, q ∈ LookupEntry n → q.id = n

structure QuestLogEntry where
  m_quest : Quest
  m_mobcount : Fin 4 → Nat
  m_affected_units : Finset Nat

namespace QuestLogEntry

def SetMobCount (qle : QuestLogEntry) (i : Fin 4) (count : Nat) : QuestLogEntry :=
  { qle with m_mobcount := Function.update qle.m_mobcount i count }

def AddAffectedUnit (qle : QuestLogEntry) (guid : Nat) : QuestLogEntry :=
  { qle with m_affected_units := insert guid qle.m_affected_units }

end QuestLogEntry

structure QuestPlayer where
  m_questlog : Fin 25 → Option QuestLogEntry
  quest_mobs : Finset Nat
  quest_spells : Finset Nat
  m_finishedQuests : Finset Nat
  m_finishedDailyQuests : Finset Nat

namespace QuestPlayer

def HasQuestSpell (p : QuestPlayer) (spellid : Nat) : Bool := decide (spellid ∈ p.quest_spells)

def RemoveQuestSpell (p : QuestPlayer) (spellid : Nat) : QuestPlayer :=
  { p with quest_spells := p.quest_spells.erase spellid }

def HasQuestMob (p : QuestPlayer) (entry : Nat) : Bool := decide (entry ∈ p.quest_mobs)

def RemoveQuestMob (p : QuestPlayer) (entry : Nat) : QuestPlayer :=
  { p with quest_mobs := p.quest_mobs.erase entry }

def SetQuestLogSlot (p : QuestPlayer) (entry : Option QuestLogEntry) (slot : Fin 25) : QuestPlayer :=
  { p with m_questlog := Function.update p.m_questlog slot entry }

/-- The first slot whose quest has the number. -/
def GetQuestLogForEntry (p : QuestPlayer) (quest : Nat) : Option (Fin 25) :=
  (List.finRange 25).find? fun i => (p.m_questlog i).any fun qle => qle.m_quest.id == quest

def GetOpenQuestSlot (p : QuestPlayer) : Option (Fin 25) :=
  (List.finRange 25).find? fun i => (p.m_questlog i).isNone

def HasFinishedQuest (p : QuestPlayer) (quest_id : Nat) : Bool := decide (quest_id ∈ p.m_finishedQuests)

def HasFinishedDailyQuest (p : QuestPlayer) (quest_id : Nat) : Bool :=
  decide (quest_id ∈ p.m_finishedDailyQuests)

def AddToFinishedQuests (p : QuestPlayer) (quest_id : Nat) : QuestPlayer :=
  { p with m_finishedQuests := insert quest_id p.m_finishedQuests }

def AddToFinishedDailyQuests (p : QuestPlayer) (quest_id : Nat) : QuestPlayer :=
  if p.m_finishedDailyQuests.card ≥ 25 then p
  else { p with m_finishedDailyQuests := insert quest_id p.m_finishedDailyQuests }

/-- The constructed player: no quest, nothing filed. The finished quests
come from the database. -/
def new (finished daily : Finset Nat) : QuestPlayer where
  m_questlog := fun _ => none
  quest_mobs := ∅
  quest_spells := ∅
  m_finishedQuests := finished
  m_finishedDailyQuests := daily

/-! ## Init and Finish -/

/-- One turn of the loop of `Init`: a slot with a spell is filed under
the spell, otherwise a slot with a mob under the mob. -/
def file (q : Quest) (p : QuestPlayer) (i : Fin 4) : QuestPlayer :=
  if q.required_spell i ≠ 0 then
    if !p.HasQuestSpell (q.required_spell i) then
      { p with quest_spells := insert (q.required_spell i) p.quest_spells }
    else p
  else if q.required_mob i ≠ 0 then
    if !p.HasQuestMob (q.required_mob i) then
      { p with quest_mobs := insert (q.required_mob i) p.quest_mobs }
    else p
  else p

/-- `QuestLogEntry::Init`. -/
def Init (p : QuestPlayer) (q : Quest) (slot : Fin 25) : QuestPlayer :=
  ((List.finRange 4).foldl (file q) p).SetQuestLogSlot
    (some { m_quest := q, m_mobcount := fun _ => 0, m_affected_units := ∅ }) slot

/-- `QuestLogEntry::Finish`: the slot is emptied and the entry deleted. -/
def Finish (p : QuestPlayer) (slot : Fin 25) : QuestPlayer := p.SetQuestLogSlot none slot

/-! ## The end of a quest -/

/-- The first loop of `OnQuestFinished`. -/
def unfile (q : Quest) (p : QuestPlayer) (x : Fin 4) : QuestPlayer :=
  if q.required_spell x ≠ 0 then
    if p.HasQuestSpell (q.required_spell x) then p.RemoveQuestSpell (q.required_spell x) else p
  else if q.required_mob x ≠ 0 then
    if p.HasQuestMob (q.required_mob x) then p.RemoveQuestMob (q.required_mob x) else p
  else p

/-- The second loop: the kill counter of a repeatable quest is reset, the
spell and the mob of any other quest are removed. -/
def cleanup (slot : Fin 25) (q : Quest) (p : QuestPlayer) (x : Fin 4) : QuestPlayer :=
  if q.is_repeatable ≠ .no then
    if q.required_mob x ≠ 0 ∧ p.HasQuestMob (q.required_mob x) then
      p.SetQuestLogSlot ((p.m_questlog slot).map fun qle => qle.SetMobCount x 0) slot
    else p
  else
    let p := if q.required_spell x ≠ 0 ∧ p.HasQuestSpell (q.required_spell x) then
      p.RemoveQuestSpell (q.required_spell x) else p
    if q.required_mob x ≠ 0 ∧ p.HasQuestMob (q.required_mob x) then
      p.RemoveQuestMob (q.required_mob x) else p

/-- `QuestMgr::OnQuestFinished`. `giverHasQuest` is the answer of the
giver's `HasQuest`, asked when the slot is already empty. -/
def OnQuestFinished (p : QuestPlayer) (q : Quest) (giverHasQuest : Bool) : QuestPlayer :=
  match p.GetQuestLogForEntry q.id with
  | none => p
  | some slot =>
    let p := (List.finRange 4).foldl (unfile q) p
    let p := (List.finRange 4).foldl (cleanup slot q) p
    let p := p.Finish slot
    if !giverHasQuest then p
    else match q.is_repeatable with
      | .daily => p.AddToFinishedDailyQuests q.id
      | .no => p.AddToFinishedQuests q.id
      | .repeatable => p

/-! ## Kills and casts -/

/-- The quests whose kills are given by their own scripts. -/
def SkippedKills (QuestID : Nat) : Bool :=
  QuestID ∈ [6061, 6062, 6063, 6064, 6082, 6083, 6084, 6085, 6087, 6088, 6101, 6102,
    9484, 9485, 9486, 9591, 9592, 9593]

/-- The objective a kill of the creature counts for. -/
def killObjective (qle : QuestLogEntry) (creature_entry : Nat) : Option (Fin 4) :=
  (List.finRange 4).find? fun j =>
    decide (qle.m_quest.required_mob j = creature_entry) &&
    decide (qle.m_quest.required_mobtype j = .creature) &&
    decide (qle.m_mobcount j < qle.m_quest.required_mobcount j)

/-- The loop over the log in `_OnPlayerKill`. A skipped quest that would
count the kill ends the call. -/
def countKill (creature_entry : Nat) : List (Fin 25) → QuestPlayer → QuestPlayer
  | [], p => p
  | i :: is, p =>
    match p.m_questlog i with
    | none => countKill creature_entry is p
    | some qle =>
      if qle.m_quest.count_required_mob = 0 then countKill creature_entry is p
      else match killObjective qle creature_entry with
        | none => countKill creature_entry is p
        | some j =>
          if SkippedKills qle.m_quest.id then p
          else countKill creature_entry is
            (p.SetQuestLogSlot (some (qle.SetMobCount j (qle.m_mobcount j + 1))) i)

/-- `QuestMgr::_OnPlayerKill`, for the killer and for each member of his
group near enough. -/
def OnPlayerKill (p : QuestPlayer) (creature_entry : Nat) : QuestPlayer :=
  if p.HasQuestMob creature_entry then countKill creature_entry (List.finRange 25) p else p

/-- The objective a cast of the spell on the victim counts for. -/
def castObjective (qle : QuestLogEntry) (spellid entry guid : Nat) : Option (Fin 4) :=
  (List.finRange 4).find? fun j =>
    decide (qle.m_quest.required_mob j = entry) &&
    decide (qle.m_quest.required_spell j = spellid) &&
    decide (qle.m_mobcount j < qle.m_quest.required_mobcount j) &&
    decide (guid ∉ qle.m_affected_units)

/-- The turn of `OnPlayerCast` for one slot. -/
def countCast (spellid entry guid : Nat) (p : QuestPlayer) (i : Fin 25) : QuestPlayer :=
  match p.m_questlog i with
  | none => p
  | some qle =>
    if !qle.m_quest.iscastquest then p
    else match castObjective qle spellid entry guid with
      | none => p
      | some j =>
        let qle := qle.AddAffectedUnit guid
        p.SetQuestLogSlot (some (qle.SetMobCount j (qle.m_mobcount j + 1))) i

/-- `QuestMgr::OnPlayerCast`. -/
def OnPlayerCast (p : QuestPlayer) (spellid entry guid : Nat) : QuestPlayer :=
  if !p.HasQuestSpell spellid then p
  else (List.finRange 25).foldl (countCast spellid entry guid) p

/-! ## The handlers -/

/-- One row of `_LoadQuestLogEntry`. A row of a quest that is gone, or
for a slot that is taken, is passed over. -/
def loadRow (S : QuestStorage) (p : QuestPlayer) (questid : Nat) (slot : Fin 25)
    (counts : Fin 4 → Nat) : QuestPlayer :=
  match S.LookupEntry questid with
  | none => p
  | some q =>
    if (p.m_questlog slot).isSome then p
    else (p.Init q slot).SetQuestLogSlot
      (some { m_quest := q, m_mobcount := counts, m_affected_units := ∅ }) slot

/-- `HandleQuestgiverAcceptQuestOpcode`. -/
def AcceptQuest (S : QuestStorage) (p : QuestPlayer) (quest_id : Nat) (available : Bool) : QuestPlayer :=
  match S.LookupEntry quest_id with
  | none => p
  | some q =>
    if (p.GetQuestLogForEntry q.id).isSome then p
    else if (q.is_repeatable = .no ∧ p.HasFinishedQuest q.id) ∨ !available then p
    else match p.GetOpenQuestSlot with
      | none => p
      | some log_slot => p.Init q log_slot

/-- `HandleQuestStartCommand`. -/
def QuestStartCommand (S : QuestStorage) (p : QuestPlayer) (quest_id : Nat) : QuestPlayer :=
  match S.LookupEntry quest_id with
  | none => p
  | some q =>
    if p.HasFinishedQuest quest_id || p.HasFinishedDailyQuest quest_id then p
    else if (p.GetQuestLogForEntry quest_id).isSome then p
    else match p.GetOpenQuestSlot with
      | none => p
      | some open_slot => p.Init q open_slot

/-- `HandleQuestgiverChooseRewardOpcode`, up to the checks that keep the
quest. -/
def ChooseReward (S : QuestStorage) (p : QuestPlayer) (quest_id : Nat) (available giverHasQuest : Bool) :
    QuestPlayer :=
  match S.LookupEntry quest_id with
  | none => p
  | some q => if !available then p else p.OnQuestFinished q giverHasQuest

/-- `HandleQuestlogRemoveQuestOpcode`. -/
def QuestlogRemoveQuest (p : QuestPlayer) (quest_slot : Fin 25) : QuestPlayer :=
  match p.m_questlog quest_slot with
  | none => p
  | some _ => p.Finish quest_slot

/-- `RemoveQuestFromPlayer`, the quest remove command. -/
def RemoveQuestFromPlayer (S : QuestStorage) (p : QuestPlayer) (quest_id : Nat) : QuestPlayer :=
  match S.LookupEntry quest_id with
  | none => p
  | some q =>
    let p := { p with
      m_finishedQuests := p.m_finishedQuests.erase q.id
      m_finishedDailyQuests := p.m_finishedDailyQuests.erase q.id }
    match p.GetQuestLogForEntry q.id with
    | none => p
    | some slot => p.Finish slot

/-- `HandleQuestFinishCommand`. -/
def QuestFinishCommand (S : QuestStorage) (p : QuestPlayer) (quest_id : Nat) : QuestPlayer :=
  match S.LookupEntry quest_id with
  | none => p
  | some q =>
    if p.HasFinishedQuest quest_id || p.HasFinishedDailyQuest quest_id then p
    else if q.is_repeatable = .daily ∧ p.m_finishedDailyQuests.card ≥ 25 then p
    else
      let p := match p.GetQuestLogForEntry quest_id with
        | none => p
        | some slot => p.Finish slot
      if q.is_repeatable = .daily then p.AddToFinishedDailyQuests quest_id
      else p.AddToFinishedQuests quest_id

/-- `RemoveQuestsFromLine`: the quests of a trade skill that is unlearnt. -/
def RemoveQuestsFromLine (S : QuestStorage) (p : QuestPlayer) (skill_line : Nat) : QuestPlayer :=
  { p with
    m_questlog := fun i => (p.m_questlog i).filter fun qle =>
      decide (¬ qle.m_quest.required_tradeskill = skill_line)
    m_finishedQuests := p.m_finishedQuests.filter fun id =>
      ¬ ((S.LookupEntry id).any fun q => q.required_tradeskill == skill_line) }

end QuestPlayer

/-- What may happen to a player's quests. -/
inductive QuestAction where
  /-- the player logs out and in again, his finished quests from the database -/
  | relog (finished daily : Finset Nat)
  /-- a row of the quest log table, read while logging in -/
  | load (questid : Nat) (slot : Fin 25) (counts : Fin 4 → Nat)
  | accept (quest_id : Nat) (available : Bool)
  | startCommand (quest_id : Nat)
  | kill (creature_entry : Nat)
  | cast (spellid entry guid : Nat)
  /-- a script, an object or a spell sets a counter -/
  | credit (slot : Fin 25) (i : Fin 4) (count : Nat)
  | chooseReward (quest_id : Nat) (available giverHasQuest : Bool)
  | removeQuest (quest_slot : Fin 25)
  | removeCommand (quest_id : Nat)
  | finishCommand (quest_id : Nat)
  | unlearn (skill_line : Nat)
  | resetDailies

open QuestPlayer in
/-- The player after an action. -/
def questStep (S : QuestStorage) (p : QuestPlayer) : QuestAction → QuestPlayer
  | .relog finished daily => QuestPlayer.new finished daily
  | .load questid slot counts => p.loadRow S questid slot counts
  | .accept quest_id available => p.AcceptQuest S quest_id available
  | .startCommand quest_id => p.QuestStartCommand S quest_id
  | .kill creature_entry => p.OnPlayerKill creature_entry
  | .cast spellid entry guid => p.OnPlayerCast spellid entry guid
  | .credit slot i count =>
    p.SetQuestLogSlot ((p.m_questlog slot).map fun qle => qle.SetMobCount i count) slot
  | .chooseReward quest_id available giverHasQuest =>
    p.ChooseReward S quest_id available giverHasQuest
  | .removeQuest quest_slot => p.QuestlogRemoveQuest quest_slot
  | .removeCommand quest_id => p.RemoveQuestFromPlayer S quest_id
  | .finishCommand quest_id => p.QuestFinishCommand S quest_id
  | .unlearn skill_line => p.RemoveQuestsFromLine S skill_line
  | .resetDailies => { p with m_finishedDailyQuests := ∅ }

end HearthStone
