/-
HearthStone.Quest.Progress — what kills, casts and explorations do to the
quest logs (`QuestMgr.cpp`, `Quest.cpp`).

* `Event` is one call of a hook. The group is as it stands at the call: a
  set of the members that are logged in, and which of them are in range.
* `killLog` is the walk over one log in `_OnPlayerKill`; a quest of
  `SkippedKills` that would count the kill ends the whole call.
* `CanBeFinished` asks for the progress and for what the player has.

Scripts of quests, packets and saves are left out.
-/
import HearthStone.Quest.QuestLog

namespace HearthStone.QuestProgress

/-- What the hooks and `CanBeFinished` read of a quest. -/
structure Quest where
  id : UInt32
  required_mob : Fin 4 → UInt32
  required_mobcount : Fin 4 → UInt32
  required_mobtype : Fin 4 → QuestMobType
  required_spell : Fin 4 → UInt32
  required_item : Fin 4 → UInt32
  required_itemcount : Fin 4 → UInt32
  required_triggers : Fin 4 → UInt32
  required_money : UInt32
  required_kill_player : UInt32
  time : UInt32

namespace Quest

/-- Counted when the quests are loaded. -/
def count_required_mob (q : Quest) : Nat := (List.finRange 4).countP fun i => q.required_mob i ≠ 0

def count_requiredtriggers (q : Quest) : Nat :=
  (List.finRange 4).countP fun i => q.required_triggers i ≠ 0

/-- `IsCastQuest`: set by `Init`. -/
def iscastquest (q : Quest) : Bool := (List.finRange 4).any fun i => q.required_spell i ≠ 0

end Quest

structure QuestLogEntry where
  m_quest : Quest
  m_mobcount : Fin 4 → UInt32
  m_explored_areas : Fin 4 → UInt32
  m_player_slain : UInt32
  m_affected_units : Finset UInt64
  m_time_left : UInt32

namespace QuestLogEntry

/-- The entry `Init` makes. -/
def init (q : Quest) : QuestLogEntry where
  m_quest := q
  m_mobcount := fun _ => 0
  m_explored_areas := fun _ => 0
  m_player_slain := 0
  m_affected_units := ∅
  m_time_left := q.time

def SetMobCount (qle : QuestLogEntry) (i : Fin 4) (count : UInt32) : QuestLogEntry :=
  { qle with m_mobcount := Function.update qle.m_mobcount i count }

def SetTrigger (qle : QuestLogEntry) (i : Fin 4) : QuestLogEntry :=
  { qle with m_explored_areas := Function.update qle.m_explored_areas i 1 }

def SetPlayerSlainCount (qle : QuestLogEntry) (count : UInt32) : QuestLogEntry :=
  { qle with m_player_slain := count }

def AddAffectedUnit (qle : QuestLogEntry) (guid : UInt64) : QuestLogEntry :=
  { qle with m_affected_units := insert guid qle.m_affected_units }

/-! ## CanBeFinished -/

/-- What `CanBeFinished` asks of the player. -/
structure Means where
  GetItemCount : UInt32 → UInt32
  coinage : UInt32
  GetFinishedDailiesCount : UInt32

/-- The kills of the first loop. -/
def KillsDone (qle : QuestLogEntry) : Prop :=
  ∀ i, qle.m_quest.required_mob i ≠ 0 → ¬ qle.m_mobcount i < qle.m_quest.required_mobcount i

/-- The areas of the third. -/
def AreasDone (qle : QuestLogEntry) : Prop :=
  ∀ i, qle.m_quest.required_triggers i ≠ 0 → qle.m_explored_areas i ≠ 0

def SlainDone (qle : QuestLogEntry) : Prop :=
  ¬ qle.m_quest.required_kill_player ≠ qle.m_player_slain

instance (qle : QuestLogEntry) : Decidable qle.KillsDone :=
  inferInstanceAs (Decidable (∀ _ : Fin 4, _))

instance (qle : QuestLogEntry) : Decidable qle.AreasDone :=
  inferInstanceAs (Decidable (∀ _ : Fin 4, _))

instance (qle : QuestLogEntry) : Decidable qle.SlainDone := inferInstanceAs (Decidable (¬ _))

def CanBeFinished (qle : QuestLogEntry) (plr : Means) : Bool :=
  decide qle.KillsDone
  && decide (∀ i : Fin 4, qle.m_quest.required_item i ≠ 0 →
      ¬ plr.GetItemCount (qle.m_quest.required_item i) < qle.m_quest.required_itemcount i)
  && !(qle.m_quest.required_money ≠ 0 && plr.coinage < qle.m_quest.required_money)
  && decide qle.AreasDone
  && decide qle.SlainDone
  && !(plr.GetFinishedDailiesCount ≥ 25)
  && !(qle.m_quest.time ≠ 0 && qle.m_time_left = 0)

end QuestLogEntry

/-- What the hooks read and write of a player. -/
structure Player where
  m_questlog : Fin 25 → Option QuestLogEntry
  quest_mobs : Finset UInt32
  quest_spells : Finset UInt32

def Player.set (p : Player) (i : Fin 25) (qle : QuestLogEntry) : Player :=
  { p with m_questlog := Function.update p.m_questlog i (some qle) }

/-! ## _OnPlayerKill -/

/-- The objective a kill of the creature counts for. -/
def killObjective (qle : QuestLogEntry) (creature_entry : UInt32) : Option (Fin 4) :=
  (List.finRange 4).find? fun j =>
    decide (qle.m_quest.required_mob j = creature_entry) &&
    decide (qle.m_quest.required_mobtype j = .creature) &&
    decide (qle.m_mobcount j < qle.m_quest.required_mobcount j)

/-- The walk over a log, and whether it ended in a `return`. -/
def killLog (creature_entry : UInt32) : List (Fin 25) → Player → Player × Bool
  | [], p => (p, false)
  | i :: is, p =>
    match p.m_questlog i with
    | none => killLog creature_entry is p
    | some qle =>
      if qle.m_quest.count_required_mob = 0 then killLog creature_entry is p
      else match killObjective qle creature_entry with
        | none => killLog creature_entry is p
        | some j =>
          if QuestPlayer.SkippedKills qle.m_quest.id.toNat then (p, true)
          else killLog creature_entry is (p.set i (qle.SetMobCount j (qle.m_mobcount j + 1)))

abbrev PlayerId := Nat

abbrev World := PlayerId → Player

/-- The group of a player at a call, empty when he has none. -/
structure Group where
  members : List PlayerId
  nodup : members.Nodup
  isInRange : PlayerId → Bool

/-- The shared kills. -/
def killGroup (plr : PlayerId) (creature_entry : UInt32) (g : Group) :
    List PlayerId → World → World
  | [], w => w
  | gplr :: ms, w =>
    if gplr ≠ plr ∧ g.isInRange gplr ∧ creature_entry ∈ (w gplr).quest_mobs then
      let r := killLog creature_entry (List.finRange 25) (w gplr)
      if r.2 then Function.update w gplr r.1
      else killGroup plr creature_entry g ms (Function.update w gplr r.1)
    else killGroup plr creature_entry g ms w

def OnPlayerKill (w : World) (plr : PlayerId) (creature_entry : UInt32) (g : Group) : World :=
  if creature_entry ∈ (w plr).quest_mobs then
    let r := killLog creature_entry (List.finRange 25) (w plr)
    if r.2 then Function.update w plr r.1
    else killGroup plr creature_entry g g.members (Function.update w plr r.1)
  else killGroup plr creature_entry g g.members w

/-! ## OnPlayerSlain -/

def slainEntry (qle : QuestLogEntry) : QuestLogEntry :=
  if qle.m_quest.required_kill_player ≠ 0 then qle.SetPlayerSlainCount (qle.m_player_slain + 1)
  else qle

/-- The walk over a log. -/
def slainLog (p : Player) : Player :=
  { p with m_questlog := fun i => (p.m_questlog i).map slainEntry }

def slainGroup (plr : PlayerId) (g : Group) : List PlayerId → World → World
  | [], w => w
  | gplr :: ms, w =>
    if gplr ≠ plr ∧ g.isInRange gplr then
      slainGroup plr g ms (Function.update w gplr (slainLog (w gplr)))
    else slainGroup plr g ms w

def OnPlayerSlain (w : World) (plr : PlayerId) (g : Group) : World :=
  slainGroup plr g g.members (Function.update w plr (slainLog (w plr)))

/-! ## OnPlayerCast and OnPlayerExploreArea -/

/-- What `OnPlayerCast` reads of its victim. -/
structure Victim where
  entry : UInt32
  guid : UInt64

/-- The objective a cast of the spell on the victim counts for. -/
def castObjective (qle : QuestLogEntry) (spellid : UInt32) (victim : Victim) : Option (Fin 4) :=
  (List.finRange 4).find? fun j =>
    decide (qle.m_quest.required_mob j = victim.entry) &&
    decide (qle.m_quest.required_spell j = spellid) &&
    decide (qle.m_mobcount j < qle.m_quest.required_mobcount j) &&
    decide (victim.guid ∉ qle.m_affected_units)

def castEntry (spellid : UInt32) (victim : Victim) (qle : QuestLogEntry) : QuestLogEntry :=
  if !qle.m_quest.iscastquest then qle
  else match castObjective qle spellid victim with
    | none => qle
    | some j => (qle.AddAffectedUnit victim.guid).SetMobCount j (qle.m_mobcount j + 1)

/-- `victim` is none when the map has no such unit. -/
def OnPlayerCast (w : World) (plr : PlayerId) (spellid : UInt32) (victim : Option Victim) : World :=
  if spellid ∉ (w plr).quest_spells then w
  else match victim with
    | none => w
    | some victim => Function.update w plr
      { w plr with m_questlog := fun i => ((w plr).m_questlog i).map (castEntry spellid victim) }

def exploreObjective (qle : QuestLogEntry) (AreaID : UInt32) : Option (Fin 4) :=
  (List.finRange 4).find? fun j =>
    decide (qle.m_quest.required_triggers j = AreaID) && decide (qle.m_explored_areas j = 0)

def exploreEntry (AreaID : UInt32) (qle : QuestLogEntry) : QuestLogEntry :=
  if qle.m_quest.count_requiredtriggers = 0 then qle
  else match exploreObjective qle AreaID with
    | none => qle
    | some j => qle.SetTrigger j

def OnPlayerExploreArea (w : World) (plr : PlayerId) (AreaID : UInt32) : World :=
  Function.update w plr
    { w plr with m_questlog := fun i => ((w plr).m_questlog i).map (exploreEntry AreaID) }

/-! ## Runs -/

inductive Event
  | kill (plr : PlayerId) (creature_entry : UInt32) (g : Group)
  | slain (plr : PlayerId) (g : Group)
  | cast (plr : PlayerId) (spellid : UInt32) (victim : Option Victim)
  | explore (plr : PlayerId) (AreaID : UInt32)

def step (w : World) : Event → World
  | .kill plr creature_entry g => OnPlayerKill w plr creature_entry g
  | .slain plr g => OnPlayerSlain w plr g
  | .cast plr spellid victim => OnPlayerCast w plr spellid victim
  | .explore plr AreaID => OnPlayerExploreArea w plr AreaID

def run (w : World) (events : List Event) : World := events.foldl step w

end HearthStone.QuestProgress
