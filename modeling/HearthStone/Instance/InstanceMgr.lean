/-
HearthStone.Instance.InstanceMgr — how a player gets into an instance
(`WorldCreator.cpp`, `WorldCreator.h`, and `_Relocate` of `Player.cpp`).

The instances of a map are an association list from instance ids, in the
order in which the iterator of the hash map meets them. A new entry comes
first; where it stands among the others makes no difference below.

* `playerOwnsInstance` — the owner check, which deletes an expired
  instance on the way.
* `preTeleport` — may the player go, and into which instance.
* `getInstance` — the map of the instance, when he arrives.
* `relocate` — the first, and what `_Relocate` writes on its success.
-/
import Mathlib

namespace HearthStone.InstanceEntry

inductive InstanceType where
  | null | raid | nonraid | pvp | multimode
  deriving DecidableEq

/-- What is read of `MapInfo`. -/
structure MapInfo where
  type : InstanceType
  playerlimit : Nat
  minlevel : Nat
  cooldown : Nat
  deriving DecidableEq

/-- The map of one instance. -/
structure MapMgr where
  instanceId : Nat
  /-- the size of `m_PlayerStorage` -/
  playerCount : Nat
  deriving DecidableEq

namespace MapMgr

variable (mgr : MapMgr)

def hasPlayers : Bool := mgr.playerCount > 0

/-- "temporary disabled until AI updates list correctly." -/
def isCombatInProgress (_ : MapMgr) : Bool := false

end MapMgr

structure Instance where
  mapMgr : Option MapMgr
  creatorGuid : Nat
  /-- zero for none -/
  creatorGroup : Nat
  difficulty : Nat
  savedPlayers : List Nat
  /-- zero for never -/
  expiration : Nat
  mapInfo : Option MapInfo
  deriving DecidableEq

structure Player where
  guid : Nat
  /-- `GetGroupID`, for a player with a group -/
  group : Option Nat
  iInstanceType : Nat
  triggerpassCheat : Bool
  level : Nat
  mapId : Nat
  instanceId : Nat
  deriving DecidableEq

inductive Answer where
  | full | notFound | encounter | heroicModeNotAvailable | notInRaidGroup | ok
  deriving DecidableEq

inductive OwnerCheck where
  | expired | notExist | noGroup | difficult | maxLimit | minLevel | wrongGroup
  | ok | savedOk | triggerpass
  deriving DecidableEq

/-- `>= OWNER_CHECK_OK`. -/
def OwnerCheck.accepts : OwnerCheck → Bool
  | .ok | .savedOk | .triggerpass => true
  | _ => false

/-- `InstanceMap`. -/
abbrev InstanceMap := AList fun _ : Nat => Instance

structure InstanceMgr where
  /-- `WorldMapInfoStorage` -/
  mapInfo : Nat → Option MapInfo
  /-- `m_singleMaps` -/
  singleMaps : Nat → Option MapMgr
  /-- `m_instances` -/
  instances : Nat → Option InstanceMap
  /-- `m_InstanceHigh` -/
  instanceHigh : Nat

def NUM_MAPS : Nat := 700

/-! ## The owner check -/

def hasInstanceExpired (now : Nat) (i : Instance) : Bool :=
  decide (i.expiration ≠ 0) && decide (now + 20 ≥ i.expiration)

/-- The saved list, the active raid and the creator's group. -/
def groupCheck (plr : Player) (i : Instance) : OwnerCheck :=
  if plr.guid ∈ i.savedPlayers then .savedOk
  else if i.mapMgr.any MapMgr.hasPlayers ∧ plr.group ≠ none ∧ plr.group ≠ some i.creatorGroup then
    .wrongGroup
  else if i.creatorGuid ≠ plr.guid ∧ i.creatorGroup ≠ 0 ∧ plr.group ≠ some i.creatorGroup then
    .wrongGroup
  else .ok

/-- What `PlayerOwnsInstance` answers. -/
def ownerCheck (now : Nat) (plr : Player) (i : Instance) : OwnerCheck :=
  if hasInstanceExpired now i then .expired
  else
    match i.mapInfo with
    | none => .notExist
    | some inf =>
      if plr.triggerpassCheat then .triggerpass
      else if i.difficulty = 1 ∧ plr.iInstanceType = 0 then .difficult
      else if i.mapMgr.any (fun mgr => inf.playerlimit < mgr.playerCount) then .maxLimit
      else if i.mapMgr.isSome ∧ plr.level < inf.minlevel then .minLevel
      else if plr.group = none ∧ inf.type = .raid then .noGroup
      else groupCheck plr i

/-- `PlayerOwnsInstance`, which calls `_DeleteInstance` on an expired
instance. -/
def playerOwnsInstance (now : Nat) (plr : Player) (k : Nat) (i : Instance) (m : InstanceMap) :
    OwnerCheck × InstanceMap :=
  (ownerCheck now plr i, if hasInstanceExpired now i then m.erase k else m)

/-! ## `PreTeleport` -/

/-- What is answered before any instance is looked at. -/
def InstanceMgr.entryChecks (s : InstanceMgr) (mapid : Nat) (plr : Player) : Option Answer :=
  match s.mapInfo mapid with
  | none => some .notFound
  | some inf =>
    if mapid ≥ NUM_MAPS then some .notFound
    else if inf.type = .null then
      if (s.singleMaps mapid).isSome then some .ok else some .notFound
    else if inf.type = .pvp then some .notFound
    else if plr.triggerpassCheat then none
    else if plr.group = none ∧ (inf.type = .raid ∨ inf.type = .multimode) then
      some .notInRaidGroup
    else if plr.iInstanceType ≠ 0 ∧ inf.type ≠ .multimode then some .heroicModeNotAvailable
    else none

/-- "check the player count and in combat status." -/
def occupied (inf : MapInfo) (plr : Player) (i : Instance) : Option Answer :=
  match i.mapMgr with
  | none => none
  | some mgr =>
    if mgr.hasPlayers ∧ plr.triggerpassCheat = false then
      if mgr.isCombatInProgress then some .encounter
      else if mgr.playerCount ≥ inf.playerlimit then some .full
      else none
    else none

/-- "search all active instances and see if we have one here." -/
def scan (now : Nat) (inf : MapInfo) (plr : Player) :
    List (Sigma fun _ : Nat => Instance) → InstanceMap → Option Answer × InstanceMap
  | [], m => (none, m)
  | ⟨k, i⟩ :: rest, m =>
    match occupied inf plr i with
    | some answer => (some answer, m)
    | none =>
      match playerOwnsInstance now plr k i m with
      | (owns, m) => if owns.accepts then (some .ok, m) else scan now inf plr rest m

/-- `_CreateInstance(in)`. -/
def createInstance (k : Nat) (i : Instance) : Instance := { i with mapMgr := some ⟨k, 0⟩ }

/-- "wakeup call for saved instances". -/
def wakeup (plr : Player) (k : Nat) (i : Instance) : Instance :=
  createInstance k { i with creatorGroup := plr.group.getD i.creatorGroup }

/-- The instance that a player starts. -/
def newInstance (now : Nat) (inf : MapInfo) (plr : Player) (k : Nat) : Instance :=
  createInstance k
    { mapMgr := none, creatorGuid := plr.guid, creatorGroup := plr.group.getD 0
      difficulty := plr.iInstanceType, savedPlayers := []
      expiration := if inf.type = .nonraid then 0 else now + inf.cooldown, mapInfo := some inf }

namespace InstanceMgr

variable (s : InstanceMgr)

def setInstances (mapid : Nat) (m : InstanceMap) : InstanceMgr :=
  { s with instances := Function.update s.instances mapid (some m) }

/-- `instancemap->insert`, which leaves an entry that is there. -/
def insertNew (k : Nat) (i : Instance) (m : InstanceMap) : InstanceMap :=
  if k ∈ m then m else m.insert k i

/-- "if we're here, it means we need to create a new instance." -/
def startInstance (now mapid : Nat) (inf : MapInfo) (plr : Player) (m : InstanceMap) :
    Answer × InstanceMgr × Player :=
  (.ok,
    { s.setInstances mapid (insertNew s.instanceHigh (newInstance now inf plr s.instanceHigh) m) with
      instanceHigh := (s.instanceHigh + 1) % 2 ^ 32 },
    { plr with instanceId := s.instanceHigh })

/-- `PreTeleport` with an instance id. -/
def enterInstance (now mapid : Nat) (inf : MapInfo) (plr : Player) (k : Nat) (m : InstanceMap) :
    Answer × InstanceMgr × Player :=
  match m.lookup k with
  | none => (.notFound, s, plr)
  | some i =>
    match occupied inf plr i with
    | some answer => (answer, s, plr)
    | none =>
      match playerOwnsInstance now plr k i m with
      | (owns, m) =>
        if owns.accepts then
          if owns = .savedOk ∧ i.mapMgr = none then
            (.ok, s.setInstances mapid (m.replace k (wakeup plr k i)), plr)
          else (.ok, s.setInstances mapid m, plr)
        else (.notFound, s.setInstances mapid m, plr)

/-- `PreTeleport` without an instance id. -/
def findInstance (now mapid : Nat) (inf : MapInfo) (plr : Player) (m : InstanceMap) :
    Answer × InstanceMgr × Player :=
  match scan now inf plr m.entries m with
  | (some answer, m) => (answer, s.setInstances mapid m, plr)
  | (none, m) => s.startInstance now mapid inf plr m

def preTeleport (now mapid : Nat) (plr : Player) (instanceid : Nat) :
    Answer × InstanceMgr × Player :=
  match s.entryChecks mapid plr, s.mapInfo mapid with
  | some answer, _ => (answer, s, plr)
  | none, none => (.notFound, s, plr)
  | none, some inf =>
    match s.instances mapid with
    | some m =>
      if instanceid ≠ 0 then s.enterInstance now mapid inf plr instanceid m
      else s.findInstance now mapid inf plr m
    | none =>
      if instanceid ≠ 0 then (.notFound, s, plr)
      else s.startInstance now mapid inf plr ∅

/-- `_Relocate` to another map: what it writes after `INSTANCE_OK`. -/
def relocate (now mapid : Nat) (plr : Player) (instanceid : Nat) : InstanceMgr × Player :=
  match s.preTeleport now mapid plr instanceid with
  | (_, s, plr) =>
    (s, { plr with
      instanceId := if instanceid ≠ 0 then instanceid else plr.instanceId
      mapId := mapid })

/-! ## `GetInstance` -/

/-- "iterate over our instances, and see if any of them are owned". -/
def search (now : Nat) (plr : Player) :
    List (Sigma fun _ : Nat => Instance) → InstanceMap → Option MapMgr × InstanceMap
  | [], m => (none, m)
  | ⟨k, i⟩ :: rest, m =>
    match playerOwnsInstance now plr k i m with
    | (owns, m) =>
      if owns.accepts then
        match i.mapMgr with
        | none => ((createInstance k i).mapMgr, m.replace k (createInstance k i))
        | some mgr => (some mgr, m)
      else search now plr rest m

/-- `GetInstance` of a player, on the instances of his map. -/
def findMap (now : Nat) (plr : Player) (m : InstanceMap) : Option MapMgr × InstanceMap :=
  match m.lookup plr.instanceId with
  | none => search now plr m.entries m
  | some i =>
    match playerOwnsInstance now plr plr.instanceId i m with
    | (owns, m) =>
      if owns.accepts then
        if owns = .savedOk ∧ i.mapMgr = none then
          ((wakeup plr plr.instanceId i).mapMgr,
            m.replace plr.instanceId (wakeup plr plr.instanceId i))
        else (i.mapMgr, m)
      else search now plr m.entries m

def getInstance (now : Nat) (plr : Player) : Option MapMgr × InstanceMgr :=
  match s.mapInfo plr.mapId with
  | none => (none, s)
  | some inf =>
    if plr.mapId ≥ NUM_MAPS then (none, s)
    else if inf.type = .null then (s.singleMaps plr.mapId, s)
    else
      match s.instances plr.mapId with
      | none => (none, s)
      | some m =>
        match findMap now plr m with
        | (map, m) => (map, s.setInstances plr.mapId m)

end InstanceMgr

end HearthStone.InstanceEntry
