/-
HearthStone.Player.Reputation — the standings of a player, and the units in
range that count as enemies because of them (`ReputationHandler.cpp`).

* `reputationByListId` points into `m_reputation`: a pointer is the id of
  the faction whose entry it points to. An index from 128 on is not one of
  the array's, and an operation that writes there gives `none`.
* The float that `ModStanding` adds to a change is an argument of the call;
  sums of standings wrap.
* What is in range, what faction a unit has and which reactions are forced
  do not change here.

The packets and the mark for saving are left out.
-/
import Mathlib.Data.Finset.Basic
import Mathlib.Logic.Function.Basic

namespace HearthStone.Reputation

/-! ## Standings and flags -/

inductive Standing
  | hated
  | hostile
  | unfriendly
  | neutral
  | friendly
  | honored
  | revered
  | exalted
  deriving DecidableEq

def Standing.toNat : Standing → Nat
  | hated => 0
  | hostile => 1
  | unfriendly => 2
  | neutral => 3
  | friendly => 4
  | honored => 5
  | revered => 6
  | exalted => 7

def getReputationRankFromStanding (standing : Int32) : Standing :=
  if 42000 ≤ standing then .exalted
  else if 21000 ≤ standing then .revered
  else if 9000 ≤ standing then .honored
  else if 3000 ≤ standing then .friendly
  else if 0 ≤ standing then .neutral
  else if -3000 < standing then .unfriendly
  else if -6000 < standing then .hostile
  else .hated

/-- `GetReputationRankFromStanding(standing) <= STANDING_HOSTILE`. -/
def beyondHostile (standing : Int32) : Bool :=
  decide ((getReputationRankFromStanding standing).toNat ≤ Standing.hostile.toNat)

/-- `GetReputationRankFromStanding(standing) >= STANDING_NEUTRAL`. -/
def atLeastNeutral (standing : Int32) : Bool :=
  decide (Standing.neutral.toNat ≤ (getReputationRankFromStanding standing).toNat)

def atWar (flag : UInt8) : Bool := flag &&& 2 != 0

def visible (flag : UInt8) : Bool := flag &&& 1 != 0

/-- `FACTION_FLAG_HIDDEN`. -/
def hidden (flag : UInt8) : Bool := flag &&& 4 != 0

def setFlagAtWar (flag : UInt8) : UInt8 := if atWar flag then flag else flag ||| 2

def unsetFlagAtWar (flag : UInt8) : UInt8 := if atWar flag then flag &&& ~~~2 else flag

def setFlagVisible (flag : UInt8) : UInt8 := if visible flag then flag else flag ||| 1

def rankChangedFlat (standing newStanding : Int32) : Bool :=
  getReputationRankFromStanding standing ≠ getReputationRankFromStanding newStanding

def rankChanged (standing change : Int32) : Bool :=
  getReputationRankFromStanding standing ≠ getReputationRankFromStanding (standing + change)

/-! ## The player -/

structure FactionReputation where
  standing : Int32
  flag : UInt8
  baseStanding : Int32
  deriving DecidableEq

/-- The entry of a new faction. -/
def FactionReputation.fresh (value : Int32) : FactionReputation where
  standing := value
  flag := 0
  baseStanding := 0

structure FactionDBC where
  id : UInt32
  repListId : Int32
  deriving DecidableEq

/-- `dbcFaction`: an entry is found under its id. -/
structure FactionStore where
  lookupEntry : UInt32 → Option FactionDBC
  id_eq : ∀ faction dbc, lookupEntry faction = some dbc → dbc.id = faction

structure Player where
  reputation : UInt32 → Option FactionReputation
  reputationByListId : Fin 128 → Option UInt32
  listed : ∀ i faction, reputationByListId i = some faction → reputation faction ≠ none
  forcedReactions : UInt32 → Option UInt32
  objectsInRange : List Nat
  /-- `GetTypeId() == TYPEID_UNIT`. -/
  isUnit : Nat → Bool
  factionDBC : Nat → Option FactionDBC
  oppFactsInRange : Finset Nat

/-- A place of `reputationByListId`. -/
def place (repListId : Int32) : Option (Fin 128) :=
  if h : 0 ≤ repListId.toInt ∧ repListId.toInt < 128 then
    some ⟨repListId.toInt.toNat, by omega⟩
  else none

namespace Player

variable (p : Player)

/-- `reputationByListId[i]`, with what it points to. -/
def repAt (i : Fin 128) : Option FactionReputation := (p.reputationByListId i).bind p.reputation

/-- What an entry says of a faction when a reaction to it is forced or not. -/
def hostileBy (forced : Option UInt32) (rep : FactionReputation) : Bool :=
  match forced with
  | some reaction => decide (reaction ≤ 1)
  | none => atWar rep.flag || beyondHostile rep.standing

def isHostileBasedOnReputation (dbc : FactionDBC) : Bool :=
  match (place dbc.repListId).bind p.repAt with
  | none => false
  | some rep => hostileBy (p.forcedReactions dbc.id) rep

/-- The body of the loop of `UpdateInrangeSetsBasedOnReputation`. -/
def updateUnit (enemies : Finset Nat) (o : Nat) : Finset Nat :=
  if p.isUnit o = false then enemies
  else
    match p.factionDBC o with
    | none => enemies
    | some dbc =>
      if dbc.repListId < 0 then enemies
      else if p.isHostileBasedOnReputation dbc = true ∧ o ∉ enemies then insert o enemies
      else if p.isHostileBasedOnReputation dbc = false ∧ o ∈ enemies then enemies.erase o
      else enemies

def updateInrangeSetsBasedOnReputation : Player :=
  { p with oppFactsInRange := p.objectsInRange.foldl p.updateUnit p.oppFactsInRange }

/-- An entry that is there, or a new one, becomes `rep`. -/
def write (faction : UInt32) (rep : FactionReputation) : Player :=
  { p with
    reputation := Function.update p.reputation faction (some rep)
    listed := by
      intro i f hf
      by_cases h : f = faction
      · rw [h, Function.update_self]
        exact Option.some_ne_none rep
      · rw [Function.update_of_ne h]
        exact p.listed i f hf }

/-- `reputationByListId[i] = rep`, of an entry that is there. -/
def point (i : Fin 128) (faction : UInt32) (h : p.reputation faction ≠ none) : Player :=
  { p with
    reputationByListId := Function.update p.reputationByListId i (some faction)
    listed := by
      intro j f hf
      by_cases hj : j = i
      · rw [hj, Function.update_self] at hf
        exact Option.some.inj hf ▸ h
      · rw [Function.update_of_ne hj] at hf
        exact p.listed j f hf }

/-- The branch for a new faction, the same in `SetStanding` and
`ModStanding`. -/
def newFaction (dbc : FactionDBC) (value : Int32) : Option Player :=
  let q := p.write dbc.id (.fresh value)
  if 0 ≤ dbc.repListId then
    (place dbc.repListId).map fun i =>
      q.point i dbc.id (by simp [q, write])
  else some q

variable (dbcFaction : FactionStore)

def setStanding (faction : UInt32) (value : Int32) : Option Player :=
  match dbcFaction.lookupEntry faction with
  | none => some p
  | some dbc =>
    match p.reputation faction with
    | none => p.newFaction dbc value
    | some rep =>
      let q := p.write faction { rep with standing := value }
      let q := if rankChangedFlat rep.standing value then q.updateInrangeSetsBasedOnReputation else q
      let flag := setFlagVisible rep.flag
      let flag :=
        if beyondHostile value = true ∧ atWar flag = false then setFlagAtWar flag
        else if atLeastNeutral value = true ∧ atWar flag = true then unsetFlagAtWar flag
        else flag
      some (q.write faction { rep with standing := value, flag := flag })

/-- `bonus` is what the mod of the player adds, 0 without one. -/
def modStanding (faction : UInt32) (value bonus : Int32) : Option Player :=
  match dbcFaction.lookupEntry faction with
  | none => some p
  | some dbc =>
    match p.reputation faction with
    | none => p.newFaction dbc value
    | some rep =>
      let value := value + bonus
      let standing := rep.standing + value
      let q := p.write faction { rep with standing := standing }
      let q := if rankChanged rep.standing value then q.updateInrangeSetsBasedOnReputation else q
      let flag := setFlagVisible rep.flag
      let flag :=
        if beyondHostile standing = true ∧ atWar flag = false then setFlagAtWar flag else flag
      some (q.write faction { rep with standing := standing, flag := flag })

/-- The faction is given by its place in the list. -/
def setAtWar (listId : UInt32) (set : Bool) : Player :=
  if h : listId.toNat < 128 then
    match p.reputationByListId ⟨listId.toNat, h⟩ with
    | none => p
    | some faction =>
      match p.reputation faction with
      | none => p
      | some rep =>
        if beyondHostile rep.standing = true ∧ set = false then p
        else if hidden rep.flag then p
        else
          let flag := if set then setFlagAtWar rep.flag else unsetFlagAtWar rep.flag
          (p.write faction { rep with flag := flag }).updateInrangeSetsBasedOnReputation
  else p

inductive Call
  | setStanding (faction : UInt32) (value : Int32)
  | modStanding (faction : UInt32) (value bonus : Int32)
  | setAtWar (listId : UInt32) (set : Bool)
  deriving DecidableEq

def step : Call → Option Player
  | .setStanding faction value => p.setStanding dbcFaction faction value
  | .modStanding faction value bonus => p.modStanding dbcFaction faction value bonus
  | .setAtWar listId set => some (p.setAtWar listId set)

end Player

end HearthStone.Reputation
