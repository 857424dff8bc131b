/-
HearthStone.Creature.CombatStatus — who is in combat with whom
(`Unit.cpp`, `Unit.h`, `SpellAuras.cpp`, `Object.cpp`).

Every unit of a map has a handler with four sets: whom it attacks and
until when, who attacks it, whom it has healed and who has healed it. Each
relation is kept on both sides, and a flag says whether a unit is in
combat.

* `updateFlag` — the flag, and what follows when a unit leaves combat:
  its healers may leave, and theirs.
* `onDamageDealt`, `weHealed` — new opponents.
* `removeAttackTarget`, `forceRemoveAttacker`, `updateTargets` — opponents
  that are given up.
* `vanished` — a death, a removal from the world.
* `CombatMap.step` — one call, or a change of the units.

A unit is its guid; the low guid of a player is his guid. A walk of a set
is a walk of the set as it was at its beginning: what the walk does to
other units never changes it. Auras that deal damage over time are what
`IsAttacking` looks for and an argument here.
-/
import Mathlib

namespace HearthStone.CombatStatus

/-- `CombatStatusHandler`, with the flag that it shows on its unit. -/
structure Handler where
  attackers : List Nat
  healers : List Nat
  healed : List Nat
  /-- until when a target is one -/
  attackTargets : AList fun _ : Nat => UInt32
  lastStatus : Bool
  damageMap : AList fun _ : Nat => UInt32
  /-- `UNIT_FLAG_COMBAT` -/
  unitFlagCombat : Bool

namespace Handler

/-- The constructor. -/
def new : Handler := ⟨[], [], [], ∅, false, ∅, false⟩

def internalIsInCombat (h : Handler) : Bool :=
  !h.healed.isEmpty || !h.attackTargets.entries.isEmpty || !h.attackers.isEmpty

def eraseAttacker (guid : Nat) (h : Handler) : Handler :=
  { h with attackers := h.attackers.filter (· ≠ guid) }

def eraseHealer (guid : Nat) (h : Handler) : Handler :=
  { h with healers := h.healers.filter (· ≠ guid) }

def eraseHealed (guid : Nat) (h : Handler) : Handler :=
  { h with healed := h.healed.filter (· ≠ guid) }

def eraseTarget (guid : Nat) (h : Handler) : Handler :=
  { h with attackTargets := h.attackTargets.erase guid }

end Handler

/-- The units of a map. -/
structure CombatMap where
  /-- the units that `GetUnit` finds -/
  world : List Nat
  isPlayer : Nat → Bool
  isDead : Nat → Bool
  /-- `UNIXTIME` -/
  now : UInt32
  status : Nat → Handler

namespace CombatMap

def COMBAT_TIMEOUT_IN_SECONDS : UInt32 := 5

def modify (m : CombatMap) (u : Nat) (f : Handler → Handler) : CombatMap :=
  { m with status := Function.update m.status u (f (m.status u)) }

/-- `GetMapMgr()->GetPlayer(guid)` finds somebody. -/
def hasPlayer (m : CombatMap) (guid : Nat) : Bool := decide (guid ∈ m.world) && m.isPlayer guid

/-- `GetMapMgr()->GetUnit(guid)` finds somebody. -/
def hasUnit (m : CombatMap) (guid : Nat) : Bool := decide (guid ∈ m.world)

/-! ## The flag -/

/-- A walk of a set of units: each that is found is changed, and then its
flag is updated. -/
def sweep (flag : CombatMap → Nat → CombatMap) (find : CombatMap → Nat → Bool)
    (f : Handler → Handler) (m : CombatMap) (set : List Nat) : CombatMap :=
  set.foldl (fun m i => if find m i then flag (m.modify i f) i else m) m

/-- `ClearMyHealers`; each healer is told by `RemoveHealed`. -/
def clearMyHealers (flag : CombatMap → Nat → CombatMap) (m : CombatMap) (u : Nat) : CombatMap :=
  (sweep flag hasPlayer (.eraseHealed u) m (m.status u).healers).modify u
    fun h => { h with healers := [] }

/-- `UpdateFlag`. A unit that leaves combat calls it for its healers; the
first argument bounds how deep that goes. -/
def updateFlagIn : Nat → CombatMap → Nat → CombatMap
  | 0, m, _ => m
  | depth + 1, m, u =>
    let n_status := (m.status u).internalIsInCombat
    if n_status = (m.status u).lastStatus then m
    else
      let m := m.modify u fun h => { h with lastStatus := n_status, unitFlagCombat := n_status }
      if n_status then m else clearMyHealers (updateFlagIn depth) m u

/-- Nobody is left who could leave combat when every unit has. -/
def updateFlag (m : CombatMap) (u : Nat) : CombatMap := updateFlagIn (m.world.length + 1) m u

/-! ## Opponents -/

/-- `WeHealed`. -/
def weHealed (m : CombatMap) (u healTarget : Nat) : CombatMap :=
  if m.isPlayer healTarget = false ∨ m.isPlayer u = false ∨ healTarget = u then m
  else
    let m :=
      if (m.status healTarget).lastStatus then
        (m.modify u fun h => { h with healed := h.healed.insert healTarget }).modify healTarget
          fun h => { h with healers := h.healers.insert u }
      else m
    m.updateFlag u

/-- `IsAttacking`; `dots` are the auras of a unit on another. -/
def isAttacking (m : CombatMap) (dots : Nat → Nat → Bool) (u target : Nat) : Bool :=
  !(m.isDead u || m.isDead target) && dots u target

/-- `ForceRemoveAttacker`. -/
def forceRemoveAttacker (m : CombatMap) (u guid : Nat) : CombatMap :=
  if guid ∉ (m.status u).attackers then m
  else (m.modify u (.eraseAttacker guid)).updateFlag u

/-- `RemoveAttackTarget`. -/
def removeAttackTarget (m : CombatMap) (dots : Nat → Nat → Bool) (u target : Nat) : CombatMap :=
  match (m.status u).attackTargets.lookup target with
  | none => m
  | some time =>
    if m.isAttacking dots u target then m
    else if m.isDead target then
      ((m.modify u (.eraseTarget target)).modify target (.eraseAttacker u)).updateFlag u
    else
      let new_t := m.now + COMBAT_TIMEOUT_IN_SECONDS
      if time < new_t then
        m.modify u fun h => { h with attackTargets := h.attackTargets.insert target new_t }
      else m

/-- The sum of the damage that one unit has done. -/
def addDamage (u : Nat) (damage : UInt32) (h : Handler) : Handler :=
  match h.damageMap.lookup u with
  | none => { h with damageMap := h.damageMap.insert u damage }
  | some sum => { h with damageMap := h.damageMap.insert u (sum + damage) }

/-- `OnDamageDealt`; `inRange` is the test of the distance. -/
def onDamageDealt (m : CombatMap) (u target : Nat) (inRange : Bool) (damage : UInt32) :
    CombatMap :=
  if target = u then m
  else if m.isDead target then m
  else if inRange = false then m
  else
    let new_t := m.now + COMBAT_TIMEOUT_IN_SECONDS
    let m :=
      match (m.status u).attackTargets.lookup target with
      | some time =>
        if time < new_t then
          m.modify u fun h => { h with attackTargets := h.attackTargets.insert target new_t }
        else m
      | none =>
        let m := m.modify u fun h => { h with attackTargets := h.attackTargets.insert target new_t }
        let m := m.modify target fun h => { h with attackers := h.attackers.insert u }
        (m.updateFlag u).updateFlag target
    m.modify target (addDamage u damage)

/-- One turn of the loop of `UpdateTargets`. -/
def updateTarget (dots : Nat → Nat → Bool) (u : Nat) (m : CombatMap)
    (entry : Sigma fun _ : Nat => UInt32) : CombatMap :=
  if entry.2 ≤ m.now then
    if m.hasUnit entry.1 = false ∨ m.isDead entry.1 = true then m.modify u (.eraseTarget entry.1)
    else if m.isAttacking dots u entry.1 then m
    else ((m.modify entry.1 (.eraseAttacker u)).updateFlag entry.1).modify u (.eraseTarget entry.1)
  else m

/-- `UpdateTargets`. -/
def updateTargets (m : CombatMap) (dots : Nat → Nat → Bool) (u : Nat) : CombatMap :=
  ((m.status u).attackTargets.entries.foldl (updateTarget dots u) m).updateFlag u

/-! ## Leaving -/

/-- `ClearAttackers`. -/
def clearAttackers (m : CombatMap) (u : Nat) : CombatMap :=
  let m := sweep updateFlag hasUnit (.eraseAttacker u) m (m.status u).attackTargets.keys
  let m := sweep updateFlag hasUnit (.eraseTarget u) m (m.status u).attackers
  (m.modify u fun h => { h with attackers := [], attackTargets := ∅ }).updateFlag u

/-- `ClearHealers`. -/
def clearHealers (m : CombatMap) (u : Nat) : CombatMap :=
  let m := sweep updateFlag hasPlayer (.eraseHealer u) m (m.status u).healed
  let m := sweep updateFlag hasPlayer (.eraseHealed u) m (m.status u).healers
  (m.modify u fun h => { h with healed := [], healers := [] }).updateFlag u

/-- `Vanished`, `OnRemoveFromWorld`. -/
def vanished (m : CombatMap) (u : Nat) : CombatMap :=
  ((m.clearAttackers u).clearHealers u).modify u fun h => { h with damageMap := ∅ }

/-- `setDeathState`. -/
def setDeathState (m : CombatMap) (u : Nat) (dead : Bool) : CombatMap :=
  { m with isDead := Function.update m.isDead u dead }

/-- The end of `Aura::Remove`, of an aura that `caster` has put on `target`. -/
def auraRemoved (m : CombatMap) (dots : Nat → Nat → Bool) (target caster : Nat) : CombatMap :=
  if m.hasUnit caster then
    if caster ≠ target then
      let m := m.removeAttackTarget dots caster target
      if m.isDead caster then m.forceRemoveAttacker target caster else m
    else m
  else m.forceRemoveAttacker target caster

/-- A death in `DealDamage`: its auras are removed, then it has vanished. -/
def die (m : CombatMap) (dots : Nat → Nat → Bool) (u : Nat) (casters : List Nat) : CombatMap :=
  (casters.foldl (fun m caster => m.auraRemoved dots u caster) (m.setDeathState u true)).vanished u

/-- `RemoveFromWorld`. -/
def removeFromWorld (m : CombatMap) (u : Nat) : CombatMap :=
  let m := m.vanished u
  { m with world := m.world.filter (· ≠ u) }

/-- A unit comes into the map. Pets are made with the flag
(`UNIT_FLAG_PLAYER_CONTROLLED | UNIT_FLAG_COMBAT`). -/
def pushToWorld (m : CombatMap) (u : Nat) (preset : Bool) : CombatMap :=
  { m.modify u fun h => { h with unitFlagCombat := h.unitFlagCombat || preset } with
    world := u :: m.world }

/-! ## Steps -/

inductive Op
  | onDamageDealt (u target : Nat) (inRange : Bool) (damage : UInt32)
  | weHealed (u healTarget : Nat)
  | removeAttackTarget (dots : Nat → Nat → Bool) (u target : Nat)
  | forceRemoveAttacker (u guid : Nat)
  | updateTargets (dots : Nat → Nat → Bool) (u : Nat)
  | auraRemoved (dots : Nat → Nat → Bool) (target caster : Nat)
  | die (dots : Nat → Nat → Bool) (u : Nat) (casters : List Nat)
  | setDeathState (u : Nat) (dead : Bool)
  | vanished (u : Nat)
  | removeFromWorld (u : Nat)
  | pushToWorld (u : Nat) (preset : Bool)
  | tick (now : UInt32)

/-- One step; units that call and units that are passed are in the map. -/
def step (m : CombatMap) : Op → Option CombatMap
  | .onDamageDealt u target inRange damage =>
    if u ∈ m.world ∧ target ∈ m.world then some (m.onDamageDealt u target inRange damage) else none
  | .weHealed u healTarget =>
    if u ∈ m.world ∧ healTarget ∈ m.world then some (m.weHealed u healTarget) else none
  | .removeAttackTarget dots u target =>
    if u ∈ m.world ∧ target ∈ m.world then some (m.removeAttackTarget dots u target) else none
  | .forceRemoveAttacker u guid =>
    if u ∈ m.world then some (m.forceRemoveAttacker u guid) else none
  | .updateTargets dots u => if u ∈ m.world then some (m.updateTargets dots u) else none
  | .auraRemoved dots target caster =>
    if target ∈ m.world then some (m.auraRemoved dots target caster) else none
  | .die dots u casters => if u ∈ m.world then some (m.die dots u casters) else none
  | .setDeathState u dead => some (m.setDeathState u dead)
  | .vanished u => if u ∈ m.world then some (m.vanished u) else none
  | .removeFromWorld u => if u ∈ m.world then some (m.removeFromWorld u) else none
  | .pushToWorld u preset => if u ∈ m.world then none else some (m.pushToWorld u preset)
  | .tick now => some { m with now }

/-- A map without units. -/
def start (isPlayer : Nat → Bool) (now : UInt32) : CombatMap :=
  ⟨[], isPlayer, fun _ => false, now, fun _ => .new⟩

end CombatMap

end HearthStone.CombatStatus
