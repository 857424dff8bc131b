/-
HearthStone.Creature.ThreatTable — whom a creature hates most
(`AIInterface.cpp`, `AIInterface.h`).

The table is an association list from units to threat. Where a new
entry stands among the others makes no difference below. `World` is what
the calls read of the units: it may change between one call and the
next.

* `addThreat` — an entry raised or inserted, with the test against the
  highest threat that follows it in four places.
* `hatedLoop` — the walk of `GetMostHated` and `GetSecondHated`, which
  deletes the units that are not valid.
* `leaveCombat` — what `EVENT_LEAVECOMBAT` does to the table.
* `step` — one call, or a change of the world.
-/
import Mathlib

namespace HearthStone.ThreatTable

/-- Arithmetic of `int32`. -/
def int32 (x : Int) : Int := Int.bmod x (2 ^ 32)

inductive AIState where
  | attacking | following | evade
  deriving DecidableEq

/-- What is read of the units. -/
structure World where
  /-- `m_Unit` -/
  self : Nat
  /-- `event_GetCurrentInstanceId` -/
  eventInstance : Nat → Int
  instanceId : Nat → Int
  isAlive : Nat → Bool
  /-- `isAttackable(m_Unit, unit)` -/
  isAttackable : Nat → Bool
  /-- `isHostile(m_Unit, unit)` -/
  isHostile : Nat → Bool
  threatModifier : Nat → Int
  /-- `mThreatRTarget` -/
  threatRTarget : Nat → Option Nat
  /-- `float2int32(mod * obj->mThreatRAmount)` -/
  partmod : Nat → Int → Int
  /-- `obj->GetDistanceSq(robj) < 1600` -/
  near : Nat → Nat → Bool

namespace World

variable (w : World)

/-- The units that `GetMostHated` does not delete. -/
def valid (unit : Nat) : Bool :=
  decide (w.eventInstance unit = w.eventInstance w.self) && w.isAlive unit && w.isAttackable unit

/-- The units that `GetSecondHated` does not delete. -/
def validSecond (unit : Nat) : Bool :=
  decide (w.instanceId unit = w.instanceId w.self) && w.isAlive unit && w.isAttackable unit

/-- Stored threat and the modifier of the unit. -/
def effective (unit : Nat) (threat : Int) : Int := int32 (threat + w.threatModifier unit)

end World

/-- `TargetMap`. -/
abbrev TargetMap := AList fun _ : Nat => Int

structure AIInterface where
  aiTargets : TargetMap
  currentHighestThreat : Int
  nextTarget : Option Nat
  isTaunted : Bool
  tauntedBy : Option Nat
  state : AIState
  isPet : Bool

namespace AIInterface

variable (w : World) (s : AIInterface)

def setNextTarget (target : Option Nat) : AIInterface := { s with nextTarget := target }

/-- `HandleEvent(EVENT_LEAVECOMBAT)`. -/
def leaveCombat : AIInterface :=
  if s.state = .evade then s
  else { s with
    aiTargets := ∅
    nextTarget := none
    state := if s.isPet then .following else .evade }

/-! ## Taunts -/

/-- A taunt ends with its caster. -/
def getIsTaunted : Bool × AIInterface :=
  if s.isTaunted ∧ (s.tauntedBy.any w.isAlive) = false then
    (false, { s with isTaunted := false, tauntedBy := none })
  else (s.isTaunted, s)

def getTauntedBy : Option Nat × AIInterface :=
  match s.getIsTaunted w with
  | (true, s) => (s.tauntedBy, s)
  | (false, s) => (none, s)

/-! ## The most hated -/

/-- The walk over the table: the targets left, the unit found with its
threat, and the highest threat. -/
def hatedLoop (ok : Nat → Bool) (skip : Option Nat) :
    List (Sigma fun _ : Nat => Int) → TargetMap → Option Nat × Int → Int →
      TargetMap × (Option Nat × Int) × Int
  | [], m, current, highest => (m, current, highest)
  | ⟨unit, threat⟩ :: rest, m, current, highest =>
    if ok unit then
      if w.effective unit threat > current.2 ∧ skip ≠ some unit then
        hatedLoop ok skip rest m (some unit, w.effective unit threat) (w.effective unit threat)
      else hatedLoop ok skip rest m current highest
    else hatedLoop ok skip rest (m.erase unit) current highest

/-- The walk from the start, and what it writes. -/
def walk (ok : Nat → Bool) (skip : Option Nat) : Option Nat × AIInterface :=
  let r := hatedLoop w ok skip s.aiTargets.entries s.aiTargets (none, -1) s.currentHighestThreat
  (r.2.1.1, { s with aiTargets := r.1, currentHighestThreat := r.2.2 })

def getMostHated : Option Nat × AIInterface :=
  match s.getTauntedBy w with
  | (some unit, s) => (some unit, s)
  | (none, s) => s.walk w w.valid none

def getSecondHated : Option Nat × AIInterface :=
  match s.getMostHated w with
  | (result, s) => s.walk w w.validSecond result

/-! ## Threat -/

def getThreatByPtr (obj : Nat) : Int := (s.aiTargets.lookup obj).getD 0

/-- The entry of `unit` after `mod` was added to it. -/
def threatAfter (unit : Nat) (mod : Int) : Int :=
  match s.aiTargets.lookup unit with
  | some threat => int32 (threat + mod)
  | none => mod

/-- An entry raised or inserted: over the highest threat, and without a
taunt, "new target!" -/
def addThreat (unit : Nat) (mod : Int) : AIInterface :=
  if s.currentHighestThreat < w.effective unit (s.threatAfter unit mod) ∧ s.isTaunted = false then
    { s with
      aiTargets := s.aiTargets.insert unit (s.threatAfter unit mod)
      currentHighestThreat := w.effective unit (s.threatAfter unit mod)
      nextTarget := some unit }
  else { s with aiTargets := s.aiTargets.insert unit (s.threatAfter unit mod) }

/-- The target is chosen anew; without one "we can walk back home". -/
def retarget : AIInterface :=
  match s.getMostHated w with
  | (some unit, s) => s.setNextTarget (some unit)
  | (none, s) => (s.setNextTarget none).leaveCombat

/-- Does a part of `mod` go to another unit? -/
def redirects (obj : Nat) (mod : Int) : Bool := (w.threatRTarget obj).isSome && decide (mod > 0)

/-- What is left of `mod` for `obj`. -/
def ownMod (obj : Nat) (mod : Int) : Int :=
  if redirects w obj mod then int32 (mod - w.partmod obj mod) else mod

/-- The unit that gets the part, if any does. -/
def redirected (obj : Nat) (mod : Int) : Option Nat :=
  if redirects w obj mod ∧ w.partmod obj mod ≠ 0 then
    (w.threatRTarget obj).filter fun robj => w.isAlive robj && w.near obj robj
  else none

/-- The first half of `modThreatByPtr`. -/
def redirectThreat (obj : Nat) (mod : Int) : AIInterface :=
  match redirected w obj mod with
  | some robj => s.addThreat w robj (w.partmod obj mod)
  | none => s

def modThreatByPtr (obj : Nat) (mod : Int) : AIInterface :=
  let s := (s.redirectThreat w obj mod).addThreat w obj (ownMod w obj mod)
  -- "check for a possible decrease in threat."
  if s.nextTarget = some obj ∧ ownMod w obj mod < 0 then s.retarget w else s

def removeThreatByPtr (obj : Nat) : AIInterface :=
  if obj ∈ s.aiTargets then
    if s.nextTarget = some obj then { s with aiTargets := s.aiTargets.erase obj }.retarget w
    else { s with aiTargets := s.aiTargets.erase obj }
  else s

/-! ## The whole list -/

/-- Every entry of the table set to `c`. -/
def setAll (c : Int) (m : TargetMap) : TargetMap where
  entries := m.entries.map fun e => ⟨e.1, c⟩
  nodupKeys := by
    have hkeys : (m.entries.map fun e => (⟨e.1, c⟩ : Sigma fun _ : Nat => Int)).keys =
        m.entries.keys := by simp [List.keys, Function.comp_def]
    rw [List.NodupKeys, hkeys]
    exact m.nodupKeys

def wipeHateList : AIInterface :=
  { s with aiTargets := setAll 0 s.aiTargets, currentHighestThreat := 0 }

/-- "without leaving combat" -/
def clearHateList : AIInterface :=
  { s with aiTargets := setAll 1 s.aiTargets, currentHighestThreat := 1 }

def wipeTargetList : AIInterface :=
  { s with nextTarget := none, currentHighestThreat := 0, aiTargets := ∅ }

/-! ## Taunt on and off -/

def tauntOn (caster : Option Nat) : AIInterface :=
  match s.getIsTaunted w, caster with
  | (true, s), _ => s
  | (false, s), none => { s with isTaunted := false }
  | (false, s), some unit =>
    { (if w.isHostile unit then
          s.modThreatByPtr w unit
            (int32 (|int32 (s.currentHighestThreat - s.getThreatByPtr unit)| + 1))
        else s) with
      isTaunted := true, tauntedBy := some unit }

def tauntOff : AIInterface :=
  match { s with isTaunted := false, tauntedBy := none }.getMostHated w with
  | (target, s) => s.setNextTarget target

/-! ## Units that are gone -/

/-- The unit leaves the table; if it was the target, "find the one with
the next highest threat". -/
def forget (unit : Nat) : AIInterface :=
  if s.nextTarget = some unit then
    ({ s with aiTargets := s.aiTargets.erase unit, nextTarget := none }.getMostHated w).2
  else { s with aiTargets := s.aiTargets.erase unit }

def checkTarget (target : Nat) : AIInterface :=
  let s := s.forget w target
  { s with tauntedBy := if s.tauntedBy = some target then none else s.tauntedBy }

end AIInterface

/-! ## Calls -/

inductive Call where
  | modThreatByPtr (obj : Nat) (mod : Int)
  | removeThreatByPtr (obj : Nat)
  | checkTarget (target : Nat)
  /-- `CheckTarget` of another creature, about this one -/
  | forget (unit : Nat)
  | tauntOn (caster : Option Nat)
  | tauntOff
  | getMostHated
  | getSecondHated
  | wipeHateList
  | clearHateList
  | wipeTargetList
  /-- units die, move, get another modifier -/
  | world (w : World)

/-- One call. -/
def step : World × AIInterface → Call → World × AIInterface
  | (w, s), .modThreatByPtr obj mod => (w, s.modThreatByPtr w obj mod)
  | (w, s), .removeThreatByPtr obj => (w, s.removeThreatByPtr w obj)
  | (w, s), .checkTarget target => (w, s.checkTarget w target)
  | (w, s), .forget unit => (w, s.forget w unit)
  | (w, s), .tauntOn caster => (w, s.tauntOn w caster)
  | (w, s), .tauntOff => (w, s.tauntOff w)
  | (w, s), .getMostHated => (w, (s.getMostHated w).2)
  | (w, s), .getSecondHated => (w, (s.getSecondHated w).2)
  | (w, s), .wipeHateList => (w, s.wipeHateList)
  | (w, s), .clearHateList => (w, s.clearHateList)
  | (w, s), .wipeTargetList => (w, s.wipeTargetList)
  | (_, s), .world w => (w, s)

end HearthStone.ThreatTable
