/-
HearthStone.Spell.PowerCost — what a spell costs, as it is checked and as it is
charged (`Spell::HasPower`, `Spell::TakePower`).

The caster is a unit that is no trainer and does not cheat, the spell does not
come from an item and has no rune cost. The two functions compute the cost
twice, and differ in the order of the steps. `none` is a null pointer
dereferenced.
-/
import HearthStone.Spell.Modifiers

namespace HearthStone.PowerCost

open SpellModifiers

/-- `UNIT_FIELD_HEALTH` and the `UNIT_FIELD_POWER` fields spells are paid from. -/
inductive Field where
  | health | mana | rage | focus | energy | runic
  deriving DecidableEq, Repr

inductive PowerType where
  | field (f : Field)
  | rune
  | unknown

/-- The `switch` over `powerType`. -/
def PowerType.of (powerType : UInt32) : PowerType :=
  match powerType.toInt32.toInt with
  | -2 => .field .health
  | 0 => .field .mana
  | 1 => .field .rage
  | 2 => .field .focus
  | 3 => .field .energy
  | 5 => .rune
  | 6 => .field .runic
  | _ => .unknown

theorem schools_pos : 0 < 7 := Nat.succ_pos 6

structure SpellEntry where
  powerType : UInt32
  School : Fin 7
  baseLevel : UInt32
  SpellGroupType : GroupType
  /-- `ATTRIBUTESEX_DRAIN_WHOLE_MANA`. -/
  drainsWholeMana : Bool
  /-- `NameHash == SPELL_HASH_SHIV`. -/
  shiv : Bool

structure Unit where
  value : Field → UInt32
  /-- The `UNIT_FIELD_MAXPOWER` fields. -/
  maximum : Field → UInt32
  PowerCostMod : Fin 7 → Int32
  /-- `float2int32(cost * UNIT_FIELD_POWER_COST_MULTIPLIER)` of a school. -/
  costMultiplied : Fin 7 → Int32 → Int32
  /-- `SM[SMT_COST]`. -/
  SM_COST : ModifierPair
  /-- `Delay / 100` of the offhand item, `0` without one; only a player has the slot. -/
  offhand : Option UInt32
  isAlive : Bool
  IsInWorld : Bool
  GodModeCheat : Bool
  IsSpiritHealer : Bool
  isCritter : Bool
  /-- What is left of a damage after `DoDamageSplitTarget`, if that is active. -/
  split : UInt32 → UInt32
  /-- The fields after a hit that would kill. -/
  dying : UInt32 → Field → UInt32

variable (u : Unit) (sp : SpellEntry) (f : Field)

/-- `SetUInt32Value`. -/
def Unit.set (v : UInt32) : Unit := { u with value := Function.update u.value f v }

def Unit.SetPower (value : Int32) : Unit :=
  u.set f (if value < 0 then 0
    else if value > (u.maximum f).toInt32 then u.maximum f
    else value.toUInt32)

/-- `DealDamage` of a unit to itself. -/
def Unit.DealDamage (damage : UInt32) : Unit :=
  if !u.isAlive || !u.IsInWorld || u.GodModeCheat || u.IsSpiritHealer then u
  else if u.isCritter || u.value .health ≤ u.split damage then
    { u with value := u.dying (u.split damage) }
  else u.set .health (u.value .health - u.split damage)

/-- `PowerCostMod` and the multiplier. -/
def Unit.modified (cost : Int32) : Int32 :=
  let cost := cost + u.PowerCostMod (if f = .mana then sp.School else ⟨0, schools_pos⟩)
  cost + u.costMultiplied sp.School cost

/-- The cost in `HasPower` up to its free-spell test, from `GetSpellBaseCost`. -/
def Unit.checkedCost (base : Int32) : Int32 :=
  u.SM_COST.apply sp.SpellGroupType
    (if f = .health then base - sp.baseLevel.toInt32 else u.modified sp f base)

/-- The cost in `TakePower` up to "Stupid shiv". -/
def Unit.chargedCost (base : Int32) : Int32 :=
  let cost := u.modified sp f base
  u.SM_COST.apply sp.SpellGroupType (if f = .health then cost - sp.baseLevel.toInt32 else cost)

/-- "Stupid shiv". -/
def Unit.delay : Option Int32 :=
  if sp.shiv then u.offhand.map UInt32.toInt32 else some 0

def Unit.HasPower (base : Int32) : Option Bool :=
  match PowerType.of sp.powerType with
  | .rune => some true
  | .unknown => some false
  | .field f =>
    let cost := u.checkedCost sp f base
    if cost ≤ 0 then some true
    else (u.delay sp).map fun d => f = .health || cost + d ≤ (u.value f).toInt32

def Unit.TakePower (base : Int32) : Option (Bool × Unit) :=
  match PowerType.of sp.powerType with
  | .rune => some (true, u)
  | .unknown => some (false, u)
  | .field f =>
    if sp.drainsWholeMana then some (true, u.set f 0)
    else (u.delay sp).map fun d =>
      let cost := u.chargedCost sp f base + d
      if cost ≤ 0 then (true, u)
      else if f = .health then (true, u.DealDamage cost.toUInt32)
      else if cost ≤ (u.value f).toInt32 then
        (true, u.SetPower f ((u.value f).toInt32 - cost))
      else (false, u)

/-- The cost `HasPower` answers by: a free spell is not delayed. -/
def Unit.costOfHasPower (base : Int32) : Option Int32 :=
  if u.checkedCost sp f base ≤ 0 then some (u.checkedCost sp f base)
  else (u.delay sp).map (u.checkedCost sp f base + ·)

def Unit.costOfTakePower (base : Int32) : Option Int32 :=
  (u.delay sp).map (u.chargedCost sp f base + ·)

end HearthStone.PowerCost
