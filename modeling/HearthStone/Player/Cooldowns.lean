/-
HearthStone.Player.Cooldowns — the cooldowns of a player (`Player.cpp`).

A cooldown is kept for a category or for a spell, with the millisecond at
which it ends. The clock is a `uint32`, and an argument of every call. Apart
from the maps there is one global cooldown.

The cast speed is a float: of it the model has what the code computes with
it. The rows of `playercooldowns` are kept as they are written.

* `Cooldown_AddStart`, `Cooldown_OnCancel` — the start of a cast and its end.
* `Cooldown_CanCast` — the answer, and the state without what has run out.
* `_SavePlayerCooldowns`, `_LoadPlayerCooldowns` — to unix time and back.
-/
import HearthStone.Shared.Field
import HearthStone.Spell.Modifiers

namespace HearthStone.Cooldowns

open Database SpellModifiers

structure PlayerCooldown where
  ExpireTime : UInt32
  ItemId : UInt32
  SpellId : UInt32
  deriving DecidableEq

/-- `PlayerCooldownMap`. -/
abbrev PlayerCooldownMap := AList fun _ : UInt32 => PlayerCooldown

inductive CooldownType
  | spell
  | category
  deriving DecidableEq

/-- `COOLDOWN_TYPE_SPELL` and `COOLDOWN_TYPE_CATEGORY`. -/
def CooldownType.index : CooldownType → UInt32
  | .spell => 0
  | .category => 1

structure SpellEntry where
  Id : UInt32
  Category : UInt32
  StartRecoveryCategory : UInt32
  StartRecoveryTime : UInt32
  SpellGroupType : GroupType

/-- What is computed with `m_floatValues[UNIT_MOD_CAST_SPEED]`. -/
structure CastSpeed where
  /-- `>= 1.0f` -/
  atLeastOne : Bool
  /-- `float2int32( float(x) * speed )` -/
  scaled : UInt32 → Int32

structure Player where
  m_cooldownMap : CooldownType → PlayerCooldownMap
  m_globalCooldown : UInt32
  CooldownCheat : Bool
  castSpeed : CastSpeed
  /-- `SM[SMT_GLOBAL_COOLDOWN]` -/
  globalCooldown : ModifierPair

namespace Player

variable (p : Player)

def setMap (type : CooldownType) (m : PlayerCooldownMap) : Player :=
  { p with m_cooldownMap := Function.update p.m_cooldownMap type m }

def _Cooldown_Add (type : CooldownType) (misc time spellId itemId : UInt32) : Player :=
  match (p.m_cooldownMap type).lookup misc with
  | some cd =>
    if cd.ExpireTime < time then
      p.setMap type ((p.m_cooldownMap type).insert misc ⟨time, itemId, spellId⟩)
    else p
  | none => p.setMap type ((p.m_cooldownMap type).insert misc ⟨time, itemId, spellId⟩)

/-- `atime` of `Cooldown_AddStart`. -/
def startTime (sp : SpellEntry) : Int32 :=
  p.globalCooldown.apply sp.SpellGroupType
    (if p.castSpeed.atLeastOne then sp.StartRecoveryTime.toInt32
    else p.castSpeed.scaled sp.StartRecoveryTime)

def Cooldown_AddStart (mstime : UInt32) (sp : SpellEntry) : Player :=
  if sp.StartRecoveryTime = 0 ∨ p.CooldownCheat then p
  else if p.startTime sp ≤ 0 then p
  else if sp.StartRecoveryCategory ≠ 0 ∧ sp.StartRecoveryCategory ≠ 133 then
    p._Cooldown_Add .category sp.StartRecoveryCategory (mstime + (p.startTime sp).toUInt32) sp.Id 0
  else { p with m_globalCooldown := mstime + (p.startTime sp).toUInt32 }

/-- `atime` of `Cooldown_OnCancel`. -/
def cancelTime (sp : SpellEntry) : Int32 := p.castSpeed.scaled sp.StartRecoveryTime

def Cooldown_OnCancel (mstime : UInt32) (sp : SpellEntry) : Player :=
  if sp.StartRecoveryTime = 0 ∨ p.CooldownCheat then p
  else if p.cancelTime sp ≤ 0 then p
  else if sp.StartRecoveryCategory ≠ 0 then
    p.setMap .category ((p.m_cooldownMap .category).erase sp.StartRecoveryCategory)
  else { p with m_globalCooldown := mstime }

/-- A look into a map: `false` while the cooldown runs, and one that has run
out is deleted. -/
def checkMap (type : CooldownType) (misc mstime : UInt32) : Bool × Player :=
  match (p.m_cooldownMap type).lookup misc with
  | some cd =>
    if mstime < cd.ExpireTime then (false, p)
    else (true, p.setMap type ((p.m_cooldownMap type).erase misc))
  | none => (true, p)

/-- The global cooldown, which only spells with a start recovery time heed. -/
def checkGlobal (sp : SpellEntry) (mstime : UInt32) : Bool × Player :=
  if sp.StartRecoveryTime ≠ 0 ∧ p.m_globalCooldown ≠ 0 then
    if mstime < p.m_globalCooldown then (false, p) else (true, { p with m_globalCooldown := 0 })
  else (true, p)

/-- A check behind another one, which is left out when that returned `false`. -/
def andThen (r : Bool × Player) (check : Player → Bool × Player) : Bool × Player :=
  if r.1 then check r.2 else r

def Cooldown_CanCast (mstime : UInt32) (sp : SpellEntry) : Bool × Player :=
  if p.CooldownCheat then (true, p)
  else
    andThen
      (andThen (if sp.Category ≠ 0 then p.checkMap .category sp.Category mstime else (true, p))
        fun p => p.checkMap .spell sp.Id mstime)
      fun p => p.checkGlobal sp mstime

end Player

/-! ## Rows -/

/-- A row of `playercooldowns`. -/
structure Row where
  player_guid : UInt32
  cooldown_type : UInt32
  cooldown_misc : UInt32
  cooldown_expire_time : UInt32
  cooldown_spellid : UInt32
  cooldown_itemid : UInt32

/-- The columns that `LoadFromDB` asks for, `SELECT cooldown_type,
cooldown_misc, cooldown_expire_time, cooldown_spellid, cooldown_itemid`. -/
def Row.select (row : Row) : List Literal :=
  [.number row.cooldown_type.toNat, .number row.cooldown_misc.toNat,
   .number row.cooldown_expire_time.toNat, .number row.cooldown_spellid.toNat,
   .number row.cooldown_itemid.toNat]

/-- The walk of `_SavePlayerCooldowns` over one map: what is left of it, and
the rows. `unixtime` is `(uint32)UNIXTIME`. -/
def saveLoop (guid mstime unixtime : UInt32) (type : CooldownType) :
    List (Sigma fun _ : UInt32 => PlayerCooldown) → PlayerCooldownMap → PlayerCooldownMap × List Row
  | [], m => (m, [])
  | ⟨misc, cd⟩ :: rest, m =>
    -- "expired ones - no point saving, nor keeping them around, wipe em"
    if mstime ≥ cd.ExpireTime then saveLoop guid mstime unixtime type rest (m.erase misc)
    -- "skip small cooldowns"
    else if cd.ExpireTime - mstime < 10000 then saveLoop guid mstime unixtime type rest m
    else
      let r := saveLoop guid mstime unixtime type rest m
      (r.1, ⟨guid, type.index, misc, (cd.ExpireTime - mstime) / 1000 + unixtime, cd.SpellId,
        cd.ItemId⟩ :: r.2)

/-- The rows of both maps behind those of other players. -/
def _SavePlayerCooldowns (guid mstime : UInt32) (unixtime : Nat) (p : Player) (table : List Row) :
    Player × List Row :=
  let walk := fun type => saveLoop guid mstime (UInt32.ofNat unixtime) type
    (p.m_cooldownMap type).entries (p.m_cooldownMap type)
  ({ p with m_cooldownMap := fun type => (walk type).1 },
    table.filter (fun row => row.player_guid ≠ guid) ++ (walk .spell).2 ++ (walk .category).2)

/-- `m_cooldownMap[type].insert( make_pair( misc, cd ) )`, which does not
overwrite. -/
def insertNew (m : PlayerCooldownMap) (misc : UInt32) (cd : PlayerCooldown) : PlayerCooldownMap :=
  if misc ∈ m then m else m.insert misc cd

/-- A type as the row has it. -/
def typeOf (type : UInt32) : Option CooldownType :=
  if type = 0 then some .spell else if type = 1 then some .category else none

/-- One round of `_LoadPlayerCooldowns`. -/
def loadRow (mstime unixtime : UInt32) (maps : CooldownType → PlayerCooldownMap)
    (fetch : Nat → Field) : CooldownType → PlayerCooldownMap :=
  match typeOf (fetch 0).GetUInt32 with
  | none => maps
  | some type =>
    let rtime := (fetch 2).GetUInt32
    if unixtime > rtime then maps
    else if rtime - unixtime < 10 then maps
    else Function.update maps type (insertNew (maps type) (fetch 1).GetUInt32
      ⟨mstime + (rtime - unixtime) * 1000, (fetch 4).GetUInt32, (fetch 3).GetUInt32⟩)

/-- `_LoadPlayerCooldowns`, of a player who has just logged in. -/
def _LoadPlayerCooldowns (guid mstime : UInt32) (unixtime : Nat) (table : List Row) :
    CooldownType → PlayerCooldownMap :=
  ((table.filter fun row => row.player_guid = guid).map fun row => returnedRow row.select).foldl
    (loadRow mstime (UInt32.ofNat unixtime)) fun _ => ∅

end HearthStone.Cooldowns
