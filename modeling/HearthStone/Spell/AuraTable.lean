/-
HearthStone.Spell.AuraTable — the table of the auras of a unit, and what is
sent about it (`Unit.cpp`, `SpellAuras.cpp`).

The first 96 slots are those the clients know, 40 for helpful auras and 56
for the others; 192 more are hidden. A slot that was not given yet is 255.

* `Bearer` — the table, the auras it points to, and the updates sent.
* `remove` — `Aura::Remove`.
* `clash`, `scan` — what a new active aura does to those that are there.
* `addAura` — `Unit::AddAura`.
* `shown` — what a client shows that has seen all updates.

An aura is its number. Only the auras of one unit are looked at: what the
handlers of an aura, its triggered spells and its end bring about are
further steps. Whom `GetUnitCaster` finds, the aura states of the unit and
what the handlers make of `m_positive` are arguments of a step.
-/
import Mathlib

namespace HearthStone.AuraTable

def MAX_AURAS : Nat := 96
def MAX_POSITIVE_AURAS : Nat := 40
def MAX_PASSIVE_AURAS : Nat := 192

/-- `0xffffffff`, the slot of a new aura. -/
def NEW_SLOT : Nat := 4294967295

/-- The slot of an aura that has none. -/
def NO_SLOT : Nat := 255

structure SpellEntry where
  Id : UInt32
  maxstack : UInt32
  always_apply : Bool
  buffType : UInt32
  poison_type : UInt32
  NameHash : UInt32
  RankNumber : UInt32
  Unique : Bool
  /-- `Attributes & ATTRIBUTES_PASSIVE` -/
  passive : Bool
  /-- `AttributesEx & 1024` -/
  visual : Bool

structure Aura where
  m_spellProto : SpellEntry
  m_casterGuid : Nat
  pSpellId : UInt32
  m_areaAura : Bool
  m_positive : Int
  stackSize : UInt32
  procCharges : UInt32
  m_auraSlot : Nat
  m_applied : Bool
  m_added : Bool
  m_deleted : Bool

namespace Aura

def spellId (a : Aura) : UInt32 := a.m_spellProto.Id

def isPassive (a : Aura) : Bool := a.m_spellProto.passive && !a.m_areaAura

def isPositive (a : Aura) : Bool := decide (0 < a.m_positive)

/-- The number on the icon, a byte. -/
def stack (a : Aura) : UInt8 :=
  let stack := a.stackSize.toUInt8
  if stack.toUInt32 < a.procCharges ∧ stack ≠ 0 then a.procCharges.toUInt8 else stack

end Aura

/-- What a call finds around it. -/
structure Surroundings where
  /-- the units that `GetUnitCaster` finds -/
  found : Nat → Bool
  stack_cheat : Bool
  /-- an aura state is lacking, or one is there that must not -/
  lacksAuraState : Bool
  /-- what the handlers add to `m_positive` -/
  positive : Int
  /-- `GetMaxProcCharges` -/
  maxProcCharges : UInt32

/-- The table of a unit. -/
structure Bearer where
  m_auras : Nat → Option Nat
  aura : Nat → Option Aura
  /-- slot and spell of the updates, in their order -/
  sent : List (Nat × UInt32)

/-- What a client shows in a slot. -/
def shown (sent : List (Nat × UInt32)) : Nat → UInt32 :=
  sent.foldl (fun icons update => Function.update icons update.1 update.2) fun _ => 0

namespace Bearer

def start : Bearer := ⟨fun _ => none, fun _ => none, []⟩

def put (u : Bearer) (p : Nat) (a : Aura) : Bearer :=
  { u with aura := Function.update u.aura p (some a) }

/-- `BuildAuraUpdate`. -/
def buildAuraUpdate (u : Bearer) (a : Aura) : Bearer :=
  if a.spellId = 0 then u
  else
    { u with
      sent := u.sent ++ [(a.m_auraSlot % 256, if a.stack = 0 then 0 else a.spellId)] }

/-! ## Removal -/

def leaveSlot (u : Bearer) (p : Nat) (a : Aura) : Bearer :=
  if a.m_auraSlot < MAX_AURAS + MAX_PASSIVE_AURAS ∧ u.m_auras a.m_auraSlot = some p then
    { u with m_auras := Function.update u.m_auras a.m_auraSlot none }
  else u

/-- `Aura::Remove` of an aura that is not deleted. -/
def removeAura (u : Bearer) (p : Nat) (a : Aura) : Bearer :=
  let a := { a with m_deleted := true, stackSize := 0 }
  if !a.m_added then u.put p a
  else
    let u := if !a.isPassive || a.m_spellProto.visual then u.buildAuraUpdate a else u
    (u.leaveSlot p a).put p { a with m_applied := false }

/-- `Aura::Remove`. -/
def remove (u : Bearer) (p : Nat) : Bearer :=
  match u.aura p with
  | none => u
  | some a => if a.m_deleted then u else u.removeAura p a

/-! ## An active aura among the others -/

/-- The hashes of the four blessings, each with its greater one. -/
def blessings : List (UInt32 × UInt32) :=
  [(0x469BC36D, 0xEBC3D961), (0xDD5C4808, 0xD4475C39), (0xDFF6842E, 0x72AE9E22),
    (0x3E33A4A0, 0xBF5135B7)]

def ispair (info cur : SpellEntry) : Bool :=
  blessings.any fun b =>
    (info.NameHash == b.1 || info.NameHash == b.2) && (cur.NameHash == b.1 || cur.NameHash == b.2)

def SPELL_TYPE_BLESSING : UInt32 := 0x4
def SPELL_TYPE_AURA : UInt32 := 0x40

/-- `GetUnitCaster`. -/
def getUnitCaster (env : Surroundings) (a : Aura) : Option Nat :=
  if env.found a.m_casterGuid then some a.m_casterGuid else none

def sameCaster (env : Surroundings) (a b : Aura) : Bool :=
  decide (getUnitCaster env a = getUnitCaster env b)

def maxStack (env : Surroundings) (info : SpellEntry) : UInt32 :=
  if env.stack_cheat then 999 else info.maxstack

/-- What becomes of an aura when another one comes. -/
inductive Verdict
  | keep
  /-- the old one is removed -/
  | replace
  /-- the new one is deleted -/
  | refuse
  /-- the old one is renewed and the new one is deleted -/
  | refresh
deriving DecidableEq, Repr

def clash (env : Surroundings) (aur cur : Aura) : Verdict :=
  let info := aur.m_spellProto
  let old := cur.m_spellProto
  if old.Id ≠ info.Id ∧ aur.pSpellId ≠ old.Id then
    if 0 < info.buffType ∧ 0 < old.buffType ∧ info.buffType &&& old.buffType ≠ 0 then
      if old.buffType &&& SPELL_TYPE_BLESSING ≠ 0 then
        if sameCaster env cur aur || ispair info old then .replace else .keep
      else if old.buffType &&& SPELL_TYPE_AURA ≠ 0 then
        if sameCaster env cur aur ∨ old.NameHash = info.NameHash then .replace else .keep
      else .replace
    else if 0 < info.poison_type ∧ old.poison_type = info.poison_type then
      if old.RankNumber < info.RankNumber ∨ maxStack env info = 0 then .replace
      else if info.RankNumber < old.RankNumber then .refuse
      else .keep
    else if old.NameHash = info.NameHash then
      if sameCaster env cur aur then .replace
      else if old.Unique then
        if old.RankNumber < info.RankNumber then .replace else .refuse
      else .keep
    else .keep
  else if old.Id = info.Id then
    if !aur.isPositive && decide (cur.m_casterGuid ≠ aur.m_casterGuid) &&
        decide (maxStack env info = 0) && !info.Unique then .keep
    else .refresh
  else .keep

/-- `ModStackSize(1)`. -/
def modStackSize (u : Bearer) (env : Surroundings) (q : Nat) (cur : Aura) : Bearer :=
  let newStack := cur.stackSize + 1
  let most := maxStack env cur.m_spellProto
  if newStack = 0 ∨ 2 ^ 31 ≤ newStack.toNat then
    (u.put q { cur with stackSize := 0 }).remove q
  else if most ≤ newStack ∧ (cur.stackSize = most ∨ most = 0) then u
  else
    let cur := { cur with stackSize := if most < newStack then most else newStack }
    (u.buildAuraUpdate cur).put q { cur with m_applied := !env.lacksAuraState }

/-- The duration starts anew, which is announced, and the stack grows. -/
def refresh (u : Bearer) (env : Surroundings) (q : Nat) (cur : Aura) : Bearer :=
  let u := if cur.isPassive then u else u.buildAuraUpdate cur
  let cur := { cur with procCharges := env.maxProcCharges }
  (u.put q cur).modStackSize env q cur

/-- The walk over the visible slots; whether the new aura is to be deleted. -/
def scan (env : Surroundings) (aur : Aura) (u : Bearer) : List Nat → Bearer × Bool
  | [] => (u, false)
  | x :: xs =>
    match u.m_auras x with
    | none => scan env aur u xs
    | some q =>
      match u.aura q with
      | none => scan env aur u xs
      | some cur =>
        if cur.m_deleted then scan env aur u xs
        else
          match clash env aur cur with
          | .keep => scan env aur u xs
          | .replace => scan env aur (u.remove q) xs
          | .refuse => (u, true)
          | .refresh => (u.refresh env q cur, true)

/-! ## A new aura -/

/-- `ApplyModifiers(true)`. -/
def applyModifiers (env : Surroundings) (a : Aura) : Aura :=
  if env.lacksAuraState then { a with m_applied := false }
  else { a with m_applied := true, m_positive := a.m_positive + env.positive }

/-- The first of some slots that is free. -/
def firstFree (u : Bearer) (lo count : Nat) : Option Nat :=
  (List.range' lo count).find? fun x => (u.m_auras x).isNone

/-- The visible slot that is free for an aura. -/
def visibleSlot (u : Bearer) (a : Aura) : Option Nat :=
  if a.isPositive then u.firstFree 0 MAX_POSITIVE_AURAS
  else u.firstFree MAX_POSITIVE_AURAS (MAX_AURAS - MAX_POSITIVE_AURAS)

def hiddenSlot (u : Bearer) : Option Nat := u.firstFree MAX_AURAS MAX_PASSIVE_AURAS

/-- `AddAuraVisual`. -/
def addAuraVisual (u : Bearer) (a : Aura) : Bearer × Aura :=
  match u.visibleSlot a with
  | none => (u, a)
  | some slot =>
    let a := { a with m_auraSlot := slot }
    (u.buildAuraUpdate a, a)

/-- A slot is taken. -/
def take (u : Bearer) (x p : Nat) : Bearer :=
  { u with m_auras := Function.update u.m_auras x (some p) }

/-- The search for a hidden slot; without one the aura is removed again. -/
def hide (u : Bearer) (p : Nat) (a : Aura) : Bearer :=
  let (u, a) :=
    match u.hiddenSlot with
    | some x => (u.take x p, { a with m_auraSlot := x })
    | none => (u, a)
  if a.m_auraSlot = NO_SLOT then (u.put p a).remove p
  else u.put p { a with m_added := true }

/-- The aura gets its slot. -/
def place (u : Bearer) (p : Nat) (a : Aura) : Bearer :=
  if !a.isPassive then
    let (u, a) := u.addAuraVisual a
    if a.m_auraSlot = NO_SLOT then u.hide p a
    else (u.take a.m_auraSlot p).put p { a with m_added := true }
  else
    let (u, a) := if a.m_spellProto.visual then u.addAuraVisual a else (u, a)
    u.hide p a

/-- Whoever is in the slot an aura already has. -/
def evict (u : Bearer) (a : Aura) : Bearer :=
  if a.m_auraSlot ≠ NEW_SLOT then
    match u.m_auras a.m_auraSlot with
    | some q => u.remove q
    | none => u
  else u

/-- `AddAura`. -/
def addAura (u : Bearer) (env : Surroundings) (p : Nat) (a : Aura) : Bearer :=
  let (u, deleteAur) :=
    if a.isPassive || a.m_spellProto.always_apply then (u, false)
    else scan env a u (List.range MAX_AURAS)
  if deleteAur then u.put p { a with m_deleted := true }
  else (u.evict a).place p (applyModifiers env { a with m_auraSlot := NO_SLOT })

end Bearer

/-! ## Steps -/

/-- What happens to an aura of the unit. -/
inductive Op
  /-- a new one, as the constructor leaves it -/
  | create (p : Nat) (a : Aura)
  | addAura (p : Nat) (env : Surroundings)
  | remove (p : Nat)

/-- An aura as the constructor leaves it. -/
def Aura.IsNew (a : Aura) : Prop :=
  a.m_auraSlot = NEW_SLOT ∧ a.m_applied = false ∧ a.m_added = false ∧ a.m_deleted = false

instance (a : Aura) : Decidable a.IsNew := inferInstanceAs (Decidable (_ ∧ _ ∧ _ ∧ _))

/-- One step. An aura is added once, and not after it was deleted. -/
def Bearer.step (u : Bearer) : Op → Option Bearer
  | .create p a => if (u.aura p).isNone ∧ a.IsNew then some (u.put p a) else none
  | .addAura p env =>
    match u.aura p with
    | some a => if a.m_added || a.m_deleted then none else some (u.addAura env p a)
    | none => none
  | .remove p => some (u.remove p)

end HearthStone.AuraTable
