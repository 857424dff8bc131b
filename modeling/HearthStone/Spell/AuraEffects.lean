/-
HearthStone.Spell.AuraEffects — what some auras of a player do to him and
how it is undone (`SpellAuras.cpp`, `Unit.cpp`).

An aura holds modifiers. `ApplyModifiers` runs the handler of each, to
apply it or to undo it; a handler knows its own modifier and the player,
and nothing of his other auras.

* `float32`, `addFloat`, `subFloat` — the hit bonuses are of type `float`.
* `Target` — the fields of the player that the handlers change.
* `handle` — the handlers, by the type of the modifier.
* `Aura.ApplyModifiers` — one aura, applied or undone.
* `Auras.step` — the auras of a player come, are applied and undone, and go.

An aura state that the spell asks for and the player lacks, the shape of
the player and the look up of the caster are arguments of a step.
-/
import Mathlib

namespace HearthStone.AuraEffects

/-! ## Numbers of type `float` -/

/-- The whole number a `float` holds for `z`: 24 significant bits, to the
nearest, a tie to the even one. -/
def float32 (z : Int) : Int :=
  let unit := 2 ^ (z.natAbs.log2 - 23)
  let rest := z.natAbs % unit
  let q := z.natAbs / unit
  let q := if unit < 2 * rest ∨ (unit = 2 * rest ∧ q % 2 = 1) then q + 1 else q
  z.sign * (q * unit : Nat)

/-- A `float` and an `int32` are added. -/
def addFloat (v amount : Int) : Int := float32 (v + float32 amount)

def subFloat (v amount : Int) : Int := float32 (v - float32 amount)

example : float32 (-16777217) = -16777216 ∧ float32 16777219 = 16777220 := by decide +kernel

/-! ## Auras -/

/-- The types of modifiers; `other` stands for those that leave the fields
of `Target` alone. -/
inductive AuraName
  /-- `SPELL_AURA_MOD_HIT_CHANCE` -/
  | modHitChance
  /-- `SPELL_AURA_MOD_SPELL_HIT_CHANCE` -/
  | modSpellHitChance
  /-- `SPELL_AURA_MOD_DISARM` -/
  | modDisarm
  /-- `SPELL_AURA_MOD_SHIELD_BLOCKVALUE` -/
  | modBlockValue
  /-- `SPELL_AURA_SKIP_CAN_CAST_CHECK` -/
  | skipCanCastCheck
  /-- `SPELL_AURA_CAST_FILTER` -/
  | castFilter
  | other
deriving DecidableEq, Repr

structure Modifier where
  m_type : AuraName
  m_amount : Int
  /-- `EffectSpellClassMask[i]` of the spell, for the effect of this modifier -/
  mask : Fin 3 → UInt32

structure Aura where
  m_modList : List Modifier
  /-- `NameHash == SPELL_HASH_DISMANTLE` -/
  dismantle : Bool
  m_applied : Bool

/-- What the handlers find around them. -/
structure Surroundings where
  /-- an aura state is lacking, or one is there that must not -/
  lacksAuraState : Bool
  /-- `GetUnitCaster()` finds somebody -/
  casterFound : Bool
  /-- `IsInFeralForm()` -/
  feralForm : Bool

/-- The fields of a player that the handlers change. -/
@[ext]
structure Target where
  m_modblockvaluefromspells : UInt32
  m_hitfrommeleespell : Int
  m_hitfromspell : Int
  m_skipCastCheck : Fin 3 → UInt32
  m_castFilter : Fin 3 → UInt32
  m_castFilterEnabled : Bool
  disarmed : Bool
  disarmedShield : Bool
  /-- `UNIT_STATE_DISARMED` in `m_special_state` -/
  stateDisarmed : Bool
  /-- `UNIT_FLAG_DISARMED` in `UNIT_FIELD_FLAGS` -/
  flagDisarmed : Bool

/-- A player without auras. -/
def Target.base (block : UInt32) (melee spell : Int) : Target :=
  ⟨block, melee, spell, fun _ => 0, fun _ => 0, false, false, false, false, false⟩

/-! ## The handlers -/

/-- What is left of a bonus that is taken away: never less than nothing. -/
def takeHit (v amount : Int) : Int :=
  if subFloat v amount < 0 then 0 else subFloat v amount

/-- `SpellAuraModHitChance`. -/
def spellAuraModHitChance (apply : Bool) (mod : Modifier) (t : Target) : Target :=
  if apply then { t with m_hitfrommeleespell := addFloat t.m_hitfrommeleespell mod.m_amount }
  else { t with m_hitfrommeleespell := takeHit t.m_hitfrommeleespell mod.m_amount }

/-- `SpellAuraModSpellHitChance`. -/
def spellAuraModSpellHitChance (apply : Bool) (mod : Modifier) (t : Target) : Target :=
  if apply then { t with m_hitfromspell := addFloat t.m_hitfromspell mod.m_amount }
  else { t with m_hitfromspell := takeHit t.m_hitfromspell mod.m_amount }

/-- `SpellAuraModDisarm`. -/
def spellAuraModDisarm (env : Surroundings) (dismantle apply : Bool) (t : Target) : Target :=
  if apply then
    if env.feralForm then t
    else
      { t with
        disarmed := true
        disarmedShield := if dismantle then true else t.disarmedShield
        stateDisarmed := true
        flagDisarmed := true }
  else
    { t with
      disarmed := false
      disarmedShield := if dismantle then false else t.disarmedShield
      stateDisarmed := false
      flagDisarmed := false }

/-- `SpellAuraModBlockValue`; the sum is one of unsigned numbers. -/
def spellAuraModBlockValue (apply : Bool) (mod : Modifier) (t : Target) : Target :=
  let amt := if apply then mod.m_amount else -mod.m_amount
  { t with m_modblockvaluefromspells := t.m_modblockvaluefromspells + UInt32.ofInt amt }

/-- `SpellAuraSkipCanCastCheck`. -/
def spellAuraSkipCanCastCheck (env : Surroundings) (apply : Bool) (mod : Modifier) (t : Target) :
    Target :=
  if env.casterFound = false then t
  else if apply then
    { t with m_skipCastCheck := fun x => t.m_skipCastCheck x ||| mod.mask x }
  else
    { t with m_skipCastCheck := fun x => t.m_skipCastCheck x &&& ~~~mod.mask x }

/-- `SpellAuraCastFilter`. -/
def spellAuraCastFilter (apply : Bool) (mod : Modifier) (t : Target) : Target :=
  if apply then
    { t with
      m_castFilterEnabled := true
      m_castFilter := fun x => t.m_castFilter x ||| mod.mask x }
  else
    let left : Fin 3 → UInt32 := fun x => t.m_castFilter x &&& ~~~mod.mask x
    { t with
      m_castFilterEnabled := decide (∃ x, left x ≠ 0)
      m_castFilter := left }

/-- `SpellAuraHandler[mod->m_type]`. -/
def handle (env : Surroundings) (dismantle apply : Bool) (t : Target) (mod : Modifier) : Target :=
  match mod.m_type with
  | .modHitChance => spellAuraModHitChance apply mod t
  | .modSpellHitChance => spellAuraModSpellHitChance apply mod t
  | .modDisarm => spellAuraModDisarm env dismantle apply t
  | .modBlockValue => spellAuraModBlockValue apply mod t
  | .skipCanCastCheck => spellAuraSkipCanCastCheck env apply mod t
  | .castFilter => spellAuraCastFilter apply mod t
  | .other => t

namespace Aura

/-- The handlers of all modifiers, in their order. -/
def handleAll (env : Surroundings) (apply : Bool) (a : Aura) (t : Target) : Target :=
  a.m_modList.foldl (handle env a.dismantle apply) t

/-- `ApplyModifiers`. -/
def ApplyModifiers (env : Surroundings) (apply : Bool) (a : Aura) (t : Target) : Aura × Target :=
  if !a.m_applied && !apply then (a, t)
  else if apply && env.lacksAuraState then ({ a with m_applied := false }, t)
  else ({ a with m_applied := apply }, a.handleAll env apply t)

end Aura

/-! ## The auras of a player -/

structure Auras where
  target : Target
  auras : List Aura

/-- What happens to an aura of the player. -/
inductive Op
  /-- `AddAura` of a new one -/
  | add (m_modList : List Modifier) (dismantle : Bool) (env : Surroundings)
  /-- an aura that is not applied is tried again, after a change of an aura
  state or of the stack -/
  | apply (k : Nat) (env : Surroundings)
  /-- `RemoveIfNecessary`, `ModStackSize` -/
  | unapply (k : Nat) (env : Surroundings)
  /-- `Remove` -/
  | remove (k : Nat) (env : Surroundings)

namespace Auras

def start (block : UInt32) (melee spell : Int) : Auras := ⟨.base block melee spell, []⟩

def applied (s : Auras) : List Aura := s.auras.filter (·.m_applied)

/-- The applied auras but one. -/
def others (s : Auras) (k : Nat) : List Aura := (s.auras.eraseIdx k).filter (·.m_applied)

/-- An aura that is there is handed to `ApplyModifiers`. -/
def applyAt (s : Auras) (k : Nat) (a : Aura) (env : Surroundings) (apply : Bool) : Auras :=
  let (a, target) := a.ApplyModifiers env apply s.target
  ⟨target, s.auras.set k a⟩

/-- A new aura. -/
def addAura (s : Auras) (a : Aura) (env : Surroundings) : Auras :=
  let (a, target) := a.ApplyModifiers env true s.target
  ⟨target, a :: s.auras⟩

def removeAt (s : Auras) (k : Nat) (a : Aura) (env : Surroundings) : Auras :=
  ⟨(a.ApplyModifiers env false s.target).2, s.auras.eraseIdx k⟩

/-- One step. Whoever applies an aura has seen that it is not applied. -/
def step (s : Auras) : Op → Option Auras
  | .add m_modList dismantle env => some (s.addAura ⟨m_modList, dismantle, false⟩ env)
  | .apply k env =>
    match s.auras[k]? with
    | some a => if a.m_applied then none else some (s.applyAt k a env true)
    | none => none
  | .unapply k env =>
    match s.auras[k]? with
    | some a => some (s.applyAt k a env false)
    | none => none
  | .remove k env =>
    match s.auras[k]? with
    | some a => some (s.removeAt k a env)
    | none => none

end Auras

end HearthStone.AuraEffects
