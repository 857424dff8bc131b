/-
HearthStone.Spell.AuraEffectsTheorems — the fields of a player are those of
his applied auras.

Each field is changed by the modifiers of one type only, so what a whole
aura does to a field is a fold over its modifiers of that type (`field_all`).
`Shows base l t` says what `t` owes to the auras `l`; it does not depend on
their order.

Applying adds what is owed unless the float sum is rounded, the caster is
not found or the shape forbids it. Undoing takes it away unless a bonus
falls below zero or another aura still needs a bit or a flag.

* `Shows.handleAll` — one more aura.
* `Shows.undo` — one aura less.
* `Auras.effects_run` — along a run.
-/
import HearthStone.Lib.Masks
import HearthStone.Lib.Run
import HearthStone.Spell.AuraEffects

namespace HearthStone.AuraEffects

open Lib

/-! ## What auras ask for -/

namespace Aura

/-- The modifiers of one type. -/
def ofType (kind : AuraName) (a : Aura) : List Modifier :=
  a.m_modList.filter fun mod => decide (mod.m_type = kind)

def amounts (kind : AuraName) (a : Aura) : List Int := (a.ofType kind).map (·.m_amount)

def masks (kind : AuraName) (x : Fin 3) (a : Aura) : List UInt32 :=
  (a.ofType kind).map (·.mask x)

def has (kind : AuraName) (a : Aura) : Bool := !(a.ofType kind).isEmpty

end Aura

/-- The sum of the amounts of some auras. -/
def total (kind : AuraName) (l : List Aura) : Int := (l.flatMap (Aura.amounts kind)).sum

/-- The class masks of some auras. -/
def allMasks (kind : AuraName) (x : Fin 3) (l : List Aura) : List UInt32 :=
  l.flatMap (Aura.masks kind x)

/-- What a player owes to the auras `l`. -/
structure Shows (base : Target) (l : List Aura) (t : Target) : Prop where
  block : t.m_modblockvaluefromspells =
    base.m_modblockvaluefromspells + UInt32.ofInt (total .modBlockValue l)
  melee : t.m_hitfrommeleespell = base.m_hitfrommeleespell + total .modHitChance l
  spell : t.m_hitfromspell = base.m_hitfromspell + total .modSpellHitChance l
  skip : ∀ x, t.m_skipCastCheck x = Masks.union (allMasks .skipCanCastCheck x l)
  filter : ∀ x, t.m_castFilter x = Masks.union (allMasks .castFilter x l)
  enabled : t.m_castFilterEnabled = l.any (Aura.has .castFilter)
  disarmed : t.disarmed = l.any (Aura.has .modDisarm)
  shield : t.disarmedShield = l.any fun a => a.dismantle && a.has .modDisarm
  state : t.stateDisarmed = l.any (Aura.has .modDisarm)
  flag : t.flagDisarmed = l.any (Aura.has .modDisarm)

variable {base t : Target} {a : Aura} {l l' rest : List Aura} {env : Surroundings}
  {kind : AuraName} {apply : Bool} {v : Int} {as : List Int} {x : Fin 3}

@[simp] theorem total_cons : total kind (a :: l) = (a.amounts kind).sum + total kind l := by
  simp [total]

@[simp] theorem allMasks_cons : allMasks kind x (a :: l) = a.masks kind x ++ allMasks kind x l := by
  simp [allMasks]

theorem Shows.perm (h : Shows base l t) (hperm : l.Perm l') : Shows base l' t := by
  have hsum (kind : AuraName) : total kind l = total kind l' :=
    (hperm.flatMap_right _).sum_eq
  have hmask (kind : AuraName) (x : Fin 3) :
      Masks.union (allMasks kind x l) = Masks.union (allMasks kind x l') :=
    Masks.union_perm (hperm.flatMap_right _)
  have hany (p : Aura → Bool) : l.any p = l'.any p := hperm.any_eq
  exact {
    block := by rw [h.block, hsum]
    melee := by rw [h.melee, hsum]
    spell := by rw [h.spell, hsum]
    skip := fun x => by rw [h.skip, hmask]
    filter := fun x => by rw [h.filter, hmask]
    enabled := by rw [h.enabled, hany]
    disarmed := by rw [h.disarmed, hany]
    shield := by rw [h.shield, hany]
    state := by rw [h.state, hany]
    flag := by rw [h.flag, hany] }

/-- Without applied auras every field has its base value. -/
theorem Shows.eq_base {block : UInt32} {melee spell : Int}
    (h : Shows (.base block melee spell) [] t) : t = .base block melee spell := by
  refine Target.ext (h.block.trans (UInt32.add_zero _)) (h.melee.trans (Int.add_zero _))
    (h.spell.trans (Int.add_zero _)) (funext h.skip) (funext h.filter) ?_ ?_ ?_ ?_ ?_
  · exact h.enabled
  · exact h.disarmed
  · exact h.shield
  · exact h.state
  · exact h.flag

/-! ## One field after all handlers -/

/-- What one handler does, field by field. -/
structure Handled (env : Surroundings) (dismantle apply : Bool) (mod : Modifier) (t t' : Target) :
    Prop where
  block : t'.m_modblockvaluefromspells =
    if mod.m_type = .modBlockValue then
      if apply then t.m_modblockvaluefromspells + UInt32.ofInt mod.m_amount
      else t.m_modblockvaluefromspells + UInt32.ofInt (-mod.m_amount)
    else t.m_modblockvaluefromspells
  melee : t'.m_hitfrommeleespell =
    if mod.m_type = .modHitChance then
      if apply then addFloat t.m_hitfrommeleespell mod.m_amount
      else takeHit t.m_hitfrommeleespell mod.m_amount
    else t.m_hitfrommeleespell
  spell : t'.m_hitfromspell =
    if mod.m_type = .modSpellHitChance then
      if apply then addFloat t.m_hitfromspell mod.m_amount
      else takeHit t.m_hitfromspell mod.m_amount
    else t.m_hitfromspell
  skip (x : Fin 3) : t'.m_skipCastCheck x =
    if mod.m_type = .skipCanCastCheck then
      if env.casterFound = false then t.m_skipCastCheck x
      else if apply then t.m_skipCastCheck x ||| mod.mask x
      else t.m_skipCastCheck x &&& ~~~mod.mask x
    else t.m_skipCastCheck x
  filter (x : Fin 3) : t'.m_castFilter x =
    if mod.m_type = .castFilter then
      if apply then t.m_castFilter x ||| mod.mask x else t.m_castFilter x &&& ~~~mod.mask x
    else t.m_castFilter x
  enabled : t'.m_castFilterEnabled =
    if mod.m_type = .castFilter then
      if apply then true else decide (∃ x, t'.m_castFilter x ≠ 0)
    else t.m_castFilterEnabled
  disarmed : t'.disarmed =
    if mod.m_type = .modDisarm then
      if apply && env.feralForm then t.disarmed else apply
    else t.disarmed
  shield : t'.disarmedShield =
    if mod.m_type = .modDisarm then
      if (apply && env.feralForm) || !dismantle then t.disarmedShield else apply
    else t.disarmedShield
  state : t'.stateDisarmed =
    if mod.m_type = .modDisarm then
      if apply && env.feralForm then t.stateDisarmed else apply
    else t.stateDisarmed
  flag : t'.flagDisarmed =
    if mod.m_type = .modDisarm then
      if apply && env.feralForm then t.flagDisarmed else apply
    else t.flagDisarmed

theorem handled (mod : Modifier) (dismantle : Bool) :
    Handled env dismantle apply mod t (handle env dismantle apply t mod) := by
  constructor
  case enabled =>
    by_cases hkind : mod.m_type = .castFilter
    · rw [if_pos hkind]
      simp only [handle, hkind, spellAuraCastFilter]
      split <;> rfl
    · grind [handle, spellAuraModHitChance, spellAuraModSpellHitChance, spellAuraModDisarm,
        spellAuraModBlockValue, spellAuraSkipCanCastCheck]
  all_goals
    grind [handle, spellAuraModHitChance, spellAuraModSpellHitChance, spellAuraModDisarm,
      spellAuraModBlockValue, spellAuraSkipCanCastCheck, spellAuraCastFilter]

/-- A field that only the modifiers of one type change. -/
theorem field_all {β : Type*} (kind : AuraName) (f : Target → β) (g : β → Modifier → β)
    (h : ∀ t mod, f (handle env a.dismantle apply t mod) =
      if mod.m_type = kind then g (f t) mod else f t) :
    f (a.handleAll env apply t) = (a.ofType kind).foldl g (f t) := by
  rw [Aura.handleAll, Aura.ofType, List.foldl_filter]
  refine (List.foldl_hom f ?_).symm
  intro t mod
  rw [h]
  simp only [decide_eq_true_eq]

theorem foldl_const {α β : Type*} {b c : β} {l : List α} :
    l.foldl (fun _ _ => c) b = if l.isEmpty then b else c := by
  induction l generalizing b with
  | nil => rfl
  | cons x rest ih =>
    rw [List.foldl_cons, ih]
    split <;> rfl

theorem foldl_ofInt {b : UInt32} :
    as.foldl (fun b amount => b + UInt32.ofInt amount) b = b + UInt32.ofInt as.sum := by
  induction as generalizing b with
  | nil => exact (UInt32.add_zero b).symm
  | cons amount rest ih =>
    rw [List.foldl_cons, ih, List.sum_cons, UInt32.ofInt_add, UInt32.add_assoc]

theorem sum_map_neg : (as.map fun amount => -amount).sum = -as.sum := by
  induction as with
  | nil => rfl
  | cons amount rest ih =>
    rw [List.map_cons, List.sum_cons, List.sum_cons, ih]
    omega

theorem block_applied : (a.handleAll env true t).m_modblockvaluefromspells =
    t.m_modblockvaluefromspells + UInt32.ofInt (a.amounts .modBlockValue).sum := by
  refine (field_all .modBlockValue (·.m_modblockvaluefromspells) (fun b mod => b + UInt32.ofInt mod.m_amount)
    fun t mod => (handled mod _).block).trans ?_
  rw [← foldl_ofInt, Aura.amounts, List.foldl_map]

theorem block_undone : (a.handleAll env false t).m_modblockvaluefromspells =
    t.m_modblockvaluefromspells + UInt32.ofInt (-(a.amounts .modBlockValue).sum) := by
  refine (field_all .modBlockValue (·.m_modblockvaluefromspells) (fun b mod => b + UInt32.ofInt (-mod.m_amount))
    fun t mod => (handled mod _).block).trans ?_
  rw [← sum_map_neg, ← foldl_ofInt, Aura.amounts, List.foldl_map, List.foldl_map]

/-! ## Hit bonuses -/

/-- No sum is rounded when the amounts are added one after the other. -/
def Exact (v : Int) : List Int → Prop
  | [] => True
  | amount :: rest => addFloat v amount = v + amount ∧ Exact (v + amount) rest

/-- No difference is rounded or negative when the amounts are taken away one
after the other. -/
def ExactOff (v : Int) : List Int → Prop
  | [] => True
  | amount :: rest => subFloat v amount = v - amount ∧ amount ≤ v ∧ ExactOff (v - amount) rest

instance decidableExact : (v : Int) → (as : List Int) → Decidable (Exact v as)
  | _, [] => isTrue trivial
  | v, amount :: rest =>
    haveI := decidableExact (v + amount) rest
    inferInstanceAs (Decidable (_ ∧ _))

instance decidableExactOff : (v : Int) → (as : List Int) → Decidable (ExactOff v as)
  | _, [] => isTrue trivial
  | v, amount :: rest =>
    haveI := decidableExactOff (v - amount) rest
    inferInstanceAs (Decidable (_ ∧ _ ∧ _))

theorem foldl_addFloat (h : Exact v as) : as.foldl addFloat v = v + as.sum := by
  induction as generalizing v with
  | nil => exact (Int.add_zero v).symm
  | cons amount rest ih =>
    rw [List.foldl_cons, h.1, ih h.2, List.sum_cons, Int.add_assoc]

theorem foldl_takeHit (h : ExactOff v as) : as.foldl takeHit v = v - as.sum := by
  induction as generalizing v with
  | nil => exact (Int.sub_zero v).symm
  | cons amount rest ih =>
    have hstep : takeHit v amount = v - amount := by
      rw [takeHit, h.1, if_neg (by have := h.2.1; omega)]
    rw [List.foldl_cons, hstep, ih h.2.2, List.sum_cons]
    omega

theorem melee_applied (h : Exact t.m_hitfrommeleespell (a.amounts .modHitChance)) :
    (a.handleAll env true t).m_hitfrommeleespell =
      t.m_hitfrommeleespell + (a.amounts .modHitChance).sum := by
  refine (field_all .modHitChance (·.m_hitfrommeleespell) (fun v mod => addFloat v mod.m_amount)
    fun t mod => (handled mod _).melee).trans ?_
  rw [← foldl_addFloat h, Aura.amounts, List.foldl_map]

theorem melee_undone (h : ExactOff t.m_hitfrommeleespell (a.amounts .modHitChance)) :
    (a.handleAll env false t).m_hitfrommeleespell =
      t.m_hitfrommeleespell - (a.amounts .modHitChance).sum := by
  refine (field_all .modHitChance (·.m_hitfrommeleespell) (fun v mod => takeHit v mod.m_amount)
    fun t mod => (handled mod _).melee).trans ?_
  rw [← foldl_takeHit h, Aura.amounts, List.foldl_map]

theorem spell_applied (h : Exact t.m_hitfromspell (a.amounts .modSpellHitChance)) :
    (a.handleAll env true t).m_hitfromspell =
      t.m_hitfromspell + (a.amounts .modSpellHitChance).sum := by
  refine (field_all .modSpellHitChance (·.m_hitfromspell) (fun v mod => addFloat v mod.m_amount)
    fun t mod => (handled mod _).spell).trans ?_
  rw [← foldl_addFloat h, Aura.amounts, List.foldl_map]

theorem spell_undone (h : ExactOff t.m_hitfromspell (a.amounts .modSpellHitChance)) :
    (a.handleAll env false t).m_hitfromspell =
      t.m_hitfromspell - (a.amounts .modSpellHitChance).sum := by
  refine (field_all .modSpellHitChance (·.m_hitfromspell) (fun v mod => takeHit v mod.m_amount)
    fun t mod => (handled mod _).spell).trans ?_
  rw [← foldl_takeHit h, Aura.amounts, List.foldl_map]

/-! ## Masks -/

theorem ofType_eq_nil (h : a.has kind = false) : a.ofType kind = [] := by
  simpa [Aura.has] using h

theorem skip_applied (h : a.has .skipCanCastCheck → env.casterFound) (x : Fin 3) :
    (a.handleAll env true t).m_skipCastCheck x =
      Masks.set (t.m_skipCastCheck x) (a.masks .skipCanCastCheck x) := by
  refine (field_all .skipCanCastCheck (·.m_skipCastCheck x)
    (fun w mod => if env.casterFound = false then w else w ||| mod.mask x)
    fun t mod => (handled mod _).skip x).trans ?_
  rw [Masks.set, Aura.masks, List.foldl_map]
  cases hhas : a.has .skipCanCastCheck
  case false => rw [ofType_eq_nil hhas, List.foldl_nil, List.foldl_nil]
  case true => simp only [h hhas, Bool.true_eq_false, if_false]

theorem skip_undone (h : a.has .skipCanCastCheck → env.casterFound) (x : Fin 3) :
    (a.handleAll env false t).m_skipCastCheck x =
      Masks.clear (t.m_skipCastCheck x) (a.masks .skipCanCastCheck x) := by
  refine (field_all .skipCanCastCheck (·.m_skipCastCheck x)
    (fun w mod => if env.casterFound = false then w else w &&& ~~~mod.mask x)
    fun t mod => (handled mod _).skip x).trans ?_
  rw [Masks.clear, Aura.masks, List.foldl_map]
  cases hhas : a.has .skipCanCastCheck
  case false => rw [ofType_eq_nil hhas, List.foldl_nil, List.foldl_nil]
  case true => simp only [h hhas, Bool.true_eq_false, if_false]

theorem filter_applied (x : Fin 3) : (a.handleAll env true t).m_castFilter x =
    Masks.set (t.m_castFilter x) (a.masks .castFilter x) := by
  refine (field_all .castFilter (·.m_castFilter x) (fun w mod => w ||| mod.mask x)
    fun t mod => (handled mod _).filter x).trans ?_
  rw [Masks.set, Aura.masks, List.foldl_map]

theorem filter_undone (x : Fin 3) : (a.handleAll env false t).m_castFilter x =
    Masks.clear (t.m_castFilter x) (a.masks .castFilter x) := by
  refine (field_all .castFilter (·.m_castFilter x) (fun w mod => w &&& ~~~mod.mask x)
    fun t mod => (handled mod _).filter x).trans ?_
  rw [Masks.clear, Aura.masks, List.foldl_map]

/-! ## Flags -/

theorem enabled_applied : (a.handleAll env true t).m_castFilterEnabled =
    (a.has .castFilter || t.m_castFilterEnabled) := by
  refine (field_all .castFilter (·.m_castFilterEnabled) (fun _ _ => true)
    fun t mod => (handled mod _).enabled).trans ?_
  rw [foldl_const, Aura.has]
  cases (a.ofType .castFilter).isEmpty <;> rfl

/-- The last modifier that filters decides by the bits that are left, and
whatever comes after it leaves both alone. -/
theorem enabled_undone : (a.handleAll env false t).m_castFilterEnabled =
    if a.has .castFilter then
      decide (∃ x, (a.handleAll env false t).m_castFilter x ≠ 0)
    else t.m_castFilterEnabled := by
  rw [Aura.handleAll, Aura.has, Aura.ofType]
  induction a.m_modList using List.reverseRecOn with
  | nil => rfl
  | append_singleton mods mod ih =>
    have hhandled : Handled env a.dismantle false mod _ _ :=
      handled (t := mods.foldl (handle env a.dismantle false) t) mod a.dismantle
    rw [List.foldl_append, List.foldl_cons, List.foldl_nil, List.filter_append, hhandled.enabled]
    by_cases hkind : mod.m_type = .castFilter
    · simp [hkind]
    · have hfilter : ∀ x, (handle env a.dismantle false
          (mods.foldl (handle env a.dismantle false) t) mod).m_castFilter x =
            (mods.foldl (handle env a.dismantle false) t).m_castFilter x := fun x => by
        rw [hhandled.filter x, if_neg hkind]
      rw [if_neg hkind, ih]
      simp only [hfilter]
      simp [hkind]

/-- A flag that every modifier of one type sets to the same, unless all of
them skip it. -/
theorem flag_all (kind : AuraName) (f : Target → Bool) (skipped : Bool)
    (h : ∀ t mod, f (handle env a.dismantle apply t mod) =
      if mod.m_type = kind then if skipped then f t else apply else f t) :
    f (a.handleAll env apply t) = if a.has kind && !skipped then apply else f t := by
  refine (field_all kind f (fun c _ => if skipped then c else apply) h).trans ?_
  cases skipped
  case true => simp
  case false =>
    simp only [Bool.false_eq_true, if_false, foldl_const, Aura.has]
    by_cases hnil : a.ofType kind = []
    · simp [hnil]
    · simp [hnil]

/-! ## One aura more, one aura less -/

/-- An aura does to the player what it says. -/
structure Appliable (env : Surroundings) (t : Target) (a : Aura) : Prop where
  melee : Exact t.m_hitfrommeleespell (a.amounts .modHitChance)
  spell : Exact t.m_hitfromspell (a.amounts .modSpellHitChance)
  caster : a.has .skipCanCastCheck → env.casterFound
  shape : a.has .modDisarm → env.feralForm = false

/-- Nothing is lost that the other auras need, and nothing stays. -/
structure Undoable (env : Surroundings) (t : Target) (a : Aura) (rest : List Aura) : Prop where
  melee : ExactOff t.m_hitfrommeleespell (a.amounts .modHitChance)
  spell : ExactOff t.m_hitfromspell (a.amounts .modSpellHitChance)
  caster : a.has .skipCanCastCheck → env.casterFound
  skip : ∀ x, Masks.Disjoint (a.masks .skipCanCastCheck x) (allMasks .skipCanCastCheck x rest)
  filter : ∀ x, Masks.Disjoint (a.masks .castFilter x) (allMasks .castFilter x rest)
  enabled : a.has .castFilter → rest.any (Aura.has .castFilter) →
    ∃ x, Masks.union (allMasks .castFilter x rest) ≠ 0
  disarm : a.has .modDisarm → rest.any (Aura.has .modDisarm) = false

instance : Decidable (Appliable env t a) :=
  decidable_of_iff (_ ∧ _ ∧ _ ∧ _)
    ⟨fun ⟨h₁, h₂, h₃, h₄⟩ => ⟨h₁, h₂, h₃, h₄⟩, fun h => ⟨h.1, h.2, h.3, h.4⟩⟩

instance : Decidable (Undoable env t a rest) :=
  decidable_of_iff (_ ∧ _ ∧ _ ∧ _ ∧ _ ∧ _ ∧ _)
    ⟨fun ⟨h₁, h₂, h₃, h₄, h₅, h₆, h₇⟩ => ⟨h₁, h₂, h₃, h₄, h₅, h₆, h₇⟩,
      fun h => ⟨h.1, h.2, h.3, h.4, h.5, h.6, h.7⟩⟩

theorem flag_applied (h : a.has .modDisarm → env.feralForm = false) :
    (if a.has .modDisarm && !(true && env.feralForm) then true else l.any (Aura.has .modDisarm)) =
      (a :: l).any (Aura.has .modDisarm) := by
  rw [List.any_cons]
  cases hhas : a.has .modDisarm
  case false => rfl
  case true => simp [h hhas]

theorem flag_undone (h : a.has .modDisarm → rest.any (Aura.has .modDisarm) = false) :
    (if a.has .modDisarm && !(false && env.feralForm) then false
      else (a :: rest).any (Aura.has .modDisarm)) = rest.any (Aura.has .modDisarm) := by
  rw [List.any_cons]
  cases hhas : a.has .modDisarm
  case false => rfl
  case true => simp [h hhas]

/-- One aura more. -/
theorem Shows.handleAll (h : Shows base l t) (happly : Appliable env t a) :
    Shows base (a :: l) (a.handleAll env true t) where
  block := by
    rw [block_applied, h.block, total_cons, Int.add_comm, UInt32.ofInt_add, UInt32.add_assoc]
  melee := by
    rw [melee_applied happly.melee, h.melee, total_cons]
    omega
  spell := by
    rw [spell_applied happly.spell, h.spell, total_cons]
    omega
  skip x := by
    rw [skip_applied happly.caster, h.skip x]
    exact Masks.set_union fun m => by simp
  filter x := by
    rw [filter_applied, h.filter x]
    exact Masks.set_union fun m => by simp
  enabled := by rw [enabled_applied, h.enabled, List.any_cons]
  disarmed := by
    rw [flag_all .modDisarm (·.disarmed) _ fun t mod => (handled mod _).disarmed, h.disarmed]
    exact flag_applied happly.shape
  shield := by
    rw [flag_all .modDisarm (·.disarmedShield) _ fun t mod => (handled mod _).shield, h.shield]
    rw [List.any_cons]
    cases hhas : a.has .modDisarm
    case false => simp
    case true => simp [happly.shape hhas]
  state := by
    rw [flag_all .modDisarm (·.stateDisarmed) _ fun t mod => (handled mod _).state, h.state]
    exact flag_applied happly.shape
  flag := by
    rw [flag_all .modDisarm (·.flagDisarmed) _ fun t mod => (handled mod _).flag, h.flag]
    exact flag_applied happly.shape

/-- A bit that is asked for is asked for by some aura. -/
theorem has_of_union (h : Masks.union (allMasks kind x l) ≠ 0) : l.any (Aura.has kind) := by
  rw [Ne, Masks.union_eq_zero] at h
  push Not at h
  obtain ⟨m, hm, -⟩ := h
  rw [allMasks, List.mem_flatMap] at hm
  obtain ⟨b, hb, hmask⟩ := hm
  refine List.any_eq_true.2 ⟨b, hb, ?_⟩
  cases hhas : b.has kind
  case true => rfl
  case false =>
    rw [Aura.masks, ofType_eq_nil hhas] at hmask
    cases hmask

/-- One aura less. -/
theorem Shows.undo (h : Shows base (a :: rest) t) (hundo : Undoable env t a rest) :
    Shows base rest (a.handleAll env false t) where
  block := by
    rw [block_undone, h.block, total_cons, UInt32.add_assoc, ← UInt32.ofInt_add]
    congr 2
    omega
  melee := by
    rw [melee_undone hundo.melee, h.melee, total_cons]
    omega
  spell := by
    rw [spell_undone hundo.spell, h.spell, total_cons]
    omega
  skip x := by
    rw [skip_undone hundo.caster, h.skip x]
    exact Masks.clear_union (fun m => by simp) (hundo.skip x)
  filter x := by
    rw [filter_undone, h.filter x]
    exact Masks.clear_union (fun m => by simp) (hundo.filter x)
  enabled := by
    rw [enabled_undone]
    cases hhas : a.has .castFilter
    case false =>
      rw [if_neg Bool.false_ne_true, h.enabled, List.any_cons, hhas, Bool.false_or]
    case true =>
      have hleft : ∀ x, (a.handleAll env false t).m_castFilter x =
          Masks.union (allMasks .castFilter x rest) := fun x => by
        rw [filter_undone, h.filter x]
        exact Masks.clear_union (fun m => by simp) (hundo.filter x)
      rw [if_pos rfl, Bool.eq_iff_iff, decide_eq_true_iff]
      simp only [hleft]
      exact ⟨fun ⟨_, hx⟩ => has_of_union hx, hundo.enabled hhas⟩
  disarmed := by
    rw [flag_all .modDisarm (·.disarmed) _ fun t mod => (handled mod _).disarmed, h.disarmed]
    exact flag_undone hundo.disarm
  shield := by
    rw [flag_all .modDisarm (·.disarmedShield) _ fun t mod => (handled mod _).shield, h.shield]
    rw [List.any_cons]
    cases hhas : a.has .modDisarm
    case false => simp
    case true =>
      have hnone := hundo.disarm hhas
      have hshield : (rest.any fun a => a.dismantle && a.has .modDisarm) = false := by
        rw [List.any_eq_false] at hnone ⊢
        intro b hb hboth
        exact hnone b hb (Bool.and_eq_true_iff.1 hboth).2
      rw [hshield]
      cases a.dismantle <;> rfl
  state := by
    rw [flag_all .modDisarm (·.stateDisarmed) _ fun t mod => (handled mod _).state, h.state]
    exact flag_undone hundo.disarm
  flag := by
    rw [flag_all .modDisarm (·.flagDisarmed) _ fun t mod => (handled mod _).flag, h.flag]
    exact flag_undone hundo.disarm

/-! ## Runs -/

/-- Whether an aura is marked as applied says nothing about what it does. -/
theorem Shows.marked (h : Shows base (a :: l) t) (b : Bool) :
    Shows base ({ a with m_applied := b } :: l) t :=
  ⟨h.block, h.melee, h.spell, h.skip, h.filter, h.enabled, h.disarmed, h.shield, h.state, h.flag⟩

theorem Shows.applied (h : Shows base rest t)
    (happly : env.lacksAuraState = false → Appliable env t a) :
    Shows base ([(a.ApplyModifiers env true t).1].filter (·.m_applied) ++ rest)
      (a.ApplyModifiers env true t).2 := by
  unfold Aura.ApplyModifiers
  rw [if_neg (by simp)]
  cases hlacks : env.lacksAuraState
  case true => exact h
  case false => exact (h.handleAll (happly hlacks)).marked true

theorem Shows.undone (h : Shows base ([a].filter (·.m_applied) ++ rest) t)
    (hundo : a.m_applied → Undoable env t a rest) :
    Shows base rest (a.ApplyModifiers env false t).2 ∧
      (a.ApplyModifiers env false t).1.m_applied = false := by
  unfold Aura.ApplyModifiers
  cases hset : a.m_applied
  case false =>
    rw [if_pos (by simp)]
    rw [List.filter_cons_of_neg (by simp [hset])] at h
    exact ⟨h, hset⟩
  case true =>
    rw [if_neg (by simp), if_neg (by simp)]
    rw [List.filter_cons_of_pos hset] at h
    exact ⟨h.undo (hundo hset), rfl⟩

namespace Auras

/-- Every field has its base value and what the applied auras add. -/
def Law (base : Target) (s : Auras) : Prop := Shows base s.applied s.target

/-- A step that does to the player what the auras say. -/
def Ok (s : Auras) : Op → Prop
  | .add m_modList dismantle env =>
    env.lacksAuraState = false → Appliable env s.target ⟨m_modList, dismantle, false⟩
  | .apply k env =>
    ∀ a ∈ s.auras[k]?, env.lacksAuraState = false → Appliable env s.target a
  | .unapply k env | .remove k env =>
    ∀ a ∈ s.auras[k]?, a.m_applied → Undoable env s.target a (s.others k)

instance (s : Auras) : (op : Op) → Decidable (Ok s op)
  | .add _ _ _ => inferInstanceAs (Decidable (_ → _))
  | .apply _ _ => inferInstanceAs (Decidable (∀ a ∈ _, _))
  | .unapply _ _ => inferInstanceAs (Decidable (∀ a ∈ _, _))
  | .remove _ _ => inferInstanceAs (Decidable (∀ a ∈ _, _))

variable {s s' : Auras} {k : Nat} {op : Op} {ops : List Op}

theorem law_start {block : UInt32} {melee spell : Int} :
    Law (.base block melee spell) (start block melee spell) where
  block := (UInt32.add_zero _).symm
  melee := (Int.add_zero _).symm
  spell := (Int.add_zero _).symm
  skip _ := rfl
  filter _ := rfl
  enabled := rfl
  disarmed := rfl
  shield := rfl
  state := rfl
  flag := rfl

/-- One aura is taken out of the order. -/
theorem applied_perm (hk : s.auras[k]? = some a) :
    s.applied.Perm ([a].filter (·.m_applied) ++ s.others k) := by
  obtain ⟨hlt, rfl⟩ := List.getElem?_eq_some_iff.1 hk
  rw [others, ← List.filter_append]
  exact (List.getElem_cons_eraseIdx_perm hlt).symm.filter _

theorem applied_set (hk : s.auras[k]? = some a) (b : Aura) :
    ((s.auras.set k b).filter (·.m_applied)).Perm ([b].filter (·.m_applied) ++ s.others k) := by
  obtain ⟨hlt, -⟩ := List.getElem?_eq_some_iff.1 hk
  rw [others, ← List.filter_append]
  exact (List.set_perm_cons_eraseIdx hlt b).filter _

theorem law_step (h : Law base s) (hok : Ok s op) (hstep : step s op = some s') :
    Law base s' := by
  cases op with
  | add m_modList dismantle env =>
    cases hstep
    have hnew := Shows.applied h (a := ⟨m_modList, dismantle, false⟩) hok
    rwa [applied, ← List.filter_append] at hnew
  | apply k env =>
    simp only [step] at hstep
    cases hk : s.auras[k]? with
    | none =>
      rw [hk] at hstep
      cases hstep
    | some a =>
      rw [hk] at hstep
      obtain ⟨hnot, hs⟩ := Option.ite_none_left_eq_some.1 hstep
      cases hs
      have hnot : a.m_applied = false := by simpa using hnot
      have hrest : Shows base (s.others k) s.target := by
        have hperm := h.perm (applied_perm hk)
        rwa [List.filter_cons_of_neg (by simp [hnot])] at hperm
      exact (hrest.applied (hok a hk)).perm (applied_set hk (a.ApplyModifiers env true s.target).1).symm
  | unapply k env =>
    simp only [step] at hstep
    cases hk : s.auras[k]? with
    | none =>
      rw [hk] at hstep
      cases hstep
    | some a =>
      rw [hk] at hstep
      cases hstep
      obtain ⟨hshows, hnot⟩ := Shows.undone (h.perm (applied_perm hk)) (hok a hk)
      have hperm := applied_set hk (a.ApplyModifiers env false s.target).1
      rw [List.filter_cons_of_neg (ne_true_of_eq_false hnot)] at hperm
      exact hshows.perm hperm.symm
  | remove k env =>
    simp only [step] at hstep
    cases hk : s.auras[k]? with
    | none =>
      rw [hk] at hstep
      cases hstep
    | some a =>
      rw [hk] at hstep
      cases hstep
      exact (Shows.undone (h.perm (applied_perm hk)) (hok a hk)).1

/-- When no sum is rounded, no bonus falls below zero, the caster is found
and nothing is undone that another aura needs, every field is what the
applied auras make of it, in every state of a run. -/
theorem effects_run {block : UInt32} {melee spell : Int}
    (hrun : Run (Guarded Ok (PartialStep step)) (start block melee spell) ops s) :
    Law (.base block melee spell) s ∧
      (s.applied = [] → s.target = .base block melee spell) := by
  have hlaw : Law (.base block melee spell) s :=
    hrun.invariant (Law _) (fun _ _ _ h hstep => law_step h hstep.1 hstep.2) law_start
  refine ⟨hlaw, fun hnone => ?_⟩
  rw [Law, hnone] at hlaw
  exact hlaw.eq_base

def onMage : Surroundings := ⟨false, true, false⟩

/-- Auras that overlap without a bit in common, applied and removed in
different orders; the disarm is refused at first. -/
def overlapping : List Op :=
  [.add [⟨.modHitChance, 6, fun _ => 0⟩, ⟨.modBlockValue, -300, fun _ => 0⟩] false onMage,
    .add [⟨.skipCanCastCheck, 0, ![1, 0, 4]⟩, ⟨.modSpellHitChance, -4, fun _ => 0⟩] false onMage,
    .add [⟨.skipCanCastCheck, 0, ![2, 0, 0]⟩, ⟨.castFilter, 0, ![0, 8, 0]⟩] false onMage,
    .add [⟨.castFilter, 0, ![16, 0, 0]⟩, ⟨.modSpellHitChance, 9, fun _ => 0⟩] false onMage,
    .add [⟨.modDisarm, 0, fun _ => 0⟩] true ⟨true, true, false⟩, .apply 0 onMage,
    .remove 2 onMage, .unapply 0 onMage, .remove 2 onMage]

theorem effects_run_overlapping :
    (overlapping.foldlM (fun s op => if Ok s op then step s op else none)
      (start 20 0 3)).isSome = true ∧
    ∀ s ∈ overlapping.foldlM (fun s op => if Ok s op then step s op else none) (start 20 0 3),
      Law (.base 20 0 3) s ∧ (s.applied = [] → s.target = .base 20 0 3) :=
  ⟨by decide +kernel, fun _ hs => effects_run (Run.of_foldlM hs)⟩

/-- A curse and a blessing, and the blessing goes first. -/
def cursed : List Op :=
  [.add [⟨.modHitChance, -5, fun _ => 0⟩] false onMage,
    .add [⟨.modHitChance, 10, fun _ => 0⟩] false onMage, .remove 0 onMage, .remove 0 onMage]

theorem cursed_some : (cursed.foldlM (fun s op => if True then step s op else none)
    (start 0 0 0)).isSome = true := by
  decide +kernel

theorem cursed_hit : ((cursed.foldlM (fun s op => if True then step s op else none)
      (start 0 0 0)).get cursed_some).applied.length = 0 ∧
    ((cursed.foldlM (fun s op => if True then step s op else none)
      (start 0 0 0)).get cursed_some).target.m_hitfrommeleespell = 5 := by
  decide +kernel

/-- No aura is left, and the hit bonus is 5. -/
theorem not_effects_run : ¬ ∀ (block : UInt32) (melee spell : Int) (ops : List Op) (s : Auras),
    Run (PartialStep step) (start block melee spell) ops s →
    Law (.base block melee spell) s ∧
      (s.applied = [] → s.target = .base block melee spell) := by
  intro hall
  have hguarded : Run (Guarded (fun _ _ => True) (PartialStep step)) (start 0 0 0) cursed
      (Option.get _ cursed_some) :=
    Run.of_foldlM (Option.some_get cursed_some).symm
  have hbase := (hall 0 0 0 _ _ (hguarded.mono fun _ _ _ h => h.2)).2
    (List.eq_nil_of_length_eq_zero cursed_hit.1)
  have hhit := cursed_hit.2
  rw [hbase] at hhit
  cases hhit

end Auras

end HearthStone.AuraEffects
