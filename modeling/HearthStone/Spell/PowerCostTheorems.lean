/-
HearthStone.Spell.PowerCostTheorems — when the check of a spell's power agrees
with the charge.

A spell that is free before the delay of the offhand item passes the check and
is charged the delay. A spell that drains the whole power is checked for its
cost and charged without one. A health cost is checked without the cost
modifiers and taken as a hit, which can miss.
-/
import HearthStone.Spell.PowerCost
import HearthStone.Object.UnsignedValue

namespace HearthStone.PowerCost

open SpellModifiers

variable {u u' : Unit} {sp : SpellEntry} {f g : Field} {base cost d : Int32} {amount : Nat}

/-- The power `f` is lower by `amount`, and the others are as they were. -/
def Charged (u u' : Unit) (f : Field) (amount : Nat) : Prop :=
  (u'.value f).toNat + amount = (u.value f).toNat ∧ ∀ g, g ≠ f → u'.value g = u.value g

/-- The check and the charge give one answer from one cost, and the charge
takes it: nothing if it is not positive, all of a drained power. -/
def Agrees (u : Unit) (sp : SpellEntry) (base : Int32) : Prop :=
  match PowerType.of sp.powerType with
  | .field f =>
    if sp.drainsWholeMana then
      u.HasPower sp base = some true ∧
        ∃ u', u.TakePower sp base = some (true, u') ∧ Charged u u' f (u.value f).toNat
    else ∃ cost ok u', u.costOfHasPower sp f base = some cost ∧
      u.costOfTakePower sp f base = some cost ∧ u.HasPower sp base = some ok ∧
      u.TakePower sp base = some (ok, u') ∧ (ok = true → Charged u u' f cost.toNatClampNeg)
  | _ => ∃ ok, u.HasPower sp base = some ok ∧ u.TakePower sp base = some (ok, u)

/-- A hit that takes its whole damage from the health and leaves some. -/
def Unit.Plain (u : Unit) (damage : UInt32) : Prop :=
  (u.isAlive ∧ u.IsInWorld ∧ ¬ u.GodModeCheat ∧ ¬ u.IsSpiritHealer) ∧ ¬ u.isCritter ∧
    u.split damage = damage ∧ damage < u.value .health

/-- A hit that reaches the branch for a dying unit. -/
def Unit.Fatal (u : Unit) (damage : UInt32) : Prop :=
  (u.isAlive ∧ u.IsInWorld ∧ ¬ u.GodModeCheat ∧ ¬ u.IsSpiritHealer) ∧
    (u.isCritter ∨ u.value .health ≤ u.split damage)

/-- The answers of both functions to a spell paid from `f`. -/
structure Regular (u : Unit) (sp : SpellEntry) (f : Field) (base d : Int32) : Prop where
  delayed : u.delay sp = some d
  /-- A spell that is free at the check is not delayed out of it. -/
  free : u.checkedCost sp f base ≤ 0 → u.chargedCost sp f base + d = u.checkedCost sp f base
  /-- Only a health cost is checked without the cost modifiers. -/
  unmodified : 0 < u.checkedCost sp f base → u.chargedCost sp f base = u.checkedCost sp f base
  /-- The delay does not overflow the cost. -/
  exact : f ≠ .health → 0 < u.checkedCost sp f base → u.chargedCost sp f base + d ≤ 0 →
    u.chargedCost sp f base + d ≤ (u.value f).toInt32
  hit : f = .health → 0 < u.chargedCost sp f base + d →
    u.Plain (u.chargedCost sp f base + d).toUInt32
  /-- `SetPower` compares with the maximum as a signed number. -/
  signed : f ≠ .health → 0 < u.chargedCost sp f base + d →
    u.chargedCost sp f base + d ≤ (u.value f).toInt32 → (u.maximum f).toNat < 2 ^ 31

@[simp] theorem set_value (v : UInt32) : (u.set f v).value f = v := by simp [Unit.set]

theorem set_value_of_ne (v : UInt32) (h : g ≠ f) : (u.set f v).value g = u.value g := by
  simp [Unit.set, h]

theorem charged_set (v : UInt32) : Charged u (u.set f v) f amount ↔
    v.toNat + amount = (u.value f).toNat := by
  simp only [Charged, set_value, and_iff_left_iff_imp]
  exact fun _ g hg => set_value_of_ne v hg

theorem charged_nothing : Charged u u f amount ↔ amount = 0 := by simp [Charged]

/-! ## Signed and unsigned -/

theorem clamped_of_nonpos (h : cost ≤ 0) : cost.toNatClampNeg = 0 := by
  have : cost.toInt ≤ 0 := Int32.le_iff_toInt_le.mp h
  simp only [Int32.toNatClampNeg]
  omega

theorem clamped_of_pos (h : 0 < cost) :
    (cost.toNatClampNeg : Int) = cost.toInt ∧ 0 < cost.toInt ∧
      cost.toUInt32.toNat = cost.toNatClampNeg := by
  have hpos : 0 < cost.toInt := Int32.lt_iff_toInt_lt.mp h
  have hle : 0 ≤ cost := Int32.le_of_lt h
  exact ⟨Int32.cast_toNatClampNeg _ hle, hpos, Int32.toNat_toUInt32_of_le hle⟩

/-- `SetPower` takes the cost off exactly when the maximum is a signed number. -/
theorem charged_setPower (hmax : u.value f ≤ u.maximum f) (hc : 0 < cost)
    (hle : cost ≤ (u.value f).toInt32) :
    Charged u (u.SetPower f ((u.value f).toInt32 - cost)) f cost.toNatClampNeg ↔
      (u.maximum f).toNat < 2 ^ 31 := by
  obtain ⟨hclamp, hpos, -⟩ := clamped_of_pos hc
  have hle' := Int32.le_iff_toInt_le.mp hle
  have hleft : ((u.value f).toInt32 - cost).toInt = (u.value f).toInt32.toInt - cost.toInt :=
    Int32.toInt_sub_of_le _ _ (Int32.le_of_lt hc) hle
  have hleft0 : 0 ≤ (u.value f).toInt32 - cost := by
    rw [Int32.le_iff_toInt_le, hleft, Int32.toInt_zero]
    omega
  have hnat := Int32.toNat_toUInt32_of_le hleft0
  have hcast := Int32.cast_toNatClampNeg _ hleft0
  have hmax' : (u.value f).toNat ≤ (u.maximum f).toNat := hmax
  rw [hleft] at hcast
  rw [Unit.SetPower, charged_set, if_neg (Int32.not_lt.mpr hleft0)]
  have hvalue := toInt_toInt32 (u.value f)
  have hmaximum := toInt_toInt32 (u.maximum f)
  have hv : (u.value f).toNat < 2 ^ 31 := by
    by_contra h
    have := (u.value f).toNat_lt
    rw [if_neg h] at hvalue
    omega
  rw [if_pos hv] at hvalue
  by_cases hm : (u.maximum f).toNat < 2 ^ 31
  · -- the rest is below the maximum
    rw [if_pos hm] at hmaximum
    rw [if_neg (by rw [gt_iff_lt, Int32.lt_iff_toInt_lt]; omega), hnat]
    omega
  · -- a maximum that reads as negative is set instead
    rw [if_neg hm] at hmaximum
    have := (u.maximum f).toNat_lt
    rw [if_pos (by rw [gt_iff_lt, Int32.lt_iff_toInt_lt]; omega)]
    omega

/-- A hit takes the cost off exactly when it is plain. -/
theorem charged_dealDamage (hc : 0 < cost) (hf : ¬ u.Fatal cost.toUInt32) :
    Charged u (u.DealDamage cost.toUInt32) .health cost.toNatClampNeg ↔
      u.Plain cost.toUInt32 := by
  obtain ⟨hclamp, hpos, hnat⟩ := clamped_of_pos hc
  by_cases hopen : u.isAlive ∧ u.IsInWorld ∧ ¬ u.GodModeCheat ∧ ¬ u.IsSpiritHealer
  · have hlives : ¬ (u.isCritter ∨ u.value .health ≤ u.split cost.toUInt32) :=
      fun h => hf ⟨hopen, h⟩
    have hlt : (u.split cost.toUInt32).toNat < (u.value .health).toNat :=
      UInt32.lt_iff_toNat_lt.mp (UInt32.not_le.mp fun h => hlives (.inr h))
    have hguard : (!u.isAlive || !u.IsInWorld || u.GodModeCheat || u.IsSpiritHealer) = false := by
      simp_all
    have hrest : (u.value .health - u.split cost.toUInt32).toNat =
        (u.value .health).toNat - (u.split cost.toUInt32).toNat :=
      UInt32.toNat_sub_of_le _ _ (UInt32.le_iff_toNat_le.mpr hlt.le)
    rw [Unit.DealDamage, hguard, if_neg (by simp), if_neg (by simpa using hlives), charged_set,
      hrest]
    constructor
    · intro h
      have heq : u.split cost.toUInt32 = cost.toUInt32 := UInt32.toNat_inj.mp (by omega)
      exact ⟨hopen, fun h => hlives (.inl h), heq, by
        rw [UInt32.lt_iff_toNat_lt, ← heq]; exact hlt⟩
    · intro h
      rw [h.2.2.1, hnat] at *
      omega
  · -- the unit is left alone
    have hguard : (!u.isAlive || !u.IsInWorld || u.GodModeCheat || u.IsSpiritHealer) = true := by
      simp only [Bool.or_eq_true, Bool.not_eq_true']
      simp at hopen
      grind
    rw [Unit.DealDamage, if_pos hguard, charged_nothing]
    constructor
    · intro h
      omega
    · exact fun h => absurd h.1 hopen

/-! ## The two answers -/

theorem hasPower_field (h : PowerType.of sp.powerType = .field f) : u.HasPower sp base =
    if u.checkedCost sp f base ≤ 0 then some true
    else (u.delay sp).map fun d =>
      f = .health || u.checkedCost sp f base + d ≤ (u.value f).toInt32 := by
  simp only [Unit.HasPower, h]

theorem takePower_field (h : PowerType.of sp.powerType = .field f)
    (hd : sp.drainsWholeMana = false) (hdelay : u.delay sp = some d) : u.TakePower sp base =
    some (if u.chargedCost sp f base + d ≤ 0 then (true, u)
      else if f = .health then (true, u.DealDamage (u.chargedCost sp f base + d).toUInt32)
      else if u.chargedCost sp f base + d ≤ (u.value f).toInt32 then
        (true, u.SetPower f ((u.value f).toInt32 - (u.chargedCost sp f base + d)))
      else (false, u)) := by
  simp [Unit.TakePower, h, hd, hdelay]

/-- The check passes. -/
def Unit.Covered (u : Unit) (sp : SpellEntry) (f : Field) (base : Int32) : Prop :=
  u.checkedCost sp f base ≤ 0 ∨ ∃ d, u.delay sp = some d ∧
    (f = .health ∨ u.checkedCost sp f base + d ≤ (u.value f).toInt32)

theorem hasPower_iff (h : PowerType.of sp.powerType = .field f) :
    u.HasPower sp base = some true ↔ u.Covered sp f base := by
  rw [hasPower_field h, Unit.Covered]
  by_cases hfree : u.checkedCost sp f base ≤ 0
  · simp [hfree]
  · simp [hfree, Option.map_eq_some_iff]

theorem sameCost_iff (hdelay : u.delay sp = some d) :
    u.costOfHasPower sp f base = u.costOfTakePower sp f base ↔
      (u.checkedCost sp f base ≤ 0 →
        u.chargedCost sp f base + d = u.checkedCost sp f base) ∧
      (0 < u.checkedCost sp f base → u.chargedCost sp f base = u.checkedCost sp f base) := by
  rw [Unit.costOfHasPower, Unit.costOfTakePower, hdelay]
  by_cases hfree : u.checkedCost sp f base ≤ 0
  · simp [hfree, Int32.not_lt.mpr hfree, eq_comm]
  · simp [hfree, Int32.not_le.mp hfree, eq_comm]

/-- Where the costs agree, the check passes as the charge does. -/
theorem Regular.hasPower (hr : Regular u sp f base d) (h : PowerType.of sp.powerType = .field f) :
    u.HasPower sp base = some (u.chargedCost sp f base + d ≤ 0 || f = .health ||
      u.chargedCost sp f base + d ≤ (u.value f).toInt32) := by
  rw [hasPower_field h, hr.delayed]
  by_cases hfree : u.checkedCost sp f base ≤ 0
  · simp [hfree, hr.free hfree]
  · have hpaid := Int32.not_le.mp hfree
    rw [if_neg hfree, hr.unmodified hpaid]
    by_cases hh : f = .health
    · simp [hh]
    · have := hr.exact hh hpaid
      rw [hr.unmodified hpaid] at this
      simp only [Option.map_some, hh, decide_false, Bool.or_false, Bool.false_or]
      by_cases hc : u.checkedCost sp f base + d ≤ 0
      · simp [hc, this hc]
      · simp [hc]

theorem Regular.agrees (hr : Regular u sp f base d) (hmax : u.value f ≤ u.maximum f)
    (h : PowerType.of sp.powerType = .field f) (hd : sp.drainsWholeMana = false) :
    Agrees u sp base := by
  have hcharge : u.costOfTakePower sp f base = some (u.chargedCost sp f base + d) := by
    simp [Unit.costOfTakePower, hr.delayed]
  have hcheck := (sameCost_iff hr.delayed).mpr ⟨hr.free, hr.unmodified⟩
  have hhas := hr.hasPower h
  have htake : u.TakePower sp base = _ := takePower_field h hd hr.delayed
  simp only [Agrees, h, hd, Bool.false_eq_true, if_false]
  rw [hcheck, hcharge, hhas, htake]
  by_cases hc : u.chargedCost sp f base + d ≤ 0
  · exact ⟨_, true, u, rfl, rfl, by simp [hc], by rw [if_pos hc], fun _ =>
      charged_nothing.mpr (clamped_of_nonpos hc)⟩
  have hpos := Int32.not_le.mp hc
  by_cases hh : f = .health
  · subst hh
    have hplain := hr.hit rfl hpos
    have hf : ¬ u.Fatal (u.chargedCost sp .health base + d).toUInt32 := by
      rintro ⟨-, hcritter | hle⟩
      · exact hplain.2.1 hcritter
      · rw [hplain.2.2.1] at hle
        exact absurd hplain.2.2.2 (UInt32.not_lt.mpr hle)
    exact ⟨_, true, _, rfl, rfl, by simp, by rw [if_neg hc, if_pos rfl], fun _ =>
      (charged_dealDamage hpos hf).mpr hplain⟩
  by_cases hle : u.chargedCost sp f base + d ≤ (u.value f).toInt32
  · exact ⟨_, true, _, rfl, rfl, by simp [hle], by rw [if_neg hc, if_neg hh, if_pos hle], fun _ =>
      (charged_setPower hmax hpos hle).mpr (hr.signed hh hpos hle)⟩
  · exact ⟨_, false, u, rfl, rfl, by simp [hc, hh, hle],
      by rw [if_neg hc, if_neg hh, if_neg hle], by simp⟩

theorem Regular.of_agrees (ha : Agrees u sp base) (hmax : u.value f ≤ u.maximum f)
    (h : PowerType.of sp.powerType = .field f) (hd : sp.drainsWholeMana = false)
    (hdelay : u.delay sp = some d)
    (hf : f = .health → ¬ u.Fatal (u.chargedCost sp f base + d).toUInt32) :
    Regular u sp f base d := by
  simp only [Agrees, h, hd, Bool.false_eq_true, if_false] at ha
  obtain ⟨cost, ok, u', hcheck, hcharge, hhas, htake, hcharged⟩ := ha
  obtain ⟨free, unmodified⟩ := (sameCost_iff hdelay).mp (hcheck.trans hcharge.symm)
  obtain rfl : u.chargedCost sp f base + d = cost := by
    simpa [Unit.costOfTakePower, hdelay] using hcharge
  rw [takePower_field h hd hdelay, Option.some.injEq] at htake
  refine ⟨hdelay, free, unmodified, ?_, ?_, ?_⟩
  · intro hne hpaid hc
    rw [if_pos hc, Prod.mk.injEq] at htake
    rw [← htake.1, hasPower_field h, if_neg (Int32.not_le.mpr hpaid), hdelay] at hhas
    rw [unmodified hpaid]
    simpa [hne] using hhas
  · intro hh hc
    subst hh
    rw [if_neg (Int32.not_le.mpr hc), if_pos rfl, Prod.mk.injEq] at htake
    obtain ⟨rfl, rfl⟩ := htake
    exact (charged_dealDamage hc (hf rfl)).mp (hcharged rfl)
  · intro hne hc hle
    rw [if_neg (Int32.not_le.mpr hc), if_neg hne, if_pos hle, Prod.mk.injEq] at htake
    obtain ⟨rfl, rfl⟩ := htake
    exact (charged_setPower hmax hc hle).mp (hcharged rfl)

/-- A spell without a power agrees; one that drains its power has to be
covered, any other has regular answers. -/
def AgreesWhen (u : Unit) (sp : SpellEntry) (base : Int32) : Prop :=
  match PowerType.of sp.powerType with
  | .field f => if sp.drainsWholeMana then u.Covered sp f base else ∃ d, Regular u sp f base d
  | _ => True

/-- The check agrees with the charge under the condition, and under no other
unless a health cost kills. -/
theorem agrees_exact (hmax : ∀ f, u.value f ≤ u.maximum f) :
    (AgreesWhen u sp base → Agrees u sp base) ∧
      ((PowerType.of sp.powerType = .field .health → ∀ d, u.delay sp = some d →
        ¬ u.Fatal (u.chargedCost sp .health base + d).toUInt32) →
      Agrees u sp base → AgreesWhen u sp base) := by
  cases h : PowerType.of sp.powerType with
  | rune => simp [Agrees, AgreesWhen, h, Unit.HasPower, Unit.TakePower]
  | unknown => simp [Agrees, AgreesWhen, h, Unit.HasPower, Unit.TakePower]
  | field f =>
    simp only [AgreesWhen, h]
    cases hd : sp.drainsWholeMana with
    | true =>
      simp only [Agrees, h, hd, if_true, hasPower_iff h]
      exact ⟨fun hcov => ⟨hcov, u.set f 0, by simp [Unit.TakePower, h, hd],
        charged_set _ |>.mpr (by simp)⟩, fun _ ha => ha.1⟩
    | false =>
      constructor
      · rintro ⟨d, hr⟩
        exact hr.agrees (hmax f) h hd
      · intro hf ha
        cases hdelay : u.delay sp with
        | none => simp [Agrees, h, hd, Unit.costOfTakePower, hdelay] at ha
        | some d =>
          refine ⟨d, Regular.of_agrees ha (hmax f) h hd hdelay ?_⟩
          rintro rfl
          exact hf rfl d hdelay

/-- Ten of each power, an offhand weapon of delay 2000, and costs lowered by forty. -/
def rogue : Unit where
  value := fun _ => 10
  maximum := fun _ => 100
  PowerCostMod := fun _ => -40
  costMultiplied := fun _ _ => 0
  SM_COST := .none
  offhand := some 20
  isAlive := true
  IsInWorld := true
  GodModeCheat := false
  IsSpiritHealer := false
  isCritter := false
  split := id
  dying := fun _ _ => 0

def shiv : SpellEntry where
  powerType := 3
  School := ⟨0, schools_pos⟩
  baseLevel := 1
  SpellGroupType := fun _ => 0
  drainsWholeMana := false
  shiv := true

theorem agrees_exact_shiv : Agrees rogue shiv 100 :=
  (agrees_exact fun _ => (by decide : (10 : UInt32) ≤ 100)).1 ⟨20, by decide, by decide, by decide,
    by decide, nofun, by decide⟩

/-- A free Shiv passes the check and is not cast. -/
theorem free_shiv : (∀ f, rogue.value f ≤ rogue.maximum f) ∧
    rogue.HasPower shiv 40 = some true ∧ (rogue.TakePower shiv 40).map Prod.fst = some false ∧
    ¬ Agrees rogue shiv 40 := by
  refine ⟨fun _ => (by decide : (10 : UInt32) ≤ 100), by decide, by decide, ?_⟩
  rintro ⟨_, _, _, hcheck, hcharge, -⟩
  exact absurd (hcheck.trans hcharge.symm) (by decide)

end HearthStone.PowerCost
