/-
HearthStone.Player.CooldownTheorems — cancelled casts and relogs.

* `Cooldown_CanCast_fst` — the answer, as what is running.
* `canCast_cancelled` — the answer after a start and a cancel: that of
  before, less what the start has left behind.
* `cancel_undoes_iff` — when nothing is left behind.
* `lookup_relog` — a relog, one cooldown at a time.
* `survives_relog` — the cooldowns with ten seconds left come back, less
  than a second shorter.
-/
import HearthStone.Player.Cooldowns

namespace HearthStone.Cooldowns

open Database SpellModifiers

/-! ## Answers -/

namespace Player

variable {p : Player} {sp other : SpellEntry} {t t₂ t₃ : UInt32} {type : CooldownType} {misc : UInt32}

/-- Is a cooldown running? -/
def running (p : Player) (type : CooldownType) (misc t : UInt32) : Bool :=
  ((p.m_cooldownMap type).lookup misc).any fun cd => decide (t < cd.ExpireTime)

theorem checkMap_fst : (p.checkMap type misc t).1 = !p.running type misc t := by
  unfold checkMap running
  cases (p.m_cooldownMap type).lookup misc with
  | none => rfl
  | some cd =>
    by_cases h : t < cd.ExpireTime
    · simp [h]
    · simp [h]

/-- A look into one map leaves the rest of the player. -/
theorem checkMap_frame : (p.checkMap type misc t).2.m_globalCooldown = p.m_globalCooldown ∧
    ∀ type', type' ≠ type →
      (p.checkMap type misc t).2.m_cooldownMap type' = p.m_cooldownMap type' := by
  unfold checkMap
  cases (p.m_cooldownMap type).lookup misc with
  | none => exact ⟨rfl, fun _ _ => rfl⟩
  | some cd =>
    by_cases h : t < cd.ExpireTime
    · simp [h]
    · simp only [h, if_false]
      exact ⟨rfl, fun type' htype => Function.update_of_ne htype _ _⟩

theorem checkGlobal_fst : (p.checkGlobal sp t).1 =
    !(decide (sp.StartRecoveryTime ≠ 0) && decide (t < p.m_globalCooldown)) := by
  unfold checkGlobal
  by_cases htime : sp.StartRecoveryTime = 0
  · simp [htime]
  · by_cases hzero : p.m_globalCooldown = 0
    · simp [htime, hzero]
    · by_cases hlt : t < p.m_globalCooldown
      · simp [htime, hzero, hlt]
      · simp [htime, hzero, hlt]

theorem andThen_fst (r : Bool × Player) (check : Player → Bool × Player) :
    (andThen r check).1 = (r.1 && (check r.2).1) := by
  unfold andThen
  cases h : r.1 with
  | false => simp [h]
  | true => simp

/-- The answer: neither the category nor the spell is on cooldown, nor, for
a spell with a start recovery time, the player. -/
theorem Cooldown_CanCast_fst : (p.Cooldown_CanCast t sp).1 =
    (p.CooldownCheat ||
      (!(decide (sp.Category ≠ 0) && p.running .category sp.Category t) &&
        !p.running .spell sp.Id t &&
          !(decide (sp.StartRecoveryTime ≠ 0) && decide (t < p.m_globalCooldown)))) := by
  unfold Cooldown_CanCast
  by_cases hcheat : p.CooldownCheat = true
  · simp [hcheat]
  rw [if_neg hcheat, Bool.eq_false_iff.2 hcheat, Bool.false_or, andThen_fst, andThen_fst]
  -- the first check leaves the spells and the global cooldown
  have hfirst : ∀ r : Bool × Player, r.2.m_cooldownMap .spell = p.m_cooldownMap .spell →
      r.2.m_globalCooldown = p.m_globalCooldown →
      (r.2.checkMap .spell sp.Id t).1 = !p.running .spell sp.Id t ∧
      ((andThen r fun p => p.checkMap .spell sp.Id t).2.checkGlobal sp t).1 =
        !(decide (sp.StartRecoveryTime ≠ 0) && decide (t < p.m_globalCooldown)) := by
    intro r hmap hglobal
    constructor
    · rw [checkMap_fst, running, running, hmap]
    · rw [checkGlobal_fst]
      unfold andThen
      split
      · rw [checkMap_frame.1, hglobal]
      · rw [hglobal]
  by_cases hcategory : sp.Category = 0
  · rw [if_neg (not_not.2 hcategory)]
    obtain ⟨hspell, hglobal⟩ := hfirst (true, p) rfl rfl
    rw [hspell, hglobal]
    simp [hcategory]
  · rw [if_pos hcategory]
    have hframe := @checkMap_frame p t .category sp.Category
    obtain ⟨hsame, hmap⟩ := hframe
    obtain ⟨hspell, hglobal⟩ := hfirst _ (hmap .spell (by decide)) hsame
    rw [hspell, hglobal, checkMap_fst]
    simp [hcategory]

/-! ## A start and a cancel -/

/-- Neither the global cooldown nor one of the start category is running. -/
def Idle (p : Player) (t : UInt32) (sp : SpellEntry) : Prop :=
  ¬ t < p.m_globalCooldown ∧ p.running .category sp.StartRecoveryCategory t = false

/-- `Cooldown_AddStart` adds a cooldown. -/
def Starts (p : Player) (sp : SpellEntry) : Prop :=
  sp.StartRecoveryTime ≠ 0 ∧ p.CooldownCheat = false ∧ 0 < p.startTime sp

instance : Decidable (p.Idle t sp) := inferInstanceAs (Decidable (_ ∧ _))

instance : Decidable (p.Starts sp) := inferInstanceAs (Decidable (_ ∧ _ ∧ _))

/-- The start category is one that a cooldown is kept for. -/
def OwnCategory (sp : SpellEntry) : Prop :=
  sp.StartRecoveryCategory ≠ 0 ∧ sp.StartRecoveryCategory ≠ 133

instance : Decidable (OwnCategory sp) := inferInstanceAs (Decidable (_ ∧ _))

/-- When the cooldown of a start ends. -/
def startEnd (p : Player) (t : UInt32) (sp : SpellEntry) : UInt32 :=
  t + (p.startTime sp).toUInt32

/-- The state after both calls. -/
def cancelled (p : Player) (t t₂ : UInt32) (sp : SpellEntry) : Player :=
  (p.Cooldown_AddStart t sp).Cooldown_OnCancel t₂ sp

/-- The cancel leaves the cooldown of the start: it looks for it in the map,
or it has computed no time. -/
def Stuck (p : Player) (sp : SpellEntry) : Prop :=
  sp.StartRecoveryCategory = 133 ∨ p.cancelTime sp ≤ 0

instance : Decidable (p.Stuck sp) := inferInstanceAs (Decidable (_ ∨ _))

/-- The spells that the cooldown of a start keeps from being cast. -/
def Affects (sp other : SpellEntry) : Prop :=
  if OwnCategory sp then other.Category = sp.StartRecoveryCategory else other.StartRecoveryTime ≠ 0

instance : Decidable (Affects sp other) := by unfold Affects; infer_instance

theorem setMap_self (m : PlayerCooldownMap) : (p.setMap type m).m_cooldownMap type = m :=
  Function.update_self ..

theorem setMap_of_ne {type' : CooldownType} (h : type' ≠ type) (m : PlayerCooldownMap) :
    (p.setMap type m).m_cooldownMap type' = p.m_cooldownMap type' := Function.update_of_ne h ..

theorem running_setMap_self (m : PlayerCooldownMap) :
    (p.setMap type m).running type misc t =
      (m.lookup misc).any fun cd => decide (t < cd.ExpireTime) := by
  rw [running, setMap_self]

theorem running_setMap_of_ne {type' : CooldownType} (h : type' ≠ type) (m : PlayerCooldownMap) :
    (p.setMap type m).running type' misc t = p.running type' misc t := by
  rw [running, setMap_of_ne h, running]

/-- What has run out stays so. -/
theorem not_running_of_le (h : p.running type misc t = false) (ht : t ≤ t₂) :
    p.running type misc t₂ = false := by
  unfold running at h ⊢
  cases hcd : (p.m_cooldownMap type).lookup misc with
  | none => rfl
  | some cd =>
    rw [hcd, Option.any_some, decide_eq_false_iff_not] at h
    rw [Option.any_some, decide_eq_false_iff_not]
    exact fun hlt => h (UInt32.lt_of_le_of_lt ht hlt)

/-- A cooldown added where none is running. -/
theorem running_Cooldown_Add (hidle : p.running type misc t = false) (ht : t ≤ t₂)
    (time spellId itemId : UInt32) :
    (p._Cooldown_Add type misc time spellId itemId).running type misc t₂ = decide (t₂ < time) := by
  unfold _Cooldown_Add
  cases hcd : (p.m_cooldownMap type).lookup misc with
  | none => rw [running_setMap_self, AList.lookup_insert, Option.any_some]
  | some cd =>
    have hnot := not_running_of_le hidle ht
    unfold running at hnot
    rw [hcd, Option.any_some, decide_eq_false_iff_not] at hnot
    simp only
    split
    · rw [running_setMap_self, AList.lookup_insert, Option.any_some]
    case isFalse hge =>
      -- the entry ends no earlier, and has ended
      unfold running
      rw [hcd, Option.any_some]
      refine decide_eq_decide.2 (iff_of_false hnot ?_)
      exact fun hlt => hnot (UInt32.lt_of_lt_of_le hlt (UInt32.not_lt.1 hge))

/-- A cooldown added for one category leaves the others, and the spells. -/
theorem running_Cooldown_Add_of_ne {type' : CooldownType} {misc' : UInt32}
    (h : type' ≠ type ∨ misc' ≠ misc) (time spellId itemId : UInt32) :
    (p._Cooldown_Add type misc time spellId itemId).running type' misc' t =
      p.running type' misc' t := by
  have hset : ∀ cd, (p.setMap type ((p.m_cooldownMap type).insert misc cd)).running type' misc' t =
      p.running type' misc' t := by
    intro cd
    by_cases htype : type' = type
    · subst htype
      have hmisc := h.resolve_left (fun hne => hne rfl)
      rw [running_setMap_self, AList.lookup_insert_ne hmisc, running]
    · exact running_setMap_of_ne htype _
  unfold _Cooldown_Add
  cases (p.m_cooldownMap type).lookup misc with
  | none => exact hset _
  | some cd =>
    simp only
    split
    · exact hset _
    · rfl

theorem Cooldown_Add_frame (time spellId itemId : UInt32) :
    (p._Cooldown_Add type misc time spellId itemId).m_globalCooldown = p.m_globalCooldown ∧
    (p._Cooldown_Add type misc time spellId itemId).CooldownCheat = p.CooldownCheat ∧
    (p._Cooldown_Add type misc time spellId itemId).castSpeed = p.castSpeed := by
  unfold _Cooldown_Add
  cases (p.m_cooldownMap type).lookup misc with
  | none => exact ⟨rfl, rfl, rfl⟩
  | some cd =>
    simp only
    split
    · exact ⟨rfl, rfl, rfl⟩
    · exact ⟨rfl, rfl, rfl⟩

theorem Cooldown_AddStart_eq (h : p.Starts sp) : p.Cooldown_AddStart t sp =
    if OwnCategory sp then
      p._Cooldown_Add .category sp.StartRecoveryCategory (p.startEnd t sp) sp.Id 0
    else { p with m_globalCooldown := p.startEnd t sp } := by
  have hnot : ¬ (sp.StartRecoveryTime = 0 ∨ p.CooldownCheat = true) := by
    rw [h.2.1]
    simp [h.1]
  rw [Cooldown_AddStart, if_neg hnot, if_neg (Int32.not_le.2 h.2.2)]
  rfl

theorem Cooldown_OnCancel_eq (htime : sp.StartRecoveryTime ≠ 0) (hcheat : p.CooldownCheat = false) :
    p.Cooldown_OnCancel t sp =
      if p.cancelTime sp ≤ 0 then p
      else if sp.StartRecoveryCategory ≠ 0 then
        p.setMap .category ((p.m_cooldownMap .category).erase sp.StartRecoveryCategory)
      else { p with m_globalCooldown := t } := by
  have hnot : ¬ (sp.StartRecoveryTime = 0 ∨ p.CooldownCheat = true) := by
    rw [hcheat]
    simp [htime]
  rw [Cooldown_OnCancel, if_neg hnot]

/-- What is running after a cancel in an idle category or with an idle
global cooldown, told by what it was before. -/
structure Leaves (p s : Player) (sp : SpellEntry) (t₃ : UInt32) (stays : Prop) : Prop where
  cheat : s.CooldownCheat = p.CooldownCheat
  spell : ∀ misc, s.running .spell misc t₃ = p.running .spell misc t₃
  category : ∀ misc, misc ≠ 0 → (s.running .category misc t₃ = true ↔
    p.running .category misc t₃ = true ∨
      OwnCategory sp ∧ misc = sp.StartRecoveryCategory ∧ stays)
  global : t₃ < s.m_globalCooldown ↔ ¬ OwnCategory sp ∧ stays

theorem leaves_own (hown : OwnCategory sp) (hidle : p.Idle t sp) (hstarts : p.Starts sp)
    (ht : t ≤ t₂) (ht₃ : t₂ ≤ t₃) :
    Leaves p (p.cancelled t t₂ sp) sp t₃ (p.Stuck sp ∧ t₃ < p.startEnd t sp) := by
  have hle := UInt32.le_trans ht ht₃
  have hgone := not_running_of_le hidle.2 hle
  have hglobal : ¬ t₃ < p.m_globalCooldown := fun hlt => hidle.1 (UInt32.lt_of_le_of_lt hle hlt)
  let q := p._Cooldown_Add .category sp.StartRecoveryCategory (p.startEnd t sp) sp.Id 0
  have hframe : q.m_globalCooldown = p.m_globalCooldown ∧ q.CooldownCheat = p.CooldownCheat ∧
      q.castSpeed = p.castSpeed := Cooldown_Add_frame ..
  have hcancel : q.cancelTime sp = p.cancelTime sp := by rw [cancelTime, cancelTime, hframe.2.2]
  have hspell : ∀ misc, q.running .spell misc t₃ = p.running .spell misc t₃ := fun misc =>
    running_Cooldown_Add_of_ne (Or.inl (by decide)) ..
  have hother : ∀ misc, misc ≠ sp.StartRecoveryCategory →
      q.running .category misc t₃ = p.running .category misc t₃ := fun misc hmisc =>
    running_Cooldown_Add_of_ne (Or.inr hmisc) ..
  have hself : q.running .category sp.StartRecoveryCategory t₃ = decide (t₃ < p.startEnd t sp) :=
    running_Cooldown_Add hidle.2 hle ..
  have hs : p.cancelled t t₂ sp = q.Cooldown_OnCancel t₂ sp := by
    rw [cancelled, Cooldown_AddStart_eq hstarts, if_pos hown]
  rw [hs, Cooldown_OnCancel_eq hstarts.1 (hframe.2.1.trans hstarts.2.1), hcancel]
  by_cases hzero : p.cancelTime sp ≤ 0
  · -- the cancel does nothing
    have hstuck : p.Stuck sp := Or.inr hzero
    rw [if_pos hzero]
    refine ⟨hframe.2.1, hspell, ?_, ?_⟩
    · intro misc _
      by_cases hmisc : misc = sp.StartRecoveryCategory
      · subst hmisc
        simp [hself, hgone, hown, hstuck]
      · simp [hother misc hmisc, hmisc]
    · rw [hframe.1]
      simp [hglobal, hown]
  · -- the entry is erased
    have hstuck : ¬ p.Stuck sp := fun h => h.elim hown.2 hzero
    rw [if_neg hzero, if_pos hown.1]
    refine ⟨hframe.2.1, ?_, ?_, ?_⟩
    · intro misc
      rw [running_setMap_of_ne (by decide), hspell]
    · intro misc _
      by_cases hmisc : misc = sp.StartRecoveryCategory
      · subst hmisc
        rw [running_setMap_self, AList.lookup_erase]
        simp [hgone, hstuck]
      · rw [running_setMap_self, AList.lookup_erase_ne hmisc]
        have hsame := hother misc hmisc
        unfold running at hsame
        simp [hsame, running, hmisc]
    · change t₃ < q.m_globalCooldown ↔ _
      rw [hframe.1]
      simp [hglobal, hown]

theorem leaves_global (hown : ¬ OwnCategory sp) (hidle : p.Idle t sp) (hstarts : p.Starts sp)
    (ht : t ≤ t₂) (ht₃ : t₂ ≤ t₃) :
    Leaves p (p.cancelled t t₂ sp) sp t₃ (p.Stuck sp ∧ t₃ < p.startEnd t sp) := by
  have hgone := not_running_of_le hidle.2 (UInt32.le_trans ht ht₃)
  let q : Player := { p with m_globalCooldown := p.startEnd t sp }
  have hs : p.cancelled t t₂ sp = q.Cooldown_OnCancel t₂ sp := by
    rw [cancelled, Cooldown_AddStart_eq hstarts, if_neg hown]
  have hcancel : q.cancelTime sp = p.cancelTime sp := rfl
  rw [hs, Cooldown_OnCancel_eq (p := q) hstarts.1 hstarts.2.1, hcancel]
  by_cases hzero : p.cancelTime sp ≤ 0
  · have hstuck : p.Stuck sp := Or.inr hzero
    rw [if_pos hzero]
    refine ⟨rfl, fun _ => rfl, ?_, ?_⟩
    · intro misc _
      simp [hown, running, q]
    · simp [hown, hstuck, q]
  · rw [if_neg hzero]
    by_cases hcategory : sp.StartRecoveryCategory = 0
    · -- the global cooldown ends with the cancel
      have hstuck : ¬ p.Stuck sp := by
        rintro (h | h)
        · rw [hcategory] at h
          exact absurd h (by decide)
        · exact hzero h
      rw [if_neg (not_not.2 hcategory)]
      refine ⟨rfl, fun _ => rfl, ?_, ?_⟩
      · intro misc _
        simp [hown, running, q]
      · simp [hstuck, UInt32.not_lt.2 ht₃]
    · -- category 133, of which nothing is running
      have hstuck : p.Stuck sp := by
        by_contra hnot
        exact hown ⟨hcategory, fun h => hnot (Or.inl h)⟩
      rw [if_pos hcategory]
      refine ⟨rfl, ?_, ?_, ?_⟩
      · intro misc
        rw [running_setMap_of_ne (by decide)]
        rfl
      · intro misc _
        rw [running_setMap_self]
        by_cases hmisc : misc = sp.StartRecoveryCategory
        · subst hmisc
          rw [AList.lookup_erase]
          simp [hgone, hown]
        · rw [AList.lookup_erase_ne hmisc]
          simp [hown, running, q]
      · change t₃ < p.startEnd t sp ↔ _
        simp [hown, hstuck]

theorem canCast_iff (hcheat : p.CooldownCheat = false) : (p.Cooldown_CanCast t other).1 = true ↔
    ¬ (other.Category ≠ 0 ∧ p.running .category other.Category t = true) ∧
      p.running .spell other.Id t = false ∧
      ¬ (other.StartRecoveryTime ≠ 0 ∧ t < p.m_globalCooldown) := by
  rw [Cooldown_CanCast_fst, hcheat]
  simp [and_assoc, or_iff_not_imp_left]

/-- The answer after a start and a cancel: that of before, less what the
start has left behind. -/
theorem canCast_cancelled (hidle : p.Idle t sp) (hstarts : p.Starts sp) (ht : t ≤ t₂)
    (ht₃ : t₂ ≤ t₃) (other : SpellEntry) :
    ((p.cancelled t t₂ sp).Cooldown_CanCast t₃ other).1 = true ↔
      (p.Cooldown_CanCast t₃ other).1 = true ∧
        ¬ (Affects sp other ∧ p.Stuck sp ∧ t₃ < p.startEnd t sp) := by
  have hglobal : ¬ t₃ < p.m_globalCooldown := fun hlt =>
    hidle.1 (UInt32.lt_of_le_of_lt (UInt32.le_trans ht ht₃) hlt)
  have hleaves : Leaves p (p.cancelled t t₂ sp) sp t₃ (p.Stuck sp ∧ t₃ < p.startEnd t sp) := by
    by_cases hown : OwnCategory sp
    · exact leaves_own hown hidle hstarts ht ht₃
    · exact leaves_global hown hidle hstarts ht ht₃
  rw [canCast_iff (hleaves.cheat.trans hstarts.2.1), canCast_iff hstarts.2.1, hleaves.spell]
  constructor
  · rintro ⟨hcategory, hspell, hend⟩
    have hbefore : ¬ (other.Category ≠ 0 ∧ p.running .category other.Category t₃ = true) := by
      rintro ⟨hne, hrun⟩
      exact hcategory ⟨hne, (hleaves.category _ hne).2 (Or.inl hrun)⟩
    refine ⟨⟨hbefore, hspell, fun h => hglobal h.2⟩, ?_⟩
    rintro ⟨haffects, hstay⟩
    by_cases hown : OwnCategory sp
    · have heq : other.Category = sp.StartRecoveryCategory := by rwa [Affects, if_pos hown] at haffects
      have hne : other.Category ≠ 0 := heq ▸ hown.1
      exact hcategory ⟨hne, (hleaves.category _ hne).2 (Or.inr ⟨hown, heq, hstay⟩)⟩
    · rw [Affects, if_neg hown] at haffects
      exact hend ⟨haffects, hleaves.global.2 ⟨hown, hstay⟩⟩
  · rintro ⟨⟨hcategory, hspell, -⟩, hstay⟩
    refine ⟨?_, hspell, ?_⟩
    · rintro ⟨hne, hrun⟩
      rcases (hleaves.category _ hne).1 hrun with hrun | ⟨hown, heq, hleft⟩
      · exact hcategory ⟨hne, hrun⟩
      · exact hstay ⟨by rwa [Affects, if_pos hown], hleft⟩
    · rintro ⟨hne, hlt⟩
      obtain ⟨hown, hleft⟩ := hleaves.global.1 hlt
      exact hstay ⟨by rwa [Affects, if_neg hown], hleft⟩

/-- The clock does not wrap before the cooldown of a start ends. -/
theorem lt_startEnd_iff (hstarts : p.Starts sp) :
    t < p.startEnd t sp ↔ t.toNat + (p.startTime sp).toNatClampNeg < 2 ^ 32 := by
  have hpos : 0 < (p.startTime sp).toInt := Int32.lt_iff_toInt_lt.1 hstarts.2.2
  have hnat : (p.startTime sp).toUInt32.toNat = (p.startTime sp).toInt.toNat :=
    Int32.toNat_toUInt32_of_le (Int32.le_of_lt hstarts.2.2)
  have hlt := (p.startTime sp).toNatClampNeg_lt
  unfold Int32.toNatClampNeg at hlt ⊢
  rw [UInt32.lt_iff_toNat_lt, startEnd, UInt32.toNat_add, hnat]
  omega

theorem cancel_undoes_iff (p : Player) (sp : SpellEntry) (t : UInt32) (hidle : p.Idle t sp)
    (hstarts : p.Starts sp) :
    (∀ t₂ t₃ other, t ≤ t₂ → t₂ ≤ t₃ →
      (((p.Cooldown_AddStart t sp).Cooldown_OnCancel t₂ sp).Cooldown_CanCast t₃ other).1 =
        (p.Cooldown_CanCast t₃ other).1) ↔
    (sp.StartRecoveryCategory ≠ 133 ∧ 0 < p.cancelTime sp) ∨
      2 ^ 32 ≤ t.toNat + (p.startTime sp).toNatClampNeg ∨
      ∀ id, ∃ cd, (p.m_cooldownMap .spell).lookup id = some cd ∧
        p.startEnd t sp ≤ cd.ExpireTime := by
  have hanswer := fun t₂ t₃ other (ht : t ≤ t₂) (ht₃ : t₂ ≤ t₃) =>
    canCast_cancelled hidle hstarts ht ht₃ other
  have hstuck : sp.StartRecoveryCategory ≠ 133 ∧ 0 < p.cancelTime sp ↔ ¬ p.Stuck sp := by
    rw [Stuck, not_or, Int32.not_le]
  rw [hstuck, ← not_lt, ← lt_startEnd_iff hstarts]
  constructor
  · intro h
    by_contra hnot
    rw [not_or, not_or, not_not, not_not] at hnot
    obtain ⟨hleft, hlt, hids⟩ := hnot
    refine hids fun id => ?_
    -- a spell that the start affects and nothing else does, a moment before the end
    let other : SpellEntry :=
      ⟨id, if OwnCategory sp then sp.StartRecoveryCategory else 0, 0,
        if OwnCategory sp then 0 else 1, fun _ => 0⟩
    have haffects : Affects sp other := by
      unfold Affects
      by_cases hown : OwnCategory sp
      · simp [hown, other]
      · simp [hown, other]
    rw [UInt32.lt_iff_toNat_lt] at hlt
    have hpred : (p.startEnd t sp - 1).toNat = (p.startEnd t sp).toNat - 1 := by
      rw [UInt32.toNat_sub_of_le _ _ (UInt32.le_iff_toNat_le.2 (by change 1 ≤ _; omega))]
      rfl
    have hle : t ≤ p.startEnd t sp - 1 := by
      rw [UInt32.le_iff_toNat_le, hpred]
      omega
    have hbefore : p.startEnd t sp - 1 < p.startEnd t sp := by
      rw [UInt32.lt_iff_toNat_lt, hpred]
      omega
    have hsame := h t (p.startEnd t sp - 1) other (UInt32.le_refl t) hle
    have hfalse : (p.Cooldown_CanCast (p.startEnd t sp - 1) other).1 ≠ true := by
      intro htrue
      rw [htrue] at hsame
      exact ((hanswer t _ other (UInt32.le_refl t) hle).1 hsame).2 ⟨haffects, hleft, hbefore⟩
    have hrun : p.running .spell id (p.startEnd t sp - 1) = true := by
      by_contra hidleSpell
      refine hfalse ((canCast_iff hstarts.2.1).2 ⟨?_, Bool.eq_false_iff.2 hidleSpell, ?_⟩)
      · rintro ⟨hne, hrun⟩
        have hown : OwnCategory sp := by
          by_contra hown
          simp [other, hown] at hne
        simp only [other, if_pos hown] at hrun
        rw [not_running_of_le hidle.2 hle] at hrun
        cases hrun
      · rintro ⟨-, hlt'⟩
        exact hidle.1 (UInt32.lt_of_le_of_lt hle hlt')
    unfold running at hrun
    cases hcd : (p.m_cooldownMap .spell).lookup id with
    | none => simp [hcd] at hrun
    | some cd =>
      rw [hcd, Option.any_some, decide_eq_true_iff, UInt32.lt_iff_toNat_lt, hpred] at hrun
      exact ⟨cd, rfl, UInt32.le_iff_toNat_le.2 (by omega)⟩
  · intro h t₂ t₃ other ht ht₃
    refine Bool.eq_iff_iff.2 ((hanswer t₂ t₃ other ht ht₃).trans (and_iff_left_of_imp ?_))
    rintro hcan ⟨-, hleft, hbefore⟩
    rcases h with h | h | h
    · exact h hleft
    · exact h (UInt32.lt_of_le_of_lt (UInt32.le_trans ht ht₃) hbefore)
    · -- the spell itself is on cooldown
      obtain ⟨cd, hcd, hle⟩ := h other.Id
      have hspell := ((canCast_iff hstarts.2.1).1 hcan).2.1
      rw [running, hcd, Option.any_some, decide_eq_false_iff_not] at hspell
      exact hspell (UInt32.lt_of_lt_of_le hbefore hle)

/-- No cooldowns, a cast speed of 1 and no modifiers. -/
def fresh : Player :=
  ⟨fun _ => ∅, 0, false, ⟨true, UInt32.toInt32⟩, ModifierPair.none⟩

def spellOf (id category startCategory : UInt32) : SpellEntry :=
  ⟨id, category, startCategory, 1500, fun _ => 0⟩

theorem cancel_undoes_fresh : fresh.Starts (spellOf 116 0 7) ∧
    ∀ t₂ t₃ other, 1000 ≤ t₂ → t₂ ≤ t₃ →
      (((fresh.Cooldown_AddStart 1000 (spellOf 116 0 7)).Cooldown_OnCancel t₂
        (spellOf 116 0 7)).Cooldown_CanCast t₃ other).1 = (fresh.Cooldown_CanCast t₃ other).1 :=
  ⟨by decide, (cancel_undoes_iff fresh (spellOf 116 0 7) 1000 (by decide) (by decide)).2
    (Or.inl (by decide))⟩

/-- A spell of the category of the global cooldown: the cast is cancelled at
once, and no spell can be cast for the next one and a half seconds. -/
theorem cancel_leaves_global :
    let s := (fresh.Cooldown_AddStart 1000 (spellOf 116 0 133)).Cooldown_OnCancel 1000
      (spellOf 116 0 133)
    fresh.Idle 1000 (spellOf 116 0 133) ∧ fresh.Starts (spellOf 116 0 133) ∧
      s.m_globalCooldown = 2500 ∧ (s.Cooldown_CanCast 2499 (spellOf 133 0 133)).1 = false ∧
      (fresh.Cooldown_CanCast 2499 (spellOf 133 0 133)).1 = true := by
  decide

end Player

/-! ## Relogs -/

variable {guid mstime mstime' unixtime unixtime' misc : UInt32} {type : CooldownType}
  {cd cd' : PlayerCooldown} {p : Player} {n : Nat} {table : List Row}

/-- The milliseconds that are left. -/
def remaining (mstime : UInt32) (cd : PlayerCooldown) : Nat := cd.ExpireTime.toNat - mstime.toNat

/-- The row of a cooldown. -/
def rowOf (guid mstime unixtime : UInt32) (type : CooldownType) (misc : UInt32)
    (cd : PlayerCooldown) : Row :=
  ⟨guid, type.index, misc, (cd.ExpireTime - mstime) / 1000 + unixtime, cd.SpellId, cd.ItemId⟩

/-- What a row is loaded as. -/
def Row.restored (mstime unixtime : UInt32) (row : Row) : Option PlayerCooldown :=
  if unixtime > row.cooldown_expire_time then none
  else if row.cooldown_expire_time - unixtime < 10 then none
  else some ⟨mstime + (row.cooldown_expire_time - unixtime) * 1000, row.cooldown_itemid,
    row.cooldown_spellid⟩

/-- A cooldown that is saved at one time and loaded at another. -/
def relogged (guid mstime unixtime mstime' unixtime' : UInt32) (type : CooldownType) (misc : UInt32)
    (cd : PlayerCooldown) : Option PlayerCooldown :=
  if 10000 ≤ remaining mstime cd then
    (rowOf guid mstime unixtime type misc cd).restored mstime' unixtime'
  else none

/-- Both tests of the walk at once. -/
theorem not_saved_iff : mstime ≥ cd.ExpireTime ∨ cd.ExpireTime - mstime < 10000 ↔
    remaining mstime cd < 10000 := by
  unfold remaining
  by_cases hle : cd.ExpireTime ≤ mstime
  · have hnat := UInt32.le_iff_toNat_le.1 hle
    exact iff_of_true (Or.inl hle) (by omega)
  · have hlt := UInt32.le_iff_toNat_le.1 (UInt32.le_of_lt (UInt32.not_le.1 hle))
    have hsub := UInt32.toNat_sub_of_le _ _ (UInt32.le_iff_toNat_le.2 hlt)
    have hconst : (10000 : UInt32).toNat = 10000 := rfl
    rw [UInt32.lt_iff_toNat_lt, hsub, hconst]
    exact or_iff_right hle

theorem saveLoop_rows (es : List (Sigma fun _ : UInt32 => PlayerCooldown))
    (m : PlayerCooldownMap) : (saveLoop guid mstime unixtime type es m).2 =
      (es.filter fun e => decide (10000 ≤ remaining mstime e.2)).map
        fun e => rowOf guid mstime unixtime type e.1 e.2 := by
  induction es generalizing m with
  | nil => rfl
  | cons e rest ih =>
    obtain ⟨misc, cd⟩ := e
    have hskip := @not_saved_iff mstime cd
    unfold saveLoop
    by_cases hexpired : mstime ≥ cd.ExpireTime
    · have hlt := hskip.1 (Or.inl hexpired)
      rw [if_pos hexpired, ih, List.filter_cons_of_neg (by simpa using hlt)]
    · rw [if_neg hexpired]
      by_cases hsmall : cd.ExpireTime - mstime < 10000
      · have hlt := hskip.1 (Or.inr hsmall)
        rw [if_pos hsmall, ih, List.filter_cons_of_neg (by simpa using hlt)]
      · have hge : 10000 ≤ remaining mstime cd := by
          by_contra hlt
          exact (hskip.2 (not_le.1 hlt)).elim hexpired hsmall
        rw [if_neg hsmall, List.filter_cons_of_pos (by simpa using hge), List.map_cons, ← ih m]
        rfl

/-- What a loaded cooldown is put into the map as. -/
def insertLoaded (loaded : UInt32 → PlayerCooldown → Option PlayerCooldown) (m : PlayerCooldownMap)
    (e : Sigma fun _ : UInt32 => PlayerCooldown) : PlayerCooldownMap :=
  match loaded e.1 e.2 with
  | none => m
  | some cd => insertNew m e.1 cd

theorem loadRow_rowOf (maps : CooldownType → PlayerCooldownMap) :
    loadRow mstime' unixtime' maps (returnedRow (rowOf guid mstime unixtime type misc cd).select) =
      Function.update maps type
        (match (rowOf guid mstime unixtime type misc cd).restored mstime' unixtime' with
        | none => maps type
        | some cd => insertNew (maps type) misc cd) := by
  have htype : typeOf type.index = some type := by cases type <;> rfl
  have hget : ∀ x : UInt32, (Literal.number x.toNat).returned.GetUInt32 = x := getUInt32_number
  have h0 : (returnedRow (rowOf guid mstime unixtime type misc cd).select 0).GetUInt32 =
    type.index := hget _
  have h1 : (returnedRow (rowOf guid mstime unixtime type misc cd).select 1).GetUInt32 = misc :=
    hget _
  have h2 : (returnedRow (rowOf guid mstime unixtime type misc cd).select 2).GetUInt32 =
    (rowOf guid mstime unixtime type misc cd).cooldown_expire_time := hget _
  have h3 : (returnedRow (rowOf guid mstime unixtime type misc cd).select 3).GetUInt32 =
    cd.SpellId := hget _
  have h4 : (returnedRow (rowOf guid mstime unixtime type misc cd).select 4).GetUInt32 =
    cd.ItemId := hget _
  unfold loadRow
  rw [h0, htype]
  simp only [h1, h2, h3, h4]
  unfold Row.restored
  split
  · rw [Function.update_eq_self]
  · split
    · rw [Function.update_eq_self]
    · rfl

/-- Loading the saved cooldowns of one map changes that map only. -/
theorem foldl_loadRow (es : List (Sigma fun _ : UInt32 => PlayerCooldown))
    (maps : CooldownType → PlayerCooldownMap) :
    ((((es.filter fun e => decide (10000 ≤ remaining mstime e.2)).map
        fun e => rowOf guid mstime unixtime type e.1 e.2).map fun row => returnedRow row.select).foldl
      (loadRow mstime' unixtime') maps) =
      Function.update maps type
        (es.foldl (insertLoaded (relogged guid mstime unixtime mstime' unixtime' type)) (maps type)) := by
  induction es generalizing maps with
  | nil => exact (Function.update_eq_self type maps).symm
  | cons e rest ih =>
    rw [List.foldl_cons]
    by_cases hsaved : 10000 ≤ remaining mstime e.2
    · rw [List.filter_cons_of_pos (by simpa using hsaved), List.map_cons, List.map_cons,
        List.foldl_cons, ih, loadRow_rowOf, Function.update_self, Function.update_idem]
      congr 2
      unfold insertLoaded relogged
      rw [if_pos hsaved]
    · rw [List.filter_cons_of_neg (by simpa using hsaved), ih]
      congr 2
      unfold insertLoaded relogged
      rw [if_neg hsaved]

theorem lookup_insertNew (m : PlayerCooldownMap) (misc k : UInt32) (cd : PlayerCooldown) :
    (insertNew m misc cd).lookup k = (m.lookup k).or (if k = misc then some cd else none) := by
  unfold insertNew
  by_cases hmem : misc ∈ m
  · rw [if_pos hmem]
    by_cases hk : k = misc
    · subst hk
      obtain ⟨old, hold⟩ := Option.isSome_iff_exists.1 (AList.lookup_isSome.2 hmem)
      rw [hold, Option.some_or]
    · rw [if_neg hk, Option.or_none]
  · rw [if_neg hmem]
    by_cases hk : k = misc
    · subst hk
      rw [AList.lookup_insert, AList.lookup_eq_none.2 hmem, if_pos rfl, Option.none_or]
    · rw [AList.lookup_insert_ne hk, if_neg hk, Option.or_none]

/-- An entry of the map as it was, or what the entry of the list is loaded
as. -/
theorem lookup_foldl_insertLoaded (loaded : UInt32 → PlayerCooldown → Option PlayerCooldown)
    (es : List (Sigma fun _ : UInt32 => PlayerCooldown)) (hkeys : es.NodupKeys)
    (m : PlayerCooldownMap) (k : UInt32) :
    (es.foldl (insertLoaded loaded) m).lookup k =
      (m.lookup k).or ((es.dlookup k).bind (loaded k)) := by
  induction es generalizing m with
  | nil => simp
  | cons e rest ih =>
    obtain ⟨misc, cd⟩ := e
    obtain ⟨hnot, hrest⟩ := List.nodupKeys_cons.1 hkeys
    have hone : (insertLoaded loaded m ⟨misc, cd⟩).lookup k =
        (m.lookup k).or (if k = misc then loaded misc cd else none) := by
      unfold insertLoaded
      cases hloaded : loaded misc cd with
      | none => simp
      | some cd' => exact lookup_insertNew m misc k cd'
    rw [List.foldl_cons, ih hrest, hone, Option.or_assoc]
    by_cases hk : k = misc
    · subst hk
      have hnone : rest.dlookup k = none := List.dlookup_eq_none.2 hnot
      rw [if_pos rfl, hnone, List.dlookup_cons_eq, Option.bind_none, Option.or_none, Option.bind_some]
    · rw [if_neg hk, List.dlookup_cons_ne _ _ hk, Option.none_or]

/-- A relog, one cooldown at a time. -/
theorem lookup_relog (p : Player) (table : List Row) (u u' : Nat) :
    (_LoadPlayerCooldowns guid mstime' u' (_SavePlayerCooldowns guid mstime u p table).2 type).lookup
        misc =
      ((p.m_cooldownMap type).lookup misc).bind
        (relogged guid mstime (UInt32.ofNat u) mstime' (UInt32.ofNat u') type misc) := by
  have hrows : (_SavePlayerCooldowns guid mstime u p table).2.filter
        (fun row => decide (row.player_guid = guid)) =
      (((p.m_cooldownMap .spell).entries.filter
        fun e => decide (10000 ≤ remaining mstime e.2)).map
          fun e => rowOf guid mstime (UInt32.ofNat u) .spell e.1 e.2) ++
      (((p.m_cooldownMap .category).entries.filter
        fun e => decide (10000 ≤ remaining mstime e.2)).map
          fun e => rowOf guid mstime (UInt32.ofNat u) .category e.1 e.2) := by
    simp only [_SavePlayerCooldowns, saveLoop_rows, List.filter_append]
    have hothers : (table.filter fun row => decide (row.player_guid ≠ guid)).filter
        (fun row => decide (row.player_guid = guid)) = [] := by
      rw [List.filter_filter, List.filter_eq_nil_iff]
      intro row _
      by_cases hguid : row.player_guid = guid
      · simp [hguid]
      · simp [hguid]
    have hown : ∀ (type : CooldownType) (es : List (Sigma fun _ : UInt32 => PlayerCooldown)),
        (es.map fun e => rowOf guid mstime (UInt32.ofNat u) type e.1 e.2).filter
          (fun row => decide (row.player_guid = guid)) =
        es.map fun e => rowOf guid mstime (UInt32.ofNat u) type e.1 e.2 := by
      intro type es
      rw [List.filter_eq_self]
      intro row hrow
      obtain ⟨e, -, rfl⟩ := List.mem_map.1 hrow
      exact decide_eq_true rfl
    rw [hothers, hown, hown, List.nil_append]
  rw [_LoadPlayerCooldowns, hrows, List.map_append, List.foldl_append, foldl_loadRow, foldl_loadRow]
  have hloaded := fun type' => lookup_foldl_insertLoaded
    (relogged guid mstime (UInt32.ofNat u) mstime' (UInt32.ofNat u') type')
    (p.m_cooldownMap type').entries (p.m_cooldownMap type').nodupKeys ∅ misc
  have hresult : ∀ type', ((p.m_cooldownMap type').entries.foldl
      (insertLoaded (relogged guid mstime (UInt32.ofNat u) mstime' (UInt32.ofNat u') type')) ∅).lookup
        misc = ((p.m_cooldownMap type').lookup misc).bind
          (relogged guid mstime (UInt32.ofNat u) mstime' (UInt32.ofNat u') type' misc) := by
    intro type'
    rw [hloaded, AList.lookup_empty, Option.none_or]
    rfl
  cases type with
  | spell =>
    rw [Function.update_of_ne (by decide), Function.update_self]
    exact hresult .spell
  | category =>
    rw [Function.update_self, Function.update_of_ne (by decide)]
    exact hresult .category

/-- The seconds of unix time do not wrap while the player is offline, nor
before a cooldown ends. -/
structure UnixTimeFits (p : Player) (mstime : UInt32) (u n : Nat) : Prop where
  offline : u % 2 ^ 32 + n < 2 ^ 32
  ends : ∀ type misc cd, (p.m_cooldownMap type).lookup misc = some cd →
    u % 2 ^ 32 + remaining mstime cd / 1000 < 2 ^ 32

/-- The clock of the loading server does not wrap before a cooldown ends. -/
def ClockFits (p : Player) (mstime mstime' : UInt32) (n : Nat) : Prop :=
  ∀ type misc cd, (p.m_cooldownMap type).lookup misc = some cd →
    mstime'.toNat + (remaining mstime cd - n * 1000) < 2 ^ 32

/-- The cooldowns with ten whole seconds left after `n` seconds, and nothing
else, with the same spell and item and less than a second shorter. -/
structure SurvivesRelog (p : Player) (mstime mstime' : UInt32) (n : Nat)
    (maps : CooldownType → PlayerCooldownMap) : Prop where
  restored : ∀ type misc, misc ∈ maps type ↔
    ∃ cd, (p.m_cooldownMap type).lookup misc = some cd ∧ 10000 + n * 1000 ≤ remaining mstime cd
  same : ∀ type misc cd cd', (p.m_cooldownMap type).lookup misc = some cd →
    (maps type).lookup misc = some cd' →
    cd'.ItemId = cd.ItemId ∧ cd'.SpellId = cd.SpellId ∧
      remaining mstime' cd' + n * 1000 ≤ remaining mstime cd ∧
      remaining mstime cd < remaining mstime' cd' + n * 1000 + 1000

/-- One cooldown, where nothing wraps: the seconds left, less those offline. -/
theorem relogged_eq {u : Nat} (guid : UInt32) (type : CooldownType) (misc : UInt32)
    (hoffline : u % 2 ^ 32 + n < 2 ^ 32)
    (hends : u % 2 ^ 32 + remaining mstime cd / 1000 < 2 ^ 32)
    (hclock : mstime'.toNat + (remaining mstime cd - n * 1000) < 2 ^ 32) :
    (10000 + n * 1000 ≤ remaining mstime cd →
      ∃ cd', relogged guid mstime (UInt32.ofNat u) mstime' (UInt32.ofNat (u + n)) type misc cd =
          some cd' ∧ cd'.ItemId = cd.ItemId ∧ cd'.SpellId = cd.SpellId ∧
        remaining mstime' cd' = (remaining mstime cd / 1000 - n) * 1000) ∧
    (remaining mstime cd < 10000 + n * 1000 →
      relogged guid mstime (UInt32.ofNat u) mstime' (UInt32.ofNat (u + n)) type misc cd = none) := by
  unfold relogged
  by_cases hsaved : 10000 ≤ remaining mstime cd
  swap
  · rw [if_neg hsaved]
    exact ⟨fun h => by omega, fun _ => rfl⟩
  rw [if_pos hsaved, Row.restored]
  have hu : (UInt32.ofNat u).toNat = u % 2 ^ 32 := UInt32.toNat_ofNat'
  have hu' : (UInt32.ofNat (u + n)).toNat = u % 2 ^ 32 + n := by
    rw [UInt32.toNat_ofNat']
    omega
  have hsub : (cd.ExpireTime - mstime).toNat = remaining mstime cd := by
    unfold remaining at hsaved ⊢
    exact UInt32.toNat_sub_of_le _ _ (UInt32.le_iff_toNat_le.2 (by omega))
  have hexpire : (rowOf guid mstime (UInt32.ofNat u) type misc cd).cooldown_expire_time.toNat =
      u % 2 ^ 32 + remaining mstime cd / 1000 := by
    change ((cd.ExpireTime - mstime) / 1000 + UInt32.ofNat u).toNat = _
    have hconst : (1000 : UInt32).toNat = 1000 := rfl
    rw [UInt32.toNat_add, UInt32.toNat_div, hsub, hu, hconst]
    omega
  by_cases hpast : (rowOf guid mstime (UInt32.ofNat u) type misc cd).cooldown_expire_time <
      UInt32.ofNat (u + n)
  · rw [if_pos hpast]
    rw [UInt32.lt_iff_toNat_lt, hexpire, hu'] at hpast
    exact ⟨fun h => by omega, fun _ => rfl⟩
  rw [if_neg hpast]
  have hle := UInt32.not_lt.1 hpast
  have hleft := UInt32.toNat_sub_of_le _ _ hle
  rw [UInt32.le_iff_toNat_le, hexpire, hu'] at hle
  rw [hexpire, hu'] at hleft
  have hten : (10 : UInt32).toNat = 10 := rfl
  by_cases hshort : (rowOf guid mstime (UInt32.ofNat u) type misc cd).cooldown_expire_time -
      UInt32.ofNat (u + n) < 10
  · rw [if_pos hshort]
    rw [UInt32.lt_iff_toNat_lt, hleft, hten] at hshort
    exact ⟨fun h => by omega, fun _ => rfl⟩
  rw [if_neg hshort]
  rw [UInt32.lt_iff_toNat_lt, hleft, hten] at hshort
  refine ⟨fun _ => ⟨_, rfl, rfl, rfl, ?_⟩, fun h => by omega⟩
  have hmul : ((rowOf guid mstime (UInt32.ofNat u) type misc cd).cooldown_expire_time -
      UInt32.ofNat (u + n)).toNat * 1000 = (remaining mstime cd / 1000 - n) * 1000 := by
    rw [hleft]
    omega
  have hconst : (1000 : UInt32).toNat = 1000 := rfl
  unfold remaining at hmul hclock hends ⊢
  rw [UInt32.toNat_add, UInt32.toNat_mul, hconst, hmul]
  omega

theorem survives_relog (guid mstime mstime' : UInt32) (u n : Nat) (p : Player) (table : List Row)
    (hunix : UnixTimeFits p mstime u n) (hclock : ClockFits p mstime mstime' n) :
    SurvivesRelog p mstime mstime' n
      (_LoadPlayerCooldowns guid mstime' (u + n) (_SavePlayerCooldowns guid mstime u p table).2) := by
  constructor
  · intro type misc
    rw [← AList.lookup_isSome, lookup_relog]
    cases hcd : (p.m_cooldownMap type).lookup misc with
    | none => simp
    | some cd =>
      obtain ⟨hkept, hlost⟩ := relogged_eq guid type misc
        hunix.offline (hunix.ends type misc cd hcd) (hclock type misc cd hcd)
      rw [Option.bind_some]
      constructor
      · intro hsome
        refine ⟨cd, rfl, ?_⟩
        by_contra hlt
        rw [hlost (not_le.1 hlt)] at hsome
        cases hsome
      · rintro ⟨cd₀, hcd₀, hle⟩
        obtain rfl := Option.some.inj hcd₀
        obtain ⟨cd', hcd', -⟩ := hkept hle
        rw [hcd']
        rfl
  · intro type misc cd cd' hcd hcd'
    rw [lookup_relog, hcd, Option.bind_some] at hcd'
    obtain ⟨hkept, hlost⟩ := relogged_eq guid type misc
      hunix.offline (hunix.ends type misc cd hcd) (hclock type misc cd hcd)
    by_cases hle : 10000 + n * 1000 ≤ remaining mstime cd
    · obtain ⟨cd₁, hcd₁, hitem, hspell, hleft⟩ := hkept hle
      obtain rfl := Option.some.inj (hcd₁.symm.trans hcd')
      exact ⟨hitem, hspell, by omega, by omega⟩
    · rw [hlost (not_le.1 hle)] at hcd'
      cases hcd'

/-- A cooldown of an hour. -/
def hearth : Player :=
  { Player.fresh with m_cooldownMap := fun _ => AList.singleton 8690 ⟨3605000, 6948, 8690⟩ }

theorem hearth_lookup (h : (hearth.m_cooldownMap type).lookup misc = some cd) :
    cd = ⟨3605000, 6948, 8690⟩ := by
  have hmem := AList.mem_lookup_iff.1 h
  change _ ∈ [_] at hmem
  rw [List.mem_singleton] at hmem
  cases hmem
  rfl

theorem survives_relog_hearth :
    SurvivesRelog hearth 5000 70000 60
      (_LoadPlayerCooldowns 1 70000 (1200000000 + 60)
        (_SavePlayerCooldowns 1 5000 1200000000 hearth []).2) := by
  refine survives_relog 1 5000 70000 1200000000 60 hearth [] ⟨by decide, ?_⟩ ?_
  · intro type misc cd h
    rw [hearth_lookup h]
    decide
  · intro type misc cd h
    rw [hearth_lookup h]
    decide

/-- After `2 ^ 32` seconds the unix time is what it was, and the cooldown is
back in full. -/
theorem relog_unix_wrap :
    let maps := _LoadPlayerCooldowns 1 70000 (1200000000 + 2 ^ 32)
      (_SavePlayerCooldowns 1 5000 1200000000 hearth []).2
    ClockFits hearth 5000 70000 (2 ^ 32) ∧
      (maps .spell).lookup 8690 = some ⟨3670000, 6948, 8690⟩ ∧
      ¬ SurvivesRelog hearth 5000 70000 (2 ^ 32) maps := by
  intro maps
  have hlookup : (maps .spell).lookup 8690 = some ⟨3670000, 6948, 8690⟩ := by
    rw [lookup_relog]
    decide
  refine ⟨?_, hlookup, ?_⟩
  · intro type misc cd h
    rw [hearth_lookup h]
    decide
  · intro h
    obtain ⟨cd, hcd, hle⟩ := (h.restored .spell 8690).1 (AList.lookup_isSome.1 (by rw [hlookup]; rfl))
    rw [hearth_lookup hcd] at hle
    exact absurd hle (by decide)

end HearthStone.Cooldowns
