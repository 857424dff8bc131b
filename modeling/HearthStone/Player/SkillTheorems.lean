/-
HearthStone.Player.SkillTheorems — skills within bounds, and fields that
list them.

The bounds are checked where a skill is added and where the maxima are
updated; other calls keep them only for some values. `Ready` is what a
refresh needs, `Inv` what it leaves.

* `Bounded` — one skill, and the changes that keep it.
* `Fits` — the condition on one call.
* `skills_step`, `skills_run` — one call, every run.
-/
import HearthStone.Player.SkillFields
import HearthStone.Lib.Run

namespace HearthStone.SkillTable

open Lib

/-! ## Bounds -/

/-- The value is within the maximum, and the maximum is one of the game. -/
structure PlayerSkill.Bounded (s : PlayerSkill) : Prop where
  pos : 1 ≤ s.CurrentValue.toNat
  le : s.CurrentValue.toNat ≤ s.MaximumValue.toNat
  max : s.MaximumValue.toNat ≤ 450

namespace Player

variable {dbc : Dbc} {p p' : Player} {line : Nat} {s : PlayerSkill} {spell : UInt32}
  {v : Nat → UInt32} {f : Nat → PlayerSkill → PlayerSkill}

/-- The second field of a skill within bounds names both numbers. -/
theorem packed_bounded (hs : s.Bounded) : (packed s).toNat =
    s.MaximumValue.toNat * 2 ^ 16 + s.CurrentValue.toNat := by
  obtain ⟨_, hle, hmax⟩ := hs
  unfold packed
  rw [UInt32.toNat_or, UInt32.toNat_shiftLeft, ← Nat.shiftLeft_eq]
  have hsmall : s.MaximumValue.toNat <<< 16 < 2 ^ 32 := by
    rw [Nat.shiftLeft_eq]
    omega
  have hshift : (16 : UInt32).toNat % 32 = 16 := rfl
  rw [hshift, Nat.mod_eq_of_lt hsmall, Nat.shiftLeft_add_eq_or_of_lt (by omega)]

theorem limit_bounded {new_max : UInt32} (hpos : 1 ≤ s.CurrentValue.toNat)
    (hle : s.CurrentValue.toNat ≤ 450) (hnew : new_max ≠ 0) : (limit new_max s).Bounded := by
  have hnew' : 1 ≤ new_max.toNat := by
    rw [Nat.one_le_iff_ne_zero]
    exact fun h => hnew (UInt32.toNat_inj.1 h)
  have hone : ¬ new_max < 1 := by
    rw [UInt32.lt_iff_toNat_lt]
    exact not_lt.2 hnew'
  unfold limit
  rw [if_neg hone]
  constructor
  case pos =>
    split
    · exact hnew'
    · exact hpos
  case le =>
    by_cases habove : 450 < new_max
    · rw [if_pos habove, if_neg]
      · exact hle
      · rw [UInt32.lt_iff_toNat_lt] at habove ⊢
        exact not_lt.2 (hle.trans habove.le)
    · rw [if_neg habove]
      split
      case isTrue => exact le_rfl
      case isFalse hcur =>
        rw [UInt32.lt_iff_toNat_lt] at hcur
        exact not_lt.1 hcur
  case max =>
    dsimp only
    split
    · exact le_rfl
    · rename_i h
      rw [UInt32.lt_iff_toNat_lt] at h
      exact not_lt.1 h

/-- 5 has an inverse. -/
theorem five_mul_ne_zero {level : UInt32} (h : level ≠ 0) : 5 * level ≠ 0 := by
  grind

theorem newMaximum_bounded {level : UInt32} (hs : s.Bounded) (hlevel : level ≠ 0) :
    (newMaximum level s).Bounded := by
  obtain ⟨hpos, hle, hmax⟩ := hs
  have hcur : s.CurrentValue.toNat ≤ 450 := hle.trans hmax
  have hmaximum : s.MaximumValue ≠ 0 := by
    rintro h
    rw [h] at hle
    exact absurd (hpos.trans hle) (by decide)
  unfold newMaximum
  split
  · exact limit_bounded hpos hcur (five_mul_ne_zero hlevel)
  split
  · exact limit_bounded hpos hcur (five_mul_ne_zero hlevel)
  split
  · exact limit_bounded hpos hcur (by decide)
  split
  · split
    · exact limit_bounded (hpos.trans hle) hmax hmaximum
    · exact limit_bounded hpos hcur hmaximum
  · exact limit_bounded hpos hcur (by decide)

theorem newMaximum_skill (level : UInt32) (s : PlayerSkill) :
    (newMaximum level s).Skill = s.Skill := by
  unfold newMaximum limit
  repeat' split
  all_goals rfl

theorem limitMax_le (m : UInt32) : (limitMax m).toNat ≤ 450 := by
  unfold limitMax
  split
  · exact le_rfl
  · rename_i h
    rw [UInt32.lt_iff_toNat_lt] at h
    exact not_lt.1 h

theorem limitMax_pos {m : UInt32} (hm : m ≠ 0) : 1 ≤ (limitMax m).toNat := by
  unfold limitMax
  split
  · decide
  · rw [Nat.one_le_iff_ne_zero]
    exact fun h => hm (UInt32.toNat_inj.1 h)

theorem limitCurr_le {c m : UInt32} (hm : 1 ≤ m.toNat) : (limitCurr c m).toNat ≤ m.toNat := by
  unfold limitCurr
  split
  · exact le_rfl
  split
  · exact hm
  · rename_i h _
    rw [UInt32.lt_iff_toNat_lt] at h
    exact not_lt.1 h

theorem limitCurr_pos {c m : UInt32} (hm : 1 ≤ m.toNat) : 1 ≤ (limitCurr c m).toNat := by
  unfold limitCurr
  split
  · exact hm
  split
  · exact le_rfl
  · rename_i h
    rw [UInt32.lt_iff_toNat_lt] at h
    exact not_lt.1 h

/-! ## The invariant -/

/-- The lines that are held or wanted; a skill 0 never stays. -/
def linesWith (p : Player) (wanted : List Nat) : Finset Nat :=
  (p.skills.map Prod.fst ++ wanted).toFinset.erase 0

/-- What a refresh needs. -/
structure Ready (dbc : Dbc) (v : Nat → UInt32) (p : Player) : Prop where
  ordered : OrderedMap.Ordered p.skills
  skill : ∀ e ∈ p.skills, e.2.Skill = dbc.lookupEntry e.1
  bounds : ∀ e ∈ p.skills, e.2.Bounded
  room : (p.linesWith []).card ≤ 128
  level : p.level ≠ 0
  past : ∀ i, PLAYER_CHARACTER_POINTS1 ≤ i → p.values i = v i
  alive : p.aborted = false

/-- What holds between two calls. -/
structure Inv (dbc : Dbc) (v : Nat → UInt32) (p : Player) : Prop extends Ready dbc v p where
  nonzero : ∀ e ∈ p.skills, e.1 ≠ 0
  listed : p.refreshed = true → Listed p

theorem mem_linesWith {wanted : List Nat} {l : Nat} : l ∈ p.linesWith wanted ↔
    l ≠ 0 ∧ ((∃ e ∈ p.skills, e.1 = l) ∨ l ∈ wanted) := by
  unfold linesWith
  rw [Finset.mem_erase, List.mem_toFinset, List.mem_append, List.mem_map]

/-- Room is a matter of the keys. -/
theorem card_linesWith_le {wanted wanted' : List Nat}
    (h : ∀ e ∈ p'.skills, e.1 ≠ 0 → e.1 ∈ p.linesWith wanted)
    (hwanted : ∀ l ∈ wanted', l ≠ 0 → l ∈ p.linesWith wanted) :
    (p'.linesWith wanted').card ≤ (p.linesWith wanted).card := by
  refine Finset.card_le_card fun l hl => ?_
  obtain ⟨hl0, ⟨e, he, rfl⟩ | hl⟩ := mem_linesWith.1 hl
  · exact h e he hl0
  · exact hwanted l hl hl0

theorem Ready.filter_length (hp : Ready dbc v p) :
    (p.skills.filter fun e => e.1 ≠ 0).length ≤ 128 := by
  refine le_trans ?_ hp.room
  have hnodup : ((p.skills.filter fun e => e.1 ≠ 0).map Prod.fst).Nodup := by
    have hord := hp.ordered.filter fun e => decide (e.1 ≠ 0)
    exact List.pairwise_map.2 (hord.imp fun h => h.ne)
  rw [← List.length_map (f := Prod.fst), ← List.toFinset_card_of_nodup hnodup]
  refine Finset.card_le_card fun l hl => ?_
  rw [List.mem_toFinset, List.mem_map] at hl
  obtain ⟨e, he, rfl⟩ := hl
  obtain ⟨hmem, hne⟩ := List.mem_filter.1 he
  exact mem_linesWith.2 ⟨of_decide_eq_true hne, .inl ⟨e, hmem, rfl⟩⟩

/-- A refresh leaves the invariant. -/
theorem Ready.refresh (hdbc : dbc.OwnSpells) (hp : Ready dbc v p) :
    Inv dbc v (updateSkillFields (addSpell dbc) p) := by
  obtain ⟨hskills, hlisted, hpast, hlevel, haborted⟩ :=
    updateSkillFields_spec hdbc hp.ordered hp.skill hp.filter_length
  generalize updateSkillFields (addSpell dbc) p = p' at *
  have hmem : ∀ e ∈ p'.skills, e ∈ p.skills ∧ e.1 ≠ 0 := by
    intro e he
    rw [hskills] at he
    obtain ⟨he, hne⟩ := List.mem_filter.1 he
    exact ⟨he, of_decide_eq_true hne⟩
  constructor
  case nonzero => exact fun e he => (hmem e he).2
  case listed => exact fun _ => hlisted
  constructor
  case ordered =>
    rw [hskills]
    exact hp.ordered.filter _
  case skill => exact fun e he => hp.skill e (hmem e he).1
  case bounds => exact fun e he => hp.bounds e (hmem e he).1
  case room =>
    refine le_trans (card_linesWith_le (p := p) (fun e he hne => ?_) nofun) hp.room
    exact mem_linesWith.2 ⟨hne, .inl ⟨e, (hmem e he).1, rfl⟩⟩
  case level =>
    rw [hlevel]
    exact hp.level
  case past => exact fun i hi => (hpast i hi).trans (hp.past i hi)
  case alive => exact haborted.trans hp.alive

/-- Some values change, and stay within bounds. -/
theorem Ready.adjust (hp : Ready dbc v p)
    (hf : ∀ e ∈ p.skills, (f e.1 e.2).Skill = e.2.Skill ∧ (f e.1 e.2).Bounded) :
    Ready dbc v { p with skills := OrderedMap.adjust f p.skills } := by
  have hmem : ∀ e ∈ OrderedMap.adjust f p.skills,
      ∃ s, (e.1, s) ∈ p.skills ∧ e.2 = f e.1 s := fun e he => OrderedMap.mem_adjust.1 he
  constructor
  case ordered => exact hp.ordered.adjust f
  case skill =>
    intro e he
    obtain ⟨s, hs, heq⟩ := hmem e he
    rw [heq, (hf _ hs).1]
    exact hp.skill _ hs
  case bounds =>
    intro e he
    obtain ⟨s, hs, heq⟩ := hmem e he
    rw [heq]
    exact (hf _ hs).2
  case room =>
    refine le_trans (card_linesWith_le (p := p) (fun e he hne => ?_) nofun) hp.room
    obtain ⟨s, hs, -⟩ := hmem e he
    exact mem_linesWith.2 ⟨hne, .inl ⟨_, hs, rfl⟩⟩
  case level => exact hp.level
  case past => exact hp.past
  case alive => exact hp.alive

/-- Some skills are lost. -/
theorem Ready.filter (hp : Ready dbc v p) (q : Nat × PlayerSkill → Bool) :
    Ready dbc v { p with skills := p.skills.filter q } := by
  constructor
  case ordered => exact hp.ordered.filter q
  case skill => exact fun e he => hp.skill e (List.mem_filter.1 he).1
  case bounds => exact fun e he => hp.bounds e (List.mem_filter.1 he).1
  case room =>
    refine le_trans (card_linesWith_le (p := p) (fun e he hne => ?_) nofun) hp.room
    exact mem_linesWith.2 ⟨hne, .inl ⟨e, (List.mem_filter.1 he).1, rfl⟩⟩
  case level => exact hp.level
  case past => exact hp.past
  case alive => exact hp.alive

theorem Ready.insertNew (hp : Ready dbc v p) (line : Nat) (s : PlayerSkill) (hs : s.Skill = dbc.lookupEntry line)
    (hbounded : s.Bounded) (hroom : (p.linesWith [line]).card ≤ 128) :
    Ready dbc v { p with skills := OrderedMap.insertNew line s p.skills } := by
  have hmem : ∀ e ∈ OrderedMap.insertNew line s p.skills, e = (line, s) ∨ e ∈ p.skills :=
    fun e he => OrderedMap.mem_of_mem_insertNew hp.ordered he
  constructor
  case ordered => exact hp.ordered.insertNew line s
  case skill =>
    intro e he
    rcases hmem e he with rfl | he
    · exact hs
    · exact hp.skill e he
  case bounds =>
    intro e he
    rcases hmem e he with rfl | he
    · exact hbounded
    · exact hp.bounds e he
  case room =>
    refine le_trans (card_linesWith_le (p := p) (fun e he hne => ?_) nofun) hroom
    rcases hmem e he with rfl | he
    · exact mem_linesWith.2 ⟨hne, .inr List.mem_cons_self⟩
    · exact mem_linesWith.2 ⟨hne, .inl ⟨e, he, rfl⟩⟩
  case level => exact hp.level
  case past => exact hp.past
  case alive => exact hp.alive

/-- Spells do not matter. -/
theorem Ready.spells (hp : Ready dbc v p) (spells : List UInt32) :
    Ready dbc v { p with spells } :=
  ⟨hp.ordered, hp.skill, hp.bounds, hp.room, hp.level, hp.past, hp.alive⟩

theorem Inv.spells (hp : Inv dbc v p) (spells : List UInt32) : Inv dbc v { p with spells } :=
  ⟨hp.toReady.spells spells, hp.nonzero, hp.listed⟩

/-! ## Calls -/

/-- A skill is held. -/
def Holds (p : Player) (line : Nat) : Prop := ∃ s, (line, s) ∈ p.skills

theorem Ready.updateMaxSkillCounts (hdbc : dbc.OwnSpells) (hp : Ready dbc v p) :
    Inv dbc v (updateMaxSkillCounts (addSpell dbc) p) :=
  (hp.adjust fun e he => ⟨newMaximum_skill p.level e.2,
    newMaximum_bounded (hp.bounds e he) hp.level⟩).refresh hdbc

/-- A known spell, or one whose skill is held, is no danger. -/
theorem Inv.learn (hp : Inv dbc v p)
    (h : ∀ l, dbc.spellSkill spell = some l → Holds p l) : Inv dbc v (addSpell dbc p spell) := by
  obtain ⟨spells, hspells⟩ := addSpell_held p spell fun _ l hl => by
    obtain ⟨s, hs⟩ := h l hl
    exact OrderedMap.find_isSome_of_mem hs
  rw [hspells]
  exact hp.spells spells

theorem Ready.refresh_holds (hdbc : dbc.OwnSpells) (hp : Ready dbc v p) (h : Holds p line)
    (hline : line ≠ 0) : Holds (updateSkillFields (addSpell dbc) p) line := by
  obtain ⟨s, hs⟩ := h
  refine ⟨s, ?_⟩
  rw [(updateSkillFields_spec hdbc hp.ordered hp.skill hp.filter_length).skills]
  exact List.mem_filter.2 ⟨hs, decide_eq_true hline⟩

theorem Holds.adjust (h : Holds p line) :
    Holds { p with skills := OrderedMap.adjust f p.skills } line := by
  obtain ⟨s, hs⟩ := h
  exact ⟨f line s, OrderedMap.mem_adjust.2 ⟨s, hs, rfl⟩⟩

/-- The runes, once their skill is held. -/
theorem Inv.learnRunes (hdbc : dbc.OwnSpells) (hp : Inv dbc v p) (h : Holds p SKILL_RUNEFORGING) :
    Inv dbc v (learnRunes (addSpell dbc) p) := by
  have hfirst : Inv dbc v (if p.hasSpell 53341 then p else addSpell dbc p 53341) ∧
      Holds (if p.hasSpell 53341 then p else addSpell dbc p 53341) SKILL_RUNEFORGING := by
    split
    · exact ⟨hp, h⟩
    · refine ⟨hp.learn fun l hl => hdbc.runes l (.inl hl) ▸ h, ?_⟩
      obtain ⟨spells, hspells⟩ := addSpell_held p 53341 fun _ l hl => by
        obtain ⟨s, hs⟩ := hdbc.runes l (.inl hl) ▸ h
        exact OrderedMap.find_isSome_of_mem hs
      rw [hspells]
      exact h
  unfold Player.learnRunes
  dsimp only
  generalize (if p.hasSpell 53341 then p else addSpell dbc p 53341) = p₁ at hfirst ⊢
  obtain ⟨hinv, hholds⟩ := hfirst
  split
  · exact hinv
  · exact hinv.learn fun l hl => hdbc.runes l (.inr hl) ▸ hholds

/-- A new skill has room and a maximum. -/
theorem Inv.enterSkillLine {c m : UInt32} (hdbc : dbc.OwnSpells) (hp : Inv dbc v p)
    (hroom : (p.linesWith [line]).card ≤ 128) (hm : m.toNat ≤ 450)
    (hm0 : OrderedMap.find line p.skills = none → 1 ≤ m.toNat) :
    Inv dbc v (enterSkillLine dbc (addSpell dbc) p line (limitCurr c m) m) ∧
      (line ≠ 0 → Holds (enterSkillLine dbc (addSpell dbc) p line (limitCurr c m) m) line) := by
  unfold Player.enterSkillLine
  cases hfind : OrderedMap.find line p.skills with
  | some s =>
    have hmem := OrderedMap.mem_of_find hfind
    have hs := hp.bounds _ hmem
    dsimp only
    split
    case isFalse => exact ⟨hp, fun _ => ⟨s, hmem⟩⟩
    case isTrue hraise =>
      have hm1 : 1 ≤ m.toNat := by
        have hle := hs.pos.trans hs.le
        rcases hraise with ⟨-, h⟩ | ⟨-, h⟩
        · exact hle.trans (UInt32.le_iff_toNat_le.1 h)
        · exact hle.trans (UInt32.lt_iff_toNat_lt.1 h).le
      have hready : Ready dbc v
          { p with
            skills := OrderedMap.adjust (fun l s =>
              if l = line then { s with CurrentValue := limitCurr c m, MaximumValue := m }
              else s) p.skills } := by
        refine hp.toReady.adjust fun e he => ?_
        split
        · exact ⟨rfl, limitCurr_pos hm1, limitCurr_le hm1, hm⟩
        · exact ⟨rfl, hp.bounds e he⟩
      refine ⟨hready.updateMaxSkillCounts hdbc, fun hline => ?_⟩
      unfold Player.updateMaxSkillCounts
      refine (hready.adjust fun e he => ?_).refresh_holds hdbc ?_ hline
      · exact ⟨newMaximum_skill _ e.2, newMaximum_bounded (hready.bounds e he) hready.level⟩
      · exact Holds.adjust (Holds.adjust ⟨s, hmem⟩)
  | none =>
    have hm1 := hm0 hfind
    have hready := hp.toReady.insertNew line ⟨dbc.lookupEntry line,
      if (dbc.lookupEntry line).id ≠ SKILL_RIDING then limitCurr c m else m, m, 0⟩ rfl
      ⟨by dsimp only; split; exacts [limitCurr_pos hm1, hm1],
        by dsimp only; split; exacts [limitCurr_le hm1, le_rfl], hm⟩ hroom
    refine ⟨hready.refresh hdbc, fun hline => hready.refresh_holds hdbc ?_ hline⟩
    exact ⟨_, (OrderedMap.mem_insertNew hfind).2 (.inl rfl)⟩

theorem Inv.addSkillLine {c m : UInt32} (hdbc : dbc.OwnSpells) (hp : Inv dbc v p)
    (hroom : (p.linesWith [line]).card ≤ 128)
    (hm : OrderedMap.find line p.skills = none → m ≠ 0) :
    Inv dbc v (addSkillLine dbc (addSpell dbc) p line c m) := by
  obtain ⟨hinv, hholds⟩ := hp.enterSkillLine (c := c) hdbc hroom (limitMax_le m)
    fun hnone => limitMax_pos (hm hnone)
  unfold Player.addSkillLine
  split
  case isFalse => exact hinv
  case isTrue hrune => exact hinv.learnRunes hdbc (hrune ▸ hholds (by rw [hrune]; decide))

/-- Nothing is shown of values that no refresh has followed. -/
theorem Inv.unshown (hp : Inv dbc v p) (hfresh : p.refreshed = false)
    (hready : Ready dbc v { p with skills := OrderedMap.adjust f p.skills }) :
    Inv dbc v { p with skills := OrderedMap.adjust f p.skills } := by
  refine ⟨hready, fun e he => ?_, fun h => ?_⟩
  · obtain ⟨s, hs, -⟩ := OrderedMap.mem_adjust.1 he
    exact hp.nonzero (e.1, s) hs
  · rw [show p.refreshed = true from h] at hfresh
    cases hfresh

theorem min_le_right (a b : UInt32) : (min a b).toNat ≤ b.toNat := by
  change (if a ≤ b then a else b).toNat ≤ b.toNat
  split
  case isTrue h => exact UInt32.le_iff_toNat_le.1 h
  case isFalse => exact le_rfl

theorem one_le_toNat {a : UInt32} (h : a ≠ 0) : 1 ≤ a.toNat := by
  rw [Nat.one_le_iff_ne_zero]
  exact fun h0 => h (UInt32.toNat_inj.1 h0)

theorem min_pos {a b : UInt32} (ha : 1 ≤ a.toNat) (hb : 1 ≤ b.toNat) : 1 ≤ (min a b).toNat := by
  change 1 ≤ (if a ≤ b then a else b).toNat
  split
  · exact ha
  · exact hb

/-- A held skill is advanced to a value other than 0. -/
theorem Inv.advanceSkillLine {count : UInt32} (hdbc : dbc.OwnSpells) (hp : Inv dbc v p)
    (hfresh : p.refreshed = false)
    (hroom : OrderedMap.find line p.skills = none → (p.linesWith [line]).card ≤ 128)
    (hcount : ∀ s, OrderedMap.find line p.skills = some s → s.CurrentValue + count ≠ 0) :
    Inv dbc v (advanceSkillLine dbc p line count) := by
  unfold Player.advanceSkillLine
  cases hfind : OrderedMap.find line p.skills with
  | none =>
    have hmax : p.level * 5 ≠ 0 := UInt32.mul_comm .. ▸ five_mul_ne_zero hp.level
    exact (hp.addSkillLine hdbc (hroom hfind) fun _ => hmax).updateMaxSkillCounts hdbc
  | some s =>
    have hs := hp.bounds _ (OrderedMap.mem_of_find hfind)
    have hpos : 1 ≤ (min (s.CurrentValue + count) s.MaximumValue).toNat :=
      min_pos (one_le_toNat (hcount s hfind)) (hs.pos.trans hs.le)
    dsimp only
    have hready : Ready dbc v
        { p with
          skills := OrderedMap.adjust (fun l s' =>
            if l = line then
              { s' with CurrentValue := min (s.CurrentValue + count) s.MaximumValue }
            else s') p.skills } := by
      refine hp.toReady.adjust fun e he => ?_
      split
      case isTrue hline =>
        -- the line has one entry
        have heq : e.2 = s := by
          have := OrderedMap.find_of_mem hp.ordered he
          rw [hline, hfind] at this
          exact (Option.some.inj this).symm
        rw [heq]
        exact ⟨rfl, hpos, min_le_right _ _, hs.max⟩
      case isFalse => exact ⟨rfl, hp.bounds e he⟩
    split
    · exact hready.refresh hdbc
    · exact hp.unshown hfresh hready

theorem Inv.modifySkillMaximum {newMax : UInt32} (hdbc : dbc.OwnSpells) (hp : Inv dbc v p)
    (hmax : ∀ s, OrderedMap.find line p.skills = some s → s.MaximumValue < newMax →
      newMax ≤ 450) : Inv dbc v (modifySkillMaximum dbc p line newMax) := by
  unfold Player.modifySkillMaximum
  split
  case h_1 => exact hp
  case h_2 s hfind =>
    split
    case isFalse => exact hp
    case isTrue hraise =>
      have hs := hp.bounds _ (OrderedMap.mem_of_find hfind)
      have hlimit := UInt32.le_iff_toNat_le.1 (hmax s hfind hraise)
      have hlt := UInt32.lt_iff_toNat_lt.1 hraise
      refine Ready.refresh hdbc (hp.toReady.adjust fun e he => ?_)
      split
      case isFalse => exact ⟨rfl, hp.bounds e he⟩
      case isTrue hline =>
        have heq : e.2 = s := by
          have := OrderedMap.find_of_mem hp.ordered he
          rw [hline, hfind] at this
          exact (Option.some.inj this).symm
        rw [heq]
        refine ⟨rfl, ?_, ?_, hlimit⟩
        · dsimp only
          split
          · exact hs.pos.trans (hs.le.trans hlt.le)
          · exact hs.pos
        · dsimp only
          split
          · exact le_rfl
          · exact hs.le.trans hlt.le

theorem Inv.modifySkillBonus {delta : UInt32} (hdbc : dbc.OwnSpells) (hp : Inv dbc v p) :
    Inv dbc v (modifySkillBonus dbc p line delta) := by
  unfold Player.modifySkillBonus
  split
  · exact hp
  · refine Ready.refresh hdbc (hp.toReady.adjust fun e he => ?_)
    have hs := hp.bounds e he
    split
    · exact ⟨rfl, hs.pos, hs.le, hs.max⟩
    · exact ⟨rfl, hs⟩

theorem Inv.advanceAllSkills {count : UInt32} (hdbc : dbc.OwnSpells) (hp : Inv dbc v p)
    (hfresh : p.refreshed = false)
    (hcount : ∀ e ∈ p.skills, e.2.CurrentValue ≠ e.2.MaximumValue →
      e.2.CurrentValue + count ≠ 0) : Inv dbc v (advanceAllSkills dbc p count) := by
  have hready : Ready dbc v
      { p with
        skills := OrderedMap.adjust (fun _ s =>
          if s.CurrentValue ≠ s.MaximumValue then
            if s.MaximumValue ≤ s.CurrentValue + count then
              { s with CurrentValue := s.MaximumValue }
            else { s with CurrentValue := s.CurrentValue + count }
          else s) p.skills } := by
    refine hp.toReady.adjust fun e he => ?_
    have hs := hp.bounds e he
    split
    case isFalse => exact ⟨rfl, hs⟩
    case isTrue hne =>
      split
      case isTrue => exact ⟨rfl, hs.pos.trans hs.le, le_rfl, hs.max⟩
      case isFalse hlt =>
        rw [UInt32.le_iff_toNat_le] at hlt
        exact ⟨rfl, one_le_toNat (hcount e he hne), (not_le.1 hlt).le, hs.max⟩
  unfold Player.advanceAllSkills
  dsimp only
  split
  · exact hready.refresh hdbc
  · exact hp.unshown hfresh hready

theorem Ready.addLanguages (hdbc : dbc.OwnSpells) (wanted : List Nat) (hp : Ready dbc v p)
    (hroom : (p.linesWith wanted).card ≤ 128) :
    Ready dbc v (wanted.foldl (addLanguage dbc) p) := by
  induction wanted generalizing p with
  | nil => exact hp
  | cons line rest ih =>
    have hone : (p.linesWith [line]).card ≤ 128 := by
      refine le_trans (card_linesWith_le (p := p) (fun e he hne => ?_) fun l hl hne => ?_) hroom
      · exact mem_linesWith.2 ⟨hne, .inl ⟨e, he, rfl⟩⟩
      · exact mem_linesWith.2 ⟨hne, .inr (List.mem_singleton.1 hl ▸ List.mem_cons_self)⟩
    have hready := hp.insertNew line ⟨dbc.lookupEntry line, 300, 300, 0⟩ rfl
      ⟨show 1 ≤ (300 : UInt32).toNat by decide, le_rfl,
        show (300 : UInt32).toNat ≤ 450 by decide⟩ hone
    obtain ⟨spells, hspells⟩ : ∃ spells, addLanguage dbc p line =
        { p with
          skills := OrderedMap.insertNew line ⟨dbc.lookupEntry line, 300, 300, 0⟩ p.skills
          spells } := by
      unfold addLanguage
      split
      case isFalse => exact ⟨p.spells, rfl⟩
      case isTrue hspell =>
        refine addSpell_held _ _ fun _ l hl => ?_
        obtain rfl := hdbc.languages line l hspell hl
        exact OrderedMap.find_insertNew hp.ordered
    rw [List.foldl_cons, hspells]
    refine ih (hready.spells spells) ?_
    refine le_trans (card_linesWith_le (p := p) (fun e he hne => ?_) fun l hl hne => ?_) hroom
    · rcases OrderedMap.mem_of_mem_insertNew hp.ordered he with rfl | he
      · exact mem_linesWith.2 ⟨hne, .inr List.mem_cons_self⟩
      · exact mem_linesWith.2 ⟨hne, .inl ⟨e, he, rfl⟩⟩
    · exact mem_linesWith.2 ⟨hne, .inr (List.mem_cons_of_mem _ hl)⟩

/-! ## Runs -/

/-- A call whose values keep the bounds, and after which there is room for
every skill. -/
def Fits (dbc : Dbc) (p : Player) : Op → Prop
  | .addSkillLine line _ max =>
    (p.linesWith [line]).card ≤ 128 ∧ (OrderedMap.find line p.skills = none → max ≠ 0)
  | .advanceSkillLine line count =>
    (OrderedMap.find line p.skills = none → (p.linesWith [line]).card ≤ 128) ∧
      ∀ s ∈ OrderedMap.find line p.skills, s.CurrentValue + count ≠ 0
  | .modifySkillMaximum line newMax =>
    ∀ s ∈ OrderedMap.find line p.skills, s.MaximumValue < newMax → newMax ≤ 450
  | .advanceAllSkills count =>
    ∀ e ∈ p.skills, e.2.CurrentValue ≠ e.2.MaximumValue → e.2.CurrentValue + count ≠ 0
  | .addLanguages All => (p.linesWith (p.languagesFor dbc All)).card ≤ 128
  | .setLevel level => level ≠ 0
  | .removeSkillLine _ | .modifySkillBonus .. | .updateMaxSkillCounts | .removeLanguages
  | .setInWorld _ => True

instance (dbc : Dbc) : ∀ (p : Player) (op : Op), Decidable (Fits dbc p op)
  | p, .addSkillLine line _ max =>
    inferInstanceAs (Decidable ((p.linesWith [line]).card ≤ 128 ∧
      (OrderedMap.find line p.skills = none → max ≠ 0)))
  | p, .advanceSkillLine line count =>
    inferInstanceAs (Decidable ((OrderedMap.find line p.skills = none →
      (p.linesWith [line]).card ≤ 128) ∧
        ∀ s ∈ OrderedMap.find line p.skills, s.CurrentValue + count ≠ 0))
  | p, .modifySkillMaximum line newMax =>
    inferInstanceAs (Decidable (∀ s ∈ OrderedMap.find line p.skills,
      s.MaximumValue < newMax → newMax ≤ 450))
  | p, .advanceAllSkills count =>
    inferInstanceAs (Decidable (∀ e ∈ p.skills, e.2.CurrentValue ≠ e.2.MaximumValue →
      e.2.CurrentValue + count ≠ 0))
  | p, .addLanguages All =>
    inferInstanceAs (Decidable ((p.linesWith (p.languagesFor dbc All)).card ≤ 128))
  | _, .setLevel level => inferInstanceAs (Decidable (level ≠ 0))
  | _, .removeSkillLine _ => isTrue trivial
  | _, .modifySkillBonus .. => isTrue trivial
  | _, .updateMaxSkillCounts => isTrue trivial
  | _, .removeLanguages => isTrue trivial
  | _, .setInWorld _ => isTrue trivial

theorem skills_step {op : Op} (hdbc : dbc.OwnSpells) (hok : Fits dbc p op) (hp : Inv dbc v p)
    (hstep : step dbc p op = some p') : Inv dbc v p' := by
  have hp₀ : Inv dbc v { p with refreshed := false } :=
    ⟨⟨hp.ordered, hp.skill, hp.bounds, hp.room, hp.level, hp.past, hp.alive⟩, hp.nonzero, nofun⟩
  unfold step at hstep
  rw [if_neg (by rw [hp.alive]; exact Bool.false_ne_true)] at hstep
  cases op with
  | addSkillLine line c m =>
    obtain rfl := Option.some.inj hstep
    exact hp₀.addSkillLine hdbc hok.1 hok.2
  | advanceSkillLine line count =>
    obtain rfl := Option.some.inj hstep
    exact hp₀.advanceSkillLine hdbc rfl hok.1 hok.2
  | removeSkillLine line =>
    obtain rfl := Option.some.inj hstep
    unfold removeSkillLine
    split
    · exact hp₀
    · exact (hp₀.toReady.filter _).refresh hdbc
  | modifySkillMaximum line newMax =>
    obtain rfl := Option.some.inj hstep
    exact hp₀.modifySkillMaximum hdbc hok
  | modifySkillBonus line delta =>
    obtain rfl := Option.some.inj hstep
    exact hp₀.modifySkillBonus hdbc
  | advanceAllSkills count =>
    obtain rfl := Option.some.inj hstep
    exact hp₀.advanceAllSkills hdbc rfl hok
  | updateMaxSkillCounts =>
    obtain rfl := Option.some.inj hstep
    exact hp₀.toReady.updateMaxSkillCounts hdbc
  | removeLanguages =>
    obtain rfl := Option.some.inj hstep
    exact ⟨hp₀.toReady.filter _, fun e he => hp.nonzero e (List.mem_filter.1 he).1, nofun⟩
  | addLanguages All =>
    obtain rfl := Option.some.inj hstep
    exact (Ready.addLanguages hdbc _ hp₀.toReady hok).refresh hdbc
  | setLevel level =>
    obtain rfl := Option.some.inj hstep
    exact ⟨⟨hp.ordered, hp.skill, hp.bounds, hp.room, hok, hp.past, hp.alive⟩, hp.nonzero, nofun⟩
  | setInWorld inWorld =>
    obtain rfl := Option.some.inj hstep
    exact ⟨⟨hp.ordered, hp.skill, hp.bounds, hp.room, hp.level, hp.past, hp.alive⟩, hp.nonzero,
      nofun⟩

theorem start_inv {level : UInt32} (tauren : Bool) (startSkills : List Nat) (hlevel : level ≠ 0) :
    Inv dbc v (start v level tauren startSkills) :=
  ⟨⟨List.Pairwise.nil, nofun, nofun, by simp [linesWith, start], hlevel, fun _ _ => rfl, rfl⟩, nofun, nofun⟩

/-- The law: bounds, words that name both numbers, and fields that list the
skills in the order of their lines after a call that refreshes them; `v`
are the fields of the beginning. -/
structure InOrder (v : Nat → UInt32) (p : Player) : Prop where
  bounds : ∀ e ∈ p.skills, e.2.Bounded
  packed : ∀ e ∈ p.skills,
    (packed e.2).toNat = e.2.MaximumValue.toNat * 2 ^ 16 + e.2.CurrentValue.toNat
  ordered : OrderedMap.Ordered p.skills
  listed : p.refreshed = true → Listed p
  past : ∀ i, PLAYER_CHARACTER_POINTS1 ≤ i → p.values i = v i

/-- In every run whose calls fit, skills are within bounds and the fields
list them. -/
theorem skills_run {level : UInt32} {tauren : Bool} {startSkills : List Nat} {ops : List Op}
    (hdbc : dbc.OwnSpells) (hlevel : level ≠ 0)
    (hrun : Run (Guarded (Fits dbc) (PartialStep (step dbc))) (start v level tauren startSkills)
      ops p) : InOrder v p := by
  have hp : Inv dbc v p := hrun.invariant (Inv dbc v)
    (fun p op p' hp ⟨hok, hstep⟩ => skills_step hdbc hok hp hstep)
    (start_inv tauren startSkills hlevel)
  exact ⟨hp.bounds, fun e he => packed_bounded (hp.bounds e he), hp.ordered, hp.listed, hp.past⟩

/-- Some rows of the client's tables. -/
def fewSkills : Dbc where
  skillLines line :=
    if line = 6 then some ⟨6, SKILL_TYPE_CLASS⟩
    else if line = 43 then some ⟨43, SKILL_TYPE_WEAPON⟩
    else if line = 98 then some ⟨98, SKILL_TYPE_LANGUAGE⟩
    else if line = SKILL_MINING then some ⟨SKILL_MINING, SKILL_TYPE_PROFESSION⟩
    else none
  firstEntry := ⟨6, SKILL_TYPE_CLASS⟩
  spellSkill spell :=
    if spell = 668 then some 98
    else if spell = 53120 ∨ spell = 53121 then some SKILL_MINING
    else none
  rankNumber _ := 1

theorem fewSkills_ownSpells : fewSkills.OwnSpells where
  indexed line e h := by
    simp only [fewSkills] at h
    repeat' split at h
    all_goals simp_all
    all_goals exact h ▸ rfl
  first tauren := by cases tauren <;> rfl
  gathering tauren id g hg line hline := by
    have hmining : ∀ tauren, ∀ g ∈ grants tauren SKILL_MINING,
        ∀ l ∈ fewSkills.spellSkill g.spell, l = SKILL_MINING := by decide
    have hother : ∀ tauren, ∀ id ∈ [SKILL_HERBALISM, SKILL_SKINNING], ∀ g ∈ grants tauren id,
        fewSkills.spellSkill g.spell = none := by decide
    by_cases h1 : id = SKILL_HERBALISM
    · rw [hother tauren id (by simp [h1]) g hg] at hline
      cases hline
    by_cases h2 : id = SKILL_SKINNING
    · rw [hother tauren id (by simp [h2]) g hg] at hline
      cases hline
    by_cases h3 : id = SKILL_MINING
    · subst h3
      exact hmining tauren g hg line hline
    · unfold grants at hg
      rw [if_neg h1, if_neg h2, if_neg h3] at hg
      cases hg
  runes line h := by rcases h with h | h <;> cases h
  languages language line h hline := by
    unfold getSpellForLanguage at h hline
    split at hline
    all_goals simp_all [fewSkills]

/-- A miner who gains a rank, unlearns his trade and speaks his language. -/
def miner : List Op :=
  [.setInWorld true, .addSkillLine SKILL_MINING 1 75, .addSkillLine 43 1 5,
    .advanceSkillLine SKILL_MINING 80, .modifySkillMaximum SKILL_MINING 150,
    .advanceAllSkills 10, .modifySkillBonus 43 4294967295, .setLevel 80, .updateMaxSkillCounts,
    .removeLanguages, .addLanguages false, .removeSkillLine SKILL_MINING]

theorem skills_run_miner :
    (miner.foldlM (fun p op => if Fits fewSkills p op then step fewSkills p op else none)
      (start (fun _ => 0) 1 true [98, 43])).isSome = true ∧
    ∀ p ∈ miner.foldlM (fun p op => if Fits fewSkills p op then step fewSkills p op else none)
      (start (fun _ => 0) 1 true [98, 43]), InOrder (fun _ => 0) p :=
  ⟨by decide +kernel, fun _ hp =>
    skills_run fewSkills_ownSpells (by decide) (Run.of_foldlM hp)⟩

/-- 1 and 4294967295 make 0. -/
def wrapped : List Op := [.addSkillLine SKILL_MINING 1 75, .advanceSkillLine SKILL_MINING 4294967295]

theorem wrapped_some :
    (wrapped.foldlM (fun p op => if True then step fewSkills p op else none)
      (start (fun _ => 0) 1 true [])).isSome = true := by
  decide +kernel

theorem wrapped_zero : ((wrapped.foldlM (fun p op => if True then step fewSkills p op else none)
    (start (fun _ => 0) 1 true [])).get wrapped_some).skills.any
      (fun e => e.2.CurrentValue.toNat = 0) = true := by
  decide +kernel

/-- A held skill has the value 0. -/
theorem not_skills_run : ¬ ∀ (dbc : Dbc) (v : Nat → UInt32) (level : UInt32) (tauren : Bool)
    (startSkills : List Nat) (ops : List Op) (p : Player), dbc.OwnSpells → level ≠ 0 →
    Run (PartialStep (step dbc)) (start v level tauren startSkills) ops p → InOrder v p := by
  intro hall
  have hguarded : Run (Guarded (fun _ _ => True) (PartialStep (step fewSkills)))
      (start (fun _ => 0) 1 true []) wrapped (Option.get _ wrapped_some) :=
    Run.of_foldlM (Option.some_get wrapped_some).symm
  have horder := hall fewSkills (fun _ => 0) 1 true [] _ _ fewSkills_ownSpells (by decide)
    (hguarded.mono fun _ _ _ h => h.2)
  obtain ⟨e, he, hzero⟩ := List.any_eq_true.1 wrapped_zero
  have hpos := (horder.bounds e he).pos
  rw [of_decide_eq_true hzero] at hpos
  exact absurd hpos (by decide)

end Player

end HearthStone.SkillTable
