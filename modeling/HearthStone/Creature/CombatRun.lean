/-
HearthStone.Creature.CombatRun — opponents are opponents of each other.

Between calls nothing is missing: `Sound` of nothing is the invariant. It
holds in every run that gives nobody up on one side only. Three calls do
so, each of them for a dead unit or a dead caster: `RemoveAttackTarget`
does not show a dead target that it has left combat, `UpdateTargets`
forgets a dead target that does not forget its attacker, and the last aura
of a dead caster forgets an attacker who does not forget its target.

* `Mirrored` — the law.
* `GivesUpBoth` — the condition on one call.
* `opponents_step`, `opponents_run` — one call, every run.
-/
import HearthStone.Creature.CombatTheorems
import HearthStone.Lib.Run

namespace HearthStone.CombatStatus

open Lib

namespace CombatMap

open Handler

variable {m : CombatMap} {u x : Nat} {X : Nat → Prop}

/-! ## Opponents -/

theorem updateFlag_sound (hu : u ∈ m.world)
    (hm : Sound (fun _ _ _ => False) (fun a => a = u) m) :
    Sound (fun _ _ _ => False) (fun _ => False) (m.updateFlag u) := by
  have hm' : Sound (fun _ _ _ => False) (fun a => False ∨ a = u) m :=
    hm.mono (fun _ _ _ _ h => h) fun _ h => .inr h
  exact (updateFlag_spec hu hm').2.mono (fun _ _ _ _ h => h) fun _ h => h.1

theorem weHealed_sound {healTarget : Nat} (hu : u ∈ m.world) (ht : healTarget ∈ m.world)
    (hm : Sound (fun _ _ _ => False) (fun _ => False) m) :
    Sound (fun _ _ _ => False) (fun _ => False) (m.weHealed u healTarget) := by
  unfold weHealed
  split
  case isTrue => exact hm
  case isFalse hplayers =>
    rw [not_or, not_or, Bool.not_eq_false, Bool.not_eq_false] at hplayers
    obtain ⟨hpt, hpu, hne⟩ := hplayers
    refine updateFlag_sound ?_ ?_
    · split
      · exact hu
      · exact hu
    · split
      case isTrue =>
        refine hm.link (s := .healed) hu ht hne (fun _ => ⟨hpu, hpt⟩) ?_ (fun _ => ⟨rfl, rfl⟩) ?_
          (fun _ => ⟨rfl, rfl⟩) fun a ha => ⟨id, ha, fun _ => rfl⟩
        · intro s x
          cases s <;> simp [Holds, one, or_comm]
        · intro s x
          cases s <;> simp [Holds, one, Side.mirror, or_comm]
      case isFalse => exact hm.mono (fun _ _ _ _ h => h) fun _ h => h.elim

theorem addDamage_forgets (u : Nat) (damage : UInt32) (h : Handler) :
    Forgets (fun _ _ => False) h (addDamage u damage h) := by
  unfold addDamage
  split
  · exact .of_eq rfl rfl rfl rfl
  · exact .of_eq rfl rfl rfl rfl

theorem addDamage_keepsFlag (u : Nat) (damage : UInt32) : KeepsFlag (addDamage u damage) := by
  intro h
  unfold addDamage
  split
  · exact ⟨rfl, rfl⟩
  · exact ⟨rfl, rfl⟩

/-- A target that is one already gets a new time. -/
theorem refresh_forgets {target : Nat} {h : Handler} (htarget : target ∈ h.attackTargets)
    (new_t : UInt32) : Forgets (fun _ _ => False) h
      { h with attackTargets := h.attackTargets.insert target new_t } := by
  intro s x
  cases s with
  | targets =>
    change x ∈ h.attackTargets.insert target new_t ↔ x ∈ h.attackTargets ∧ ¬ False
    rw [AList.mem_insert, not_false_iff, and_true]
    constructor
    · rintro (rfl | hx)
      · exact htarget
      · exact hx
    · exact .inr
  | healed => simp [Holds]
  | healers => simp [Holds]
  | attackers => simp [Holds]

theorem mem_of_lookup {v : UInt32} {l : AList fun _ : Nat => UInt32} (h : l.lookup x = some v) :
    x ∈ l := by
  rw [← AList.lookup_isSome, h]
  rfl

theorem onDamageDealt_sound {target : Nat} {inRange : Bool} {damage : UInt32} (hu : u ∈ m.world)
    (ht : target ∈ m.world) (hm : Sound (fun _ _ _ => False) (fun _ => False) m) :
    Sound (fun _ _ _ => False) (fun _ => False) (m.onDamageDealt u target inRange damage) := by
  unfold onDamageDealt
  by_cases hself : target = u
  case pos =>
    rw [if_pos hself]
    exact hm
  rw [if_neg hself]
  split
  case isTrue => exact hm
  split
  case isTrue => exact hm
  dsimp only
  split
  case h_1 time htime =>
    have hrefresh := refresh_forgets (mem_of_lookup htime) (m.now + COMBAT_TIMEOUT_IN_SECONDS)
    split
    · have hrefreshed := hm.touch (f := fun h => { h with
          attackTargets := h.attackTargets.insert target (m.now + COMBAT_TIMEOUT_IN_SECONDS) })
        hu hrefresh fun _ => ⟨rfl, rfl⟩
      exact hrefreshed.touch ht (addDamage_forgets u damage _) (addDamage_keepsFlag u damage)
    · exact hm.touch ht (addDamage_forgets u damage _) (addDamage_keepsFlag u damage)
  case h_2 hnone =>
    have hlinked : Sound (fun _ _ _ => False) (fun a => a = target ∨ a = u)
        ((m.modify u fun h => { h with
          attackTargets := h.attackTargets.insert target (m.now + COMBAT_TIMEOUT_IN_SECONDS) }).modify
            target fun h => { h with attackers := h.attackers.insert u }) := by
      refine hm.link (s := .targets) hu ht hself (fun h => by cases h) ?_ (fun _ => ⟨rfl, rfl⟩) ?_
        (fun _ => ⟨rfl, rfl⟩) fun a ha => ⟨id, fun h => ha (.inr h), fun h => absurd (.inl h) ha⟩
      · intro s x
        cases s <;> simp [Holds, one, AList.mem_insert, or_comm]
      · intro s x
        cases s <;> simp [Holds, one, Side.mirror, or_comm]
    generalize hm₁ : (CombatMap.modify _ target fun h => { h with
      attackers := h.attackers.insert u }) = m₁ at hlinked ⊢
    have hworld : m₁.world = m.world := by rw [← hm₁]; rfl
    obtain ⟨hfaded, hsound⟩ := updateFlag_spec (by rwa [hworld]) hlinked
    have ht₂ : target ∈ (m₁.updateFlag u).world := by rwa [hfaded.world, hworld]
    have hsound₂ : Sound (fun _ _ _ => False) (fun a => False ∨ a = target) (m₁.updateFlag u) :=
      hsound.mono (fun _ _ _ _ h => h) fun _ h => .inr h.1
    obtain ⟨hfaded₃, hsound₃⟩ := updateFlag_spec ht₂ hsound₂
    have ht₃ : target ∈ ((m₁.updateFlag u).updateFlag target).world := by rwa [hfaded₃.world]
    exact (hsound₃.mono (fun _ _ _ _ h => h) fun _ h => h.1).touch ht₃
      (addDamage_forgets u damage _) (addDamage_keepsFlag u damage)

/-! ## Opponents given up -/

/-- Nobody is removed who is not there. -/
theorem forceRemoveAttacker_absent {guid : Nat} (h : guid ∉ (m.status u).attackers) :
    m.forceRemoveAttacker u guid = m := if_pos h

theorem not_isAttacking {dots : Nat → Nat → Bool} {target : Nat} (hdead : m.isDead target = true) :
    m.isAttacking dots u target = false := by
  unfold isAttacking
  rw [hdead, Bool.or_true]
  rfl

/-- A dead target has another opponent, or is none of `u`. -/
def LeavesOther (m : CombatMap) (u target : Nat) : Prop :=
  target ∈ (m.status u).attackTargets → m.isDead target = true →
    ((m.status target).eraseAttacker u).internalIsInCombat = true

/-- `RemoveAttackTarget`, when the flag of the target may be wrong or
stays. -/
theorem removeAttackTarget_spec (dots : Nat → Nat → Bool) {target : Nat} (hu : u ∈ m.world)
    (hm : Sound (fun _ _ _ => False) X m) (hother : X target ∨ LeavesOther m u target) :
    Sound (fun _ _ _ => False) X (m.removeAttackTarget dots u target) ∧
      (m.removeAttackTarget dots u target).world = m.world ∧
      (m.removeAttackTarget dots u target).isDead = m.isDead ∧
      (m.isDead target = true ∨ target ∉ (m.status u).attackTargets →
        u ∉ ((m.removeAttackTarget dots u target).status target).attackers) := by
  unfold removeAttackTarget
  split
  case h_1 hnone =>
    refine ⟨hm, rfl, rfl, fun _ hatt => ?_⟩
    have hmem := (hm.mirror target .attackers u hatt).resolve_right id
    exact absurd hmem (AList.lookup_eq_none.1 hnone)
  case h_2 time htime =>
    have hmem : target ∈ (m.status u).attackTargets := mem_of_lookup htime
    have ht : target ∈ m.world := (hm.found u .targets target hmem).1
    by_cases hdead : m.isDead target = true
    case neg =>
      have hlast : ∀ m' : CombatMap, m.isDead target = true ∨
          target ∉ (m.status u).attackTargets → u ∉ (m'.status target).attackers :=
        fun _ h => absurd h (not_or.2 ⟨hdead, not_not.2 hmem⟩)
      rw [if_neg hdead]
      split
      case isTrue => exact ⟨hm, rfl, rfl, hlast m⟩
      dsimp only
      split
      case isTrue =>
        refine ⟨hm.touch hu (refresh_forgets hmem _) fun _ => ⟨rfl, rfl⟩, rfl, rfl, hlast _⟩
      case isFalse => exact ⟨hm, rfl, rfl, hlast m⟩
    case pos =>
      rw [not_isAttacking hdead, if_neg Bool.false_ne_true, if_pos hdead]
      -- between the two changes the target still names `u`
      have hsound₁ : Sound (fun s a b => s = .attackers ∧ a = target ∧ b = u)
          (fun a => X a ∨ a = u) (m.modify u (.eraseTarget target)) := by
        have hmiss : Sound (fun s a b => s = .attackers ∧ a = target ∧ b = u) X m :=
          hm.mono (fun _ _ _ _ h => h.elim) fun _ h => h
        refine hmiss.modify hu (eraseTarget_forgets target _) ?_
          (fun _ _ h => .inl h) (fun h => absurd (.inr rfl) h) (hm.shown u hu)
        rintro s x ⟨rfl, rfl⟩ - -
        exact ⟨rfl, rfl, rfl⟩
      have hsound₂ : Sound (fun s a b => s = .attackers ∧ a = target ∧ b = u)
          (fun a => X a ∨ a = u)
          ((m.modify u (.eraseTarget target)).modify target (.eraseAttacker u)) := by
        refine hsound₁.modify ht (eraseAttacker_forgets u _) ?_ (fun _ _ h => h) ?_
          (hsound₁.shown target ht)
        · rintro s x ⟨rfl, rfl⟩ - hback
          rw [modify_status_self] at hback
          exact absurd ⟨rfl, rfl⟩ ((eraseTarget_forgets target _ .targets target).1 hback).2
        · intro hX
          obtain ⟨hXt, htu⟩ := not_or.1 hX
          have hcombat := hother.resolve_left hXt hmem hdead
          rw [modify_status_ne _ _ htu, hcombat]
          change (m.status target).lastStatus = true
          rw [hm.flags target ht hXt]
          exact (eraseAttacker_forgets u _).internal hcombat
      have hgone : u ∉ (((m.modify u (.eraseTarget target)).modify target
          (.eraseAttacker u)).status target).attackers := by
        rw [modify_status_self]
        exact fun h => ((eraseAttacker_forgets u _ .attackers u).1 h).2 ⟨rfl, rfl⟩
      have hsound₃ : Sound (fun _ _ _ => False) (fun a => X a ∨ a = u)
          ((m.modify u (.eraseTarget target)).modify target (.eraseAttacker u)) := by
        refine hsound₂.mono ?_ fun _ h => h
        rintro s a b hb ⟨rfl, rfl, rfl⟩
        exact hgone hb
      obtain ⟨hfaded, hsound₄⟩ := updateFlag_spec (by exact hu) hsound₃
      exact ⟨hsound₄.mono (fun _ _ _ _ h => h) fun _ h => h.1, hfaded.world, hfaded.isDead,
        fun _ h => hgone (hfaded.holds target .attackers u h).1⟩

/-- The target of the aura of a dead caster is dead too, or he does not
attack it. -/
def CasterGone (m : CombatMap) (target caster : Nat) : Prop :=
  m.isDead caster = true → target ∈ (m.status caster).attackTargets → m.isDead target = true

theorem auraRemoved_spec (dots : Nat → Nat → Bool) {target : Nat} (caster : Nat)
    (hm : Sound (fun _ _ _ => False) X m) (hother : X target ∨ LeavesOther m caster target)
    (hgone : caster ≠ target → CasterGone m target caster) :
    Sound (fun _ _ _ => False) X (m.auraRemoved dots target caster) ∧
      (m.auraRemoved dots target caster).world = m.world ∧
      (m.auraRemoved dots target caster).isDead = m.isDead := by
  unfold auraRemoved
  split
  case isFalse hunit =>
    rw [forceRemoveAttacker_absent fun h => hunit (hm.hasUnit (s := .attackers) h)]
    exact ⟨hm, rfl, rfl⟩
  case isTrue hunit =>
    split
    case isFalse => exact ⟨hm, rfl, rfl⟩
    case isTrue hne =>
      obtain ⟨hsound, hworld, hdead, habsent⟩ :=
        removeAttackTarget_spec dots (hasUnit_world m caster hunit) hm hother
      dsimp only
      split
      case isFalse => exact ⟨hsound, hworld, hdead⟩
      case isTrue hcaster =>
        rw [hdead] at hcaster
        rw [forceRemoveAttacker_absent (habsent ?_)]
        · exact ⟨hsound, hworld, hdead⟩
        · by_cases hmem : target ∈ (m.status caster).attackTargets
          · exact .inl (hgone hne hcaster hmem)
          · exact .inr hmem

/-- One turn of `UpdateTargets`, for a target that is alive or not yet
given up. -/
theorem updateTarget_spec (dots : Nat → Nat → Bool) {e : Sigma fun _ : Nat => UInt32}
    (hu : u ∈ m.world) (he : e.1 ∈ m.world) (halive : e.2 ≤ m.now → m.isDead e.1 = false)
    (hm : Sound (fun _ _ _ => False) (fun a => a = u) m) :
    Sound (fun _ _ _ => False) (fun a => a = u) (updateTarget dots u m e) ∧
      (updateTarget dots u m e).world = m.world ∧ (updateTarget dots u m e).isDead = m.isDead ∧
      (updateTarget dots u m e).now = m.now := by
  unfold updateTarget
  split
  case isFalse => exact ⟨hm, rfl, rfl, rfl⟩
  case isTrue htime =>
    rw [if_neg (by simp [hasUnit, he, halive htime])]
    split
    case isTrue => exact ⟨hm, rfl, rfl, rfl⟩
    case isFalse =>
      have hsound₁ : Sound (fun s a b => s = .targets ∧ a = u ∧ b = e.1)
          (fun a => a = u ∨ a = e.1) (m.modify e.1 (.eraseAttacker u)) := by
        have hmiss : Sound (fun s a b => s = .targets ∧ a = u ∧ b = e.1) (fun a => a = u) m :=
          hm.mono (fun _ _ _ _ h => h.elim) fun _ h => h
        refine hmiss.modify he (eraseAttacker_forgets u _) ?_
          (fun _ _ h => .inl h) (fun h => absurd (.inr rfl) h) (hm.shown e.1 he)
        rintro s x ⟨rfl, rfl⟩ - -
        exact ⟨rfl, rfl, rfl⟩
      have hgone : u ∉ ((m.modify e.1 (.eraseAttacker u)).status e.1).attackers := by
        rw [modify_status_self]
        exact fun h => ((eraseAttacker_forgets u _ .attackers u).1 h).2 ⟨rfl, rfl⟩
      obtain ⟨hfaded, hsound₂⟩ := updateFlag_spec (by exact he) hsound₁
      generalize updateFlag (m.modify e.1 (.eraseAttacker u)) e.1 = m₂ at hfaded hsound₂ ⊢
      have hu₂ : u ∈ m₂.world := by rwa [hfaded.world]
      have hsound₃ : Sound (fun s a b => s = .targets ∧ a = u ∧ b = e.1) (fun a => a = u)
          (m₂.modify u (.eraseTarget e.1)) := by
        refine hsound₂.modify hu₂ (eraseTarget_forgets e.1 _) ?_ (fun _ _ h => h.1)
          (fun h => absurd rfl h) (hsound₂.shown u hu₂)
        rintro s x ⟨rfl, rfl⟩ - hback
        exact absurd (hfaded.holds e.1 .attackers u hback).1 hgone
      refine ⟨hsound₃.mono ?_ fun _ h => h, hfaded.world, hfaded.isDead, hfaded.now⟩
      rintro s a b hb ⟨rfl, rfl, rfl⟩
      rw [modify_status_self] at hb
      exact ((eraseTarget_forgets e.1 _ .targets e.1).1 hb).2 ⟨rfl, rfl⟩

theorem updateTargets_fold (dots : Nat → Nat → Bool) {entries : List (Sigma fun _ : Nat => UInt32)}
    (hu : u ∈ m.world) (he : ∀ e ∈ entries, e.1 ∈ m.world)
    (halive : ∀ e ∈ entries, e.2 ≤ m.now → m.isDead e.1 = false)
    (hm : Sound (fun _ _ _ => False) (fun a => a = u) m) :
    Sound (fun _ _ _ => False) (fun a => a = u) (entries.foldl (updateTarget dots u) m) ∧
      (entries.foldl (updateTarget dots u) m).world = m.world := by
  induction entries generalizing m with
  | nil => exact ⟨hm, rfl⟩
  | cons e rest ih =>
    obtain ⟨hsound, hworld, hdead, hnow⟩ := updateTarget_spec dots hu
      (he e List.mem_cons_self) (halive e List.mem_cons_self) hm
    rw [List.foldl_cons]
    obtain ⟨hsound', hworld'⟩ := ih (hworld ▸ hu)
      (fun e' he' => hworld ▸ he e' (List.mem_cons_of_mem _ he'))
      (by rw [hdead, hnow]; exact fun e' he' => halive e' (List.mem_cons_of_mem _ he')) hsound
    exact ⟨hsound', hworld'.trans hworld⟩

theorem updateTargets_sound {dots : Nat → Nat → Bool} (hu : u ∈ m.world)
    (halive : ∀ e ∈ (m.status u).attackTargets.entries, e.2 ≤ m.now → m.isDead e.1 = false)
    (hm : Sound (fun _ _ _ => False) (fun _ => False) m) :
    Sound (fun _ _ _ => False) (fun _ => False) (m.updateTargets dots u) := by
  obtain ⟨hsound, hworld⟩ := updateTargets_fold dots hu
    (fun e he => (hm.found u .targets e.1 (AList.mem_keys.2 (List.mem_keys_of_mem he))).1) halive
    (hm.mono (fun _ _ _ _ h => h) fun _ h => h.elim)
  exact updateFlag_sound (hworld ▸ hu) hsound

/-! ## Deaths, the world -/

theorem die_sound {dots : Nat → Nat → Bool} {casters : List Nat} (hu : u ∈ m.world)
    (hm : Sound (fun _ _ _ => False) (fun _ => False) m) :
    Sound (fun _ _ _ => False) (fun _ => False) (m.die dots u casters) := by
  -- the flag of a dead unit may be wrong until it has vanished
  have hfold : ∀ m : CombatMap, u ∈ m.world → m.isDead u = true →
      Sound (fun _ _ _ => False) (fun a => a = u) m →
      Sound (fun _ _ _ => False) (fun a => a = u)
        (casters.foldl (fun m caster => m.auraRemoved dots u caster) m) ∧
      u ∈ (casters.foldl (fun m caster => m.auraRemoved dots u caster) m).world := by
    induction casters with
    | nil => exact fun m hu _ hm => ⟨hm, hu⟩
    | cons caster rest ih =>
      intro m hu hdead hm
      obtain ⟨hsound, hworld, hdead'⟩ := auraRemoved_spec dots caster hm
        (.inl rfl) fun _ _ _ => hdead
      exact ih _ (by rwa [hworld]) (by rwa [hdead']) hsound
  have hdying : Sound (fun _ _ _ => False) (fun a => a = u) (m.setDeathState u true) :=
    ⟨hm.found, hm.mirror, fun a ha _ => hm.flags a ha id, hm.shown, hm.outside⟩
  obtain ⟨hsound, hu'⟩ := hfold (m.setDeathState u true) hu (Function.update_self ..) hdying
  exact (vanished_spec hu' hsound).1

theorem vanished_sound (hu : u ∈ m.world) (hm : Sound (fun _ _ _ => False) (fun _ => False) m) :
    Sound (fun _ _ _ => False) (fun _ => False) (m.vanished u) :=
  (vanished_spec hu (hm.mono (fun _ _ _ _ h => h) fun _ h => h.elim)).1

theorem removeFromWorld_sound (hu : u ∈ m.world)
    (hm : Sound (fun _ _ _ => False) (fun _ => False) m) :
    Sound (fun _ _ _ => False) (fun _ => False) (m.removeFromWorld u) := by
  obtain ⟨hsound, hworld, hnobody⟩ :=
    vanished_spec hu (hm.mono (fun _ _ _ _ h => h) fun _ h => h.elim)
  have hu' : u ∈ (m.vanished u).world := by rwa [hworld]
  have hfree : ((m.vanished u).status u).lastStatus = false := by
    rw [hsound.flags u hu' id, Bool.eq_false_iff, Ne, internalIsInCombat_iff]
    rintro ⟨s, x, -, hx⟩
    exact hnobody s x hx
  constructor
  case found =>
    intro a s b hb
    obtain ⟨hbw, hplayer⟩ := hsound.found a s b hb
    refine ⟨List.mem_filter.2 ⟨hbw, decide_eq_true ?_⟩, hplayer⟩
    rintro rfl
    exact hnobody s.mirror a ((hsound.mirror a s b hb).resolve_right id)
  case mirror => exact hsound.mirror
  case flags => exact fun a ha => hsound.flags a (List.mem_filter.1 ha).1
  case shown => exact fun a ha => hsound.shown a (List.mem_filter.1 ha).1
  case outside =>
    intro a ha
    by_cases hau : a = u
    · subst hau
      exact ⟨hnobody, hfree, (hsound.shown a hu').trans hfree⟩
    · exact hsound.outside a fun h => ha (List.mem_filter.2 ⟨h, decide_eq_true hau⟩)

theorem pushToWorld_sound (hu : u ∉ m.world)
    (hm : Sound (fun _ _ _ => False) (fun _ => False) m) :
    Sound (fun _ _ _ => False) (fun _ => False) (m.pushToWorld u false) := by
  have hsame : (m.modify u fun h => { h with
      unitFlagCombat := h.unitFlagCombat || false }).status = m.status := by
    refine Function.update_eq_self_iff.2 ?_
    simp
  obtain ⟨hnobody, hlast, hshown⟩ := hm.outside u hu
  unfold pushToWorld
  constructor
  case found =>
    intro a s b hb
    rw [hsame] at hb
    obtain ⟨hbw, hplayer⟩ := hm.found a s b hb
    exact ⟨List.mem_cons_of_mem _ hbw, hplayer⟩
  case mirror =>
    intro a s b hb
    rw [hsame] at hb ⊢
    exact hm.mirror a s b hb
  case flags =>
    intro a ha _
    rw [hsame]
    rcases List.mem_cons.1 ha with rfl | ha
    · rw [hlast, eq_comm, Bool.eq_false_iff, Ne, internalIsInCombat_iff]
      rintro ⟨s, x, -, hx⟩
      exact hnobody s x hx
    · exact hm.flags a ha id
  case shown =>
    intro a ha
    rw [hsame]
    rcases List.mem_cons.1 ha with rfl | ha
    · rw [hlast, hshown]
    · exact hm.shown a ha
  case outside =>
    intro a ha
    rw [hsame]
    exact hm.outside a fun h => ha (List.mem_cons_of_mem _ h)

/-! ## The law -/

/-- Opponents are opponents of each other, and the flag says whether there
are any. -/
structure Mirrored (m : CombatMap) : Prop where
  attack : ∀ a b, a ∈ m.world → b ∈ m.world →
    (b ∈ (m.status a).attackTargets ↔ a ∈ (m.status b).attackers)
  heal : ∀ a b, a ∈ m.world → b ∈ m.world →
    (b ∈ (m.status a).healed ↔ a ∈ (m.status b).healers)
  flag : ∀ a, a ∈ m.world → ((m.status a).lastStatus = true ↔
    (∃ b, b ∈ (m.status a).attackTargets) ∨ (∃ b, b ∈ (m.status a).attackers) ∨
      ∃ b, b ∈ (m.status a).healed)
  shown : ∀ a, a ∈ m.world → (m.status a).unitFlagCombat = (m.status a).lastStatus

theorem Sound.mirrored (hm : Sound (fun _ _ _ => False) (fun _ => False) m) : Mirrored m where
  attack a b _ _ :=
    ⟨fun h => (hm.mirror a .targets b h).resolve_right id,
      fun h => (hm.mirror b .attackers a h).resolve_right id⟩
  heal a b _ _ :=
    ⟨fun h => (hm.mirror a .healed b h).resolve_right id,
      fun h => (hm.mirror b .healers a h).resolve_right id⟩
  flag a ha := by
    rw [hm.flags a ha id, internalIsInCombat_iff]
    constructor
    · rintro ⟨s, b, hs, hb⟩
      cases s with
      | healed => exact .inr (.inr ⟨b, hb⟩)
      | healers => exact absurd rfl hs
      | targets => exact .inl ⟨b, hb⟩
      | attackers => exact .inr (.inl ⟨b, hb⟩)
    · rintro (⟨b, hb⟩ | ⟨b, hb⟩ | ⟨b, hb⟩)
      · exact ⟨.targets, b, nofun, hb⟩
      · exact ⟨.attackers, b, nofun, hb⟩
      · exact ⟨.healed, b, nofun, hb⟩
  shown := hm.shown

/-- A call that gives nobody up on one side only, and a unit that is made
without the flag. -/
def GivesUpBoth (m : CombatMap) : Op → Prop
  | .removeAttackTarget _ u target => LeavesOther m u target
  | .forceRemoveAttacker u guid => guid ∉ (m.status u).attackers
  | .updateTargets _ u =>
    ∀ e ∈ (m.status u).attackTargets.entries, e.2 ≤ m.now → m.isDead e.1 = false
  | .auraRemoved _ target caster =>
    LeavesOther m caster target ∧ (caster ≠ target → CasterGone m target caster)
  | .pushToWorld _ preset => preset = false
  | .onDamageDealt .. | .weHealed .. | .die .. | .setDeathState .. | .vanished _
  | .removeFromWorld _ | .tick _ => True

instance : ∀ (m : CombatMap) (op : Op), Decidable (GivesUpBoth m op)
  | m, .removeAttackTarget _ u target =>
    inferInstanceAs (Decidable (target ∈ (m.status u).attackTargets → m.isDead target = true → _))
  | m, .forceRemoveAttacker u guid => inferInstanceAs (Decidable (guid ∉ (m.status u).attackers))
  | m, .updateTargets _ u =>
    inferInstanceAs (Decidable (∀ e ∈ (m.status u).attackTargets.entries,
      e.2 ≤ m.now → m.isDead e.1 = false))
  | m, .auraRemoved _ target caster =>
    inferInstanceAs (Decidable ((target ∈ (m.status caster).attackTargets →
      m.isDead target = true → _) ∧ (caster ≠ target → m.isDead caster = true →
        target ∈ (m.status caster).attackTargets → m.isDead target = true)))
  | _, .pushToWorld _ preset => inferInstanceAs (Decidable (preset = false))
  | _, .onDamageDealt .. => isTrue trivial
  | _, .weHealed .. => isTrue trivial
  | _, .die .. => isTrue trivial
  | _, .setDeathState .. => isTrue trivial
  | _, .vanished _ => isTrue trivial
  | _, .removeFromWorld _ => isTrue trivial
  | _, .tick _ => isTrue trivial

/-- One call. -/
theorem opponents_step {m' : CombatMap} {op : Op} (hok : GivesUpBoth m op)
    (hm : Sound (fun _ _ _ => False) (fun _ => False) m) (hstep : m.step op = some m') :
    Sound (fun _ _ _ => False) (fun _ => False) m' := by
  cases op with
  | onDamageDealt u target inRange damage =>
    obtain ⟨⟨hu, ht⟩, rfl⟩ := Option.ite_some_none_eq_some.1 hstep
    exact onDamageDealt_sound hu ht hm
  | weHealed u healTarget =>
    obtain ⟨⟨hu, ht⟩, rfl⟩ := Option.ite_some_none_eq_some.1 hstep
    exact weHealed_sound hu ht hm
  | removeAttackTarget dots u target =>
    obtain ⟨⟨hu, -⟩, rfl⟩ := Option.ite_some_none_eq_some.1 hstep
    exact (removeAttackTarget_spec dots hu hm (.inr hok)).1
  | forceRemoveAttacker u guid =>
    obtain ⟨-, rfl⟩ := Option.ite_some_none_eq_some.1 hstep
    rwa [forceRemoveAttacker_absent hok]
  | updateTargets dots u =>
    obtain ⟨hu, rfl⟩ := Option.ite_some_none_eq_some.1 hstep
    exact updateTargets_sound hu hok hm
  | auraRemoved dots target caster =>
    obtain ⟨-, rfl⟩ := Option.ite_some_none_eq_some.1 hstep
    exact (auraRemoved_spec dots caster hm (.inr hok.1) hok.2).1
  | die dots u casters =>
    obtain ⟨hu, rfl⟩ := Option.ite_some_none_eq_some.1 hstep
    exact die_sound hu hm
  | setDeathState u dead | tick now =>
    obtain rfl := Option.some.inj hstep
    exact ⟨hm.found, hm.mirror, hm.flags, hm.shown, hm.outside⟩
  | vanished u =>
    obtain ⟨hu, rfl⟩ := Option.ite_some_none_eq_some.1 hstep
    exact vanished_sound hu hm
  | removeFromWorld u =>
    obtain ⟨hu, rfl⟩ := Option.ite_some_none_eq_some.1 hstep
    exact removeFromWorld_sound hu hm
  | pushToWorld u preset =>
    obtain ⟨hu, hpushed⟩ := Option.ite_none_left_eq_some.1 hstep
    obtain rfl := Option.some.inj hpushed
    obtain rfl : preset = false := hok
    exact pushToWorld_sound hu hm

theorem start_sound (isPlayer : Nat → Bool) (now : UInt32) :
    Sound (fun _ _ _ => False) (fun _ => False) (start isPlayer now) := by
  have hnobody : ∀ s b, ¬ Handler.new.Holds s b := by
    intro s b
    cases s <;> simp [Holds, Handler.new]
  exact ⟨fun _ s b hb => absurd hb (hnobody s b), fun _ s b hb => absurd hb (hnobody s b),
    fun _ ha => absurd ha List.not_mem_nil, fun _ ha => absurd ha List.not_mem_nil,
    fun _ _ => ⟨hnobody, rfl, rfl⟩⟩

/-- In every run that gives nobody up on one side only, opponents are
opponents of each other. -/
theorem opponents_run {isPlayer : Nat → Bool} {now : UInt32} {ops : List Op} {m : CombatMap}
    (hrun : Run (Guarded GivesUpBoth (PartialStep step)) (start isPlayer now) ops m) :
    Mirrored m := by
  refine Sound.mirrored (hrun.invariant (Sound (fun _ _ _ => False) (fun _ => False)) ?_
    (start_sound isPlayer now))
  exact fun m op m' hm ⟨hok, hstep⟩ => opponents_step hok hm hstep

/-- Two players and a creature: a healer enters the fight of the one he
heals, and leaves it with him. -/
def healersFight : List Op :=
  [.pushToWorld 1 false, .pushToWorld 2 false, .pushToWorld 3 false,
    .onDamageDealt 1 3 true 10, .weHealed 2 1, .onDamageDealt 3 1 true 7,
    .removeAttackTarget (fun _ _ => false) 1 3, .die (fun _ _ => false) 3 [1]]

theorem opponents_run_healer :
    (healersFight.foldlM (fun m op => if GivesUpBoth m op then step m op else none)
      (start (· ≤ 2) 0)).isSome = true ∧
    ∀ m ∈ healersFight.foldlM (fun m op => if GivesUpBoth m op then step m op else none)
      (start (· ≤ 2) 0), Mirrored m :=
  ⟨by decide +kernel, fun _ hm => opponents_run (Run.of_foldlM hm)⟩

/-- The aura of a dead caster still deals damage to 2, and ends. -/
def deadCaster : List Op :=
  [.pushToWorld 1 false, .pushToWorld 2 false, .die (fun _ _ => false) 1 [],
    .onDamageDealt 1 2 true 10, .auraRemoved (fun _ _ => false) 2 1]

theorem deadCaster_some :
    (deadCaster.foldlM (fun m op => if True then step m op else none)
      (start (· ≤ 2) 0)).isSome = true := by
  decide +kernel

/-- The caster still attacks 2, who does not know it. -/
theorem not_opponents_run : ¬ ∀ (isPlayer : Nat → Bool) (now : UInt32) (ops : List Op)
    (m : CombatMap), Run (PartialStep step) (start isPlayer now) ops m → Mirrored m := by
  intro hall
  have hguarded : Run (Guarded (fun _ _ => True) (PartialStep step)) (start (· ≤ 2) 0) deadCaster
      (Option.get _ deadCaster_some) := Run.of_foldlM (Option.some_get deadCaster_some).symm
  have hattack := (hall _ _ _ _ (hguarded.mono fun _ _ _ h => h.2)).attack 1 2 (by decide +kernel)
    (by decide +kernel)
  exact absurd (hattack.1 (by decide +kernel)) (by decide +kernel)

/-- In every such run only units of the world know each other, and only
players as healers and healed. -/
theorem known_run {isPlayer : Nat → Bool} {now : UInt32} {ops : List Op} {m : CombatMap}
    (hrun : Run (Guarded GivesUpBoth (PartialStep step)) (start isPlayer now) ops m) {a b : Nat}
    {s : Side} (hb : (m.status a).Holds s b) :
    a ∈ m.world ∧ b ∈ m.world ∧ (s.heals = true → m.isPlayer b = true) := by
  have hm : Sound (fun _ _ _ => False) (fun _ => False) m :=
    hrun.invariant _ (fun _ _ _ hm ⟨hok, hstep⟩ => opponents_step hok hm hstep)
      (start_sound isPlayer now)
  refine ⟨?_, hm.found a s b hb⟩
  by_contra ha
  exact (hm.outside a ha).1 s b hb

theorem known_run_healer : ∃ m : CombatMap, 2 ∈ m.world ∧ m.isPlayer 2 = true := by
  have hsome : (([.pushToWorld 1 false, .pushToWorld 2 false, .pushToWorld 3 false,
      .onDamageDealt 1 3 true 10, .weHealed 2 1] : List Op).foldlM
        (fun m op => if GivesUpBoth m op then step m op else none) (start (· ≤ 2) 0)).any
      (fun m => 2 ∈ (m.status 1).healers) = true := by decide +kernel
  obtain ⟨m, hm, hheals⟩ := (Option.any_eq_true _ _).mp hsome
  have hin : 2 ∈ (m.status 1).healers := of_decide_eq_true hheals
  have h := known_run (s := .healers) (Run.of_foldlM hm) hin
  exact ⟨m, h.2.1, h.2.2 rfl⟩

end CombatMap

end HearthStone.CombatStatus
