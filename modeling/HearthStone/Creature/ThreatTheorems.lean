/-
HearthStone.Creature.ThreatTheorems — does a creature attack whom it
hates most?

* `threats` — the effective threat of each unit in the table.
* `Aimed` — the target is a valid unit with the greatest effective
  threat, which is the one that is cached, or the table is empty.
* `Keeps` — the condition on a call: it goes wrong where a walk for the
  second best overwrites the highest threat, where a walk finds a unit
  and nobody makes it the target, and where the cached threat is set
  without a look at the modifiers.
* `law_run` — in every run of calls that meet it, the creature is aimed
  in each state reached, as long as it is in combat and not taunted.
-/
import HearthStone.Lib.Run
import HearthStone.Lib.Peak
import HearthStone.Creature.ThreatTable

namespace HearthStone.ThreatTable

open Lib AIInterface

/-- The effective threat of each unit in the table. -/
def threats (w : World) (s : AIInterface) (unit : Nat) : Option Int :=
  (s.aiTargets.lookup unit).map (w.effective unit)

variable {w w' : World} {s s' : AIInterface} {unit obj target : Nat} {mod x : Int}

theorem mem_iff_threats : unit ∈ s.aiTargets ↔ ∃ x, threats w s unit = some x := by
  rw [← AList.lookup_isSome, Option.isSome_iff_exists]
  constructor
  · rintro ⟨threat, h⟩
    exact ⟨w.effective unit threat, by simp [threats, h]⟩
  · rintro ⟨x, h⟩
    obtain ⟨threat, hthreat, -⟩ := Option.map_eq_some_iff.1 h
    exact ⟨threat, hthreat⟩

theorem threats_addThreat : threats w (s.addThreat w unit mod) =
    Function.update (threats w s) unit (some (w.effective unit (s.threatAfter unit mod))) := by
  have hlookup : (s.addThreat w unit mod).aiTargets =
      s.aiTargets.insert unit (s.threatAfter unit mod) := by
    unfold addThreat
    split_ifs <;> rfl
  funext u
  by_cases hu : u = unit
  · subst hu
    simp [threats, hlookup]
  · simp [threats, hlookup, AList.lookup_insert_ne hu, Function.update_of_ne hu]

theorem threats_erase (u : Nat) : threats w { s with aiTargets := s.aiTargets.erase unit } u =
    if u = unit then none else threats w s u := by
  by_cases hu : u = unit
  · subst hu
    simp [threats]
  · simp [threats, AList.lookup_erase_ne hu, hu]

theorem lookup_setAll (c : Int) (m : TargetMap) (u : Nat) :
    (setAll c m).lookup u = (m.lookup u).map fun _ => c := by
  have hlist : ∀ es : List (Sigma fun _ : Nat => Int),
      List.dlookup u (es.map fun e => (⟨e.1, c⟩ : Sigma fun _ : Nat => Int)) =
        (List.dlookup u es).map fun _ => c := by
    intro es
    induction es with
    | nil => rfl
    | cons e rest ih =>
      obtain ⟨k, threat⟩ := e
      by_cases hk : u = k
      · subst hk
        simp
      · rw [List.map_cons, List.dlookup_cons_ne _ _ hk, List.dlookup_cons_ne _ _ hk, ih]
  exact hlist m.entries

/-! ## The walk -/

/-- What the walk leaves and what it finds. By induction on the entries
ahead. -/
theorem hatedLoop_spec {ok : Nat → Bool} {skip : Option Nat}
    (es : List (Sigma fun _ : Nat => Int)) (m : TargetMap) (current : Option Nat × Int)
    (highest : Int) :
    (∀ u, (hatedLoop w ok skip es m current highest).1.lookup u =
        if (∃ e ∈ es, e.1 = u) ∧ ok u = false then none else m.lookup u) ∧
      (((hatedLoop w ok skip es m current highest).2 = (current, highest) ∧
          ∀ e ∈ es, ok e.1 = true → skip ≠ some e.1 → w.effective e.1 e.2 ≤ current.2) ∨
        ∃ e ∈ es, ok e.1 = true ∧ skip ≠ some e.1 ∧ current.2 < w.effective e.1 e.2 ∧
          (hatedLoop w ok skip es m current highest).2 =
            ((some e.1, w.effective e.1 e.2), w.effective e.1 e.2) ∧
          ∀ e' ∈ es, ok e'.1 = true → skip ≠ some e'.1 →
            w.effective e'.1 e'.2 ≤ w.effective e.1 e.2) := by
  induction es generalizing m current highest with
  | nil => simp [hatedLoop]
  | cons e rest ih =>
    obtain ⟨k, threat⟩ := e
    by_cases hok : ok k = true
    · have hleft : ∀ u, ((∃ e ∈ (⟨k, threat⟩ :: rest : List (Sigma fun _ : Nat => Int)), e.1 = u) ∧
          ok u = false) ↔ (∃ e ∈ rest, e.1 = u) ∧ ok u = false := by
        intro u
        constructor
        · rintro ⟨⟨e, he, heu⟩, hu⟩
          rcases List.mem_cons.1 he with rfl | he
          · simp only at heu
            rw [heu, hu] at hok
            cases hok
          · exact ⟨⟨e, he, heu⟩, hu⟩
        · rintro ⟨⟨e, he, heu⟩, hu⟩
          exact ⟨⟨e, List.mem_cons_of_mem _ he, heu⟩, hu⟩
      by_cases hbetter : w.effective k threat > current.2 ∧ skip ≠ some k
      · -- the unit is the best so far
        have heq : hatedLoop w ok skip (⟨k, threat⟩ :: rest) m current highest =
            hatedLoop w ok skip rest m (some k, w.effective k threat) (w.effective k threat) := by
          rw [hatedLoop, if_pos hok, if_pos hbetter]
        obtain ⟨hlookup, hfound⟩ := ih m (some k, w.effective k threat) (w.effective k threat)
        rw [heq]
        refine ⟨fun u => by rw [hlookup u]; exact if_congr (hleft u).symm rfl rfl, Or.inr ?_⟩
        rcases hfound with ⟨hsame, hall⟩ | ⟨e, he, hoke, hskip, hlt, hres, hall⟩
        · exact ⟨⟨k, threat⟩, List.mem_cons_self, hok, hbetter.2, hbetter.1, hsame,
            List.forall_mem_cons.2 ⟨fun _ _ => le_refl _, hall⟩⟩
        · exact ⟨e, List.mem_cons_of_mem _ he, hoke, hskip, hbetter.1.trans hlt, hres,
            List.forall_mem_cons.2 ⟨fun _ _ => hlt.le, hall⟩⟩
      · have heq : hatedLoop w ok skip (⟨k, threat⟩ :: rest) m current highest =
            hatedLoop w ok skip rest m current highest := by
          rw [hatedLoop, if_pos hok, if_neg hbetter]
        obtain ⟨hlookup, hfound⟩ := ih m current highest
        have hle : skip ≠ some k → w.effective k threat ≤ current.2 := by
          intro hskip
          by_contra hlt
          exact hbetter ⟨not_le.1 hlt, hskip⟩
        rw [heq]
        refine ⟨fun u => by rw [hlookup u]; exact if_congr (hleft u).symm rfl rfl, ?_⟩
        rcases hfound with ⟨hsame, hall⟩ | ⟨e, he, hoke, hskip, hlt, hres, hall⟩
        · exact Or.inl ⟨hsame,
            List.forall_mem_cons.2 ⟨fun _ => hle, hall⟩⟩
        · exact Or.inr ⟨e, List.mem_cons_of_mem _ he, hoke, hskip, hlt, hres,
            List.forall_mem_cons.2 ⟨fun _ hskip => (hle hskip).trans hlt.le, hall⟩⟩
    · -- the unit is deleted
      have hok' : ok k = false := by simpa using hok
      have heq : hatedLoop w ok skip (⟨k, threat⟩ :: rest) m current highest =
          hatedLoop w ok skip rest (m.erase k) current highest := by
        rw [hatedLoop, if_neg hok]
      obtain ⟨hlookup, hfound⟩ := ih (m.erase k) current highest
      rw [heq]
      refine ⟨?_, ?_⟩
      · intro u
        rw [hlookup u]
        by_cases hu : u = k
        · subst hu
          simp [hok']
        · rw [AList.lookup_erase_ne hu]
          refine if_congr ?_ rfl rfl
          simp [Ne.symm hu]
      · rcases hfound with ⟨hsame, hall⟩ | ⟨e, he, hoke, hskip, hlt, hres, hall⟩
        · exact Or.inl ⟨hsame,
            List.forall_mem_cons.2 ⟨fun h => absurd h hok, hall⟩⟩
        · exact Or.inr ⟨e, List.mem_cons_of_mem _ he, hoke, hskip, hlt, hres,
            List.forall_mem_cons.2 ⟨fun h => absurd h hok, hall⟩⟩

/-- The walk keeps the units that are `ok`, and finds the best over -1. -/
theorem threats_walk (ok : Nat → Bool) (skip : Option Nat) (u : Nat) :
    threats w (s.walk w ok skip).2 u = if ok u = true then threats w s u else none := by
  have hlookup := (@hatedLoop_spec w ok skip s.aiTargets.entries s.aiTargets (none, -1)
    s.currentHighestThreat).1 u
  simp only [threats, walk, hlookup]
  cases hok : ok u with
  | true => simp
  | false =>
    cases hu : s.aiTargets.lookup u with
    | none => simp
    | some threat =>
      have hmem : ∃ e ∈ s.aiTargets.entries, e.1 = u :=
        ⟨⟨u, threat⟩, AList.mem_lookup_iff.1 hu, rfl⟩
      simp [hmem]

theorem walk_found (ok : Nat → Bool) (skip : Option Nat) :
    ((s.walk w ok skip).1 = none ∧
        (s.walk w ok skip).2.currentHighestThreat = s.currentHighestThreat ∧
        ∀ u x, threats w s u = some x → ok u = true → skip ≠ some u → x ≤ -1) ∨
      ∃ u x, (s.walk w ok skip).1 = some u ∧ (s.walk w ok skip).2.currentHighestThreat = x ∧
        threats w s u = some x ∧ ok u = true ∧ skip ≠ some u ∧ -1 < x ∧
        ∀ v y, threats w s v = some y → ok v = true → skip ≠ some v → y ≤ x := by
  have hmem : ∀ v y, threats w s v = some y →
      ∃ e ∈ s.aiTargets.entries, e.1 = v ∧ w.effective e.1 e.2 = y := by
    intro v y hv
    obtain ⟨threat, hthreat, rfl⟩ := Option.map_eq_some_iff.1 hv
    exact ⟨⟨v, threat⟩, AList.mem_lookup_iff.1 hthreat, rfl, rfl⟩
  rcases (@hatedLoop_spec w ok skip s.aiTargets.entries s.aiTargets (none, -1)
    s.currentHighestThreat).2 with ⟨hsame, hall⟩ | ⟨e, he, hok, hskip, hlt, hres, hall⟩
  · refine Or.inl ⟨by simp [walk, hsame], by simp [walk, hsame], ?_⟩
    intro u x hu hok hskip
    obtain ⟨e, he, rfl, rfl⟩ := hmem u x hu
    exact hall e he hok hskip
  · refine Or.inr ⟨e.1, w.effective e.1 e.2, by simp [walk, hres], by simp [walk, hres], ?_, hok,
      hskip, hlt, ?_⟩
    · have hlookup : s.aiTargets.lookup e.1 = some e.2 := AList.mem_lookup_iff.2 he
      simp [threats, hlookup]
    · intro v y hv hokv hskipv
      obtain ⟨e', he', rfl, rfl⟩ := hmem v y hv
      exact hall e' he' hokv hskipv

/-! ## Taunts -/

/-- The creature is taunted, but the caster of the taunt is gone. -/
def Lapsed (w : World) (s : AIInterface) : Prop :=
  s.isTaunted = true ∧ s.tauntedBy.any w.isAlive = false

/-- The caster of a taunt lives. -/
def Held (w : World) (s : AIInterface) : Prop :=
  s.isTaunted = true ∧ s.tauntedBy.any w.isAlive = true

theorem getMostHated_held (h : Held w s) : s.getMostHated w = (s.tauntedBy, s) := by
  obtain ⟨htaunted, halive⟩ := h
  cases hby : s.tauntedBy with
  | none => simp [hby] at halive
  | some caster =>
    have hcaster : w.isAlive caster = true := by simpa [hby] using halive
    simp [getMostHated, getTauntedBy, getIsTaunted, htaunted, hcaster, hby]

/-- Without a taunt that holds, the table is walked. -/
theorem getMostHated_free (h : ¬ Held w s) : s.getMostHated w =
    { s with isTaunted := false, tauntedBy := if s.isTaunted then none else s.tauntedBy }.walk w
      w.valid none := by
  cases htaunted : s.isTaunted with
  | false =>
    have hs : { s with isTaunted := false, tauntedBy := s.tauntedBy } = s := by
      rw [← htaunted]
    simp [getMostHated, getTauntedBy, getIsTaunted, htaunted, hs]
  | true =>
    have hlapsed : s.tauntedBy.any w.isAlive = false := by
      cases halive : s.tauntedBy.any w.isAlive with
      | false => rfl
      | true => exact absurd ⟨htaunted, halive⟩ h
    simp [getMostHated, getTauntedBy, getIsTaunted, htaunted, hlapsed]

theorem getMostHated_untaunted (h : s.isTaunted = false) :
    s.getMostHated w = s.walk w w.valid none := by
  have hs : { s with isTaunted := false, tauntedBy := s.tauntedBy } = s := by rw [← h]
  rw [getMostHated_free fun hheld => by simp [Held, h] at hheld]
  simp [h, hs]

/-! ## Aim -/

/-- The target is valid and has the greatest effective threat, which is
the one that is cached; or the table is empty and there is none. -/
def Aimed (w : World) (s : AIInterface) : Prop :=
  ((∀ u, s.aiTargets.lookup u = none) ∧ s.nextTarget = none) ∨
    ∃ t, s.nextTarget = some t ∧ w.valid t = true ∧ Peak (threats w s) s.currentHighestThreat t

/-- What is expected of a creature in combat that is not taunted. -/
def Law (p : World × AIInterface) : Prop :=
  p.2.state = .attacking → p.2.isTaunted = false → Aimed p.1 p.2

/-- In combat and not taunted. -/
def Active (s : AIInterface) : Prop := s.state = .attacking ∧ s.isTaunted = false

theorem Aimed.bound (h : Aimed w s) (u : Nat) (y : Int) (hu : threats w s u = some y) :
    y ≤ s.currentHighestThreat := by
  rcases h with ⟨hempty, -⟩ | ⟨t, -, -, hpeak⟩
  · simp [threats, hempty] at hu
  · exact hpeak.bound u y hu

/-- The unit that the walk finds is one to aim at. -/
theorem aimed_found {t : Nat} (h : (s.walk w w.valid none).1 = some t) :
    Aimed w { (s.walk w w.valid none).2 with nextTarget := some t } := by
  rcases walk_found (w := w) (s := s) w.valid none with
    ⟨hnone, -, -⟩ | ⟨u, x, hu, hhigh, hx, hvalid, -, -, hall⟩
  · rw [hnone] at h
    cases h
  · have hut : u = t := Option.some.inj (hu.symm.trans h)
    subst hut
    refine Or.inr ⟨u, rfl, hvalid, ?_, ?_⟩
    · have hkept := threats_walk (w := w) (s := s) w.valid none u
      rw [if_pos hvalid, hx] at hkept
      exact hkept.trans (congrArg some hhigh.symm)
    · intro v y hv
      have hkept := threats_walk (w := w) (s := s) w.valid none v
      have hv' : threats w (s.walk w w.valid none).2 v = some y := hv
      rw [hv'] at hkept
      split_ifs at hkept with hvalidv
      exact hhigh ▸ hall v y hkept.symm hvalidv (by simp)

/-- Choosing anew aims, or ends the combat. -/
theorem law_retarget (w : World) (s : AIInterface) : Law (w, s.retarget w) := by
  intro hstate htaunted
  by_cases hheld : Held w s
  · have hheld' := getMostHated_held hheld
    obtain ⟨htrue, halive⟩ := hheld
    cases hby : s.tauntedBy with
    | none => simp [hby] at halive
    | some caster =>
      simp [retarget, hheld', hby, setNextTarget, htrue] at htaunted
  · obtain ⟨s₀, hfree⟩ : ∃ s₀ : AIInterface, s.getMostHated w = s₀.walk w w.valid none :=
      ⟨_, getMostHated_free hheld⟩
    cases hfound : (s₀.walk w w.valid none).1 with
    | some t =>
      have heq : s.retarget w = { (s₀.walk w w.valid none).2 with nextTarget := some t } := by
        simp only [retarget, hfree, setNextTarget]
        rw [← Prod.eta (s₀.walk w w.valid none), hfound]
      rw [heq]
      exact aimed_found hfound
    | none =>
      have heq : s.retarget w =
          ((s₀.walk w w.valid none).2.setNextTarget none).leaveCombat := by
        simp only [retarget, hfree]
        rw [← Prod.eta (s₀.walk w w.valid none), hfound]
      rw [heq] at hstate
      unfold leaveCombat at hstate
      split_ifs at hstate with hevade hpet
      all_goals simp_all

/-! ## Raising an entry -/

/-- An entry may be raised: the unit is valid if it becomes the target;
if it does not, there are others to aim at; and the target's own threat
does not fall. -/
def KeepsAdd (w : World) (s : AIInterface) (unit : Nat) (mod : Int) : Prop :=
  (s.currentHighestThreat < w.effective unit (s.threatAfter unit mod) → w.valid unit = true) ∧
    (w.effective unit (s.threatAfter unit mod) ≤ s.currentHighestThreat → ∃ u, u ∈ s.aiTargets) ∧
    (w.effective unit (s.threatAfter unit mod) < s.currentHighestThreat → s.nextTarget ≠ some unit)

@[simp] theorem addThreat_state : (s.addThreat w unit mod).state = s.state := by
  unfold addThreat
  split_ifs <;> rfl

@[simp] theorem addThreat_isTaunted : (s.addThreat w unit mod).isTaunted = s.isTaunted := by
  unfold addThreat
  split_ifs <;> rfl

theorem aimed_addThreat (h : Aimed w s) (hfree : s.isTaunted = false)
    (hkeeps : KeepsAdd w s unit mod) : Aimed w (s.addThreat w unit mod) := by
  obtain ⟨hvalid, hothers, hown⟩ := hkeeps
  have hthreats := @threats_addThreat w s unit mod
  by_cases habove : s.currentHighestThreat < w.effective unit (s.threatAfter unit mod)
  · have hnew : s.addThreat w unit mod = { s with
        aiTargets := s.aiTargets.insert unit (s.threatAfter unit mod)
        currentHighestThreat := w.effective unit (s.threatAfter unit mod)
        nextTarget := some unit } := if_pos ⟨habove, hfree⟩
    refine Or.inr ⟨unit, by rw [hnew], hvalid habove, ?_⟩
    rw [hthreats, show (s.addThreat w unit mod).currentHighestThreat =
      w.effective unit (s.threatAfter unit mod) by rw [hnew]]
    exact Peak.update_above h.bound habove
  · have hold : s.addThreat w unit mod =
        { s with aiTargets := s.aiTargets.insert unit (s.threatAfter unit mod) } :=
      if_neg fun hand => habove hand.1
    have hle := not_lt.1 habove
    obtain ⟨u, hu⟩ := hothers hle
    rcases h with ⟨hempty, -⟩ | ⟨t, ht, htvalid, hpeak⟩
    · exact absurd (AList.lookup_isSome.2 hu) (by simp [hempty])
    · refine Or.inr ⟨t, by rw [hold]; exact ht, htvalid, ?_⟩
      rw [hthreats, show (s.addThreat w unit mod).currentHighestThreat =
        s.currentHighestThreat by rw [hold]]
      refine hpeak.update_below hle ?_
      intro hut
      subst hut
      exact le_antisymm hle (not_lt.1 fun hlt => hown hlt ht)

/-- The two additions of `modThreatByPtr`; after the second, a target
whose threat went down is chosen anew. -/
def KeepsMod (w : World) (s : AIInterface) (obj : Nat) (mod : Int) : Prop :=
  (∀ robj, redirected w obj mod = some robj → KeepsAdd w s robj (w.partmod obj mod)) ∧
    (ownMod w obj mod < 0 ∧ ((s.redirectThreat w obj mod).nextTarget = some obj ∨
        (s.redirectThreat w obj mod).currentHighestThreat <
          w.effective obj ((s.redirectThreat w obj mod).threatAfter obj (ownMod w obj mod))) ∨
      KeepsAdd w (s.redirectThreat w obj mod) obj (ownMod w obj mod))

theorem redirectThreat_cases (w : World) (s : AIInterface) (obj : Nat) (mod : Int) :
    (redirected w obj mod = none ∧ s.redirectThreat w obj mod = s) ∨
      ∃ robj, redirected w obj mod = some robj ∧
        s.redirectThreat w obj mod = s.addThreat w robj (w.partmod obj mod) := by
  unfold redirectThreat
  cases redirected w obj mod with
  | none => exact Or.inl ⟨rfl, rfl⟩
  | some robj => exact Or.inr ⟨robj, rfl, rfl⟩

@[simp] theorem redirectThreat_state : (s.redirectThreat w obj mod).state = s.state := by
  rcases redirectThreat_cases w s obj mod with ⟨-, heq⟩ | ⟨robj, -, heq⟩
  · rw [heq]
  · rw [heq, addThreat_state]

@[simp] theorem redirectThreat_isTaunted :
    (s.redirectThreat w obj mod).isTaunted = s.isTaunted := by
  rcases redirectThreat_cases w s obj mod with ⟨-, heq⟩ | ⟨robj, -, heq⟩
  · rw [heq]
  · rw [heq, addThreat_isTaunted]

theorem law_modThreat (hlaw : Law (w, s)) (hkeeps : Active s → KeepsMod w s obj mod) :
    Law (w, s.modThreatByPtr w obj mod) := by
  unfold modThreatByPtr
  dsimp only
  split_ifs with hdecrease
  · exact law_retarget w _
  · intro hstate htaunted
    simp only [addThreat_state, redirectThreat_state] at hstate
    simp only [addThreat_isTaunted, redirectThreat_isTaunted] at htaunted
    obtain ⟨hfirst, hsecond⟩ := hkeeps ⟨hstate, htaunted⟩
    have haimed : Aimed w (s.redirectThreat w obj mod) := by
      rcases redirectThreat_cases w s obj mod with ⟨-, heq⟩ | ⟨robj, hrobj, heq⟩
      · rw [heq]
        exact hlaw hstate htaunted
      · rw [heq]
        exact aimed_addThreat (hlaw hstate htaunted) htaunted (hfirst robj hrobj)
    have hfree : (s.redirectThreat w obj mod).isTaunted = false := by simp [htaunted]
    rcases hsecond with ⟨hneg, htarget⟩ | hadd
    · -- he would be the target, and chosen anew
      refine absurd ⟨?_, hneg⟩ hdecrease
      unfold addThreat
      split_ifs with habove
      · rfl
      · rcases htarget with htarget | hlt
        · exact htarget
        · exact absurd ⟨hlt, hfree⟩ habove
    · exact aimed_addThreat haimed hfree hadd

/-! ## Removing an entry -/

theorem aimed_erase (h : Aimed w s) (hother : s.nextTarget ≠ some unit) :
    Aimed w { s with aiTargets := s.aiTargets.erase unit } := by
  have hkept : ∀ u, threats w { s with aiTargets := s.aiTargets.erase unit } u = threats w s u ∨
      threats w { s with aiTargets := s.aiTargets.erase unit } u = none := by
    intro u
    rw [threats_erase]
    split_ifs
    · exact Or.inr rfl
    · exact Or.inl rfl
  rcases h with ⟨hempty, hnone⟩ | ⟨t, ht, hvalid, hpeak⟩
  · refine Or.inl ⟨?_, hnone⟩
    intro u
    by_cases hu : u = unit
    · subst hu
      exact AList.lookup_erase u s.aiTargets
    · exact (AList.lookup_erase_ne hu).trans (hempty u)
  · refine Or.inr ⟨t, ht, hvalid, hpeak.restrict hkept ?_⟩
    rw [threats_erase, if_neg]
    rintro rfl
    exact hother ht

theorem law_removeThreat (hlaw : Law (w, s)) : Law (w, s.removeThreatByPtr w obj) := by
  unfold removeThreatByPtr
  split_ifs with hmem htarget
  · exact law_retarget w _
  · intro hstate htaunted
    exact aimed_erase (hlaw hstate htaunted) htarget
  · exact hlaw

/-- Nobody is made the target in place of one that is gone, so none of
the others may be valid. -/
def KeepsForget (w : World) (s : AIInterface) (unit : Nat) : Prop :=
  s.state = .attacking → s.nextTarget = some unit →
    Held w s ∨ ∀ u ∈ s.aiTargets, u ≠ unit → w.valid u = false

theorem law_forget (hlaw : Law (w, s)) (hkeeps : KeepsForget w s unit) :
    Law (w, s.forget w unit) := by
  unfold forget
  split_ifs with htarget
  · set s₁ : AIInterface := { s with aiTargets := s.aiTargets.erase unit, nextTarget := none }
    by_cases hheld : Held w s
    · have heq : s₁.getMostHated w = (s₁.tauntedBy, s₁) := getMostHated_held hheld
      rw [heq]
      intro _ htaunted
      have htrue : s₁.isTaunted = true := hheld.1
      rw [htrue] at htaunted
      cases htaunted
    · have heq := getMostHated_free (w := w) (s := s₁) hheld
      rw [heq]
      intro hstate _
      have hall := (hkeeps hstate htarget).resolve_left hheld
      refine Or.inl ⟨?_, rfl⟩
      intro u
      set s₀ : AIInterface := { s₁ with
        isTaunted := false, tauntedBy := if s₁.isTaunted then none else s₁.tauntedBy }
      have hnone : threats w (s₀.walk w w.valid none).2 u = none := by
        rw [threats_walk]
        by_cases hu : u = unit
        · have herased : threats w s₀ u = none := by
            subst hu
            exact (@threats_erase w s u u).trans (if_pos rfl)
          rw [herased, ite_self]
        · cases hvalid : w.valid u with
          | false => rfl
          | true =>
            have hout : u ∉ s.aiTargets := fun hmem => by
              rw [hall u hmem hu] at hvalid
              cases hvalid
            have hlookup : s₀.aiTargets.lookup u = none :=
              (AList.lookup_erase_ne hu).trans (AList.lookup_eq_none.2 hout)
            simp [threats, hlookup]
      exact Option.map_eq_none_iff.1 hnone
  · intro hstate htaunted
    exact aimed_erase (hlaw hstate htaunted) htarget

theorem law_checkTarget (hlaw : Law (w, s)) (hkeeps : KeepsForget w s target) :
    Law (w, s.checkTarget w target) := law_forget hlaw hkeeps

/-! ## Walking again -/

/-- The walk leaves an aimed creature aimed. -/
theorem aimed_walk (h : Aimed w s) (hfree : s.isTaunted = false) :
    Aimed w (s.getMostHated w).2 := by
  rw [getMostHated_untaunted hfree]
  have hkept : ∀ u, threats w (s.walk w w.valid none).2 u = threats w s u ∨
      threats w (s.walk w w.valid none).2 u = none := by
    intro u
    rw [threats_walk]
    split_ifs
    · exact Or.inl rfl
    · exact Or.inr rfl
  rcases h with ⟨hempty, hnone⟩ | ⟨t, ht, hvalid, hpeak⟩
  · refine Or.inl ⟨?_, hnone⟩
    intro u
    have hu : threats w (s.walk w w.valid none).2 u = none := by
      rcases hkept u with hsame | hgone
      · rw [hsame]
        simp [threats, hempty]
      · exact hgone
    exact Option.map_eq_none_iff.1 hu
  · have htkept : threats w (s.walk w w.valid none).2 t = threats w s t := by
      rw [threats_walk, if_pos hvalid]
    refine Or.inr ⟨t, ht, hvalid, ?_⟩
    rcases walk_found (w := w) (s := s) w.valid none with
      ⟨-, hhigh, -⟩ | ⟨u, x, -, hhigh, hx, -, -, -, hall⟩
    · rw [hhigh]
      exact hpeak.restrict hkept htkept
    · have hsame : x = s.currentHighestThreat :=
        le_antisymm (hpeak.bound u x hx) (hall t _ hpeak.top hvalid (by simp))
      rw [hhigh, hsame]
      exact hpeak.restrict hkept htkept

/-- A taunt does not end unseen. -/
def KeepsWalk (w : World) (s : AIInterface) : Prop := s.state = .attacking → ¬ Lapsed w s

theorem law_getMostHated (hlaw : Law (w, s)) (hkeeps : KeepsWalk w s) :
    Law (w, (s.getMostHated w).2) := by
  intro hstate htaunted
  cases hs : s.isTaunted with
  | false =>
    rw [getMostHated_untaunted hs] at hstate
    exact aimed_walk (hlaw hstate hs) hs
  | true =>
    cases halive : s.tauntedBy.any w.isAlive with
    | true =>
      rw [getMostHated_held ⟨hs, halive⟩] at htaunted
      rw [hs] at htaunted
      cases htaunted
    | false =>
      rw [getMostHated_free fun hheld => by simp [Held, halive] at hheld] at hstate
      exact absurd ⟨hs, halive⟩ (hkeeps hstate)

/-- The best but one is as good as the best, or is not over -1; and the
second test does not delete the target. -/
def KeepsSecond (w : World) (s : AIInterface) : Prop :=
  KeepsWalk w s ∧ (Active s → ∀ t, s.nextTarget = some t → w.validSecond t = true ∧
    ((∀ u x, threats w s u = some x → u ≠ t → w.valid u = true → w.validSecond u = true → x ≤ -1) ∨
      ∃ u, u ≠ t ∧ w.valid u = true ∧ w.validSecond u = true ∧
        threats w s u = some s.currentHighestThreat))

theorem aimed_second (h : Aimed w s) (hactive : Active s) (hkeeps : KeepsSecond w s) :
    Aimed w (s.getSecondHated w).2 := by
  have hfirst := aimed_walk h hactive.2
  have heq : s.getSecondHated w = (s.walk w w.valid none).2.walk w w.validSecond
      (s.walk w w.valid none).1 := by
    simp only [getSecondHated, getMostHated_untaunted hactive.2]
  rw [getMostHated_untaunted hactive.2] at hfirst
  rw [heq]
  generalize hs₁ : s.walk w w.valid none = r at hfirst ⊢
  have hthreats : ∀ u, threats w r.2 u = if w.valid u = true then threats w s u else none :=
    fun u => by rw [← hs₁, threats_walk]
  have hkept : ∀ u, threats w (r.2.walk w w.validSecond r.1).2 u = threats w r.2 u ∨
      threats w (r.2.walk w w.validSecond r.1).2 u = none := by
    intro u
    rw [threats_walk]
    split_ifs
    · exact Or.inl rfl
    · exact Or.inr rfl
  have htarget : r.2.nextTarget = s.nextTarget := by rw [← hs₁]; rfl
  rcases hfirst with ⟨hempty, hnone⟩ | ⟨t, ht, hvalid, hpeak⟩
  · refine Or.inl ⟨?_, hnone⟩
    intro u
    have hu : threats w (r.2.walk w w.validSecond r.1).2 u = none := by
      rcases hkept u with hsame | hgone
      · rw [hsame]
        simp [threats, hempty]
      · exact hgone
    exact Option.map_eq_none_iff.1 hu
  · obtain ⟨hsecond, hothers⟩ := hkeeps.2 hactive t (htarget ▸ ht)
    have htkept : threats w (r.2.walk w w.validSecond r.1).2 t = threats w r.2 t := by
      rw [threats_walk, if_pos hsecond]
    refine Or.inr ⟨t, ht, hvalid, ?_⟩
    have hsame : (r.2.walk w w.validSecond r.1).2.currentHighestThreat =
        r.2.currentHighestThreat := by
      rcases walk_found (w := w) (s := r.2) w.validSecond r.1 with
        ⟨-, hhigh, -⟩ | ⟨u, x, -, hhigh, hx, hok, hskip, hlt, hall⟩
      · exact hhigh
      · rw [hhigh]
        refine le_antisymm (hpeak.bound u x hx) ?_
        -- the target, or the other one that is as good, was not skipped
        by_cases htskip : r.1 = some t
        · have hut : u ≠ t := by
            rintro rfl
            exact hskip htskip
          have huvalid : w.valid u = true ∧ threats w s u = some x := by
            have hu := hthreats u
            rw [hx] at hu
            split_ifs at hu with huv
            exact ⟨huv, hu.symm⟩
          rcases hothers with hlow | ⟨v, hvt, hvvalid, hvok, hv⟩
          · exact absurd (hlow u x huvalid.2 hut huvalid.1 hok) (not_le.2 hlt)
          · have hvr : threats w r.2 v = some s.currentHighestThreat := by
              rw [hthreats, if_pos hvvalid, hv]
            have hbest : r.2.currentHighestThreat = s.currentHighestThreat := by
              have htop := hpeak.top
              rw [hthreats, if_pos hvalid] at htop
              have hle := h.bound t _ htop
              exact le_antisymm hle (hpeak.bound v _ hvr)
            rw [hbest]
            refine hall v _ hvr hvok ?_
            rw [htskip]
            exact fun heq => hvt (Option.some.inj heq).symm
        · exact hall t _ hpeak.top hsecond htskip
    rw [hsame]
    exact hpeak.restrict hkept htkept

theorem law_getSecondHated (hlaw : Law (w, s)) (hkeeps : KeepsSecond w s) :
    Law (w, (s.getSecondHated w).2) := by
  intro hstate htaunted
  cases hs : s.isTaunted with
  | false =>
    have heq : s.getSecondHated w = (s.walk w w.valid none).2.walk w w.validSecond
        (s.walk w w.valid none).1 := by
      simp only [getSecondHated, getMostHated_untaunted hs]
    have hactive : Active s := by
      rw [heq] at hstate
      exact ⟨hstate, hs⟩
    exact aimed_second (hlaw hactive.1 hs) hactive hkeeps
  | true =>
    cases halive : s.tauntedBy.any w.isAlive with
    | true =>
      simp only [getSecondHated, getMostHated_held ⟨hs, halive⟩] at htaunted
      have htrue : (s.walk w w.validSecond s.tauntedBy).2.isTaunted = true := hs
      rw [htrue] at htaunted
      cases htaunted
    | false =>
      have hfree : ¬ Held w s := fun hheld => by simp [Held, halive] at hheld
      simp only [getSecondHated, getMostHated_free hfree] at hstate
      exact absurd ⟨hs, halive⟩ (hkeeps.1 hstate)

/-! ## Taunt on and off -/

/-- Without a caster, a taunt that lapsed ends unseen. -/
def KeepsTaunt (w : World) (s : AIInterface) (caster : Option Nat) : Prop :=
  s.state = .attacking → caster = none → ¬ Lapsed w s

theorem law_tauntOn {caster : Option Nat} (hlaw : Law (w, s)) (hkeeps : KeepsTaunt w s caster) :
    Law (w, s.tauntOn w caster) := by
  intro hstate htaunted
  cases caster with
  | some unit =>
    unfold tauntOn at htaunted
    cases hget : s.getIsTaunted w with
    | mk b s₁ =>
      cases b with
      | false => simp [hget] at htaunted
      | true =>
        have htrue : s₁.isTaunted = true := by
          unfold getIsTaunted at hget
          split_ifs at hget
          · cases hget
          · obtain ⟨htrue, hsame⟩ := Prod.mk.inj hget
            rw [← hsame]
            exact htrue
        simp [hget, htrue] at htaunted
  | none =>
    by_cases hlapsed : Lapsed w s
    · have hget : s.getIsTaunted w =
          (false, { s with isTaunted := false, tauntedBy := none }) := if_pos hlapsed
      simp only [tauntOn, hget] at hstate
      exact absurd hlapsed (hkeeps hstate rfl)
    · have hget : s.getIsTaunted w = (s.isTaunted, s) := if_neg hlapsed
      cases hs : s.isTaunted with
      | true =>
        simp only [tauntOn, hget, hs] at htaunted
        cases htaunted
      | false =>
        have heq : s.tauntOn w none = { s with isTaunted := false } := by
          simp only [tauntOn, hget, hs]
        have hsame : { s with isTaunted := false } = s := by rw [← hs]
        rw [heq, hsame] at hstate ⊢
        exact hlaw hstate hs

/-- When a taunt is over there is a unit to aim at, or none is left. -/
def KeepsOff (w : World) (s : AIInterface) : Prop :=
  s.state = .attacking →
    (∃ u x, threats w s u = some x ∧ w.valid u = true ∧ -1 < x) ∨
      ∀ u ∈ s.aiTargets, w.valid u = false

theorem law_tauntOff (hkeeps : KeepsOff w s) : Law (w, s.tauntOff w) := by
  set s₁ : AIInterface := { s with isTaunted := false, tauntedBy := none } with hs₁
  have heq : s.tauntOff w = { (s₁.walk w w.valid none).2 with
      nextTarget := (s₁.walk w w.valid none).1 } := by
    simp only [tauntOff, getMostHated_untaunted (w := w) (s := s₁) rfl, setNextTarget, ← hs₁]
  intro hstate _
  rw [heq] at hstate ⊢
  cases hfound : (s₁.walk w w.valid none).1 with
  | some t => exact aimed_found hfound
  | none =>
    rcases hkeeps hstate with ⟨u, x, hx, hvalid, hlt⟩ | hall
    · rcases walk_found (w := w) (s := s₁) w.valid none with
        ⟨-, -, hlow⟩ | ⟨v, y, hv, -⟩
      · exact absurd (hlow u x hx hvalid (by simp)) (not_le.2 hlt)
      · rw [hfound] at hv
        cases hv
    · refine Or.inl ⟨?_, rfl⟩
      intro u
      have hnone : threats w (s₁.walk w w.valid none).2 u = none := by
        rw [threats_walk]
        split_ifs with hvalid
        · by_contra hsome
          obtain ⟨x, hx⟩ := Option.ne_none_iff_exists'.1 hsome
          have hmem : u ∈ s.aiTargets := mem_iff_threats.2 ⟨x, hx⟩
          rw [hall u hmem] at hvalid
          cases hvalid
        · rfl
      exact Option.map_eq_none_iff.1 hnone

/-! ## The whole list -/

/-- Set to `c`, the target's effective threat is `c`, and nobody's is
over it. -/
def KeepsAll (w : World) (s : AIInterface) (c : Int) : Prop :=
  Active s → ∀ t, s.nextTarget = some t →
    w.effective t c = c ∧ ∀ u ∈ s.aiTargets, w.effective u c ≤ c

theorem law_setAll (c : Int) (hlaw : Law (w, s)) (hkeeps : KeepsAll w s c) :
    Law (w, { s with aiTargets := setAll c s.aiTargets, currentHighestThreat := c }) := by
  intro hstate htaunted
  rcases hlaw hstate htaunted with ⟨hempty, hnone⟩ | ⟨t, ht, hvalid, hpeak⟩
  · exact Or.inl ⟨fun u => by simp [lookup_setAll, hempty], hnone⟩
  · obtain ⟨hown, hothers⟩ := hkeeps ⟨hstate, htaunted⟩ t ht
    refine Or.inr ⟨t, ht, hvalid, ?_, ?_⟩
    · obtain ⟨threat, hthreat, -⟩ := Option.map_eq_some_iff.1 hpeak.top
      simp [threats, lookup_setAll, hthreat, hown]
    · intro u x hu
      simp only [threats, lookup_setAll, Option.map_map, Option.map_eq_some_iff] at hu
      obtain ⟨threat, hthreat, rfl⟩ := hu
      exact hothers u (AList.lookup_isSome.1 (by simp [hthreat]))

theorem law_wipeTargetList : Law (w, s.wipeTargetList) := by
  intro _ _
  exact Or.inl ⟨AList.lookup_empty, rfl⟩

/-- The target stays valid and as hated, and nobody is lifted over it. -/
def KeepsWorld (w w' : World) (s : AIInterface) : Prop :=
  Active s → ∀ t, s.nextTarget = some t → w'.valid t = true ∧
    threats w' s t = threats w s t ∧
    ∀ u x, threats w' s u = some x → x ≤ s.currentHighestThreat

theorem law_world (hlaw : Law (w, s)) (hkeeps : KeepsWorld w w' s) : Law (w', s) := by
  intro hstate htaunted
  rcases hlaw hstate htaunted with hempty | ⟨t, ht, -, hpeak⟩
  · exact Or.inl hempty
  · obtain ⟨hvalid, hsame, hall⟩ := hkeeps ⟨hstate, htaunted⟩ t ht
    exact Or.inr ⟨t, ht, hvalid, hsame.trans hpeak.top, hall⟩

/-! ## Runs -/

/-- The condition on a call. -/
def Keeps : World × AIInterface → Call → Prop
  | (w, s), .modThreatByPtr obj mod => Active s → KeepsMod w s obj mod
  | _, .removeThreatByPtr _ => True
  | (w, s), .checkTarget target => KeepsForget w s target
  | (w, s), .forget unit => KeepsForget w s unit
  | (w, s), .tauntOn caster => KeepsTaunt w s caster
  | (w, s), .tauntOff => KeepsOff w s
  | (w, s), .getMostHated => KeepsWalk w s
  | (w, s), .getSecondHated => KeepsSecond w s
  | (w, s), .wipeHateList => KeepsAll w s 0
  | (w, s), .clearHateList => KeepsAll w s 1
  | _, .wipeTargetList => True
  | (w, s), .world w' => KeepsWorld w w' s

theorem law_step (p : World × AIInterface) (c : Call) (hlaw : Law p) (hkeeps : Keeps p c) :
    Law (step p c) := by
  obtain ⟨w, s⟩ := p
  cases c with
  | modThreatByPtr obj mod => exact law_modThreat hlaw hkeeps
  | removeThreatByPtr obj => exact law_removeThreat hlaw
  | checkTarget target => exact law_checkTarget hlaw hkeeps
  | forget unit => exact law_forget hlaw hkeeps
  | tauntOn caster => exact law_tauntOn hlaw hkeeps
  | tauntOff => exact law_tauntOff hkeeps
  | getMostHated => exact law_getMostHated hlaw hkeeps
  | getSecondHated => exact law_getSecondHated hlaw hkeeps
  | wipeHateList => exact law_setAll 0 hlaw hkeeps
  | clearHateList => exact law_setAll 1 hlaw hkeeps
  | wipeTargetList => exact law_wipeTargetList
  | world w' => exact law_world hlaw hkeeps

/-- In every run of calls that meet the condition, from any state where
the creature is aimed, it is aimed in each state reached, in combat and
not taunted: the cached threat is the greatest in the table, and the
target is a valid unit that has it. -/
theorem law_run (p q : World × AIInterface) (calls : List Call) (h0 : Law p)
    (hrun : Run (Guarded Keeps (FunStep step)) p calls q) :
    Law q ∧ (Active q.2 → (∃ u, u ∈ q.2.aiTargets) →
      IsGreatest {x | ∃ u, threats q.1 q.2 u = some x} q.2.currentHighestThreat) := by
  have hlaw : Law q := by
    refine hrun.invariant Law ?_ h0
    rintro p₁ c p₂ hp₁ ⟨hkeeps, hstep⟩
    rw [hstep]
    exact law_step p₁ c hp₁ hkeeps
  refine ⟨hlaw, ?_⟩
  rintro ⟨hstate, htaunted⟩ ⟨u, hu⟩
  rcases hlaw hstate htaunted with ⟨hempty, -⟩ | ⟨t, -, -, hpeak⟩
  · exact absurd (AList.lookup_isSome.2 hu) (by simp [hempty])
  · exact hpeak.isGreatest

/-- Everybody lives and is near; units from 60 on have a modifier of
-10. -/
def meadow : World where
  self := 1
  eventInstance _ := 0
  instanceId _ := 0
  isAlive _ := true
  isAttackable _ := true
  isHostile _ := true
  threatModifier unit := if unit < 60 then 0 else -10
  threatRTarget _ := none
  partmod _ _ := 0
  near _ _ := true

/-- A creature that was just attacked. -/
def fresh : AIInterface := ⟨∅, 0, none, false, none, .attacking, false⟩

theorem law_fresh : Law (meadow, fresh) := fun _ _ => Or.inl ⟨AList.lookup_empty, rfl⟩

/-- Unit 52 outdoes unit 51, and is removed. -/
theorem law_run_removed :
    Law ([.modThreatByPtr 51 100, .modThreatByPtr 52 150, .removeThreatByPtr 52].foldl step
      (meadow, fresh)) := by
  refine (law_run (meadow, fresh) _
    [.modThreatByPtr 51 100, .modThreatByPtr 52 150, .removeThreatByPtr 52]
    law_fresh
    (.cons ⟨?_, rfl⟩ (.cons ⟨?_, rfl⟩ (.cons ⟨trivial, rfl⟩ (.nil _))))).1
  all_goals
    refine fun _ => ⟨fun robj h => ?_, Or.inr ⟨fun _ => by decide +kernel, fun h => ?_, fun h => ?_⟩⟩
  · rw [show redirected meadow 51 100 = none by decide +kernel] at h
    cases h
  · exact absurd h (by decide +kernel)
  · exact absurd h (by decide +kernel)
  · rw [show redirected meadow 52 150 = none by decide +kernel] at h
    cases h
  · exact absurd h (by decide +kernel)
  · exact absurd h (by decide +kernel)

/-- The second best overwrites the highest threat; the target is gone and
nobody takes its place; the list is wiped, and the modifiers are
forgotten; and the first to attack has too little threat to be a target. -/
theorem not_law_run :
    ¬ Law ([.modThreatByPtr 51 100, .modThreatByPtr 52 50, .getSecondHated].foldl step
        (meadow, fresh)) ∧
      ¬ Law ([.modThreatByPtr 51 100, .modThreatByPtr 52 50, .checkTarget 51].foldl step
        (meadow, fresh)) ∧
      ¬ Law ([.modThreatByPtr 61 100, .wipeHateList].foldl step (meadow, fresh)) ∧
      ¬ Law ([.modThreatByPtr 61 5].foldl step (meadow, fresh)) := by
  refine ⟨fun h => ?_, fun h => ?_, fun h => ?_, fun h => ?_⟩
  · have hle := (h (by decide +kernel) (by decide +kernel)).bound 51 100 (by decide +kernel)
    exact absurd hle (by decide +kernel)
  · rcases h (by decide +kernel) (by decide +kernel) with ⟨hempty, -⟩ | ⟨t, ht, -⟩
    · exact absurd (hempty 52) (by decide +kernel)
    · exact absurd (ht.symm.trans (by decide +kernel : _ = none)) (by simp)
  · rcases h (by decide +kernel) (by decide +kernel) with ⟨hempty, -⟩ | ⟨t, ht, -, hpeak⟩
    · exact absurd (hempty 61) (by decide +kernel)
    · have ht' : some 61 = some t := Eq.trans (by decide +kernel) ht
      cases ht'
      exact absurd hpeak.top (by decide +kernel)
  · rcases h (by decide +kernel) (by decide +kernel) with ⟨hempty, -⟩ | ⟨t, ht, -⟩
    · exact absurd (hempty 61) (by decide +kernel)
    · exact absurd (ht.symm.trans (by decide +kernel : _ = none)) (by simp)

end HearthStone.ThreatTable
