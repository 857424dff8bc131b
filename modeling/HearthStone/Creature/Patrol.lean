/-
HearthStone.Creature.Patrol — the order in which a creature walks along its
waypoints (`AIInterface.cpp`).

A creature that stands still asks `_UpdateMovement` for its next waypoint.
The number of waypoints is an argument of every step, as it changes with
additions and deletions. A random waypoint is an argument as well.

* `nextWaypoint` — the step, for each type of movement.
* `Keeps` — when the step leaves the current waypoint in the table.
* `wave` — the walk up and down in closed form.
* `patrols_iff` — over a whole run.
-/
import HearthStone.Creature.WayPoints

namespace HearthStone.Patrol

def MOVEMENTTYPE_RANDOMWP : UInt32 := 1
def MOVEMENTTYPE_CIRCLEWP : UInt32 := 2
def MOVEMENTTYPE_WANTEDWP : UInt32 := 3
def MOVEMENTTYPE_DONTMOVEWP : UInt32 := 4
def MOVEMENTTYPE_QUEST : UInt32 := 10
def MOVEMENTTYPE_FORWARDTHANSTOP : UInt32 := 11

/-- What the step reads and writes of an `AIInterface`. -/
structure Walker where
  m_currentWaypoint : UInt32
  m_moveBackward : Bool
  m_moveType : UInt32
  deriving DecidableEq

variable {s : Walker} {n roll : UInt32}

/-- `destpoint`, an `int` whose -1 says that there is none. -/
def destpoint (x : UInt32) : Option UInt32 := if x = 0xffffffff then none else some x

/-- "1 -> 10 then 1 -> 10" -/
def circleStep (n : UInt32) (s : Walker) : Walker :=
  { s with
    m_currentWaypoint := if s.m_currentWaypoint + 1 > n then 1 else s.m_currentWaypoint + 1
    m_moveBackward := false }

/-- "Happens when you delete last wp seems to continue ticking" -/
def restart (n cur : UInt32) : UInt32 := if cur > n then 1 else cur

/-- On the last waypoint the creature turns, and on the first one. -/
def turned (n cur : UInt32) (backward : Bool) : Bool :=
  if cur = 1 then false else if cur = n then true else backward

/-- "1 -> 10 then 10 -> 1" -/
def bounceStep (n : UInt32) (s : Walker) : Walker :=
  let cur := restart n s.m_currentWaypoint
  let backward := turned n cur s.m_moveBackward
  { s with
    m_currentWaypoint := if backward then cur - 1 else cur + 1
    m_moveBackward := backward }

/-- The choice of the next waypoint in `_UpdateMovement`: the state and the
waypoint to go to. `roll` is `RandomUInt(wpcount-1)`. -/
def nextWaypoint (wpcount roll : UInt32) (s : Walker) : Walker × Option UInt32 :=
  if wpcount = 0 then (s, none)
  else if s.m_moveType = MOVEMENTTYPE_RANDOMWP then
    (s, if wpcount > 1 then destpoint (roll + 1) else none)
  else if s.m_moveType = MOVEMENTTYPE_CIRCLEWP then
    (circleStep wpcount s, destpoint (circleStep wpcount s).m_currentWaypoint)
  else if s.m_moveType = MOVEMENTTYPE_WANTEDWP then
    (s, if s.m_currentWaypoint ≠ 0 then destpoint s.m_currentWaypoint else none)
  else if s.m_moveType = MOVEMENTTYPE_FORWARDTHANSTOP then
    ({ s with m_currentWaypoint := s.m_currentWaypoint + 1 },
      if s.m_currentWaypoint + 1 > wpcount then none else destpoint (s.m_currentWaypoint + 1))
  else if s.m_moveType ≠ MOVEMENTTYPE_QUEST ∧ s.m_moveType ≠ MOVEMENTTYPE_DONTMOVEWP then
    (bounceStep wpcount s, destpoint (bounceStep wpcount s).m_currentWaypoint)
  else (s, none)

/-- The states of a run, with the number of waypoints and the roll of each
step. -/
def walk (counts rolls : Nat → UInt32) (s : Walker) : Nat → Walker
  | 0 => s
  | k + 1 => (nextWaypoint (counts k) (rolls k) (walk counts rolls s k)).1

/-! ## The range -/

/-- The types of movement that have no branch of their own. -/
def Bounces (s : Walker) : Prop :=
  s.m_moveType ∉ [MOVEMENTTYPE_RANDOMWP, MOVEMENTTYPE_CIRCLEWP, MOVEMENTTYPE_WANTEDWP,
    MOVEMENTTYPE_DONTMOVEWP, MOVEMENTTYPE_QUEST, MOVEMENTTYPE_FORWARDTHANSTOP]

instance : Decidable (Bounces s) := inferInstanceAs (Decidable (_ ∉ _))

/-- The current waypoint is one of the table. -/
def InRange (n : UInt32) (s : Walker) : Prop := 1 ≤ s.m_currentWaypoint ∧ s.m_currentWaypoint ≤ n

instance : Decidable (InRange n s) := inferInstanceAs (Decidable (_ ∧ _))

/-- The condition under which a step ends in the table. -/
def Keeps (n : UInt32) (s : Walker) : Prop :=
  if s.m_moveType = MOVEMENTTYPE_CIRCLEWP then s.m_currentWaypoint ≠ 0xffffffff
  else if s.m_moveType = MOVEMENTTYPE_FORWARDTHANSTOP then s.m_currentWaypoint < n
  else if Bounces s then
    (1 < n ∧ (s.m_currentWaypoint = 0 → s.m_moveBackward = true → n = 0xffffffff)) ∨
      (n = 1 ∧ s.m_currentWaypoint = 0 ∧ s.m_moveBackward = false)
  else InRange n s

instance : Decidable (Keeps n s) := by unfold Keeps; infer_instance

theorem nextWaypoint_circle (hn : n ≠ 0) (htype : s.m_moveType = MOVEMENTTYPE_CIRCLEWP) :
    nextWaypoint n roll s = (circleStep n s, destpoint (circleStep n s).m_currentWaypoint) := by
  unfold nextWaypoint
  rw [htype, if_neg hn, if_neg (by decide), if_pos rfl]

theorem nextWaypoint_bounce (hn : n ≠ 0) (htype : Bounces s) :
    nextWaypoint n roll s = (bounceStep n s, destpoint (bounceStep n s).m_currentWaypoint) := by
  unfold Bounces at htype
  simp only [List.mem_cons, List.not_mem_nil, or_false, not_or] at htype
  obtain ⟨hrandom, hcircle, hwanted, hdont, hquest, hforward⟩ := htype
  unfold nextWaypoint
  rw [if_neg hn, if_neg hrandom, if_neg hcircle, if_neg hwanted, if_neg hforward,
    if_pos ⟨hquest, hdont⟩]

theorem moveType_nextWaypoint : (nextWaypoint n roll s).1.m_moveType = s.m_moveType := by
  unfold nextWaypoint
  split_ifs
  all_goals rfl

/-! Sums and differences of the counter, as numbers. -/

theorem toNat_succ {x : UInt32} (h : x ≠ 0xffffffff) : (x + 1).toNat = x.toNat + 1 := by
  have hx := x.toNat_lt
  have hne : x.toNat ≠ 2 ^ 32 - 1 := fun heq => h (UInt32.toNat.inj heq)
  have hone : (1 : UInt32).toNat = 1 := rfl
  rw [UInt32.toNat_add, hone]
  omega

theorem toNat_pred {x : UInt32} (h : 1 ≤ x) : (x - 1).toNat = x.toNat - 1 := by
  rw [UInt32.toNat_sub_of_le _ _ h]
  rfl

theorem ne_max_of_lt {x : UInt32} (h : x < n) : x ≠ 0xffffffff := by
  rintro rfl
  have hn := n.toNat_lt
  rw [UInt32.lt_iff_toNat_lt] at h
  have hmax : (0xffffffff : UInt32).toNat = 2 ^ 32 - 1 := rfl
  omega

theorem inRange_circleStep (hn : n ≠ 0) :
    InRange n (circleStep n s) ↔ s.m_currentWaypoint ≠ 0xffffffff := by
  have hpos : 1 ≤ n := by
    rw [UInt32.le_iff_toNat_le]
    have hne : n.toNat ≠ 0 := fun h => hn (UInt32.toNat.inj h)
    change 1 ≤ n.toNat
    omega
  unfold InRange circleStep
  by_cases hmax : s.m_currentWaypoint = 0xffffffff
  · have hzero : s.m_currentWaypoint + 1 = 0 := by rw [hmax]; rfl
    have hle : ¬ (0 : UInt32) > n := UInt32.not_lt.2 UInt32.zero_le
    rw [hzero, if_neg hle]
    refine iff_of_false (fun h => ?_) (fun h => h hmax)
    have hlow : (1 : UInt32) ≤ 0 := h.1
    exact absurd hlow (by decide)
  · refine iff_of_true ?_ hmax
    simp only
    split
    case isTrue => exact ⟨UInt32.le_refl 1, hpos⟩
    case isFalse hle =>
      refine ⟨?_, UInt32.not_lt.1 hle⟩
      rw [UInt32.le_iff_toNat_le, toNat_succ hmax]
      change 1 ≤ _
      omega

/-- The step of the default mode, as numbers. -/
theorem bounceStep_eq (hrange : InRange n s) (hn : 1 < n) :
    (bounceStep n s).m_moveType = s.m_moveType ∧
    (bounceStep n s).m_moveBackward = turned n s.m_currentWaypoint s.m_moveBackward ∧
    (bounceStep n s).m_currentWaypoint.toNat =
      if turned n s.m_currentWaypoint s.m_moveBackward then s.m_currentWaypoint.toNat - 1
      else s.m_currentWaypoint.toNat + 1 := by
  have hsame : restart n s.m_currentWaypoint = s.m_currentWaypoint :=
    if_neg (UInt32.not_lt.2 hrange.2)
  refine ⟨rfl, by simp only [bounceStep, hsame], ?_⟩
  simp only [bounceStep, hsame]
  split
  case isTrue => exact toNat_pred hrange.1
  case isFalse hforward =>
    refine toNat_succ (ne_max_of_lt (n := n) ?_)
    by_contra hge
    have hlast : s.m_currentWaypoint = n :=
      UInt32.le_antisymm hrange.2 (UInt32.not_lt.1 hge)
    unfold turned at hforward
    rw [hlast] at hforward
    by_cases hone : n = 1
    · exact absurd hn (by rw [hone]; decide)
    · rw [if_neg hone, if_pos rfl] at hforward
      exact hforward rfl

theorem lt_iff_ne_one (hn : n ≠ 0) : 1 < n ↔ n ≠ 1 := by
  have hne : n.toNat ≠ 0 := fun h => hn (UInt32.toNat.inj h)
  have hone : (1 : UInt32).toNat = 1 := rfl
  rw [UInt32.lt_iff_toNat_lt, ne_eq, ← UInt32.toNat_inj, hone]
  omega

theorem inRange_bounceStep (hn : n ≠ 0) : InRange n (bounceStep n s) ↔
    (1 < n ∧ (s.m_currentWaypoint = 0 → s.m_moveBackward = true → n = 0xffffffff)) ∨
      (n = 1 ∧ s.m_currentWaypoint = 0 ∧ s.m_moveBackward = false) := by
  have hpos : 1 ≤ n := UInt32.not_lt.1 fun hlt => hn (UInt32.lt_one_iff.1 hlt)
  have htwo : (2 : UInt32) ≤ n ↔ 1 < n := by
    rw [UInt32.le_iff_toNat_le, UInt32.lt_iff_toNat_lt]
    exact Iff.rfl
  have hone : (1 : UInt32).toNat = 1 := rfl
  by_cases hshrunk : s.m_currentWaypoint > n
  · -- back at the first, and on to the second
    have hne : s.m_currentWaypoint ≠ 0 := by
      intro hzero
      rw [hzero] at hshrunk
      exact UInt32.not_lt.2 UInt32.zero_le hshrunk
    have hstep : (bounceStep n s).m_currentWaypoint = 2 := by
      simp [bounceStep, restart, hshrunk, turned]
    rw [InRange, hstep, htwo]
    simp only [hne, false_implies, and_true, false_and, and_false, or_false]
    exact and_iff_right (by decide)
  · have hle := UInt32.not_lt.1 hshrunk
    by_cases hzero : s.m_currentWaypoint = 0
    · have hother : n ≠ 0 := hn
      cases hback : s.m_moveBackward with
      | true =>
        have hstep : (bounceStep n s).m_currentWaypoint = 0xffffffff := by
          simp [bounceStep, restart, hzero, turned, hback, hn.symm]
          rfl
        rw [InRange, hstep]
        have hmax : (0xffffffff : UInt32) ≤ n ↔ n = 0xffffffff := by
          rw [UInt32.le_iff_toNat_le, ← UInt32.toNat_inj]
          have hlt := n.toNat_lt
          have hval : (0xffffffff : UInt32).toNat = 2 ^ 32 - 1 := rfl
          omega
        rw [hmax]
        simp only [hzero, true_implies, Bool.true_eq_false, and_false, or_false]
        constructor
        · rintro ⟨-, rfl⟩
          exact ⟨by decide, rfl⟩
        · rintro ⟨-, rfl⟩
          exact ⟨by decide, rfl⟩
      | false =>
        have hstep : (bounceStep n s).m_currentWaypoint = 1 := by
          simp [bounceStep, restart, hzero, turned, hback, hn.symm]
        rw [InRange, hstep]
        refine iff_of_true ⟨UInt32.le_refl 1, hpos⟩ ?_
        by_cases hsingle : n = 1
        · exact Or.inr ⟨hsingle, hzero, rfl⟩
        · exact Or.inl ⟨(lt_iff_ne_one hn).2 hsingle, fun _ h => by cases h⟩
    · have hrange : InRange n s :=
        ⟨UInt32.not_lt.1 fun hlt => hzero (UInt32.lt_one_iff.1 hlt), hle⟩
      simp only [hzero, false_implies, and_true, false_and, and_false, or_false]
      constructor
      · intro hafter
        rw [lt_iff_ne_one hn]
        rintro rfl
        have hfirst : s.m_currentWaypoint = 1 := UInt32.le_antisymm hrange.2 hrange.1
        have hstep : (bounceStep 1 s).m_currentWaypoint = 2 := by
          simp [bounceStep, restart, hfirst, turned]
        have hlast := hafter.2
        rw [hstep] at hlast
        exact absurd hlast (by decide)
      · intro hlt
        obtain ⟨-, -, hstep⟩ := bounceStep_eq hrange hlt
        have hlow := UInt32.le_iff_toNat_le.1 hrange.1
        have hhigh := UInt32.le_iff_toNat_le.1 hrange.2
        rw [UInt32.lt_iff_toNat_lt, hone] at hlt
        rw [InRange, UInt32.le_iff_toNat_le, UInt32.le_iff_toNat_le, hstep, hone]
        rw [hone] at hlow
        unfold turned
        by_cases hfirst : s.m_currentWaypoint = 1
        · rw [if_pos hfirst, hfirst, hone]
          simp only [Bool.false_eq_true, if_false]
          omega
        · rw [if_neg hfirst]
          have hne : s.m_currentWaypoint.toNat ≠ 1 := fun h => hfirst (UInt32.toNat.inj h)
          by_cases hend : s.m_currentWaypoint = n
          · rw [if_pos hend, hend, if_pos rfl]
            omega
          · have hne' : s.m_currentWaypoint.toNat ≠ n.toNat := fun h => hend (UInt32.toNat.inj h)
            rw [if_neg hend]
            split
            all_goals omega

/-- A step ends in the table exactly when it meets the condition. -/
theorem inRange_nextWaypoint (hn : n ≠ 0) (roll : UInt32) :
    InRange n (nextWaypoint n roll s).1 ↔ Keeps n s := by
  unfold Keeps
  by_cases hcircle : s.m_moveType = MOVEMENTTYPE_CIRCLEWP
  · rw [nextWaypoint_circle hn hcircle, if_pos hcircle]
    exact inRange_circleStep hn
  rw [if_neg hcircle]
  by_cases hforward : s.m_moveType = MOVEMENTTYPE_FORWARDTHANSTOP
  · rw [if_pos hforward]
    have hstep : (nextWaypoint n roll s).1.m_currentWaypoint = s.m_currentWaypoint + 1 := by
      unfold nextWaypoint
      rw [if_neg hn, hforward, if_neg (by decide), if_neg (by decide), if_neg (by decide),
        if_pos rfl]
    rw [InRange, hstep]
    have hone : (1 : UInt32).toNat = 1 := rfl
    by_cases hmax : s.m_currentWaypoint = 0xffffffff
    · rw [hmax]
      refine iff_of_false (fun h => absurd h.1 (by decide)) fun hlt => ?_
      exact ne_max_of_lt hlt rfl
    · rw [UInt32.le_iff_toNat_le, UInt32.le_iff_toNat_le, toNat_succ hmax, hone,
        UInt32.lt_iff_toNat_lt]
      omega
  rw [if_neg hforward]
  by_cases hbounces : Bounces s
  · rw [nextWaypoint_bounce hn hbounces, if_pos hbounces]
    exact inRange_bounceStep hn
  rw [if_neg hbounces]
  have hstep : (nextWaypoint n roll s).1 = s := by
    unfold Bounces at hbounces
    simp only [not_not, List.mem_cons, List.not_mem_nil, or_false] at hbounces
    rcases hbounces with h | h | h | h | h | h
    · simp [nextWaypoint, hn, h]
    · exact absurd h hcircle
    · simp [nextWaypoint, hn, h, MOVEMENTTYPE_RANDOMWP, MOVEMENTTYPE_CIRCLEWP, MOVEMENTTYPE_WANTEDWP]
    · simp [nextWaypoint, hn, h, MOVEMENTTYPE_RANDOMWP, MOVEMENTTYPE_CIRCLEWP,
        MOVEMENTTYPE_WANTEDWP, MOVEMENTTYPE_FORWARDTHANSTOP, MOVEMENTTYPE_DONTMOVEWP]
    · simp [nextWaypoint, hn, h, MOVEMENTTYPE_RANDOMWP, MOVEMENTTYPE_CIRCLEWP,
        MOVEMENTTYPE_WANTEDWP, MOVEMENTTYPE_FORWARDTHANSTOP, MOVEMENTTYPE_QUEST]
    · exact absurd h hforward
  rw [hstep]

/-! ## The order -/

/-- Up from 1 to `n` and down again, and so on. -/
def wave (n φ : Nat) : Nat :=
  if φ % (2 * (n - 1)) < n then φ % (2 * (n - 1)) + 1 else 2 * (n - 1) - φ % (2 * (n - 1)) + 1

/-- An end is not repeated. -/
theorem wave_succ_ne {n : Nat} (hn : 1 < n) (φ : Nat) : wave n (φ + 1) ≠ wave n φ := by
  have hmod := Nat.mod_lt φ (show 0 < 2 * (n - 1) by omega)
  have hsucc : (φ + 1) % (2 * (n - 1)) =
      if φ % (2 * (n - 1)) + 1 = 2 * (n - 1) then 0 else φ % (2 * (n - 1)) + 1 := by
    rw [← Nat.mod_add_mod]
    split
    case isTrue heq => rw [heq, Nat.mod_self]
    case isFalse hne => exact Nat.mod_eq_of_lt (by omega)
  unfold wave
  rw [hsucc]
  split_ifs
  all_goals omega

/-- Where on the wave a creature is. -/
def phase (n : UInt32) (s : Walker) : Nat :=
  if turned n s.m_currentWaypoint s.m_moveBackward then
    2 * (n.toNat - 1) - (s.m_currentWaypoint.toNat - 1)
  else s.m_currentWaypoint.toNat - 1

theorem wave_congr {n φ ψ : Nat} (h : φ % (2 * (n - 1)) = ψ % (2 * (n - 1))) :
    wave n φ = wave n ψ := by
  unfold wave
  rw [h]

/-- What the position says of the direction after the turn. -/
theorem turned_cases (hrange : InRange n s) (hn : 1 < n) :
    (turned n s.m_currentWaypoint s.m_moveBackward = true ∧ 1 < s.m_currentWaypoint.toNat ∧
        s.m_currentWaypoint.toNat ≤ n.toNat) ∨
      (turned n s.m_currentWaypoint s.m_moveBackward = false ∧ 1 ≤ s.m_currentWaypoint.toNat ∧
        s.m_currentWaypoint.toNat < n.toNat) := by
  have hone : (1 : UInt32).toNat = 1 := rfl
  have hlow := UInt32.le_iff_toNat_le.1 hrange.1
  have hhigh := UInt32.le_iff_toNat_le.1 hrange.2
  rw [UInt32.lt_iff_toNat_lt, hone] at hn
  rw [hone] at hlow
  unfold turned
  by_cases hfirst : s.m_currentWaypoint = 1
  · rw [if_pos hfirst]
    rw [hfirst, hone]
    exact Or.inr ⟨rfl, Nat.le_refl 1, hn⟩
  · have hne : s.m_currentWaypoint.toNat ≠ 1 := fun h => hfirst (UInt32.toNat.inj h)
    rw [if_neg hfirst]
    by_cases hend : s.m_currentWaypoint = n
    · rw [if_pos hend]
      exact Or.inl ⟨rfl, by omega, hhigh⟩
    · have hne' : s.m_currentWaypoint.toNat ≠ n.toNat := fun h => hend (UInt32.toNat.inj h)
      rw [if_neg hend]
      cases s.m_moveBackward with
      | true => exact Or.inl ⟨rfl, by omega, hhigh⟩
      | false => exact Or.inr ⟨rfl, hlow, by omega⟩

theorem wave_phase (hrange : InRange n s) (hn : 1 < n) :
    wave n.toNat (phase n s) = s.m_currentWaypoint.toNat := by
  have hone : (1 : UInt32).toNat = 1 := rfl
  have hlt := UInt32.lt_iff_toNat_lt.1 hn
  rw [hone] at hlt
  unfold phase wave
  rcases turned_cases hrange hn with ⟨hback, hlow, hhigh⟩ | ⟨hback, hlow, hhigh⟩
  · rw [hback, if_pos rfl, Nat.mod_eq_of_lt (by omega)]
    split
    all_goals omega
  · rw [hback, if_neg Bool.false_ne_true, Nat.mod_eq_of_lt (by omega), if_pos (by omega)]
    omega

/-- A step is one step on the wave. -/
theorem phase_bounceStep (hrange : InRange n s) (hn : 1 < n) :
    phase n (bounceStep n s) % (2 * (n.toNat - 1)) = (phase n s + 1) % (2 * (n.toNat - 1)) := by
  obtain ⟨-, hdirection, hstep⟩ := bounceStep_eq hrange hn
  have hone : (1 : UInt32).toNat = 1 := rfl
  have hlt := UInt32.lt_iff_toNat_lt.1 hn
  rw [hone] at hlt
  rcases turned_cases hrange hn with ⟨hback, hlow, hhigh⟩ | ⟨hback, hlow, hhigh⟩
  · -- down
    rw [hback, if_pos rfl] at hstep
    rw [hback] at hdirection
    unfold phase
    rw [hdirection, hstep, hback, if_pos rfl]
    by_cases hfirst : s.m_currentWaypoint.toNat = 2
    · have hcur : (bounceStep n s).m_currentWaypoint = 1 := by
        refine UInt32.toNat.inj ?_
        rw [hstep, hfirst, hone]
      have hup : turned n (bounceStep n s).m_currentWaypoint true = false := by
        rw [turned, if_pos hcur]
      have hround : 2 * (n.toNat - 1) - (2 - 1) + 1 = 2 * (n.toNat - 1) := by omega
      rw [hup, if_neg Bool.false_ne_true, hfirst, hround, Nat.mod_self]
      exact Nat.zero_mod _
    · have hcur : (bounceStep n s).m_currentWaypoint ≠ 1 := by
        intro h
        rw [h, hone] at hstep
        omega
      have hdown : turned n (bounceStep n s).m_currentWaypoint true = true := by
        rw [turned, if_neg hcur, ite_self]
      rw [hdown, if_pos rfl]
      congr 1
      omega
  · -- up
    rw [hback, if_neg Bool.false_ne_true] at hstep
    rw [hback] at hdirection
    unfold phase
    rw [hdirection, hstep, hback, if_neg Bool.false_ne_true]
    have hcur : (bounceStep n s).m_currentWaypoint ≠ 1 := by
      intro h
      rw [h, hone] at hstep
      omega
    by_cases hend : (bounceStep n s).m_currentWaypoint = n
    · have hdown : turned n (bounceStep n s).m_currentWaypoint false = true := by
        rw [turned, if_neg hcur, if_pos hend]
      have hlast : s.m_currentWaypoint.toNat + 1 = n.toNat := by rw [← hstep, hend]
      rw [hdown, if_pos rfl]
      congr 1
      omega
    · have hup : turned n (bounceStep n s).m_currentWaypoint false = false := by
        rw [turned, if_neg hcur, if_neg hend]
      rw [hup, if_neg Bool.false_ne_true]
      congr 1
      omega

theorem toNat_circleStep (hrange : InRange n s) (hmax : s.m_currentWaypoint ≠ 0xffffffff) :
    (circleStep n s).m_currentWaypoint.toNat = s.m_currentWaypoint.toNat % n.toNat + 1 := by
  have hone : (1 : UInt32).toNat = 1 := rfl
  have hhigh := UInt32.le_iff_toNat_le.1 hrange.2
  have hsucc := toNat_succ hmax
  unfold circleStep
  simp only [gt_iff_lt]
  by_cases hlast : s.m_currentWaypoint.toNat = n.toNat
  · rw [if_pos (UInt32.lt_iff_toNat_lt.2 (by omega)), hlast, Nat.mod_self, hone]
  · have hlt : s.m_currentWaypoint.toNat < n.toNat := by omega
    have hnot : ¬ n < s.m_currentWaypoint + 1 := by
      rw [UInt32.lt_iff_toNat_lt, hsucc]
      omega
    rw [if_neg hnot, hsucc, Nat.mod_eq_of_lt hlt]

/-! ## Runs -/

variable {counts rolls : Nat → UInt32}

theorem moveType_walk (k : Nat) : (walk counts rolls s k).m_moveType = s.m_moveType := by
  induction k with
  | zero => rfl
  | succ k ih => rw [walk, moveType_nextWaypoint, ih]

/-- A run along the waypoints. -/
structure Patrols (counts rolls : Nat → UInt32) (s : Walker) : Prop where
  /-- after each step the current waypoint is in the table as it was then -/
  range : ∀ k, counts k ≠ 0 → InRange (counts k) (walk counts rolls s (k + 1))
  /-- the creature goes to the current waypoint -/
  visits : s.m_moveType = MOVEMENTTYPE_CIRCLEWP ∨ Bounces s → ∀ k d,
    (nextWaypoint (counts k) (rolls k) (walk counts rolls s k)).2 = some d →
    ∀ v : List (Option Nat), v.length = (counts k).toNat →
      WayPointTable.clampId v d = (walk counts rolls s (k + 1)).m_currentWaypoint
  /-- in circles, as long as the number of waypoints is the same -/
  circle : s.m_moveType = MOVEMENTTYPE_CIRCLEWP → ∀ k j n, (∀ i < j, counts (k + i) = n) →
    InRange n (walk counts rolls s k) →
    (walk counts rolls s (k + j)).m_currentWaypoint.toNat =
      ((walk counts rolls s k).m_currentWaypoint.toNat - 1 + j) % n.toNat + 1
  /-- up and down, as long as the number of waypoints is the same -/
  bounce : Bounces s → ∀ k j n, 1 < n → (∀ i < j, counts (k + i) = n) →
    InRange n (walk counts rolls s k) →
    (walk counts rolls s (k + j)).m_currentWaypoint.toNat =
      wave n.toNat (phase n (walk counts rolls s k) + j)
  /-- no waypoint twice in a row -/
  turns : Bounces s → ∀ k, 1 < counts k → InRange (counts k) (walk counts rolls s k) →
    (walk counts rolls s (k + 1)).m_currentWaypoint ≠ (walk counts rolls s k).m_currentWaypoint

theorem walk_circle (htype : s.m_moveType = MOVEMENTTYPE_CIRCLEWP)
    (hkeeps : ∀ k, counts k ≠ 0 → Keeps (counts k) (walk counts rolls s k)) {k j : Nat}
    (hcounts : ∀ i < j, counts (k + i) = n) (hrange : InRange n (walk counts rolls s k)) :
    InRange n (walk counts rolls s (k + j)) ∧
      (walk counts rolls s (k + j)).m_currentWaypoint.toNat =
        ((walk counts rolls s k).m_currentWaypoint.toNat - 1 + j) % n.toNat + 1 := by
  have hlow := UInt32.le_iff_toNat_le.1 hrange.1
  have hhigh := UInt32.le_iff_toNat_le.1 hrange.2
  have hone : (1 : UInt32).toNat = 1 := rfl
  rw [hone] at hlow
  induction j with
  | zero =>
    rw [Nat.add_zero, Nat.add_zero, Nat.mod_eq_of_lt (by omega)]
    exact ⟨hrange, by omega⟩
  | succ j ih =>
    obtain ⟨hin, hcur⟩ := ih fun i hi => hcounts i (by omega)
    have hcount : counts (k + j) = n := hcounts j (by omega)
    have hn : n ≠ 0 := by
      rintro rfl
      exact absurd hhigh (by change ¬ _ ≤ 0; omega)
    have hcircle : (walk counts rolls s (k + j)).m_moveType = MOVEMENTTYPE_CIRCLEWP := by
      rw [moveType_walk, htype]
    have hmax : (walk counts rolls s (k + j)).m_currentWaypoint ≠ 0xffffffff := by
      have hkeep := hkeeps (k + j) (hcount ▸ hn)
      rwa [Keeps, if_pos hcircle] at hkeep
    rw [← Nat.add_assoc, walk, hcount, nextWaypoint_circle hn hcircle]
    refine ⟨(inRange_circleStep hn).2 hmax, ?_⟩
    rw [toNat_circleStep hin hmax, hcur, ← Nat.add_assoc, Nat.mod_add_mod]

theorem walk_bounce (htype : Bounces s) {k j : Nat} (hn : 1 < n)
    (hcounts : ∀ i < j, counts (k + i) = n) (hrange : InRange n (walk counts rolls s k)) :
    InRange n (walk counts rolls s (k + j)) ∧
      phase n (walk counts rolls s (k + j)) % (2 * (n.toNat - 1)) =
        (phase n (walk counts rolls s k) + j) % (2 * (n.toNat - 1)) := by
  induction j with
  | zero => exact ⟨hrange, rfl⟩
  | succ j ih =>
    obtain ⟨hin, hphase⟩ := ih fun i hi => hcounts i (by omega)
    have hcount : counts (k + j) = n := hcounts j (by omega)
    have hne : n ≠ 0 := by
      rintro rfl
      exact absurd hn (by decide)
    have hbounces : Bounces (walk counts rolls s (k + j)) := by
      rw [Bounces, moveType_walk]
      exact htype
    have hnonzero : (walk counts rolls s (k + j)).m_currentWaypoint ≠ 0 := by
      intro hzero
      have hlow := hin.1
      rw [hzero] at hlow
      exact absurd hlow (by decide)
    rw [← Nat.add_assoc, walk, hcount, nextWaypoint_bounce hne hbounces]
    refine ⟨(inRange_bounceStep hne).2 (Or.inl ⟨hn, fun hzero => absurd hzero hnonzero⟩), ?_⟩
    rw [phase_bounceStep hin hn, ← Nat.add_assoc, ← Nat.mod_add_mod, hphase, Nat.mod_add_mod]

/-- The waypoint that is asked for is the current one. -/
theorem visits_current (hn : n ≠ 0) (htype : s.m_moveType = MOVEMENTTYPE_CIRCLEWP ∨ Bounces s)
    {d : UInt32} (hd : (nextWaypoint n roll s).2 = some d) :
    d = (nextWaypoint n roll s).1.m_currentWaypoint := by
  have hdest : ∀ x, destpoint x = some d → d = x := by
    intro x hx
    unfold destpoint at hx
    split at hx
    · cases hx
    · exact (Option.some.inj hx).symm
  rcases htype with hcircle | hbounces
  · rw [nextWaypoint_circle hn hcircle] at hd ⊢
    exact hdest _ hd
  · rw [nextWaypoint_bounce hn hbounces] at hd ⊢
    exact hdest _ hd

theorem clampId_of_range (hrange : InRange n s) {v : List (Option Nat)} (hv : v.length = n.toNat) :
    WayPointTable.clampId v s.m_currentWaypoint = s.m_currentWaypoint := by
  have hhigh := UInt32.le_iff_toNat_le.1 hrange.2
  have hne : s.m_currentWaypoint ≠ 0 := by
    intro hzero
    have hlow := hrange.1
    rw [hzero] at hlow
    exact absurd hlow (by decide)
  unfold WayPointTable.clampId
  rw [if_neg (by omega), if_neg hne]

theorem patrols_iff (counts rolls : Nat → UInt32) (s : Walker) :
    Patrols counts rolls s ↔
      ∀ k, counts k ≠ 0 → Keeps (counts k) (walk counts rolls s k) := by
  constructor
  · intro h k hk
    exact (inRange_nextWaypoint hk (rolls k)).1 (h.range k hk)
  · intro hkeeps
    have hrange : ∀ k, counts k ≠ 0 → InRange (counts k) (walk counts rolls s (k + 1)) :=
      fun k hk => (inRange_nextWaypoint hk (rolls k)).2 (hkeeps k hk)
    have hwave : Bounces s → ∀ k j n, 1 < n → (∀ i < j, counts (k + i) = n) →
        InRange n (walk counts rolls s k) →
        (walk counts rolls s (k + j)).m_currentWaypoint.toNat =
          wave n.toNat (phase n (walk counts rolls s k) + j) := by
      intro htype k j n hn hcounts hin
      obtain ⟨hin', hphase⟩ := walk_bounce htype hn hcounts hin
      rw [← wave_phase hin' hn]
      exact wave_congr hphase
    refine ⟨hrange, ?_, ?_, hwave, ?_⟩
    · intro htype k d hd v hv
      have hk : counts k ≠ 0 := by
        intro hzero
        rw [hzero, nextWaypoint, if_pos rfl] at hd
        cases hd
      have htype' : (walk counts rolls s k).m_moveType = MOVEMENTTYPE_CIRCLEWP ∨
          Bounces (walk counts rolls s k) := by
        rw [Bounces, moveType_walk]
        exact htype
      rw [visits_current hk htype' hd]
      exact clampId_of_range (hrange k hk) hv
    · intro htype k j n hcounts hin
      exact (walk_circle htype hkeeps hcounts hin).2
    · intro htype k hn hin hsame
      have hnext := hwave htype k 1 (counts k) hn (fun i hi => by rw [Nat.lt_one_iff.1 hi]; rfl) hin
      have hnow := wave_phase hin hn
      rw [hsame, ← hnow] at hnext
      exact wave_succ_ne (UInt32.lt_iff_toNat_lt.1 hn) _ hnext.symm

/-- A creature with one waypoint leaves the table. -/
theorem single_waypoint_left :
    ¬ Patrols (fun _ => 1) (fun _ => 0) ⟨1, false, 0⟩ ∧
      (walk (fun _ => 1) (fun _ => 0) ⟨1, false, 0⟩ 1).m_currentWaypoint = 2 := by
  refine ⟨fun h => ?_, by decide⟩
  have hrange := h.range 0 (by decide)
  revert hrange
  decide

end HearthStone.Patrol
