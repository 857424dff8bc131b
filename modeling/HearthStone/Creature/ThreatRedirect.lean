/-
HearthStone.Creature.ThreatRedirect — threat that goes to another unit
(`AIInterface.cpp`).

A unit may have a redirect target, which gets a part of the threat the unit
causes. `modThreatByPtr` takes the part off before it knows whether the target
can receive it.

* `getThreat_modThreat` — every stored threat after the call, in `int32`.
* `conserves_iff` — the sum grows by the whole amount exactly when the part
  reaches its target, or is nothing, and no entry passes the end of `int32`.
-/
import HearthStone.Creature.ThreatTheorems

namespace HearthStone.ThreatTable

open AIInterface

/-! ## Sums -/

/-- The sum of all stored threats. -/
def total (m : TargetMap) : Int := (m.entries.map Sigma.snd).sum

theorem sum_kerase (unit : Nat) (es : List (Sigma fun _ : Nat => Int)) :
    ((es.kerase unit).map Sigma.snd).sum = (es.map Sigma.snd).sum - (es.dlookup unit).getD 0 := by
  induction es with
  | nil => simp
  | cons e rest ih =>
    obtain ⟨k, x⟩ := e
    by_cases hk : unit = k
    · subst hk
      simp [List.kerase_cons_eq]
    · rw [List.kerase_cons_ne (by simpa using hk), List.dlookup_cons_ne _ _ hk, List.map_cons,
        List.sum_cons, ih, List.map_cons, List.sum_cons]
      omega

theorem total_insert (m : TargetMap) (unit : Nat) (x : Int) :
    total (m.insert unit x) = total m - (m.lookup unit).getD 0 + x := by
  unfold total
  rw [AList.entries_insert, List.map_cons, List.sum_cons, sum_kerase]
  change x + (_ - (m.lookup unit).getD 0) = _
  omega

/-! ## Numbers of `int32` -/

/-- A value that an `int32` holds. -/
def InInt32 (x : Int) : Prop := -2 ^ 31 ≤ x ∧ x < 2 ^ 31

/-- Every stored threat is one. -/
def Stored (s : AIInterface) : Prop := ∀ unit x, s.aiTargets.lookup unit = some x → InInt32 x

theorem int32_of_in {x : Int} (h : InInt32 x) : int32 x = x := by
  obtain ⟨hlow, hhigh⟩ := h
  unfold int32
  rw [Int.bmod_def]
  split
  all_goals omega

theorem in_int32 (x : Int) : InInt32 (int32 x) := by
  unfold int32 InInt32
  rw [Int.bmod_def]
  split
  all_goals omega

theorem int32_int32_add (x y : Int) : int32 (int32 x + y) = int32 (x + y) := by
  unfold int32
  rw [Int.bmod_add_bmod]

variable {w : World} {s : AIInterface} {obj robj unit u : Nat} {m x : Int}

theorem Stored.getThreat (h : Stored s) (unit : Nat) : InInt32 (s.getThreatByPtr unit) := by
  unfold getThreatByPtr
  cases hx : s.aiTargets.lookup unit with
  | none => exact ⟨by decide, by decide⟩
  | some x => exact h unit x hx

/-! ## One entry -/

theorem aiTargets_addThreat : (s.addThreat w unit x).aiTargets =
    s.aiTargets.insert unit (s.threatAfter unit x) := by
  unfold addThreat
  split
  · rfl
  · rfl

theorem threatAfter_eq (hx : InInt32 x) :
    s.threatAfter unit x = int32 (s.getThreatByPtr unit + x) := by
  unfold threatAfter getThreatByPtr
  cases s.aiTargets.lookup unit with
  | none => simp [int32_of_in hx]
  | some threat => rfl

theorem getThreat_addThreat (hx : InInt32 x) : (s.addThreat w unit x).getThreatByPtr u =
    if u = unit then int32 (s.getThreatByPtr u + x) else s.getThreatByPtr u := by
  unfold getThreatByPtr
  rw [aiTargets_addThreat]
  by_cases hu : u = unit
  · subst hu
    rw [AList.lookup_insert, if_pos rfl, Option.getD_some, threatAfter_eq hx, getThreatByPtr]
  · rw [AList.lookup_insert_ne hu, if_neg hu]

theorem total_addThreat (hx : InInt32 x) (hsum : InInt32 (s.getThreatByPtr unit + x)) :
    total (s.addThreat w unit x).aiTargets = total s.aiTargets + x := by
  rw [aiTargets_addThreat, total_insert, threatAfter_eq hx, int32_of_in hsum, getThreatByPtr]
  omega

/-! ## Redirection -/

/-- The target can receive its part. -/
def Reaches (w : World) (obj robj : Nat) : Prop :=
  w.isAlive robj = true ∧ w.near obj robj = true

instance : Decidable (Reaches w obj robj) := inferInstanceAs (Decidable (_ ∧ _))

/-- What a unit is to gain: the part for the target and the rest for the
unit, or all for the unit. -/
def gain (w : World) (obj robj : Nat) (m : Int) (u : Nat) : Int :=
  (if Reaches w obj robj ∧ u = robj then w.partmod obj m else 0) +
    (if u = obj then (if Reaches w obj robj then m - w.partmod obj m else m) else 0)

/-- What a unit is given: the part is taken off in any case. -/
def given (w : World) (obj robj : Nat) (m : Int) (u : Nat) : Int :=
  (if Reaches w obj robj ∧ u = robj then w.partmod obj m else 0) +
    (if u = obj then m - w.partmod obj m else 0)

/-- The table grows by what was added, each unit by its share. -/
structure Conserves (w : World) (s : AIInterface) (obj robj : Nat) (m : Int) : Prop where
  sum : total (s.modThreatByPtr w obj m).aiTargets = total s.aiTargets + m
  each : ∀ u, (s.modThreatByPtr w obj m).getThreatByPtr u = s.getThreatByPtr u + gain w obj robj m u

/-- An amount that is redirected in part. -/
structure Redirected (w : World) (obj robj : Nat) (m : Int) : Prop where
  target : w.threatRTarget obj = some robj
  pos : 0 < m
  lt : m < 2 ^ 31
  part_nonneg : 0 ≤ w.partmod obj m
  part_le : w.partmod obj m ≤ m

theorem Redirected.modThreat_eq (h : Redirected w obj robj m) : s.modThreatByPtr w obj m =
    (if Reaches w obj robj ∧ w.partmod obj m ≠ 0 then s.addThreat w robj (w.partmod obj m)
      else s).addThreat w obj (m - w.partmod obj m) := by
  have hpos := h.pos
  have hlt := h.lt
  have hle := h.part_le
  have hnonneg := h.part_nonneg
  have hredirects : redirects w obj m = true := by
    unfold redirects
    rw [h.target]
    simpa using hpos
  have hown : ownMod w obj m = m - w.partmod obj m := by
    unfold ownMod
    rw [if_pos hredirects, int32_of_in ⟨by omega, by omega⟩]
  have hfirst : s.redirectThreat w obj m =
      if Reaches w obj robj ∧ w.partmod obj m ≠ 0 then s.addThreat w robj (w.partmod obj m) else s := by
    unfold redirectThreat redirected
    rw [h.target]
    by_cases hpart : w.partmod obj m = 0
    · simp [hpart]
    · by_cases hreach : Reaches w obj robj
      · have hboth : (w.isAlive robj && w.near obj robj) = true := by
          rw [hreach.1, hreach.2]
          rfl
        simp [hredirects, hpart, hreach, Option.filter, hboth]
      · have hboth : (w.isAlive robj && w.near obj robj) = false := by
          rw [Bool.and_eq_false_iff]
          by_contra hnot
          rw [not_or, Bool.not_eq_false, Bool.not_eq_false] at hnot
          exact hreach hnot
        simp [hredirects, hpart, hreach, Option.filter, hboth]
  unfold modThreatByPtr
  rw [hown, hfirst, if_neg (by omega)]

/-- Every stored threat after the call. -/
theorem getThreat_modThreat (h : Redirected w obj robj m) (hstored : Stored s) :
    (s.modThreatByPtr w obj m).getThreatByPtr u =
      int32 (s.getThreatByPtr u + given w obj robj m u) := by
  have hlt := h.lt
  have hle := h.part_le
  have hnonneg := h.part_nonneg
  have hpart : InInt32 (w.partmod obj m) := ⟨by omega, by omega⟩
  have hrest : InInt32 (m - w.partmod obj m) := ⟨by omega, by omega⟩
  have hsame := int32_of_in (hstored.getThreat u)
  rw [h.modThreat_eq, getThreat_addThreat hrest]
  unfold given
  by_cases hreach : Reaches w obj robj ∧ w.partmod obj m ≠ 0
  · rw [if_pos hreach, getThreat_addThreat hpart]
    by_cases hrobj : u = robj
    · by_cases hobj : u = obj
      · rw [if_pos hobj, if_pos hrobj, if_pos ⟨hreach.1, hrobj⟩, if_pos hobj, int32_int32_add,
          add_assoc]
      · rw [if_neg hobj, if_pos hrobj, if_pos ⟨hreach.1, hrobj⟩, if_neg hobj, add_zero]
    · have hnot : ¬ (Reaches w obj robj ∧ u = robj) := fun hboth => hrobj hboth.2
      by_cases hobj : u = obj
      · rw [if_pos hobj, if_neg hrobj, if_neg hnot, if_pos hobj, zero_add]
      · rw [if_neg hobj, if_neg hrobj, if_neg hnot, if_neg hobj, add_zero, add_zero, hsame]
  · rw [if_neg hreach]
    have hnone : (if Reaches w obj robj ∧ u = robj then w.partmod obj m else 0) = 0 := by
      split
      case isTrue hboth =>
        by_contra hne
        exact hreach ⟨hboth.1, hne⟩
      case isFalse => rfl
    rw [hnone, zero_add]
    by_cases hobj : u = obj
    · rw [if_pos hobj, if_pos hobj]
    · rw [if_neg hobj, if_neg hobj, add_zero, hsame]

theorem given_eq_gain (hpart : Reaches w obj robj ∨ w.partmod obj m = 0) :
    given w obj robj m = gain w obj robj m := by
  funext u
  unfold given gain
  rcases hpart with hreach | hzero
  · rw [if_pos hreach]
  · rw [hzero, sub_zero, ite_self m]

theorem conserves_iff (w : World) (s : AIInterface) (obj robj : Nat) (m : Int)
    (h : Redirected w obj robj m) (hstored : Stored s) :
    Conserves w s obj robj m ↔
      (Reaches w obj robj ∨ w.partmod obj m = 0) ∧
      ∀ u, s.getThreatByPtr u + gain w obj robj m u < 2 ^ 31 := by
  have hlt := h.lt
  have hle := h.part_le
  have hnonneg := h.part_nonneg
  have hpart : InInt32 (w.partmod obj m) := ⟨by omega, by omega⟩
  have hrest : InInt32 (m - w.partmod obj m) := ⟨by omega, by omega⟩
  constructor
  · intro hcons
    constructor
    · by_contra hnot
      obtain ⟨hreach, hne⟩ := not_or.1 hnot
      -- the unit itself misses the part
      have heach := hcons.each obj
      rw [getThreat_modThreat h hstored] at heach
      have hboth : ¬ (Reaches w obj robj ∧ obj = robj) := fun hboth => hreach hboth.1
      simp only [given, gain, if_neg hboth, if_neg hreach, if_true, zero_add] at heach
      unfold int32 at heach
      rw [Int.bmod_def] at heach
      split at heach
      all_goals omega
    · intro u
      rw [← hcons.each u, getThreat_modThreat h hstored]
      exact (in_int32 _).2
  · rintro ⟨hreach, hbound⟩
    have hgiven := given_eq_gain hreach
    have hin : ∀ u, InInt32 (s.getThreatByPtr u + gain w obj robj m u) := by
      intro u
      have hlow := (hstored.getThreat u).1
      have hgain : 0 ≤ gain w obj robj m u := by
        unfold gain
        split_ifs
        all_goals omega
      exact ⟨by omega, hbound u⟩
    constructor
    · rw [h.modThreat_eq]
      by_cases hfirst : Reaches w obj robj ∧ w.partmod obj m ≠ 0
      · rw [if_pos hfirst]
        have htarget := hin robj
        have hobj := hin obj
        have hlow := (hstored.getThreat robj).1
        have hlow' := (hstored.getThreat obj).1
        unfold gain at htarget hobj
        rw [if_pos hfirst.1, if_pos ⟨hfirst.1, rfl⟩] at htarget
        rw [if_pos hfirst.1, if_pos rfl] at hobj
        have hadded : InInt32 (s.getThreatByPtr robj + w.partmod obj m) := by
          obtain ⟨-, hhigh⟩ := htarget
          refine ⟨by omega, ?_⟩
          split at hhigh
          all_goals omega
        have hnext : InInt32 ((s.addThreat w robj (w.partmod obj m)).getThreatByPtr obj +
            (m - w.partmod obj m)) := by
          rw [getThreat_addThreat hpart]
          obtain ⟨-, hhigh⟩ := hobj
          by_cases heq : obj = robj
          · have hsame : s.getThreatByPtr obj = s.getThreatByPtr robj := by rw [heq]
            rw [if_pos heq, hsame, int32_of_in hadded]
            rw [if_pos ⟨hfirst.1, heq⟩, hsame] at hhigh
            exact ⟨by omega, by omega⟩
          · rw [if_neg heq]
            rw [if_neg (fun hboth => heq hboth.2)] at hhigh
            exact ⟨by omega, by omega⟩
        rw [total_addThreat hrest hnext, total_addThreat hpart hadded]
        omega
      · rw [if_neg hfirst]
        have hzero : w.partmod obj m = 0 := by
          by_contra hne
          rcases hreach with hreach | hzero
          · exact hfirst ⟨hreach, hne⟩
          · exact hne hzero
        have hobj := hin obj
        unfold gain at hobj
        rw [hzero, ite_self, if_pos rfl, sub_zero, ite_self, zero_add] at hobj
        rw [hzero, sub_zero] at hrest ⊢
        exact total_addThreat hrest hobj
    · intro u
      rw [getThreat_modThreat h hstored, hgiven]
      exact int32_of_in (hin u)

/-- Unit 51 redirects 30 of 100 to unit 52. -/
def misdirected (alive : Bool) : World where
  self := 7
  eventInstance _ := 0
  instanceId _ := 0
  isAlive unit := unit ≠ 52 || alive
  isAttackable _ := true
  isHostile _ := true
  threatModifier _ := 0
  threatRTarget unit := if unit = 51 then some 52 else none
  partmod _ mod := mod * 3 / 10
  near _ _ := true

theorem redirected_misdirected (alive : Bool) : Redirected (misdirected alive) 51 52 100 :=
  ⟨rfl, by decide, by decide, by decide +revert, by decide +revert⟩

theorem stored_fresh : Stored fresh := fun _ _ h => by simp [fresh] at h

theorem conserves_alive : Conserves (misdirected true) fresh 51 52 100 := by
  refine (conserves_iff _ fresh 51 52 100 (redirected_misdirected true) stored_fresh).2
    ⟨Or.inl (by decide), ?_⟩
  intro u
  have hnone : fresh.getThreatByPtr u = 0 := rfl
  rw [hnone]
  unfold gain
  split_ifs
  all_goals decide

/-- The target is dead: 30 of 100 are lost. -/
theorem redirect_to_dead_lost : Redirected (misdirected false) 51 52 100 ∧
    (fresh.modThreatByPtr (misdirected false) 51 100).aiTargets.entries = [⟨51, 70⟩] ∧
    ¬ Conserves (misdirected false) fresh 51 52 100 := by
  refine ⟨redirected_misdirected false, by decide +kernel, ?_⟩
  intro h
  exact absurd h.sum (by decide +kernel)

end HearthStone.ThreatTable
