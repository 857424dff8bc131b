/-
HearthStone.Creature.WayPointTheorems — when the waypoint with id `n`
stands at index `n - 1`.

* `Lawful` — the position law. It makes the pointers of a table distinct
  (`Ordered.distinct`), and every loop is followed by that.
* `deleteWayPoint_spec` — what is left after a deletion, and where.
* `Ok` — the calls that keep the law and touch nothing that is missing.
* `waypoints_in_order` — every run of such calls, and that no other call
  keeps the law.
-/
import HearthStone.Lib.Run
import HearthStone.Creature.WayPoints

namespace HearthStone

namespace WayPointTable

open Lib

variable {P R : Type*} {s t : WayPointTable P R} {v : List (Option P)} {p q : P} {i j : Nat}
  {h : P → Option (WayPoint R)} {wpid : UInt32}

/-- The waypoint at index `i` has id `i + 1`. -/
structure Ordered (h : P → Option (WayPoint R)) (v : List (Option P)) : Prop where
  small : v.length < 2 ^ 32
  law : ∀ (i : Nat) (p : P), v[i]? = some (some p) → ∃ w, h p = some w ∧ w.id.toNat = i + 1

def Lawful (s : WayPointTable P R) : Prop := ∀ v ∈ s.waypoints, Ordered s.wayPoint v

/-- No pointer is at two places. -/
def Distinct (v : List (Option P)) : Prop :=
  ∀ (i j : Nat) (p : P), v[i]? = some (some p) → v[j]? = some (some p) → i = j

theorem Ordered.distinct (ho : Ordered h v) : Distinct v := by
  intro i j p hi hj
  obtain ⟨w, hw, hid⟩ := ho.law i p hi
  obtain ⟨w', hw', hid'⟩ := ho.law j p hj
  rw [hw] at hw'
  cases hw'
  omega

theorem Distinct.tail {x : Option P} (hd : Distinct (x :: v)) : Distinct v := by
  intro i j p hi hj
  have hsucc := hd (i + 1) (j + 1) p (by simpa using hi) (by simpa using hj)
  omega

theorem Distinct.head_not_mem (hd : Distinct (some p :: v)) : some p ∉ v := by
  intro hmem
  obtain ⟨i, hi⟩ := List.getElem?_of_mem hmem
  have hzero := hd 0 (i + 1) p rfl (by simpa using hi)
  omega

/-- The pointers of a table, in order. -/
theorem Distinct.nodup (hd : Distinct v) : v.reduceOption.Nodup := by
  induction v with
  | nil => exact List.nodup_nil
  | cons x v ih =>
    cases x with
    | none =>
      rw [List.reduceOption_cons_of_none]
      exact ih hd.tail
    | some p =>
      rw [List.reduceOption_cons_of_some, List.nodup_cons, List.reduceOption_mem_iff]
      exact ⟨hd.head_not_mem, ih hd.tail⟩

theorem Ordered.live (ho : Ordered h v) (hp : some p ∈ v) : ∃ w, h p = some w := by
  obtain ⟨i, hi⟩ := List.getElem?_of_mem hp
  exact (ho.law i p hi).imp fun w hw => hw.1

/-! ## Reading and writing the table -/

theorem ordered_nil : Ordered h ([] : List (Option P)) :=
  ⟨by simp, fun i p hi => by simp at hi⟩

theorem Ordered.resize (ho : Ordered h v) {n : Nat} (hn : n < 2 ^ 32) :
    Ordered h (resize v n) := by
  have hsmall := ho.small
  unfold WayPointTable.resize
  refine ⟨?_, ?_⟩
  · rw [List.length_append, List.length_replicate]
    omega
  · intro i p hi
    by_cases hlt : i < v.length
    · rw [List.getElem?_append_left hlt] at hi
      exact ho.law i p hi
    · rw [List.getElem?_append_right (Nat.not_lt.1 hlt), List.getElem?_replicate] at hi
      split at hi <;> simp at hi

theorem length_resize (n : Nat) : (resize v n).length = max v.length n := by
  unfold resize
  rw [List.length_append, List.length_replicate]
  omega

theorem put_eq {k : UInt32} (hk : k.toNat < v.length) :
    put v k p = some (v.set k.toNat (some p)) := if_pos hk

/-- A waypoint with the right id is stored. -/
theorem Ordered.set {w : WayPoint R} (ho : Ordered h v) (hw : h p = some w)
    (hid : w.id.toNat = i + 1) : Ordered h (v.set i (some p)) := by
  refine ⟨?_, ?_⟩
  · rw [List.length_set]
    exact ho.small
  · intro j q hj
    by_cases hij : i = j
    · subst hij
      rw [List.getElem?_set_self'] at hj
      obtain ⟨x, -, hx⟩ := Option.map_eq_some_iff.1 hj
      cases hx
      exact ⟨w, hw, hid⟩
    · rw [List.getElem?_set_ne hij] at hj
      exact ho.law j q hj

theorem toNat_sub_one {k : UInt32} (hk : k ≠ 0) : (k - 1).toNat = k.toNat - 1 := by
  rw [UInt32.toNat_sub_of_le]
  · rfl
  · rw [UInt32.le_iff_toNat_le]
    change 1 ≤ k.toNat
    have hpos : k.toNat ≠ 0 := fun hz => hk (UInt32.toNat_inj.1 hz)
    omega

/-- An id of the table. -/
def InRange (v : List (Option P)) (wpid : UInt32) : Prop := wpid ≠ 0 ∧ wpid.toNat ≤ v.length

instance (v : List (Option P)) (wpid : UInt32) : Decidable (InRange v wpid) :=
  inferInstanceAs (Decidable (_ ∧ _))

theorem InRange.pos (hr : InRange v wpid) : 0 < wpid.toNat := by
  have hne : wpid.toNat ≠ 0 := fun hz => hr.1 (UInt32.toNat_inj.1 hz)
  omega

/-- An id that is not beyond the table; 0 is taken as 1. -/
theorem getWayPoint_eq (hv : s.waypoints = some v) (hle : wpid.toNat ≤ v.length) :
    s.getWayPoint wpid = v[wpid.toNat - 1]? := by
  unfold getWayPoint clampId
  rw [hv]
  dsimp only
  rw [if_neg (Nat.not_lt.2 hle)]
  by_cases hzero : wpid = 0
  · rw [if_pos hzero, hzero]
    rfl
  · rw [if_neg hzero, toNat_sub_one hzero]

/-- Every id is made one of the table, unless that is empty. -/
theorem getWayPoint_isSome (hsmall : v.length < 2 ^ 32) (hv : s.waypoints = some v) :
    (s.getWayPoint wpid).isSome = true ↔ v ≠ [] := by
  unfold getWayPoint
  rw [hv]
  rw [Option.isSome_iff_ne_none, ne_eq, List.getElem?_eq_none_iff, Nat.not_le]
  constructor
  · rintro hlt rfl
    exact absurd hlt (Nat.not_lt_zero _)
  · intro hne
    have hpos := List.length_pos_iff.2 hne
    have hclamp : InRange v (clampId v wpid) := by
      unfold clampId
      split
      · have hofNat : (UInt32.ofNat v.length).toNat = v.length :=
          UInt32.toNat_ofNat_of_lt' hsmall
        refine ⟨?_, Nat.le_of_eq hofNat⟩
        intro hzero
        rw [hzero] at hofNat
        exact absurd hofNat.symm (Nat.ne_of_gt hpos)
      · split
        · exact ⟨by decide, hpos⟩
        · rename_i hle hne'
          exact ⟨hne', Nat.not_lt.1 hle⟩
    rw [toNat_sub_one hclamp.1]
    have := hclamp.2
    omega

/-! ## `saveWayPoints` -/

/-- A place of the table is null. -/
def HasGap (v : List (Option P)) : Prop := none ∈ v

instance (v : List (Option P)) : Decidable (HasGap v) :=
  decidable_of_iff (v.any Option.isNone = true) (by simp [HasGap])

theorem saveRows_isSome (hlive : ∀ p, some p ∈ v → ∃ w, s.wayPoint p = some w)
    (saved : UInt32 → Option R) : (s.saveRows v saved).isSome = true ↔ ¬ HasGap v := by
  induction v generalizing saved with
  | nil => simp [saveRows, HasGap]
  | cons x v ih =>
    cases x with
    | none => simp [saveRows, HasGap]
    | some p =>
      obtain ⟨w, hw⟩ := hlive p (List.mem_cons_self ..)
      have hrest := ih (fun q hq => hlive q (List.mem_cons_of_mem _ hq))
        (Function.update saved w.id (some w.row))
      unfold HasGap at hrest ⊢
      unfold saveRows
      rw [hw, Option.bind_some, hrest, List.mem_cons]
      simp

/-- Saving leaves the table alone, and is defined when the creature has no
spawn or no place is null. -/
theorem saveWayPoints_iff (hasSpawn : Bool) (hv : s.waypoints = some v)
    (hlive : ∀ p, some p ∈ v → ∃ w, s.wayPoint p = some w) :
    (∃ t, (s.saveWayPoints hasSpawn).map (·.2) = some t ∧ t.waypoints = s.waypoints ∧
      t.wayPoint = s.wayPoint) ↔ (hasSpawn = true → ¬ HasGap v) := by
  unfold saveWayPoints
  rw [hv]
  dsimp only
  cases hasSpawn with
  | false => exact iff_of_true ⟨s, rfl, hv, rfl⟩ (fun hno => absurd hno Bool.false_ne_true)
  | true =>
    rw [if_pos rfl, ← saveRows_isSome hlive fun _ => none, Option.isSome_iff_exists]
    constructor
    · rintro ⟨t, ht, -⟩ -
      cases hrows : s.saveRows v fun _ => none with
      | none =>
        rw [hrows] at ht
        cases ht
      | some saved => exact ⟨saved, rfl⟩
    · intro hsome
      obtain ⟨saved, hsaved⟩ := hsome rfl
      rw [hsaved]
      exact ⟨{ s with saved := saved }, by rw [← hv]; rfl, hv, rfl⟩

theorem saveWayPoints_keeps {hasSpawn : Bool}
    (ht : (s.saveWayPoints hasSpawn).map (·.2) = some t) :
    t.waypoints = s.waypoints ∧ t.wayPoint = s.wayPoint := by
  unfold saveWayPoints at ht
  split at ht
  · cases ht
    exact ⟨rfl, rfl⟩
  · split at ht
    · rw [Option.map_map, Option.map_eq_some_iff] at ht
      obtain ⟨saved, -, rfl⟩ := ht
      exact ⟨rfl, rfl⟩
    · cases ht
      exact ⟨rfl, rfl⟩

/-! ## The loops over the pointers -/

section

variable [DecidableEq P]

/-- What the first loop of `deleteWayPoint` keeps, and what it frees. -/
theorem keepOthers_spec (wpid : UInt32) (hd : Distinct v)
    (hlive : ∀ p, some p ∈ v → ∃ w, s.wayPoint p = some w) :
    ∃ s', keepOthers wpid v s =
        some (v.reduceOption.filter fun p => decide ((s.wayPoint p).map (·.id) ≠ some wpid), s') ∧
      s'.saved = s.saved ∧
      (∀ p, some p ∈ v → (s.wayPoint p).map (·.id) = some wpid → s'.wayPoint p = none) ∧
      ∀ p, (some p ∈ v → (s.wayPoint p).map (·.id) ≠ some wpid) → s'.wayPoint p = s.wayPoint p := by
  induction v generalizing s with
  | nil => exact ⟨s, rfl, rfl, fun p hp => absurd hp List.not_mem_nil, fun p _ => rfl⟩
  | cons x v ih =>
    have hrest : ∀ p, some p ∈ v → ∃ w, s.wayPoint p = some w := fun p hp =>
      hlive p (List.mem_cons_of_mem _ hp)
    cases x with
    | none =>
      obtain ⟨s', hkeep, hsaved, hfreed, hsame⟩ := ih hd.tail hrest
      refine ⟨s', ?_, hsaved, ?_, ?_⟩
      · rw [List.reduceOption_cons_of_none]
        exact hkeep
      · intro p hp
        exact hfreed p (by simpa using hp)
      · intro p hp
        exact hsame p fun hmem => hp (List.mem_cons_of_mem _ hmem)
    | some p =>
      obtain ⟨w, hw⟩ := hlive p (List.mem_cons_self ..)
      have hnot : some p ∉ v := hd.head_not_mem
      unfold keepOthers
      rw [hw, Option.bind_some, List.reduceOption_cons_of_some]
      by_cases hid : w.id = wpid
      · rw [if_pos hid]
        obtain ⟨s₁, hs₁⟩ : ∃ s₁ : WayPointTable P R, s₁ =
            { s with wayPoint := Function.update s.wayPoint p none } := ⟨_, rfl⟩
        have hother : ∀ q, q ≠ p → s₁.wayPoint q = s.wayPoint q := by
          intro q hq
          rw [hs₁]
          exact Function.update_of_ne hq _ _
        have hne : ∀ q, some q ∈ v → q ≠ p := by
          rintro q hq rfl
          exact hnot hq
        have hlive₁ : ∀ q, some q ∈ v → ∃ w, s₁.wayPoint q = some w := by
          intro q hq
          rw [hother q (hne q hq)]
          exact hrest q hq
        obtain ⟨s', hkeep, hsaved, hfreed, hsame⟩ := ih hd.tail hlive₁
        refine ⟨s', ?_, ?_, ?_, ?_⟩
        · rw [← hs₁, hkeep, List.filter_cons_of_neg (by simp [hw, hid])]
          refine congrArg (fun l => some (l, s')) (List.filter_congr ?_)
          intro q hq
          rw [hother q (hne q (List.reduceOption_mem_iff.1 hq))]
        · rw [hsaved, hs₁]
        · intro q hq hqid
          by_cases hqp : q = p
          · rw [hqp, hsame p fun hmem => absurd hmem hnot, hs₁]
            exact Function.update_self ..
          · refine hfreed q ?_ ?_
            · simpa [hqp] using hq
            · rw [hother q hqp]
              exact hqid
        · intro q hq
          have hqp : q ≠ p := by
            rintro rfl
            refine hq (List.mem_cons_self ..) ?_
            rw [hw, ← hid]
            rfl
          rw [← hother q hqp]
          refine hsame q ?_
          intro hmem
          rw [hother q hqp]
          exact hq (List.mem_cons_of_mem _ hmem)
      · rw [if_neg hid]
        obtain ⟨s', hkeep, hsaved, hfreed, hsame⟩ := ih hd.tail hrest
        have hwid : (s.wayPoint p).map (·.id) ≠ some wpid := by
          rw [hw]
          exact fun heq => hid (Option.some.inj heq)
        refine ⟨s', ?_, hsaved, ?_, ?_⟩
        · rw [hkeep, List.filter_cons_of_pos (by simpa using hwid)]
          rfl
        · intro q hq hqid
          refine hfreed q ?_ hqid
          have hqp : q ≠ p := by
            rintro rfl
            exact hwid hqid
          simpa [hqp] using hq
        · intro q hq
          exact hsame q fun hmem => hq (List.mem_cons_of_mem _ hmem)

/-- The second loop gives the ids `newpid`, `newpid + 1` and so on. -/
theorem renumber_spec {ps : List P} (hnodup : ps.Nodup)
    (hlive : ∀ p ∈ ps, ∃ w, s.wayPoint p = some w) (newpid : UInt32) :
    ∃ s', renumber newpid ps s = some s' ∧ s'.waypoints = s.waypoints ∧ s'.saved = s.saved ∧
      (∀ (k : Nat) (p : P), ps[k]? = some p → ∃ w, s.wayPoint p = some w ∧
        s'.wayPoint p = some { w with id := newpid + UInt32.ofNat k }) ∧
      ∀ p, p ∉ ps → s'.wayPoint p = s.wayPoint p := by
  induction ps generalizing s newpid with
  | nil => exact ⟨s, rfl, rfl, rfl, fun k p hk => by simp at hk, fun p _ => rfl⟩
  | cons p ps ih =>
    rw [List.nodup_cons] at hnodup
    obtain ⟨w, hw⟩ := hlive p (List.mem_cons_self ..)
    obtain ⟨s₁, hs₁⟩ : ∃ s₁ : WayPointTable P R, s₁ = { s with
        wayPoint := Function.update s.wayPoint p (some { w with id := newpid }) } := ⟨_, rfl⟩
    have hset : s.setId p newpid = some s₁ := by
      unfold setId
      rw [hw, hs₁]
      rfl
    have hself : s₁.wayPoint p = some { w with id := newpid } := by
      rw [hs₁]
      exact Function.update_self ..
    have hother : ∀ q, q ≠ p → s₁.wayPoint q = s.wayPoint q := by
      intro q hq
      rw [hs₁]
      exact Function.update_of_ne hq _ _
    have hne : ∀ q ∈ ps, q ≠ p := by
      rintro q hq rfl
      exact hnodup.1 hq
    have hlive₁ : ∀ q ∈ ps, ∃ w, s₁.wayPoint q = some w := by
      intro q hq
      rw [hother q (hne q hq)]
      exact hlive q (List.mem_cons_of_mem _ hq)
    obtain ⟨s', hrenum, htable, hsaved, hids, hsame⟩ := ih hnodup.2 hlive₁ (newpid + 1)
    refine ⟨s', ?_, ?_, ?_, ?_, ?_⟩
    · unfold renumber
      rw [hset, Option.bind_some, hrenum]
    · rw [htable, hs₁]
    · rw [hsaved, hs₁]
    · intro k q hk
      cases k with
      | zero =>
        obtain rfl : p = q := by simpa using hk
        refine ⟨w, hw, ?_⟩
        rw [hsame p hnodup.1, hself]
        simp
      | succ k =>
        have hk' : ps[k]? = some q := by simpa using hk
        have hq := hne q (List.mem_of_getElem? hk')
        obtain ⟨w', hw', hid⟩ := hids k q hk'
        refine ⟨w', (hother q hq).symm.trans hw', ?_⟩
        rw [hid, UInt32.add_assoc]
        congr 3
        rw [Nat.add_comm, UInt32.ofNat_add]
        rfl
    · intro q hq
      rw [List.mem_cons, not_or] at hq
      rw [hsame q hq.2, hother q hq.1]

/-- `deleteWaypoints` frees every waypoint. -/
theorem freeAll_isSome (hd : Distinct v)
    (hlive : ∀ p, some p ∈ v → ∃ w, s.wayPoint p = some w) : ∃ s', freeAll v s = some s' := by
  induction v generalizing s with
  | nil => exact ⟨s, rfl⟩
  | cons x v ih =>
    cases x with
    | none => exact ih hd.tail fun p hp => hlive p (List.mem_cons_of_mem _ hp)
    | some p =>
      obtain ⟨w, hw⟩ := hlive p (List.mem_cons_self ..)
      unfold freeAll
      rw [hw, Option.bind_some]
      refine ih hd.tail ?_
      intro q hq
      have hqp : q ≠ p := by
        rintro rfl
        exact hd.head_not_mem hq
      dsimp only
      rw [Function.update_of_ne hqp]
      exact hlive q (List.mem_cons_of_mem _ hq)

/-! ## The calls -/

omit [DecidableEq P] in
/-- The table is any that is ordered, and nothing else changes. -/
theorem lawful_withTable (ho : Ordered s.wayPoint v) : Lawful (s.withTable v) := by
  intro v' hv'
  cases hv'
  exact ho

omit [DecidableEq P] in
/-- Saving neither makes nor breaks the law. -/
theorem lawful_congr (hv : t.waypoints = s.waypoints) (hw : t.wayPoint = s.wayPoint) :
    Lawful t ↔ Lawful s := by
  unfold Lawful
  rw [hv, hw]

theorem make_lawful {w : WayPoint R} (hs : Lawful s) (hp : s.wayPoint p = none) :
    Lawful (s.make p w) := by
  intro v hv
  have ho := hs v hv
  refine ⟨ho.small, ?_⟩
  intro i q hq
  obtain ⟨w', hw', hid⟩ := ho.law i q hq
  have hqp : q ≠ p := by
    rintro rfl
    rw [hp] at hw'
    cases hw'
  exact ⟨w', (Function.update_of_ne hqp _ _).trans hw', hid⟩

omit [DecidableEq P] in
theorem addWayPoint_lawful {w : WayPoint R} (hs : Lawful s) (hw : s.wayPoint p = some w) :
    ∃ r, s.addWayPoint (some p) = some r ∧ Lawful r.2 := by
  have ho : Ordered s.wayPoint (s.waypoints.getD []) := by
    cases hv : s.waypoints with
    | none => exact ordered_nil
    | some v => exact hs v hv
  unfold addWayPoint
  dsimp only
  rw [hw, Option.bind_some]
  by_cases hzero : w.id ≤ 0
  · rw [if_pos hzero]
    exact ⟨_, rfl, lawful_withTable ho⟩
  · rw [if_neg hzero]
    have hid : w.id ≠ 0 := fun heq => hzero (heq ▸ UInt32.le_refl _)
    have hresized := ho.resize w.id.toNat_lt
    have hlt : (w.id - 1).toNat < (resize (s.waypoints.getD []) w.id.toNat).length := by
      have hpos : w.id.toNat ≠ 0 := fun hz => hid (UInt32.toNat_inj.1 hz)
      rw [length_resize, toNat_sub_one hid]
      omega
    unfold insertAt
    rw [List.getElem?_eq_getElem hlt, Option.bind_some]
    split
    · refine ⟨_, by rw [put_eq hlt]; rfl, lawful_withTable (hresized.set hw ?_)⟩
      have hpos : w.id.toNat ≠ 0 := fun hz => hid (UInt32.toNat_inj.1 hz)
      rw [toNat_sub_one hid]
      omega
    · exact ⟨_, rfl, lawful_withTable hresized⟩

theorem deleteWaypoints_lawful (hs : Lawful s) : ∃ t, s.deleteWaypoints = some t ∧ Lawful t := by
  unfold deleteWaypoints
  cases hv : s.waypoints with
  | none => exact ⟨s, rfl, hs⟩
  | some v =>
    have ho := hs v hv
    obtain ⟨s', hfree⟩ := freeAll_isSome (s := s) ho.distinct fun p hp => ho.live hp
    refine ⟨s'.withTable [], ?_, lawful_withTable ordered_nil⟩
    dsimp only
    rw [hfree]
    rfl

/-- Two different waypoints change places. -/
theorem exchange_lawful {oldwpid newwpid : UInt32} (ho : Ordered s.wayPoint v)
    (hold : InRange v oldwpid) (hnew : InRange v newwpid) (hne : newwpid ≠ oldwpid)
    (hq : v[oldwpid.toNat - 1]? = some (some q)) (hp : v[newwpid.toNat - 1]? = some (some p)) :
    ∃ t v', s.exchange v q p oldwpid newwpid = some t ∧ Lawful t ∧ t.waypoints = some v' ∧
      (∀ x, some x ∈ v' → ∃ w, t.wayPoint x = some w) ∧ (HasGap v' ↔ HasGap v) := by
  obtain ⟨wq, hwq, hidq⟩ := ho.law _ _ hq
  obtain ⟨wp, hwp, hidp⟩ := ho.law _ _ hp
  have hposq := hold.pos
  have hposp := hnew.pos
  have hpq : p ≠ q := by
    rintro rfl
    have hidx := ho.distinct _ _ _ hp hq
    exact hne (UInt32.toNat_inj.1 (by omega))
  obtain ⟨s₂, hs₂⟩ : ∃ s₂ : WayPointTable P R, s₂ = { s with
      wayPoint := Function.update (Function.update s.wayPoint q (some { wq with id := newwpid })) p
        (some { wp with id := oldwpid }) } := ⟨_, rfl⟩
  have hset : (s.setId q newwpid).bind (fun s => s.setId p oldwpid) = some s₂ := by
    unfold setId
    rw [hwq, Option.map_some, Option.bind_some]
    dsimp only
    rw [Function.update_of_ne hpq, hwp, hs₂]
    rfl
  have hq₂ : s₂.wayPoint q = some { wq with id := newwpid } := by
    rw [hs₂]
    exact (Function.update_of_ne hpq.symm _ _).trans (Function.update_self ..)
  have hp₂ : s₂.wayPoint p = some { wp with id := oldwpid } := by
    rw [hs₂]
    exact Function.update_self ..
  have hsame : ∀ x, x ≠ p → x ≠ q → s₂.wayPoint x = s.wayPoint x := by
    intro x hxp hxq
    rw [hs₂]
    exact (Function.update_of_ne hxp _ _).trans (Function.update_of_ne hxq _ _)
  have hlq : (newwpid - 1).toNat = newwpid.toNat - 1 := toNat_sub_one hnew.1
  have hlp : (oldwpid - 1).toNat = oldwpid.toNat - 1 := toNat_sub_one hold.1
  have hnewlt := hnew.2
  have holdlt := hold.2
  obtain ⟨v', hv'⟩ : ∃ v', v' =
      (v.set (newwpid.toNat - 1) (some q)).set (oldwpid.toNat - 1) (some p) := ⟨_, rfl⟩
  have hlen : v'.length = v.length := by
    rw [hv', List.length_set, List.length_set]
  have hexch : s.exchange v q p oldwpid newwpid = some (s₂.withTable v') := by
    have hbq : (newwpid - 1).toNat < v.length := by omega
    have hbp : (oldwpid - 1).toNat < (v.set (newwpid - 1).toNat (some q)).length := by
      rw [List.length_set]
      omega
    unfold exchange
    rw [← Option.bind_assoc, hset, Option.bind_some, hq₂, Option.bind_some]
    rw [put_eq hbq, Option.bind_some, hp₂, Option.bind_some]
    rw [put_eq hbp, hlq, hlp, ← hv']
    rfl
  -- the table after the exchange, place by place
  have hplace : ∀ i, v'[i]? = if i = oldwpid.toNat - 1 then some (some p)
      else if i = newwpid.toNat - 1 then some (some q) else v[i]? := by
    intro i
    rw [hv']
    by_cases h₁ : i = oldwpid.toNat - 1
    · rw [if_pos h₁, h₁, List.getElem?_set_self (by rw [List.length_set]; omega)]
    · rw [if_neg h₁, List.getElem?_set_ne (Ne.symm h₁)]
      by_cases h₂ : i = newwpid.toNat - 1
      · rw [if_pos h₂, h₂, List.getElem?_set_self (by omega)]
      · rw [if_neg h₂, List.getElem?_set_ne (Ne.symm h₂)]
  have hordered : Ordered s₂.wayPoint v' := by
    refine ⟨hlen ▸ ho.small, ?_⟩
    intro i x hi
    rw [hplace i] at hi
    split at hi
    · rename_i h₁
      cases hi
      refine ⟨_, hp₂, ?_⟩
      dsimp only
      omega
    · split at hi
      · rename_i h₂
        cases hi
        refine ⟨_, hq₂, ?_⟩
        dsimp only
        omega
      · rename_i h₁ h₂
        obtain ⟨w, hw, hid⟩ := ho.law i x hi
        refine ⟨w, (hsame x ?_ ?_).trans hw, hid⟩
        · rintro rfl
          exact h₂ (ho.distinct _ _ _ hi hp)
        · rintro rfl
          exact h₁ (ho.distinct _ _ _ hi hq)
  refine ⟨s₂.withTable v', v', hexch, lawful_withTable hordered, rfl,
    fun x hx => hordered.live hx, ?_⟩
  unfold HasGap
  rw [List.mem_iff_getElem?, List.mem_iff_getElem?]
  constructor
  · rintro ⟨i, hi⟩
    rw [hplace i] at hi
    split at hi
    · cases hi
    · split at hi
      · cases hi
      · exact ⟨i, hi⟩
  · rintro ⟨i, hi⟩
    refine ⟨i, ?_⟩
    rw [hplace i, if_neg, if_neg]
    · exact hi
    · rintro rfl
      rw [hp] at hi
      cases hi
    · rintro rfl
      rw [hq] at hi
      cases hi

/-- With id 0 the exchange writes at index `2^32 - 1`. -/
theorem exchange_zero {oldwpid newwpid : UInt32} (hsmall : v.length < 2 ^ 32)
    (hold : oldwpid = 0) : s.exchange v q p oldwpid newwpid = none := by
  have hput : ∀ (v' : List (Option P)) (x : P), v'.length = v.length →
      put v' (0 - 1) x = none := by
    intro v' x hlen
    unfold put
    rw [if_neg]
    rw [hlen]
    change ¬ 2 ^ 32 - 1 < v.length
    omega
  subst hold
  unfold exchange
  rw [Option.bind_eq_none_iff]
  intro s₁ hs₁
  rw [Option.bind_eq_none_iff]
  intro s₂ hs₂
  obtain ⟨w₁, hw₁, rfl⟩ := Option.map_eq_some_iff.1 hs₁
  obtain ⟨w₂, hw₂, rfl⟩ := Option.map_eq_some_iff.1 hs₂
  dsimp only
  rw [Option.bind_eq_none_iff]
  intro w hw
  rw [Option.bind_eq_none_iff]
  intro v' hv'
  rw [Function.update_self, Option.bind_some]
  unfold put at hv'
  split at hv'
  · cases hv'
    rw [hput _ p (by rw [List.length_set])]
    rfl
  · cases hv'

/-- Both ids of a change are those of waypoints; the old one is taken as 1
when it is 0. -/
def Exchanges (v : List (Option P)) (oldwpid newwpid : UInt32) : Prop :=
  InRange v newwpid ∧ oldwpid.toNat ≤ v.length ∧ newwpid ≠ oldwpid ∧
    v[newwpid.toNat - 1]? ≠ some none ∧ v[oldwpid.toNat - 1]? ≠ some none

instance [DecidableEq (Option P)] (v : List (Option P)) (oldwpid newwpid : UInt32) :
    Decidable (Exchanges v oldwpid newwpid) :=
  inferInstanceAs (Decidable (_ ∧ _ ∧ _ ∧ _ ∧ _))

/-- The waypoints in order. -/
def listed (s : WayPointTable P R) : List P := (s.waypoints.getD []).reduceOption

def idOf (s : WayPointTable P R) (p : P) : Option UInt32 := (s.wayPoint p).map (·.id)

/-- The condition on a call: nothing stays behind a deleted waypoint, id 0
is not exchanged, and what is saved has no null place. -/
def Ok (s : WayPointTable P R) (hasSpawn : Bool) : Call P R → Prop
  | .changeWayPointID oldwpid newwpid => ∀ v ∈ s.waypoints, Exchanges v oldwpid newwpid →
      oldwpid ≠ 0 ∧ (hasSpawn = true → ¬ HasGap v)
  | .deleteWayPoint wpid => ∀ v ∈ s.waypoints, InRange v wpid →
      hasSpawn = false ∧ ∀ p ∈ s.listed, s.idOf p = some wpid
  | .getWayPoint _ => s.waypoints ≠ some []
  | .saveWayPoints => ∀ v ∈ s.waypoints, hasSpawn = true → ¬ HasGap v
  | .addWayPoint _ => True
  | .deleteWaypoints => True

/-- The call is defined and the law holds after it. -/
def Keeps (s : WayPointTable P R) (hasSpawn : Bool) (a : Call P R) : Prop :=
  ∃ t, s.step hasSpawn a = some t ∧ Lawful t

omit [DecidableEq P] in
theorem saveWayPoints_keeps_iff {hasSpawn : Bool} (hs : Lawful s) :
    (∃ t, (s.saveWayPoints hasSpawn).map (·.2) = some t ∧ Lawful t) ↔
      ∀ v ∈ s.waypoints, hasSpawn = true → ¬ HasGap v := by
  cases hv : s.waypoints with
  | none =>
    refine iff_of_true ⟨s, ?_, hs⟩ (fun v hv' => absurd hv' (by simp))
    unfold saveWayPoints
    rw [hv]
    rfl
  | some v =>
    have hiff := saveWayPoints_iff hasSpawn hv fun p hp => (hs v hv).live hp
    constructor
    · rintro ⟨t, ht, -⟩ v' hv'
      cases hv'
      exact hiff.1 ⟨t, ht, saveWayPoints_keeps ht⟩
    · intro hgap
      obtain ⟨t, ht, htable, hwp⟩ := hiff.2 (hgap v rfl)
      exact ⟨t, ht, (lawful_congr htable hwp).2 hs⟩

theorem changeWayPointID_keeps_iff {hasSpawn : Bool} {oldwpid newwpid : UInt32} (hs : Lawful s) :
    (∃ t, s.changeWayPointID hasSpawn oldwpid newwpid = some t ∧ Lawful t) ↔
      ∀ v ∈ s.waypoints, Exchanges v oldwpid newwpid →
        oldwpid ≠ 0 ∧ (hasSpawn = true → ¬ HasGap v) := by
  unfold changeWayPointID
  cases hv : s.waypoints with
  | none => exact iff_of_true ⟨s, rfl, hs⟩ (fun v hv' => absurd hv' (by simp))
  | some v =>
    have ho := hs v hv
    dsimp only
    -- a call that returns early keeps the law, and exchanges nothing
    have hearly : ¬ Exchanges v oldwpid newwpid →
        ((∃ t, some s = some t ∧ Lawful t) ↔ ∀ v' ∈ some v, Exchanges v' oldwpid newwpid →
          oldwpid ≠ 0 ∧ (hasSpawn = true → ¬ HasGap v')) := by
      intro hno
      refine iff_of_true ⟨s, rfl, hs⟩ ?_
      intro v' hv' hex
      cases hv'
      exact absurd hex hno
    by_cases hzero : newwpid ≤ 0
    · rw [if_pos hzero]
      refine hearly fun hex => hex.1.1 ?_
      exact UInt32.le_antisymm hzero UInt32.zero_le
    rw [if_neg hzero]
    by_cases hbig : newwpid.toNat > v.length
    · rw [if_pos hbig]
      exact hearly fun hex => absurd hex.1.2 (Nat.not_le.2 hbig)
    rw [if_neg hbig]
    by_cases hobig : oldwpid.toNat > v.length
    · rw [if_pos hobig]
      exact hearly fun hex => absurd hex.2.1 (Nat.not_le.2 hobig)
    rw [if_neg hobig]
    by_cases hsame : newwpid = oldwpid
    · rw [if_pos hsame]
      exact hearly fun hex => hex.2.2.1 hsame
    rw [if_neg hsame]
    have hnew : InRange v newwpid :=
      ⟨fun heq => hzero (heq ▸ UInt32.le_refl _), Nat.not_lt.1 hbig⟩
    have hpos := hnew.pos
    have holdle : oldwpid.toNat ≤ v.length := Nat.not_lt.1 hobig
    have hlt : newwpid.toNat - 1 < v.length := by omega
    have holdlt : oldwpid.toNat - 1 < v.length := by omega
    rw [getWayPoint_eq hv hnew.2, getWayPoint_eq hv holdle]
    rcases hp : v[newwpid.toNat - 1]? with _ | _ | p
    · exact absurd (List.getElem?_eq_none_iff.1 hp) (Nat.not_le.2 hlt)
    · exact hearly fun hex => hex.2.2.2.1 hp
    rcases hq : v[oldwpid.toNat - 1]? with _ | _ | q
    · exact absurd (List.getElem?_eq_none_iff.1 hq) (Nat.not_le.2 holdlt)
    · exact hearly fun hex => hex.2.2.2.2 hq
    have hex : Exchanges v oldwpid newwpid :=
      ⟨hnew, holdle, hsame, by rw [hp]; simp, by rw [hq]; simp⟩
    simp only [Option.bind_some]
    by_cases hold : oldwpid = 0
    · -- id 0 is written at the index before the first
      have hnone : s.exchange v q p oldwpid newwpid = none := exchange_zero ho.small hold
      rw [hnone]
      refine iff_of_false ?_ ?_
      · rintro ⟨t, ht, -⟩
        cases ht
      · intro hall
        exact (hall v rfl hex).1 hold
    · obtain ⟨t, v', hexch, ht, hv', hlive, hgap⟩ :=
        exchange_lawful ho ⟨hold, holdle⟩ hnew hsame hq hp
      rw [hexch, Option.bind_some, saveWayPoints_keeps_iff ht, hv']
      constructor
      · intro hall v'' hv'' _
        cases hv''
        exact ⟨hold, fun hspawn hno => hall v' rfl hspawn (hgap.2 hno)⟩
      · intro hall v'' hv'' hspawn hno
        cases hv''
        exact (hall v rfl hex).2 hspawn (hgap.1 hno)

/-- The deleted waypoint is gone and freed, the others are numbered from 1
in their order and keep their rows. -/
structure Deleted (s : WayPointTable P R) (wpid : UInt32) (t : WayPointTable P R) : Prop where
  listed : t.listed = s.listed.filter fun p => decide (s.idOf p ≠ some wpid)
  freed : ∀ p ∈ s.listed, s.idOf p = some wpid → t.wayPoint p = none
  numbered : ∀ (k : Nat) (p : P), t.listed[k]? = some p →
    ∃ w, s.wayPoint p = some w ∧ t.wayPoint p = some { w with id := 1 + UInt32.ofNat k }

omit [DecidableEq P] in
theorem listed_eq (hv : s.waypoints = some v) : s.listed = v.reduceOption := by
  unfold listed
  rw [hv]
  rfl

/-- A deletion, before the table is saved: the waypoints that are left
stand one place too far. -/
theorem deleteWayPoint_spec (hasSpawn : Bool) (hs : Lawful s) (hv : s.waypoints = some v)
    (hr : InRange v wpid) : ∃ t ps, s.deleteWayPoint hasSpawn wpid =
        (t.saveWayPoints hasSpawn).map (·.2) ∧ Deleted s wpid t ∧
      ps = s.listed.filter (fun p => decide (s.idOf p ≠ some wpid)) ∧
      t.waypoints = some (none :: ps.map some) := by
  have ho := hs v hv
  have hlisted := listed_eq hv
  obtain ⟨s₁, hkeep, -, hfreed, hsame⟩ := keepOthers_spec wpid ho.distinct fun p hp => ho.live hp
  rw [← hlisted] at hkeep
  obtain ⟨ps, hps⟩ : ∃ ps, ps = s.listed.filter fun p => decide (s.idOf p ≠ some wpid) := ⟨_, rfl⟩
  have hkeep' : keepOthers wpid v s = some (ps, s₁) := by
    rw [hps]
    exact hkeep
  have hnodup : ps.Nodup := by
    rw [hps, hlisted]
    exact ho.distinct.nodup.filter _
  -- a kept waypoint is one of the table with another id
  have hkept : ∀ p ∈ ps, some p ∈ v ∧ s.idOf p ≠ some wpid := by
    intro p hp
    rw [hps, List.mem_filter, hlisted, List.reduceOption_mem_iff] at hp
    exact ⟨hp.1, of_decide_eq_true hp.2⟩
  have hsame' : ∀ p ∈ ps, s₁.wayPoint p = s.wayPoint p := fun p hp =>
    hsame p fun _ => (hkept p hp).2
  have hlive : ∀ p ∈ ps, ∃ w, s₁.wayPoint p = some w := by
    intro p hp
    rw [hsame' p hp]
    exact ho.live (hkept p hp).1
  obtain ⟨s₂, hrenum, -, -, hids, hrest⟩ := renumber_spec hnodup hlive 1
  have htl : (s₂.withTable (none :: ps.map some)).listed = ps := by
    rw [listed_eq (s := s₂.withTable (none :: ps.map some)) rfl, List.reduceOption_cons_of_none]
    simp [List.reduceOption]
  refine ⟨s₂.withTable (none :: ps.map some), ps, ?_, ⟨htl.trans hps, ?_, ?_⟩, hps, rfl⟩
  · unfold deleteWayPoint
    rw [hv]
    dsimp only
    rw [if_neg, if_neg (Nat.not_lt.2 hr.2), hkeep', Option.bind_some]
    · dsimp only
      rw [hrenum, Option.bind_some]
    · intro hle
      exact hr.1 (UInt32.le_antisymm hle UInt32.zero_le)
  · intro p hp hid
    rw [hlisted, List.reduceOption_mem_iff] at hp
    have hnot : p ∉ ps := fun hmem => (hkept p hmem).2 hid
    exact (hrest p hnot).trans (hfreed p hp hid)
  · intro k p hk
    rw [htl] at hk
    obtain ⟨w, hw, hid⟩ := hids k p hk
    exact ⟨w, (hsame' p (List.mem_of_getElem? hk)).symm.trans hw, hid⟩

theorem deleteWayPoint_keeps_iff {hasSpawn : Bool} (hs : Lawful s) :
    (∃ t, s.deleteWayPoint hasSpawn wpid = some t ∧ Lawful t) ↔
      ∀ v ∈ s.waypoints, InRange v wpid →
        hasSpawn = false ∧ ∀ p ∈ s.listed, s.idOf p = some wpid := by
  cases hv : s.waypoints with
  | none =>
    refine iff_of_true ⟨s, ?_, hs⟩ (fun v hv' => absurd hv' (by simp))
    unfold deleteWayPoint
    rw [hv]
  | some v =>
    by_cases hr : InRange v wpid
    · obtain ⟨t, ps, hdelete, hdeleted, hps, ht⟩ := deleteWayPoint_spec hasSpawn hs hv hr
      have hempty : ps = [] ↔ ∀ p ∈ s.listed, s.idOf p = some wpid := by
        rw [hps, List.filter_eq_nil_iff]
        simp
      rw [hdelete]
      constructor
      · rintro ⟨u, hu, hlaw⟩ v' hv' -
        cases hv'
        obtain ⟨htable, hwp⟩ := saveWayPoints_keeps hu
        have hlaw' : Lawful t := (lawful_congr htable hwp).1 hlaw
        refine ⟨?_, hempty.1 ?_⟩
        · -- waypoint 0 is null, and a save would follow it
          have hgap := (saveWayPoints_keeps_iff hlaw').1 ⟨u, hu, hlaw⟩ _ ht
          cases hasSpawn with
          | false => rfl
          | true => exact absurd (List.mem_cons_self ..) (hgap rfl)
        · -- the first that is left has id 1 and stands at index 1
          cases ps with
          | nil => rfl
          | cons p ps =>
            obtain ⟨w, hw, hid⟩ := (hlaw' _ ht).law 1 p rfl
            have hfirst : t.listed[0]? = some p := by
              rw [hdeleted.listed, ← hps]
              rfl
            obtain ⟨w', -, hw'⟩ := hdeleted.numbered 0 p hfirst
            rw [hw] at hw'
            cases hw'
            change (1 + UInt32.ofNat 0).toNat = 1 + 1 at hid
            exact absurd hid (by decide)
      · intro hall
        obtain ⟨hspawn, hothers⟩ := hall v rfl hr
        have hnil := hempty.2 hothers
        subst hspawn
        refine ⟨t, ?_, ?_⟩
        · unfold saveWayPoints
          rw [ht]
          rfl
        · intro v' hv'
          rw [ht, hnil] at hv'
          cases hv'
          refine ⟨by simp, ?_⟩
          intro i p hi
          cases i with
          | zero => cases hi
          | succ i => simp at hi
    · refine iff_of_true ⟨s, ?_, hs⟩ ?_
      · unfold deleteWayPoint
        rw [hv]
        dsimp only
        by_cases hzero : wpid ≤ 0
        · rw [if_pos hzero]
        · rw [if_neg hzero, if_pos]
          by_contra hle
          exact hr ⟨fun heq => hzero (heq ▸ UInt32.le_refl _), Nat.not_lt.1 hle⟩
      · intro v' hv' hr'
        cases hv'
        exact absurd hr' hr

/-- The calls that keep the law are just those of the condition. -/
theorem keeps_iff_ok (hs : Lawful s) {hasSpawn : Bool} {a : Call P R} (ha : s.Callable a) :
    s.Keeps hasSpawn a ↔ s.Ok hasSpawn a := by
  cases a with
  | addWayPoint wp =>
    refine iff_of_true ?_ trivial
    cases wp with
    | none =>
      refine ⟨_, rfl, lawful_withTable ?_⟩
      cases hv : s.waypoints with
      | none => exact ordered_nil
      | some v => exact hs v hv
    | some pw =>
      obtain ⟨p, w⟩ := pw
      have hw : (s.make p w).wayPoint p = some w := Function.update_self ..
      obtain ⟨r, hadd, hlaw⟩ := addWayPoint_lawful (make_lawful hs ha) hw
      refine ⟨r.2, ?_, hlaw⟩
      change Option.map _ ((s.make p w).addWayPoint (some p)) = _
      rw [hadd]
      rfl
  | changeWayPointID oldwpid newwpid => exact changeWayPointID_keeps_iff hs
  | deleteWayPoint wpid => exact deleteWayPoint_keeps_iff hs
  | deleteWaypoints => exact iff_of_true (deleteWaypoints_lawful hs) trivial
  | getWayPoint wpid =>
    have hget : s.Keeps hasSpawn (.getWayPoint wpid) ↔ (s.getWayPoint wpid).isSome = true := by
      rw [Option.isSome_iff_exists]
      constructor
      · rintro ⟨t, ht, -⟩
        obtain ⟨r, hr, -⟩ := Option.map_eq_some_iff.1 ht
        exact ⟨r, hr⟩
      · rintro ⟨r, hr⟩
        refine ⟨s, ?_, hs⟩
        change Option.map _ (s.getWayPoint wpid) = _
        rw [hr]
        rfl
    rw [hget]
    cases hv : s.waypoints with
    | none =>
      refine iff_of_true ?_ ?_
      · unfold getWayPoint
        rw [hv]
        rfl
      · change s.waypoints ≠ some []
        rw [hv]
        exact (Option.some_ne_none _).symm
    | some v =>
      rw [getWayPoint_isSome (hs v hv).small hv]
      change _ ↔ s.waypoints ≠ some []
      rw [hv, ne_eq, ne_eq, Option.some_inj]
  | saveWayPoints => exact saveWayPoints_keeps_iff hs

/-! ## The runs -/

/-- A call, with whether the creature has a spawn at the time. -/
def Called (s : WayPointTable P R) (a : Bool × Call P R) (t : WayPointTable P R) : Prop :=
  s.Callable a.2 ∧ s.step a.1 a.2 = some t

/-- In every run of calls that meet the condition, from a lawful table:
the law holds, a look-up in range gives the waypoint of that id or null,
a deletion takes away the one named and numbers the rest in order, and
the calls that keep it so are just those that meet the condition. -/
theorem waypoints_in_order (s₀ s : WayPointTable P R) (as : List (Bool × Call P R))
    (h₀ : Lawful s₀) (hrun : Run (Guarded (fun s a => s.Ok a.1 a.2) Called) s₀ as s) :
    Lawful s ∧
    (∀ v ∈ s.waypoints, ∀ wpid, InRange v wpid →
      ∃ r, s.getWayPoint wpid = some r ∧ ∀ p ∈ r, s.idOf p = some wpid) ∧
    (∀ v ∈ s.waypoints, ∀ hasSpawn wpid t, InRange v wpid →
      s.deleteWayPoint hasSpawn wpid = some t → Deleted s wpid t) ∧
    ∀ hasSpawn a, s.Callable a → (s.Keeps hasSpawn a ↔ s.Ok hasSpawn a) := by
  have hs : Lawful s := by
    refine hrun.invariant Lawful ?_ h₀
    rintro s a t hs ⟨hok, hcall, hstep⟩
    obtain ⟨t', hstep', hlaw⟩ := (keeps_iff_ok hs hcall).2 hok
    rw [hstep'] at hstep
    cases hstep
    exact hlaw
  refine ⟨hs, ?_, ?_, fun hasSpawn a ha => keeps_iff_ok hs ha⟩
  · intro v hv wpid hr
    have hpos := hr.pos
    have hle := hr.2
    have hlt : wpid.toNat - 1 < v.length := by omega
    refine ⟨v[wpid.toNat - 1], ?_, ?_⟩
    · rw [getWayPoint_eq hv hr.2, List.getElem?_eq_getElem hlt]
    · intro p hp
      have hplace : v[wpid.toNat - 1]? = some (some p) := by
        rw [List.getElem?_eq_getElem hlt, hp]
      obtain ⟨w, hw, hid⟩ := (hs v hv).law _ p hplace
      unfold idOf
      rw [hw]
      refine congrArg some (UInt32.toNat_inj.1 ?_)
      change w.id.toNat = wpid.toNat
      omega
  · intro v hv hasSpawn wpid t hr ht
    obtain ⟨t', ps, hdelete, hdeleted, -⟩ := deleteWayPoint_spec hasSpawn hs hv hr
    rw [hdelete] at ht
    obtain ⟨htable, hwp⟩ := saveWayPoints_keeps ht
    have hlisted : t.listed = t'.listed := by
      unfold listed
      rw [htable]
    refine ⟨hlisted.trans hdeleted.listed, ?_, ?_⟩
    · rw [hwp]
      exact hdeleted.freed
    · rw [hwp, hlisted]
      exact hdeleted.numbered

end

section

variable [DecidableEq P]

instance (s : WayPointTable P R) (hasSpawn : Bool) : (a : Call P R) → Decidable (s.Ok hasSpawn a)
  | .changeWayPointID oldwpid newwpid => inferInstanceAs (Decidable (∀ v ∈ s.waypoints,
      Exchanges v oldwpid newwpid → oldwpid ≠ 0 ∧ (hasSpawn = true → ¬ HasGap v)))
  | .deleteWayPoint wpid => inferInstanceAs (Decidable (∀ v ∈ s.waypoints,
      InRange v wpid → hasSpawn = false ∧ ∀ p ∈ s.listed, s.idOf p = some wpid))
  | .getWayPoint _ => inferInstanceAs (Decidable (s.waypoints ≠ some []))
  | .saveWayPoints => inferInstanceAs (Decidable (∀ v ∈ s.waypoints,
      hasSpawn = true → ¬ HasGap v))
  | .addWayPoint _ => .isTrue trivial
  | .deleteWaypoints => .isTrue trivial

instance [DecidableEq R] (s : WayPointTable P R) : (a : Call P R) → Decidable (s.Callable a)
  | .addWayPoint (some (p, _)) => inferInstanceAs (Decidable (s.wayPoint p = none))
  | .addWayPoint none => .isTrue trivial
  | .changeWayPointID _ _ => .isTrue trivial
  | .deleteWayPoint _ => .isTrue trivial
  | .deleteWaypoints => .isTrue trivial
  | .getWayPoint _ => .isTrue trivial
  | .saveWayPoints => .isTrue trivial

/-- A creature without waypoints. -/
def start : WayPointTable P R := ⟨none, fun _ => none, fun _ => none⟩

omit [DecidableEq P] in
theorem start_lawful : Lawful (start : WayPointTable P R) := by
  intro v hv
  cases hv

end

/-! ## A patrol -/

/-- Two waypoints that change places, with a spawn to be saved for. -/
def patrol : List (Bool × Call Nat Unit) :=
  [(true, .addWayPoint (some (0, ⟨1, ()⟩))), (true, .addWayPoint (some (1, ⟨2, ()⟩))),
    (true, .changeWayPointID 1 2), (true, .saveWayPoints), (false, .getWayPoint 7),
    (false, .deleteWaypoints)]

theorem waypoints_in_order_patrol : ∃ s : WayPointTable Nat Unit,
    Run (Guarded (fun s a => s.Ok a.1 a.2) Called) start patrol s ∧ Lawful s := by
  have hsome : (patrol.foldlM (fun (s : WayPointTable Nat Unit) a =>
      if s.Ok a.1 a.2 ∧ s.Callable a.2 then s.step a.1 a.2 else none) start).isSome = true := by
    decide +kernel
  obtain ⟨s, hs⟩ := Option.isSome_iff_exists.1 hsome
  have hrun : Run (Guarded (fun (s : WayPointTable Nat Unit) a => s.Ok a.1 a.2) Called)
      start patrol s := by
    have hguarded : Run (Guarded (fun (s : WayPointTable Nat Unit) a => s.Ok a.1 a.2 ∧ s.Callable a.2)
        (PartialStep fun s a => s.step a.1 a.2)) start patrol s := Run.of_foldlM hs
    refine hguarded.mono ?_
    rintro s a t ⟨⟨hok, hcall⟩, hstep⟩
    exact ⟨hok, hcall, hstep⟩
  exact ⟨s, hrun, (waypoints_in_order start s patrol start_lawful hrun).1⟩

/-- The waypoints 1 and 2, saved for a spawn or not, and a call. -/
def afterTwo (hasSpawn : Bool) (a : Call Nat Unit) : Option (WayPointTable Nat Unit) :=
  ((start.step hasSpawn (.addWayPoint (some (0, ⟨1, ()⟩)))).bind fun s =>
    s.step hasSpawn (.addWayPoint (some (1, ⟨2, ()⟩)))).bind fun s => s.step hasSpawn a

/-- After a deletion waypoint 1 stands at index 1, and a save follows a
null; an exchange with id 0 writes outside the table; a gap is followed
when it is saved; and nothing can be looked up in an empty table. -/
theorem deletion_shifts :
    ((afterTwo false (.deleteWayPoint 1)).map fun s => (s.waypoints, s.idOf 1)) =
      some (some [none, some 1], some 1) ∧
    (afterTwo true (.deleteWayPoint 1)).isNone = true ∧
    (afterTwo false (.changeWayPointID 0 2)).isNone = true ∧
    ((start.step true (.addWayPoint (some (0, ⟨2, ()⟩)))).bind fun s : WayPointTable Nat Unit =>
      s.step true .saveWayPoints).isNone = true ∧
    ((afterTwo false .deleteWaypoints).bind fun s =>
      s.step false (.getWayPoint 1)).isNone = true := by
  decide +kernel

end WayPointTable

end HearthStone
