/-
HearthStone.Instance.Entry — does a player get into an instance of his?

* `EntryLaw` — a player is refused for an instance of his own, is
  admitted to one of his or to a new one, and arrives where he was
  admitted.
* `Clear`, `entryLaw_iff` — exactly when that is so.
-/
import HearthStone.Instance.Walks

namespace HearthStone.InstanceEntry

variable {now mapid k : Nat} {inf : MapInfo} {plr : Player} {i : Instance} {m m' : InstanceMap}
  {s : InstanceMgr} {answer : Answer}

/-! ## Arriving -/

/-- `GetInstance` gives the player a map: the continent, or that of an
instance that accepts him. -/
def Arrives (now : Nat) (s : InstanceMgr) (plr : Player) : Prop :=
  ∃ map, (s.getInstance now plr).1 = some map ∧
    ((∃ inf, s.mapInfo plr.mapId = some inf ∧ inf.type = .null) ∨
      ∃ m m', s.instances plr.mapId = some m ∧
        (s.getInstance now plr).2.instances plr.mapId = some m' ∧ Hosts now plr m m' map)

@[simp] theorem setInstances_same (s : InstanceMgr) (mapid : Nat) (m : InstanceMap) :
    (s.setInstances mapid m).instances mapid = some m := by
  simp [InstanceMgr.setInstances]

theorem arrives_iff {s : InstanceMgr} (hinf : s.mapInfo plr.mapId = some inf)
    (hmaps : plr.mapId < NUM_MAPS) (htype : inf.type ≠ .null)
    (hm : s.instances plr.mapId = some m) : Arrives now s plr ↔ Ready now plr m := by
  have heq : s.getInstance now plr = ((InstanceMgr.findMap now plr m).1,
      s.setInstances plr.mapId (InstanceMgr.findMap now plr m).2) := by
    simp [InstanceMgr.getInstance, hinf, Nat.not_le.2 hmaps, htype, hm]
  unfold Arrives
  rw [heq]
  rcases findMap_spec now plr m with ⟨hready, map, hsome, hhosts⟩ | ⟨hready, hnone⟩
  · refine iff_of_true ⟨map, hsome, Or.inr ⟨m, _, hm, setInstances_same _ _ _, hhosts⟩⟩ hready
  · refine iff_of_false ?_ hready
    rintro ⟨map, hsome, -⟩
    rw [hnone] at hsome
    cases hsome

/-- The player stands on the map whose instances were written. -/
theorem arrives_at {mapid : Nat} {s : InstanceMgr} (hinf : s.mapInfo mapid = some inf)
    (hmaps : mapid < NUM_MAPS) (htype : inf.type ≠ .null) (m : InstanceMap) (k : Nat) :
    Arrives now (s.setInstances mapid m) { plr with instanceId := k, mapId := mapid } ↔
      Ready now { plr with instanceId := k, mapId := mapid } m :=
  arrives_iff hinf hmaps htype (setInstances_same s mapid m)

/-! ## What is asked of the two -/

/-- The instances of the map. -/
def InstanceMgr.instancesOf (s : InstanceMgr) (mapid : Nat) : InstanceMap :=
  (s.instances mapid).getD ∅

/-- What is expected of `PreTeleport` and of `GetInstance` after it. -/
structure EntryLaw (now mapid : Nat) (s : InstanceMgr) (plr : Player) (instanceid : Nat) : Prop where
  /-- a player is turned away for an instance of his -/
  refused : instanceid = 0 → ∀ answer, (s.preTeleport now mapid plr instanceid).1 = answer →
    answer = .encounter ∨ answer = .full →
    ∃ inf k i, s.mapInfo mapid = some inf ∧ (s.instancesOf mapid).lookup k = some i ∧
      occupied inf plr i = some answer ∧ Accepts now plr i
  /-- or he is admitted to one of his, or to a new one -/
  admitted : instanceid = 0 → s.entryChecks mapid plr = none →
    (s.preTeleport now mapid plr instanceid).1 = .encounter ∨
      (s.preTeleport now mapid plr instanceid).1 = .full ∨
      (s.preTeleport now mapid plr instanceid).1 = .ok ∧
        ((∃ k i, (s.instancesOf mapid).lookup k = some i ∧ Accepts now plr i) ∨
          ∃ inf k, s.mapInfo mapid = some inf ∧
            (s.preTeleport now mapid plr instanceid).2.2.instanceId = k ∧
            ((s.preTeleport now mapid plr instanceid).2.1.instancesOf mapid).lookup k =
              some (newInstance now inf plr k))
  /-- who is admitted arrives -/
  found : (s.preTeleport now mapid plr instanceid).1 = .ok →
    Arrives now (s.relocate now mapid plr instanceid).1 (s.relocate now mapid plr instanceid).2

/-- The walk ends at an instance of the player's, or there is room for a
new one that takes him. -/
def ClearWalk (now : Nat) (inf : MapInfo) (plr : Player) (high : Nat) (m : InstanceMap) : Prop :=
  match m.entries.find? fun e => decide (Stops now inf plr e) with
  | some e =>
    if occupied inf plr e.2 = none then
      ∀ i, m.lookup plr.instanceId = some i → Accepts now plr i →
        i.mapMgr ≠ none ∨ ownerCheck now plr i = .savedOk
    else ∃ e' ∈ m.entries, occupied inf plr e'.2 = occupied inf plr e.2 ∧ Accepts now plr e'.2
  | none =>
    (∀ i, m.lookup high = some i → hasInstanceExpired now i = true) ∧
      (inf.type = .nonraid ∨ now + inf.cooldown = 0 ∨ 20 < inf.cooldown) ∧
      (plr.triggerpassCheat = true ∨ inf.minlevel ≤ plr.level)

/-- The instance asked for has a map, or is saved for the player and
takes him after its map was started. -/
def ClearEntry (now : Nat) (inf : MapInfo) (plr : Player) (k : Nat) (m : InstanceMap) : Prop :=
  ∀ i, m.lookup k = some i → occupied inf plr i = none → Accepts now plr i →
    i.mapMgr ≠ none ∨ ownerCheck now plr i = .savedOk ∧
      ((∀ inf', i.mapInfo = some inf' → inf'.minlevel ≤ plr.level) ∨
        ∃ e ∈ m.entries, e.1 ≠ k ∧ Accepts now plr e.2)

/-- The condition: a player who passes the checks on the map meets no
full instance of others first, and none of his own without a map. -/
def Clear (now mapid : Nat) (s : InstanceMgr) (plr : Player) (instanceid : Nat) : Prop :=
  s.entryChecks mapid plr = none → ∀ inf, s.mapInfo mapid = some inf →
    if instanceid = 0 then ClearWalk now inf plr s.instanceHigh (s.instancesOf mapid)
    else ClearEntry now inf plr instanceid (s.instancesOf mapid)

@[simp] theorem instancesOf_setInstances : (s.setInstances mapid m).instancesOf mapid = m := by
  simp [InstanceMgr.instancesOf]

/-! ## The checks on the map -/

theorem entryChecks_none (h : s.entryChecks mapid plr = none) :
    ∃ inf, s.mapInfo mapid = some inf ∧ mapid < NUM_MAPS ∧ inf.type ≠ .null ∧
      (plr.triggerpassCheat = true ∨ inf.type ≠ .raid ∨ plr.group ≠ none) := by
  unfold InstanceMgr.entryChecks at h
  cases hinf : s.mapInfo mapid with
  | none => simp [hinf] at h
  | some inf =>
    simp only [hinf] at h
    split_ifs at h with hmaps htype hsingle hpvp hcheat hgroup hheroic
    · exact ⟨inf, rfl, Nat.not_le.1 hmaps, htype, Or.inl hcheat⟩
    · refine ⟨inf, rfl, Nat.not_le.1 hmaps, htype, Or.inr ?_⟩
      by_cases hnone : plr.group = none
      · exact Or.inl fun hraid => hgroup ⟨hnone, Or.inl hraid⟩
      · exact Or.inr hnone

/-- Only a continent is answered for at once. -/
theorem entryChecks_some (h : s.entryChecks mapid plr = some answer) :
    (answer ≠ .encounter ∧ answer ≠ .full) ∧
      (answer = .ok → ∃ inf map, s.mapInfo mapid = some inf ∧ mapid < NUM_MAPS ∧
        inf.type = .null ∧ s.singleMaps mapid = some map) := by
  unfold InstanceMgr.entryChecks at h
  cases hinf : s.mapInfo mapid with
  | none =>
    rw [hinf] at h
    cases h
    simp
  | some inf =>
    simp only [hinf] at h
    split_ifs at h with hmaps htype hsingle hpvp hcheat hgroup hheroic
    all_goals cases h
    all_goals simp
    obtain ⟨map, hmap⟩ := Option.isSome_iff_exists.1 hsingle
    exact ⟨Nat.not_le.1 hmaps, htype, map, hmap⟩

theorem entryLaw_of_checks (h : s.entryChecks mapid plr = some answer) (instanceid : Nat) :
    EntryLaw now mapid s plr instanceid := by
  have heq : s.preTeleport now mapid plr instanceid = (answer, s, plr) := by
    simp [InstanceMgr.preTeleport, h]
  obtain ⟨⟨hencounter, hfull⟩, hok⟩ := entryChecks_some h
  refine ⟨?_, ?_, ?_⟩
  · intro _ a ha hor
    rw [heq] at ha
    cases ha
    exact absurd hor (not_or.2 ⟨hencounter, hfull⟩)
  · intro _ hnone
    rw [h] at hnone
    cases hnone
  · rw [heq]
    intro ha
    obtain ⟨inf, map, hinf, hmaps, htype, hmap⟩ := hok ha
    simp only [InstanceMgr.relocate, heq]
    refine ⟨map, ?_, Or.inl ⟨inf, hinf, htype⟩⟩
    simp [InstanceMgr.getInstance, hinf, Nat.not_le.2 hmaps, htype, hmap]

/-! ## Without an instance id -/

theorem preTeleport_zero (h : s.entryChecks mapid plr = none) (hinf : s.mapInfo mapid = some inf) :
    s.preTeleport now mapid plr 0 = s.findInstance now mapid inf plr (s.instancesOf mapid) := by
  cases hm : s.instances mapid with
  | none =>
    simp only [InstanceMgr.preTeleport, h, hinf, hm, InstanceMgr.instancesOf, Option.getD_none]
    rfl
  | some m => simp [InstanceMgr.preTeleport, h, hinf, hm, InstanceMgr.instancesOf]

theorem occupied_answer (h : occupied inf plr i = some answer) :
    answer = .encounter ∨ answer = .full := by
  unfold occupied at h
  cases hmap : i.mapMgr with
  | none => simp [hmap] at h
  | some mgr =>
    simp only [hmap] at h
    split_ifs at h
    all_goals cases h
    · exact Or.inl rfl
    · exact Or.inr rfl

/-- The walk meets a full instance. -/
theorem entryLaw_occupied {e : Sigma fun _ : Nat => Instance}
    (h : s.entryChecks mapid plr = none) (hinf : s.mapInfo mapid = some inf)
    (hfind : (s.instancesOf mapid).entries.find? (fun e => decide (Stops now inf plr e)) = some e)
    (hocc : occupied inf plr e.2 = some answer) :
    EntryLaw now mapid s plr 0 ↔ ∃ e' ∈ (s.instancesOf mapid).entries,
      occupied inf plr e'.2 = occupied inf plr e.2 ∧ Accepts now plr e'.2 := by
  have hscan := (@scan_spec now inf plr (s.instancesOf mapid) (s.instancesOf mapid)
    (s.instancesOf mapid).entries (fun _ => lookup_of_mem) (Pruned.refl now _)).1
  rw [hfind] at hscan
  have hanswer : (s.preTeleport now mapid plr 0).1 = answer := by
    rw [preTeleport_zero h hinf]
    unfold InstanceMgr.findInstance
    generalize scan now inf plr (s.instancesOf mapid).entries (s.instancesOf mapid) = r at hscan ⊢
    obtain ⟨r₁, r₂⟩ := r
    simp only [Option.map_some, answerAt, hocc, Option.getD_some] at hscan
    subst hscan
    rfl
  have hor := occupied_answer hocc
  rw [hocc]
  constructor
  · intro hlaw
    obtain ⟨inf', k, i, hinf', hk, hfull, hacc⟩ := hlaw.refused rfl answer hanswer hor
    rw [hinf] at hinf'
    cases hinf'
    exact ⟨⟨k, i⟩, AList.mem_lookup_iff.1 hk, hfull, hacc⟩
  · rintro ⟨e', he', hfull, hacc⟩
    refine ⟨?_, ?_, ?_⟩
    · intro _ a ha _
      have haa : answer = a := hanswer.symm.trans ha
      subst haa
      exact ⟨inf, e'.1, e'.2, hinf, lookup_of_mem he', hfull, hacc⟩
    · intro _ _
      rw [hanswer]
      rcases hor with hor | hor
      · exact Or.inl hor
      · exact Or.inr (Or.inl hor)
    · intro hok
      rw [hanswer] at hok
      subst hok
      rcases hor with hor | hor <;> cases hor

/-- The walk meets an instance of the player's. -/
theorem entryLaw_owned {e : Sigma fun _ : Nat => Instance}
    (h : s.entryChecks mapid plr = none) (hinf : s.mapInfo mapid = some inf)
    (hfind : (s.instancesOf mapid).entries.find? (fun e => decide (Stops now inf plr e)) = some e)
    (hocc : occupied inf plr e.2 = none) :
    EntryLaw now mapid s plr 0 ↔ ∀ i, (s.instancesOf mapid).lookup plr.instanceId = some i →
      Accepts now plr i → i.mapMgr ≠ none ∨ ownerCheck now plr i = .savedOk := by
  obtain ⟨inf', hinf', hmaps, htype, -⟩ := entryChecks_none h
  rw [hinf] at hinf'
  cases hinf'
  have hmem : e ∈ (s.instancesOf mapid).entries := List.mem_of_find?_eq_some hfind
  have hacc : Accepts now plr e.2 := by
    have hstop : Stops now inf plr e := by simpa using List.find?_some hfind
    exact hstop.resolve_left (not_not.2 hocc)
  obtain ⟨hscan, hpruned⟩ := @scan_spec now inf plr (s.instancesOf mapid) (s.instancesOf mapid)
    (s.instancesOf mapid).entries (fun _ => lookup_of_mem) (Pruned.refl now _)
  rw [hfind] at hscan
  generalize hr : scan now inf plr (s.instancesOf mapid).entries (s.instancesOf mapid) = r
    at hscan hpruned
  obtain ⟨r₁, m'⟩ := r
  simp only [Option.map_some, answerAt, hocc, Option.getD_none] at hscan
  subst hscan
  have heq : s.preTeleport now mapid plr 0 = (.ok, s.setInstances mapid m', plr) := by
    simp [preTeleport_zero h hinf, InstanceMgr.findInstance, hr]
  have hrelocate : s.relocate now mapid plr 0 =
      (s.setInstances mapid m', { plr with instanceId := plr.instanceId, mapId := mapid }) := by
    simp [InstanceMgr.relocate, heq]
  have harrives : Arrives now (s.relocate now mapid plr 0).1 (s.relocate now mapid plr 0).2 ↔
      ∀ i, (s.instancesOf mapid).lookup plr.instanceId = some i → Accepts now plr i →
        i.mapMgr ≠ none ∨ ownerCheck now plr i = .savedOk := by
    simp only [hrelocate]
    rw [arrives_at hinf hmaps htype, hpruned.ready]
    exact and_iff_right ⟨e, hmem, hacc⟩
  rw [← harrives]
  constructor
  · intro hlaw
    exact hlaw.found (by rw [heq])
  · intro hfound
    refine ⟨?_, ?_, fun _ => hfound⟩
    · intro _ a ha hor
      rw [heq] at ha
      cases ha
      rcases hor with hor | hor <;> cases hor
    · intro _ _
      refine Or.inr (Or.inr ⟨by rw [heq], Or.inl ⟨e.1, e.2, lookup_of_mem hmem, hacc⟩⟩)

/-- The walk stops nowhere, and an instance is started: it takes the
player if its id was free and it does not turn him away. -/
theorem entryLaw_new (h : s.entryChecks mapid plr = none) (hinf : s.mapInfo mapid = some inf)
    (hfind : (s.instancesOf mapid).entries.find? (fun e => decide (Stops now inf plr e)) = none) :
    EntryLaw now mapid s plr 0 ↔
      (∀ i, (s.instancesOf mapid).lookup s.instanceHigh = some i →
          hasInstanceExpired now i = true) ∧
        Accepts now plr (newInstance now inf plr s.instanceHigh) := by
  obtain ⟨inf', hinf', hmaps, htype, -⟩ := entryChecks_none h
  rw [hinf] at hinf'
  cases hinf'
  have hnobody : ∀ k i, (s.instancesOf mapid).lookup k = some i → ¬ Accepts now plr i := by
    intro k i hk hacc
    have hstop := List.find?_eq_none.1 hfind ⟨k, i⟩ (AList.mem_lookup_iff.1 hk)
    exact hstop (by simp [Stops, hacc])
  obtain ⟨hscan, hpruned⟩ := @scan_spec now inf plr (s.instancesOf mapid) (s.instancesOf mapid)
    (s.instancesOf mapid).entries (fun _ => lookup_of_mem) (Pruned.refl now _)
  have hdeleted := @scan_expired now inf plr (s.instancesOf mapid) _ hfind
  rw [hfind] at hscan
  generalize hr : scan now inf plr (s.instancesOf mapid).entries (s.instancesOf mapid) = r
    at hscan hpruned hdeleted
  obtain ⟨r₁, m'⟩ := r
  simp only [Option.map_none] at hscan
  subst hscan
  set m₁ := InstanceMgr.insertNew s.instanceHigh (newInstance now inf plr s.instanceHigh) m' with hm₁
  have heq : s.preTeleport now mapid plr 0 = (.ok,
      { s.setInstances mapid m₁ with instanceHigh := (s.instanceHigh + 1) % 2 ^ 32 },
      { plr with instanceId := s.instanceHigh }) := by
    simp only [preTeleport_zero h hinf, InstanceMgr.findInstance, hr]
    rfl
  have hrelocate : s.relocate now mapid plr 0 =
      ({ s.setInstances mapid m₁ with instanceHigh := (s.instanceHigh + 1) % 2 ^ 32 },
        { plr with instanceId := s.instanceHigh, mapId := mapid }) := by
    simp [InstanceMgr.relocate, heq]
  have harrives : Arrives now (s.relocate now mapid plr 0).1 (s.relocate now mapid plr 0).2 ↔
      Ready now { plr with instanceId := s.instanceHigh, mapId := mapid } m₁ := by
    rw [hrelocate]
    exact arrives_iff hinf hmaps htype (setInstances_same s mapid m₁)
  -- the id is free when what stood there has expired
  have hfree : (∀ i, (s.instancesOf mapid).lookup s.instanceHigh = some i →
      hasInstanceExpired now i = true) ↔ m'.lookup s.instanceHigh = none := by
    constructor
    · intro hall
      cases hk : m'.lookup s.instanceHigh with
      | none => rfl
      | some i =>
        have hki := hpruned.lookup hk
        have hgone := hdeleted ⟨s.instanceHigh, i⟩ (AList.mem_lookup_iff.1 hki) (hall i hki)
        rw [hk] at hgone
        cases hgone
    · intro hk i hi
      rcases hpruned s.instanceHigh with hsame | ⟨-, j, hj, hexpired⟩
      · rw [hsame, hi] at hk
        cases hk
      · rw [hi] at hj
        exact Option.some.inj hj ▸ hexpired
  rw [hfree]
  cases hk : m'.lookup s.instanceHigh with
  | some i =>
    -- the new instance is not inserted, and nobody else's takes him
    have hsame : m₁ = m' := if_pos (AList.lookup_isSome.1 (by simp [hk]))
    refine iff_of_false ?_ (fun hand => by cases hand.1)
    intro hlaw
    obtain ⟨⟨e, he, hacc⟩, -⟩ := harrives.1 (hlaw.found (by rw [heq]))
    rw [hsame] at he
    exact hnobody e.1 e.2 (hpruned.lookup (lookup_of_mem he)) hacc
  | none =>
    have hinsert : m₁ = m'.insert s.instanceHigh (newInstance now inf plr s.instanceHigh) :=
      if_neg (AList.lookup_eq_none.1 hk)
    have hlookup : m₁.lookup s.instanceHigh = some (newInstance now inf plr s.instanceHigh) := by
      rw [hinsert, AList.lookup_insert]
    have hready : Ready now { plr with instanceId := s.instanceHigh, mapId := mapid } m₁ ↔
        Accepts now plr (newInstance now inf plr s.instanceHigh) := by
      constructor
      · rintro ⟨⟨e, he, hacc⟩, -⟩
        have he' := lookup_of_mem he
        by_cases hkey : e.1 = s.instanceHigh
        · rw [hkey, hlookup] at he'
          exact Option.some.inj he' ▸ hacc
        · rw [hinsert, AList.lookup_insert_ne hkey] at he'
          exact absurd hacc (hnobody e.1 e.2 (hpruned.lookup he'))
      · intro hacc
        refine ⟨⟨⟨s.instanceHigh, _⟩, AList.mem_lookup_iff.1 hlookup, hacc⟩, ?_⟩
        intro i hi _
        have hnew : newInstance now inf plr s.instanceHigh = i :=
          Option.some.inj (hlookup.symm.trans hi)
        subst hnew
        exact Or.inl (by simp [newInstance, createInstance])
    rw [hready] at harrives
    constructor
    · intro hlaw
      exact ⟨rfl, harrives.1 (hlaw.found (by rw [heq]))⟩
    · rintro ⟨-, hacc⟩
      refine ⟨?_, ?_, fun _ => harrives.2 hacc⟩
      · intro _ a ha hor
        rw [heq] at ha
        cases ha
        rcases hor with hor | hor <;> cases hor
      · intro _ _
        refine Or.inr (Or.inr ⟨by rw [heq], Or.inr ⟨inf, s.instanceHigh, hinf, by rw [heq], ?_⟩⟩)
        rw [heq]
        have hm : ({ s.setInstances mapid m₁ with
            instanceHigh := (s.instanceHigh + 1) % 2 ^ 32 } : InstanceMgr).instancesOf mapid = m₁ :=
          instancesOf_setInstances
        rw [hm]
        exact hlookup

/-! ## With an instance id -/

theorem preTeleport_id (h : s.entryChecks mapid plr = none) (hinf : s.mapInfo mapid = some inf)
    (hk : k ≠ 0) : (s.preTeleport now mapid plr k).1 =
      (s.enterInstance now mapid inf plr k (s.instancesOf mapid)).1 ∧
    ((s.instances mapid).isSome →
      s.preTeleport now mapid plr k = s.enterInstance now mapid inf plr k (s.instancesOf mapid)) := by
  cases hm : s.instances mapid with
  | none =>
    refine ⟨?_, by simp⟩
    simp only [InstanceMgr.preTeleport, h, hinf, hm, hk, ne_eq, not_false_eq_true, if_true,
      InstanceMgr.instancesOf, Option.getD_none, InstanceMgr.enterInstance]
    rfl
  | some m => simp [InstanceMgr.preTeleport, h, hinf, hm, hk, InstanceMgr.instancesOf]

theorem entryLaw_turned_away (hk : k ≠ 0) (h : (s.preTeleport now mapid plr k).1 ≠ .ok) :
    EntryLaw now mapid s plr k :=
  ⟨fun hzero => absurd hzero hk, fun hzero => absurd hzero hk, fun hok => absurd hok h⟩

theorem entryLaw_id_iff (hk : k ≠ 0) (h : (s.preTeleport now mapid plr k).1 = .ok) :
    EntryLaw now mapid s plr k ↔
      Arrives now (s.relocate now mapid plr k).1 (s.relocate now mapid plr k).2 :=
  ⟨fun hlaw => hlaw.found h,
    fun harrives => ⟨fun hzero => absurd hzero hk, fun hzero => absurd hzero hk, fun _ => harrives⟩⟩

/-- A saved instance was woken up: it has a map, which may turn the
player away for his level. -/
theorem ready_wakeup (hi : m.lookup k = some i) (hsaved : ownerCheck now plr i = .savedOk) :
    Ready now { plr with instanceId := k, mapId := mapid } (m.replace k (wakeup plr k i)) ↔
      (∀ inf', i.mapInfo = some inf' → inf'.minlevel ≤ plr.level) ∨
        ∃ e ∈ m.entries, e.1 ≠ k ∧ Accepts now plr e.2 := by
  rw [← accepts_wakeup (k := k) hsaved]
  constructor
  · rintro ⟨⟨e, he, hacc⟩, -⟩
    have he' := lookup_of_mem he
    by_cases hkey : e.1 = k
    · rw [hkey, lookup_replace hi] at he'
      exact Or.inl (Option.some.inj he' ▸ hacc)
    · rw [lookup_replace_ne hkey] at he'
      exact Or.inr ⟨e, AList.mem_lookup_iff.1 he', hkey, hacc⟩
  · intro hor
    refine ⟨?_, ?_⟩
    · rcases hor with hacc | ⟨e, he, hkey, hacc⟩
      · exact ⟨⟨k, _⟩, AList.mem_lookup_iff.1 (lookup_replace hi), hacc⟩
      · refine ⟨e, AList.mem_lookup_iff.1 ?_, hacc⟩
        rw [lookup_replace_ne hkey]
        exact lookup_of_mem he
    · intro j hj _
      have hwakeup : wakeup plr k i = j := Option.some.inj ((lookup_replace hi).symm.trans hj)
      subst hwakeup
      exact Or.inl (by simp [wakeup, createInstance])

theorem entryLaw_id (h : s.entryChecks mapid plr = none) (hinf : s.mapInfo mapid = some inf)
    (hk : k ≠ 0) :
    EntryLaw now mapid s plr k ↔ ClearEntry now inf plr k (s.instancesOf mapid) := by
  obtain ⟨inf', hinf', hmaps, htype, -⟩ := entryChecks_none h
  rw [hinf] at hinf'
  cases hinf'
  obtain ⟨hanswer, hsome⟩ := @preTeleport_id now mapid k inf plr s h hinf hk
  unfold ClearEntry
  cases hi : (s.instancesOf mapid).lookup k with
  | none =>
    refine iff_of_true (entryLaw_turned_away hk ?_) (by simp)
    simp [hanswer, InstanceMgr.enterInstance, hi]
  | some i =>
    have hthere : (s.instances mapid).isSome := by
      cases hm : s.instances mapid with
      | some m => rfl
      | none => simp [InstanceMgr.instancesOf, hm] at hi
    have heq := hsome hthere
    have hiff : (∀ j, some i = some j → occupied inf plr j = none → Accepts now plr j →
          j.mapMgr ≠ none ∨ ownerCheck now plr j = .savedOk ∧
            ((∀ inf', j.mapInfo = some inf' → inf'.minlevel ≤ plr.level) ∨
              ∃ e ∈ (s.instancesOf mapid).entries, e.1 ≠ k ∧ Accepts now plr e.2)) ↔
        (occupied inf plr i = none → Accepts now plr i →
          i.mapMgr ≠ none ∨ ownerCheck now plr i = .savedOk ∧
            ((∀ inf', i.mapInfo = some inf' → inf'.minlevel ≤ plr.level) ∨
              ∃ e ∈ (s.instancesOf mapid).entries, e.1 ≠ k ∧ Accepts now plr e.2)) := by
      simp only [Option.some.injEq, forall_eq']
    rw [hiff]
    cases hocc : occupied inf plr i with
    | some answer =>
      refine iff_of_true (entryLaw_turned_away hk ?_) (by simp)
      rw [hanswer, InstanceMgr.enterInstance, hi]
      simp only [hocc]
      rcases occupied_answer hocc with rfl | rfl <;> simp
    | none =>
      by_cases hacc : Accepts now plr i
      · have haccepts : (ownerCheck now plr i).accepts = true := hacc
        have hkept : playerOwnsInstance now plr k i (s.instancesOf mapid) =
            (ownerCheck now plr i, s.instancesOf mapid) := by
          simp [playerOwnsInstance, not_expired hacc]
        by_cases hsaved : ownerCheck now plr i = .savedOk ∧ i.mapMgr = none
        · have hpre : s.preTeleport now mapid plr k = (.ok,
              s.setInstances mapid ((s.instancesOf mapid).replace k (wakeup plr k i)), plr) := by
            simp only [heq, InstanceMgr.enterInstance, hi, hocc, hkept, haccepts, if_true]
            exact if_pos hsaved
          rw [entryLaw_id_iff hk (by rw [hpre])]
          have hrelocate : s.relocate now mapid plr k =
              (s.setInstances mapid ((s.instancesOf mapid).replace k (wakeup plr k i)),
                { plr with instanceId := k, mapId := mapid }) := by
            simp [InstanceMgr.relocate, hpre, hk]
          simp only [hrelocate]
          rw [arrives_at hinf hmaps htype, ready_wakeup hi hsaved.1]
          simp [hacc, hsaved.1, hsaved.2]
        · have hpre : s.preTeleport now mapid plr k =
              (.ok, s.setInstances mapid (s.instancesOf mapid), plr) := by
            simp only [heq, InstanceMgr.enterInstance, hi, hocc, hkept, haccepts, if_true]
            exact if_neg hsaved
          rw [entryLaw_id_iff hk (by rw [hpre])]
          have hrelocate : s.relocate now mapid plr k =
              (s.setInstances mapid (s.instancesOf mapid),
                { plr with instanceId := k, mapId := mapid }) := by
            simp [InstanceMgr.relocate, hpre, hk]
          simp only [hrelocate]
          rw [arrives_at hinf hmaps htype]
          have hmap : i.mapMgr ≠ none ∨ ownerCheck now plr i = .savedOk ↔ i.mapMgr ≠ none := by
            constructor
            · rintro (hmap | hok)
              · exact hmap
              · exact fun hnone => hsaved ⟨hok, hnone⟩
            · exact Or.inl
          constructor
          · rintro ⟨-, hall⟩ _ _
            exact Or.inl (hmap.1 (hall i hi hacc))
          · intro hclear
            refine ⟨⟨⟨k, i⟩, AList.mem_lookup_iff.1 hi, hacc⟩, ?_⟩
            intro j hj _
            have hij : i = j := Option.some.inj (hi.symm.trans hj)
            subst hij
            rcases hclear trivial hacc with hmap | ⟨hok, -⟩
            · exact Or.inl hmap
            · exact Or.inr hok
      · have haccepts : (ownerCheck now plr i).accepts = false := by simpa [Accepts] using hacc
        refine iff_of_true (entryLaw_turned_away hk ?_) (fun _ hin => absurd hin hacc)
        rw [hanswer, InstanceMgr.enterInstance, hi]
        simp [hocc, playerOwnsInstance, haccepts]

/-! ## The law -/

/-- For every player and all instances of the map: he is turned away for
an instance of his or admitted to one, and arrives, exactly when the
walk meets no full instance of others first and the instance has a map
that takes him. -/
theorem entryLaw_iff (now mapid : Nat) (s : InstanceMgr) (plr : Player) (instanceid : Nat) :
    EntryLaw now mapid s plr instanceid ↔ Clear now mapid s plr instanceid := by
  cases h : s.entryChecks mapid plr with
  | some answer =>
    refine iff_of_true (entryLaw_of_checks h instanceid) ?_
    intro hnone
    rw [h] at hnone
    cases hnone
  | none =>
    obtain ⟨inf, hinf, -, -, hgroup⟩ := entryChecks_none h
    have hclear : Clear now mapid s plr instanceid ↔
        if instanceid = 0 then ClearWalk now inf plr s.instanceHigh (s.instancesOf mapid)
        else ClearEntry now inf plr instanceid (s.instancesOf mapid) := by
      constructor
      · intro hall
        exact hall h inf hinf
      · intro hc _ inf' hinf'
        rw [hinf] at hinf'
        cases hinf'
        exact hc
    rw [hclear]
    by_cases hid : instanceid = 0
    · subst hid
      rw [if_pos rfl]
      unfold ClearWalk
      cases hfind : (s.instancesOf mapid).entries.find? fun e => decide (Stops now inf plr e) with
      | none =>
        rw [entryLaw_new h hinf hfind, accepts_newInstance hgroup]
      | some e =>
        cases hocc : occupied inf plr e.2 with
        | none =>
          simpa [hocc] using entryLaw_owned h hinf hfind hocc
        | some answer =>
          simpa [hocc] using entryLaw_occupied h hinf hfind hocc
    · rw [if_neg hid]
      exact entryLaw_id h hinf hid

/-! ## Three ways it fails -/

/-- Map 409, a raid for forty players of level fifty and more. -/
def moltenCore : MapInfo := ⟨.raid, 40, 50, 604800⟩

/-- Player 1, of group 3 and level 60, comes from a continent. -/
def visitor : Player := ⟨1, some 3, 0, false, 60, 0, 0⟩

def managerOf (m : InstanceMap) : InstanceMgr :=
  ⟨fun _ => some moltenCore, fun _ => none, Function.update (fun _ => none) 409 (some m), 100⟩

/-- Forty players of group 9 are in the instance of player 2. -/
def full : InstanceMap :=
  (∅ : InstanceMap).insert 7 ⟨some ⟨7, 40⟩, 2, 9, 0, [], 604800, some moltenCore⟩

/-- The map of group 3 went idle before anything was killed. -/
def idle : InstanceMap :=
  (∅ : InstanceMap).insert 7 ⟨none, 1, 3, 0, [], 604800, some moltenCore⟩

/-- The instance is full with strangers, and player 1 is told so; that of
his group has no map, and he gets none; and one is started for a player
of level 1 that does not take him. -/
theorem not_entryLaw :
    ¬ EntryLaw 0 409 (managerOf full) visitor 0 ∧
      ¬ EntryLaw 0 409 (managerOf idle) visitor 7 ∧
      ¬ EntryLaw 0 409 (managerOf ∅) { visitor with level := 1 } 0 := by
  refine ⟨fun h => ?_, fun h => ?_, fun h => ?_⟩
  · obtain ⟨inf, k, i, -, hk, -, hacc⟩ := h.refused rfl .full (by decide +kernel) (Or.inr rfl)
    have hall : ∀ e ∈ ((managerOf full).instancesOf 409).entries, ¬ Accepts 0 visitor e.2 := by
      decide +kernel
    exact hall ⟨k, i⟩ (AList.mem_lookup_iff.1 hk) hacc
  · obtain ⟨map, hmap, -⟩ := h.found (by decide +kernel)
    have hnone : (((managerOf idle).relocate 0 409 visitor 7).1.getInstance 0
        ((managerOf idle).relocate 0 409 visitor 7).2).1 = none := by decide +kernel
    rw [hnone] at hmap
    cases hmap
  · obtain ⟨map, hmap, -⟩ := h.found (by decide +kernel)
    have hnone : (((managerOf ∅).relocate 0 409 { visitor with level := 1 } 0).1.getInstance 0
        ((managerOf ∅).relocate 0 409 { visitor with level := 1 } 0).2).1 = none := by decide +kernel
    rw [hnone] at hmap
    cases hmap

end HearthStone.InstanceEntry
