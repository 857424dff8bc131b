/-
HearthStone.Instance.Walks — what the walks over the instances answer.

`PreTeleport` and `GetInstance` walk the same instances. The first asks
how full an instance is before it asks whose it is; the second takes an
instance without a map for his, and starts its map only where he is on
the saved list or where the walk finds it. Both delete what has expired
on the way.

* `Pruned` — nothing but expired instances was deleted.
* `scan_spec` — the walk of `PreTeleport`.
* `search_spec`, `findMap_spec` — the walk of `GetInstance`.
-/
import HearthStone.Instance.InstanceMgr

namespace HearthStone.InstanceEntry

/-- `PlayerOwnsInstance` accepts the player. -/
def Accepts (now : Nat) (plr : Player) (i : Instance) : Prop :=
  (ownerCheck now plr i).accepts = true

instance (now : Nat) (plr : Player) (i : Instance) : Decidable (Accepts now plr i) :=
  inferInstanceAs (Decidable (_ = true))

variable {now mapid k : Nat} {inf : MapInfo} {plr : Player} {i j : Instance} {m m' : InstanceMap}

/-! ## The owner check -/

theorem not_expired (h : Accepts now plr i) : hasInstanceExpired now i = false := by
  by_contra hexpired
  rw [Bool.not_eq_false] at hexpired
  unfold Accepts ownerCheck at h
  rw [if_pos hexpired] at h
  cases h

/-- Nobody is on the saved list of an instance that was just prepared, so
only its end and the level of the player can be in the way. -/
theorem accepts_newInstance (h : plr.triggerpassCheat = true ∨ inf.type ≠ .raid ∨ plr.group ≠ none) :
    Accepts now plr (newInstance now inf plr k) ↔
      (inf.type = .nonraid ∨ now + inf.cooldown = 0 ∨ 20 < inf.cooldown) ∧
        (plr.triggerpassCheat = true ∨ inf.minlevel ≤ plr.level) := by
  have hexpired : hasInstanceExpired now (newInstance now inf plr k) = false ↔
      (inf.type = .nonraid ∨ now + inf.cooldown = 0 ∨ 20 < inf.cooldown) := by
    by_cases htype : inf.type = .nonraid
    · simp [hasInstanceExpired, newInstance, createInstance, htype]
    · simp only [hasInstanceExpired, newInstance, createInstance, htype, if_false, false_or,
        Bool.and_eq_false_iff, decide_eq_false_iff_not, not_not, ge_iff_le, not_le]
      omega
  rw [← hexpired]
  unfold Accepts ownerCheck
  cases hnow : hasInstanceExpired now (newInstance now inf plr k) with
  | true => simp [OwnerCheck.accepts]
  | false =>
    by_cases hcheat : plr.triggerpassCheat = true
    · simp [newInstance, createInstance, hcheat, OwnerCheck.accepts]
    · have hdifficult : ¬ (plr.iInstanceType = 1 ∧ plr.iInstanceType = 0) := by omega
      have hgroup : ¬ (plr.group = none ∧ inf.type = .raid) := by
        rintro ⟨hnone, hraid⟩
        rcases h with h | h | h
        · exact hcheat h
        · exact h hraid
        · exact h hnone
      by_cases hlevel : plr.level < inf.minlevel
      · simp [newInstance, createInstance, hcheat, hdifficult, hlevel, OwnerCheck.accepts]
      · have hlevel' : inf.minlevel ≤ plr.level := Nat.not_lt.1 hlevel
        simp [newInstance, createInstance, hcheat, hdifficult, hlevel, hlevel', hgroup, groupCheck,
          MapMgr.hasPlayers, OwnerCheck.accepts]

/-- Who is on the saved list and was accepted is accepted again when the
map is there, if his level allows. -/
theorem accepts_wakeup (hsaved : ownerCheck now plr i = .savedOk) :
    Accepts now plr (wakeup plr k i) ↔ ∀ inf, i.mapInfo = some inf → inf.minlevel ≤ plr.level := by
  have haccepts : Accepts now plr i := by simp [Accepts, hsaved, OwnerCheck.accepts]
  have hexpired : hasInstanceExpired now i = false := not_expired haccepts
  unfold ownerCheck at hsaved
  rw [if_neg (by simp [hexpired])] at hsaved
  cases hinf : i.mapInfo with
  | none => simp [hinf] at hsaved
  | some inf' =>
    simp only [hinf] at hsaved
    split_ifs at hsaved with hcheat hdifficult hmax hmin hraid
    have hmem : plr.guid ∈ i.savedPlayers := by
      unfold groupCheck at hsaved
      split_ifs at hsaved with hmem
      exact hmem
    have hexpired' : hasInstanceExpired now (wakeup plr k i) = false := hexpired
    unfold Accepts ownerCheck
    rw [if_neg (by simp [hexpired'])]
    by_cases hlevel : plr.level < inf'.minlevel
    · simp [wakeup, createInstance, hinf, hcheat, hdifficult, hlevel, OwnerCheck.accepts]
    · have hlevel' : inf'.minlevel ≤ plr.level := Nat.not_lt.1 hlevel
      simp [wakeup, createInstance, hinf, hcheat, hdifficult, hlevel, hlevel', hraid, groupCheck,
        hmem, OwnerCheck.accepts]

/-! ## Deleting on the way -/

/-- Nothing but expired instances was deleted. -/
def Pruned (now : Nat) (m m' : InstanceMap) : Prop :=
  ∀ k, m'.lookup k = m.lookup k ∨
    (m'.lookup k = none ∧ ∃ i, m.lookup k = some i ∧ hasInstanceExpired now i = true)

theorem Pruned.refl (now : Nat) (m : InstanceMap) : Pruned now m m := fun _ => Or.inl rfl

theorem Pruned.lookup (h : Pruned now m m') (hk : m'.lookup k = some i) : m.lookup k = some i := by
  rcases h k with hsame | ⟨hnone, -⟩
  · rw [← hsame, hk]
  · rw [hnone] at hk
    cases hk

theorem Pruned.accepted (h : Pruned now m m') (hk : m.lookup k = some i) (hi : Accepts now plr i) :
    m'.lookup k = some i := by
  rcases h k with hsame | ⟨-, j, hj, hexpired⟩
  · rw [hsame, hk]
  · have hij : i = j := Option.some.inj (hk.symm.trans hj)
    subst hij
    rw [not_expired hi] at hexpired
    cases hexpired

/-- An owner check deletes at most the instance it is about. -/
theorem Pruned.check (h : Pruned now m m') (hk : m.lookup k = some i) (plr : Player) :
    Pruned now m (playerOwnsInstance now plr k i m').2 := by
  intro l
  unfold playerOwnsInstance
  split_ifs with hexpired
  · by_cases hl : l = k
    · subst hl
      exact Or.inr ⟨AList.lookup_erase l m', i, hk, hexpired⟩
    · rw [AList.lookup_erase_ne hl]
      exact h l
  · exact h l

/-! ## The walk of `PreTeleport` -/

/-- Where the walk stops: the instance is full, or his. -/
def Stops (now : Nat) (inf : MapInfo) (plr : Player) (e : Sigma fun _ : Nat => Instance) : Prop :=
  occupied inf plr e.2 ≠ none ∨ Accepts now plr e.2

instance (e : Sigma fun _ : Nat => Instance) : Decidable (Stops now inf plr e) :=
  inferInstanceAs (Decidable (_ ∨ _))

/-- The answer at the instance where the walk stops. -/
def answerAt (inf : MapInfo) (plr : Player) (i : Instance) : Answer :=
  (occupied inf plr i).getD .ok

/-- The walk answers for the first instance at which it stops. By
induction on the instances ahead. -/
theorem scan_spec {es : List (Sigma fun _ : Nat => Instance)}
    (hes : ∀ e ∈ es, m.lookup e.1 = some e.2) (hm : Pruned now m m') :
    (scan now inf plr es m').1 =
        (es.find? fun e => decide (Stops now inf plr e)).map (fun e => answerAt inf plr e.2) ∧
      Pruned now m (scan now inf plr es m').2 := by
  induction es generalizing m' with
  | nil => exact ⟨rfl, hm⟩
  | cons e rest ih =>
    obtain ⟨k, i⟩ := e
    have hk : m.lookup k = some i := hes ⟨k, i⟩ List.mem_cons_self
    have hrest : ∀ e ∈ rest, m.lookup e.1 = some e.2 :=
      fun e he => hes e (List.mem_cons_of_mem _ he)
    unfold scan
    cases hocc : occupied inf plr i with
    | some answer => simp [Stops, hocc, answerAt, hm]
    | none =>
      have hcheck := hm.check hk plr
      by_cases hacc : Accepts now plr i
      · have haccepts : (ownerCheck now plr i).accepts = true := hacc
        rw [List.find?_cons_of_pos (by simp [Stops, hacc])]
        simp only [playerOwnsInstance, haccepts, if_true, Option.map_some, answerAt, hocc,
          Option.getD_none]
        exact ⟨trivial, hcheck⟩
      · have haccepts : ¬ (ownerCheck now plr i).accepts = true := hacc
        rw [List.find?_cons_of_neg (by simp [Stops, hacc, hocc])]
        simp only [playerOwnsInstance, haccepts]
        exact ih hrest hcheck

/-- Nothing is put back. -/
theorem scan_lookup_none {es : List (Sigma fun _ : Nat => Instance)} (h : m'.lookup k = none) :
    (scan now inf plr es m').2.lookup k = none := by
  induction es generalizing m' with
  | nil => exact h
  | cons e rest ih =>
    obtain ⟨l, i⟩ := e
    unfold scan
    cases hocc : occupied inf plr i with
    | some answer => exact h
    | none =>
      have hcheck : (playerOwnsInstance now plr l i m').2.lookup k = none := by
        simp only [playerOwnsInstance]
        split_ifs
        · by_cases hl : k = l
          · subst hl
            exact AList.lookup_erase k m'
          · rw [AList.lookup_erase_ne hl]
            exact h
        · exact h
      cases hacc : (ownerCheck now plr i).accepts with
      | true => simpa [playerOwnsInstance, hacc] using hcheck
      | false => simpa [playerOwnsInstance, hacc] using ih hcheck

/-- A walk that stops nowhere has deleted whatever has expired. -/
theorem scan_expired {es : List (Sigma fun _ : Nat => Instance)}
    (hnone : es.find? (fun e => decide (Stops now inf plr e)) = none) :
    ∀ e ∈ es, hasInstanceExpired now e.2 = true →
      (scan now inf plr es m').2.lookup e.1 = none := by
  induction es generalizing m' with
  | nil => simp
  | cons e rest ih =>
    obtain ⟨l, i⟩ := e
    rw [List.find?_eq_none] at hnone
    have hhead : ¬ Stops now inf plr ⟨l, i⟩ := by simpa using hnone ⟨l, i⟩ List.mem_cons_self
    have hrest : rest.find? (fun e => decide (Stops now inf plr e)) = none :=
      List.find?_eq_none.2 fun e he => hnone e (List.mem_cons_of_mem _ he)
    obtain ⟨hocc, hacc⟩ := not_or.1 hhead
    have hocc' : occupied inf plr i = none := not_not.1 hocc
    have haccepts : (ownerCheck now plr i).accepts = false := by simpa [Accepts] using hacc
    have heq : scan now inf plr (⟨l, i⟩ :: rest) m' =
        scan now inf plr rest (playerOwnsInstance now plr l i m').2 := by
      simp [scan, hocc', playerOwnsInstance, haccepts]
    rw [heq]
    intro e he hexpired
    rcases List.mem_cons.1 he with rfl | he
    · apply scan_lookup_none
      have hexpired' : hasInstanceExpired now i = true := hexpired
      simp only [playerOwnsInstance, hexpired', if_true]
      exact AList.lookup_erase l m'
    · exact ih hrest e he hexpired

/-! ## Writing to an instance -/

theorem kreplace_cons_eq (es : List (Sigma fun _ : Nat => Instance)) :
    List.kreplace k j (⟨k, i⟩ :: es) = ⟨k, j⟩ :: es :=
  List.lookmap_cons_some _ es (if_pos rfl)

theorem kreplace_cons_ne {l : Nat} {es : List (Sigma fun _ : Nat => Instance)} (h : k ≠ l) :
    List.kreplace k j (⟨l, i⟩ :: es) = ⟨l, i⟩ :: List.kreplace k j es :=
  List.lookmap_cons_none _ es (if_neg h)

theorem dlookup_kreplace {es : List (Sigma fun _ : Nat => Instance)}
    (hk : ∃ i, (⟨k, i⟩ : Sigma fun _ : Nat => Instance) ∈ es) :
    List.dlookup k (List.kreplace k j es) = some j := by
  induction es with
  | nil => simp at hk
  | cons e rest ih =>
    obtain ⟨l, i⟩ := e
    by_cases hl : k = l
    · subst hl
      rw [kreplace_cons_eq, List.dlookup_cons_eq]
    · rw [kreplace_cons_ne hl, List.dlookup_cons_ne _ _ hl]
      refine ih ?_
      obtain ⟨i', hi'⟩ := hk
      rcases List.mem_cons.1 hi' with heq | hmem
      · exact absurd (congrArg Sigma.fst heq) hl
      · exact ⟨i', hmem⟩

theorem dlookup_kreplace_ne {es : List (Sigma fun _ : Nat => Instance)} {l : Nat} (hl : l ≠ k) :
    List.dlookup l (List.kreplace k j es) = List.dlookup l es := by
  induction es with
  | nil => rfl
  | cons e rest ih =>
    obtain ⟨p, i⟩ := e
    by_cases hp : k = p
    · subst hp
      rw [kreplace_cons_eq, List.dlookup_cons_ne _ _ hl, List.dlookup_cons_ne _ _ hl]
    · rw [kreplace_cons_ne hp]
      by_cases hlp : l = p
      · subst hlp
        rw [List.dlookup_cons_eq, List.dlookup_cons_eq]
      · rw [List.dlookup_cons_ne _ _ hlp, List.dlookup_cons_ne _ _ hlp]
        exact ih

theorem lookup_replace (hk : m.lookup k = some i) : (m.replace k j).lookup k = some j :=
  dlookup_kreplace ⟨i, AList.mem_lookup_iff.1 hk⟩

theorem lookup_replace_ne {l : Nat} (hl : l ≠ k) : (m.replace k j).lookup l = m.lookup l :=
  dlookup_kreplace_ne hl

/-! ## The walk of `GetInstance` -/

/-- `map` is the map of an instance that accepts the player in `m`; in
`m'` the instance has it. -/
def Hosts (now : Nat) (plr : Player) (m m' : InstanceMap) (map : MapMgr) : Prop :=
  ∃ k i i', m.lookup k = some i ∧ Accepts now plr i ∧ m'.lookup k = some i' ∧
    i'.mapMgr = some map

/-- The walk ends at the map of an instance that accepts the player, or
there is none. By induction on the instances ahead. -/
theorem search_spec {es : List (Sigma fun _ : Nat => Instance)}
    (hes : ∀ e ∈ es, m.lookup e.1 = some e.2) (hm : Pruned now m m') :
    (∃ map, (InstanceMgr.search now plr es m').1 = some map ∧
        (∃ e ∈ es, Accepts now plr e.2) ∧
        Hosts now plr m (InstanceMgr.search now plr es m').2 map) ∨
      ((InstanceMgr.search now plr es m').1 = none ∧ ∀ e ∈ es, ¬ Accepts now plr e.2) := by
  induction es generalizing m' with
  | nil => exact Or.inr ⟨rfl, by simp⟩
  | cons e rest ih =>
    obtain ⟨k, i⟩ := e
    have hk : m.lookup k = some i := hes ⟨k, i⟩ List.mem_cons_self
    have hrest : ∀ e ∈ rest, m.lookup e.1 = some e.2 :=
      fun e he => hes e (List.mem_cons_of_mem _ he)
    have hcheck := hm.check hk plr
    unfold InstanceMgr.search
    by_cases hacc : Accepts now plr i
    · left
      have haccepts : (ownerCheck now plr i).accepts = true := hacc
      have hkept := hcheck.accepted hk hacc
      generalize hp : playerOwnsInstance now plr k i m' = p at hkept
      obtain ⟨owns, m₁⟩ := p
      have howns : ownerCheck now plr i = owns := congrArg Prod.fst hp
      subst howns
      have hmem : ∃ e ∈ (⟨k, i⟩ :: rest : List (Sigma fun _ : Nat => Instance)),
          Accepts now plr e.2 := ⟨⟨k, i⟩, List.mem_cons_self, hacc⟩
      cases hmap : i.mapMgr with
      | none =>
        refine ⟨⟨k, 0⟩, by simp [haccepts, createInstance], hmem,
          k, i, createInstance k i, hk, hacc, ?_, rfl⟩
        simpa [haccepts] using lookup_replace hkept
      | some mgr =>
        refine ⟨mgr, by simp [haccepts], hmem, k, i, i, hk, hacc, ?_, hmap⟩
        simpa [haccepts] using hkept
    · have haccepts : (ownerCheck now plr i).accepts = false := by simpa [Accepts] using hacc
      generalize hp : playerOwnsInstance now plr k i m' = p at hcheck
      obtain ⟨owns, m₁⟩ := p
      have howns : ownerCheck now plr i = owns := congrArg Prod.fst hp
      subst howns
      simp only [haccepts]
      rcases ih hrest hcheck with ⟨map, hsome, ⟨e, he, hin⟩, hhosts⟩ | ⟨hnone, hall⟩
      · left
        exact ⟨map, hsome, ⟨e, List.mem_cons_of_mem _ he, hin⟩, hhosts⟩
      · right
        refine ⟨hnone, ?_⟩
        intro e he
        rcases List.mem_cons.1 he with rfl | he
        · exact hacc
        · exact hall e he

/-- `GetInstance` finds a map for the player in `m`. -/
def Ready (now : Nat) (plr : Player) (m : InstanceMap) : Prop :=
  (∃ e ∈ m.entries, Accepts now plr e.2) ∧
    ∀ i, m.lookup plr.instanceId = some i → Accepts now plr i →
      i.mapMgr ≠ none ∨ ownerCheck now plr i = .savedOk

theorem lookup_of_mem {e : Sigma fun _ : Nat => Instance} (he : e ∈ m.entries) :
    m.lookup e.1 = some e.2 := AList.mem_lookup_iff.2 he

/-- Deleting expired instances leaves those that accept him. -/
theorem Pruned.exists_accepts (h : Pruned now m m') :
    (∃ e ∈ m'.entries, Accepts now plr e.2) ↔ ∃ e ∈ m.entries, Accepts now plr e.2 := by
  constructor
  · rintro ⟨e, he, hacc⟩
    exact ⟨e, AList.mem_lookup_iff.1 (h.lookup (lookup_of_mem he)), hacc⟩
  · rintro ⟨e, he, hacc⟩
    exact ⟨e, AList.mem_lookup_iff.1 (h.accepted (lookup_of_mem he) hacc), hacc⟩

theorem Pruned.ready (h : Pruned now m m') : Ready now plr m' ↔ Ready now plr m := by
  unfold Ready
  rw [h.exists_accepts]
  constructor
  · rintro ⟨hin, hall⟩
    exact ⟨hin, fun i hi hacc => hall i (h.accepted hi hacc) hacc⟩
  · rintro ⟨hin, hall⟩
    exact ⟨hin, fun i hi hacc => hall i (h.lookup hi) hacc⟩

theorem findMap_spec (now : Nat) (plr : Player) (m : InstanceMap) :
    (Ready now plr m ∧ ∃ map, (InstanceMgr.findMap now plr m).1 = some map ∧
        Hosts now plr m (InstanceMgr.findMap now plr m).2 map) ∨
      (¬ Ready now plr m ∧ (InstanceMgr.findMap now plr m).1 = none) := by
  cases hk : m.lookup plr.instanceId with
  | none =>
    have heq : InstanceMgr.findMap now plr m = InstanceMgr.search now plr m.entries m := by
      simp [InstanceMgr.findMap, hk]
    rw [heq]
    have hsearch := @search_spec now plr m m m.entries (fun _ => lookup_of_mem) (Pruned.refl now m)
    rcases hsearch with ⟨map, hsome, hin, hhosts⟩ | ⟨hnone, hall⟩
    · exact Or.inl ⟨⟨hin, by simp [hk]⟩, map, hsome, hhosts⟩
    · refine Or.inr ⟨?_, hnone⟩
      rintro ⟨⟨e, he, hin⟩, -⟩
      exact hall e he hin
  | some i =>
    have hcheck := (Pruned.refl now m).check hk plr
    by_cases hacc : Accepts now plr i
    · have haccepts : (ownerCheck now plr i).accepts = true := hacc
      have hmem : ∃ e ∈ m.entries, Accepts now plr e.2 :=
        ⟨⟨plr.instanceId, i⟩, AList.mem_lookup_iff.1 hk, hacc⟩
      have hkept : (playerOwnsInstance now plr plr.instanceId i m).2 = m := by
        simp [playerOwnsInstance, not_expired hacc]
      have howns : playerOwnsInstance now plr plr.instanceId i m = (ownerCheck now plr i, m) :=
        Prod.ext rfl hkept
      by_cases hsaved : ownerCheck now plr i = .savedOk ∧ i.mapMgr = none
      · -- the map of a saved instance is started
        have heq : InstanceMgr.findMap now plr m =
            ((wakeup plr plr.instanceId i).mapMgr,
              m.replace plr.instanceId (wakeup plr plr.instanceId i)) := by
          simp only [InstanceMgr.findMap, hk, howns, haccepts, if_true]
          exact if_pos hsaved
        rw [heq]
        refine Or.inl ⟨⟨hmem, ?_⟩, ⟨plr.instanceId, 0⟩, rfl, plr.instanceId, i, _, hk, hacc,
          lookup_replace hk, rfl⟩
        intro j hj _
        rw [hk] at hj
        exact Or.inr (Option.some.inj hj ▸ hsaved.1)
      · have heq : InstanceMgr.findMap now plr m = (i.mapMgr, m) := by
          simp only [InstanceMgr.findMap, hk, howns, haccepts, if_true]
          exact if_neg hsaved
        rw [heq]
        cases hmap : i.mapMgr with
        | some map =>
          refine Or.inl ⟨⟨hmem, ?_⟩, map, rfl, plr.instanceId, i, i, hk, hacc, hk, hmap⟩
          intro j hj _
          rw [hk] at hj
          exact Or.inl (Option.some.inj hj ▸ by simp [hmap])
        | none =>
          refine Or.inr ⟨?_, rfl⟩
          rintro ⟨-, hall⟩
          rcases hall i hk hacc with hsome | hok
          · exact hsome hmap
          · exact hsaved ⟨hok, hmap⟩
    · have haccepts : (ownerCheck now plr i).accepts = false := by simpa [Accepts] using hacc
      generalize hp : playerOwnsInstance now plr plr.instanceId i m = p at hcheck
      obtain ⟨owns, m₁⟩ := p
      have howns : ownerCheck now plr i = owns := congrArg Prod.fst hp
      subst howns
      have heq : InstanceMgr.findMap now plr m = InstanceMgr.search now plr m₁.entries m₁ := by
        simp [InstanceMgr.findMap, hk, hp, haccepts]
      rw [heq]
      have hes : ∀ e ∈ m₁.entries, m.lookup e.1 = some e.2 :=
        fun e he => hcheck.lookup (lookup_of_mem he)
      have hsearch := @search_spec now plr m m₁ m₁.entries hes hcheck
      rcases hsearch with ⟨map, hsome, hin, hhosts⟩ | ⟨hnone, hall⟩
      · refine Or.inl ⟨⟨hcheck.exists_accepts.1 hin, ?_⟩, map, hsome, hhosts⟩
        intro j hj hjacc
        rw [hk] at hj
        exact absurd (Option.some.inj hj ▸ hjacc) hacc
      · refine Or.inr ⟨?_, hnone⟩
        rintro ⟨hin, -⟩
        obtain ⟨e, he, hin⟩ := hcheck.exists_accepts.2 hin
        exact hall e he hin

end HearthStone.InstanceEntry
