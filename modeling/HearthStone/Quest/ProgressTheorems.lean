/-
HearthStone.Quest.ProgressTheorems — what is reached of a quest is kept.

Every hook but one raises a counter only below its requirement. The count of
slain players is raised without a look at the requirement, which
`CanBeFinished` compares for equality.

* `Grows` — what a hook other than `OnPlayerSlain` does to an entry;
  `Grows.setMobCount` is the one step a counter makes.
* `kept_killLog`, `kept_killGroup`, `keptLog_map` — the walks, by induction
  over the slots and over the members.
* `onPlayerSlain_apply` — whom `OnPlayerSlain` reaches, and what it does.
* `quest_progress_kept_iff` — over a run everything is kept exactly when no
  finished count of slain players is raised again.
-/
import HearthStone.Quest.Progress

namespace HearthStone.QuestProgress

variable {w w' : World} {p p' : Player} {e e' e'' : QuestLogEntry} {plr q : PlayerId}
  {g : Group} {events : List Event}

/-! ## Entries -/

/-- What both kinds of hooks do to an entry. -/
structure Counts (e e' : QuestLogEntry) : Prop where
  quest : e'.m_quest = e.m_quest
  time : e'.m_time_left = e.m_time_left
  mob : ∀ i, e.m_mobcount i ≤ e'.m_mobcount i
  bound : ∀ i, e.m_mobcount i ≤ e.m_quest.required_mobcount i →
    e'.m_mobcount i ≤ e.m_quest.required_mobcount i
  areas : ∀ i, e.m_explored_areas i ≠ 0 → e'.m_explored_areas i ≠ 0

/-- And what all but `OnPlayerSlain` do. -/
structure Grows (e e' : QuestLogEntry) : Prop extends Counts e e' where
  slain : e'.m_player_slain = e.m_player_slain

theorem Counts.refl (e : QuestLogEntry) : Counts e e where
  quest := rfl
  time := rfl
  mob _ := UInt32.le_refl _
  bound _ h := h
  areas _ h := h

theorem Counts.trans (h : Counts e e') (h' : Counts e' e'') : Counts e e'' where
  quest := h'.quest.trans h.quest
  time := h'.time.trans h.time
  mob i := UInt32.le_trans (h.mob i) (h'.mob i)
  bound i hle := by
    have hbound := h'.bound i
    rw [h.quest] at hbound
    exact hbound (h.bound i hle)
  areas i hne := h'.areas i (h.areas i hne)

theorem Grows.refl (e : QuestLogEntry) : Grows e e := ⟨Counts.refl e, rfl⟩

theorem Grows.trans (h : Grows e e') (h' : Grows e' e'') : Grows e e'' :=
  ⟨h.toCounts.trans h'.toCounts, h'.slain.trans h.slain⟩

/-- A counter below a number can be raised by one. -/
theorem add_one_of_lt {a b : UInt32} (h : a < b) : a ≤ a + 1 ∧ a + 1 ≤ b := by
  have hlt := UInt32.lt_iff_toNat_lt.1 h
  have hb := b.toNat_lt
  have hadd : (a + 1).toNat = a.toNat + 1 := by
    rw [UInt32.toNat_add]
    exact Nat.mod_eq_of_lt (by simpa using (by omega : a.toNat + 1 < 2 ^ 32))
  exact ⟨UInt32.le_iff_toNat_le.2 (by omega), UInt32.le_iff_toNat_le.2 (by omega)⟩

/-- A counter below its requirement is raised. -/
theorem Grows.setMobCount {j : Fin 4} (h : e.m_mobcount j < e.m_quest.required_mobcount j) :
    Grows e (e.SetMobCount j (e.m_mobcount j + 1)) where
  quest := rfl
  time := rfl
  slain := rfl
  areas _ hne := hne
  mob i := by
    by_cases hi : i = j
    · subst hi
      simpa [QuestLogEntry.SetMobCount] using (add_one_of_lt h).1
    · simp [QuestLogEntry.SetMobCount, hi]
  bound i hle := by
    by_cases hi : i = j
    · subst hi
      simpa [QuestLogEntry.SetMobCount] using (add_one_of_lt h).2
    · simpa [QuestLogEntry.SetMobCount, hi] using hle

theorem Grows.setTrigger (j : Fin 4) : Grows e (e.SetTrigger j) where
  quest := rfl
  time := rfl
  slain := rfl
  mob _ := UInt32.le_refl _
  bound _ hle := hle
  areas i hne := by
    by_cases hi : i = j
    · simp [QuestLogEntry.SetTrigger, hi]
    · simpa [QuestLogEntry.SetTrigger, hi] using hne

theorem killObjective_lt {c : UInt32} {j : Fin 4} (h : killObjective e c = some j) :
    e.m_mobcount j < e.m_quest.required_mobcount j := by
  have hj := List.find?_some h
  simp only [Bool.and_eq_true, decide_eq_true_eq] at hj
  exact hj.2

theorem castObjective_lt {s : UInt32} {v : Victim} {j : Fin 4}
    (h : castObjective e s v = some j) : e.m_mobcount j < e.m_quest.required_mobcount j := by
  have hj := List.find?_some h
  simp only [Bool.and_eq_true, decide_eq_true_eq] at hj
  exact hj.1.2

theorem grows_castEntry (s : UInt32) (v : Victim) : Grows e (castEntry s v e) := by
  unfold castEntry
  split
  · exact Grows.refl e
  · split
    · exact Grows.refl e
    case h_2 j hj =>
      -- the affected units play no part in what is kept
      have hraise := Grows.setMobCount (castObjective_lt hj)
      exact ⟨⟨hraise.quest, hraise.time, hraise.mob, hraise.bound, hraise.areas⟩, hraise.slain⟩

theorem grows_exploreEntry (a : UInt32) : Grows e (exploreEntry a e) := by
  unfold exploreEntry
  split
  · exact Grows.refl e
  · split
    · exact Grows.refl e
    · exact Grows.setTrigger _

/-! ## Logs and worlds -/

/-- Every slot holds an entry related to the one it held, or none as
before. -/
def KeptLog (R : QuestLogEntry → QuestLogEntry → Prop) (p p' : Player) : Prop :=
  ∀ i, Option.Rel R (p.m_questlog i) (p'.m_questlog i)

def Kept (R : QuestLogEntry → QuestLogEntry → Prop) (w w' : World) : Prop :=
  ∀ plr, KeptLog R (w plr) (w' plr)

theorem rel_refl {R : QuestLogEntry → QuestLogEntry → Prop} {o : Option QuestLogEntry}
    (h : ∀ e, o = some e → R e e) : Option.Rel R o o := by
  cases o with
  | none => exact Option.Rel.none
  | some e => exact Option.Rel.some (h e rfl)

theorem rel_map {R : QuestLogEntry → QuestLogEntry → Prop} {f : QuestLogEntry → QuestLogEntry}
    {o : Option QuestLogEntry} (h : ∀ e, o = some e → R e (f e)) : Option.Rel R o (o.map f) := by
  cases o with
  | none => exact Option.Rel.none
  | some e => exact Option.Rel.some (h e rfl)

theorem rel_trans {R : QuestLogEntry → QuestLogEntry → Prop} {o o' o'' : Option QuestLogEntry}
    (hR : ∀ e e' e'', R e e' → R e' e'' → R e e'') (h : Option.Rel R o o')
    (h' : Option.Rel R o' o'') : Option.Rel R o o'' := by
  cases h with
  | none => exact h'
  | some hr =>
    cases h' with
    | some hr' => exact Option.Rel.some (hR _ _ _ hr hr')

theorem exists_of_rel {R : QuestLogEntry → QuestLogEntry → Prop} {o o' : Option QuestLogEntry}
    (h : Option.Rel R o o') (he : o = some e) : ∃ e', o' = some e' ∧ R e e' := by
  cases h with
  | none => cases he
  | some hr =>
    obtain rfl := Option.some.inj he
    exact ⟨_, rfl, hr⟩

theorem exists_of_rel_right {R : QuestLogEntry → QuestLogEntry → Prop}
    {o o' : Option QuestLogEntry} (h : Option.Rel R o o') (he : o' = some e) : ∃ d, R d e := by
  cases h with
  | none => cases he
  | some hr =>
    obtain rfl := Option.some.inj he
    exact ⟨_, hr⟩

theorem rel_imp {R R' : QuestLogEntry → QuestLogEntry → Prop} {o o' : Option QuestLogEntry}
    (himp : ∀ e e', o = some e → R e e' → R' e e') (h : Option.Rel R o o') :
    Option.Rel R' o o' := by
  cases h with
  | none => exact Option.Rel.none
  | some hr => exact Option.Rel.some (himp _ _ rfl hr)

theorem KeptLog.refl (p : Player) : KeptLog Grows p p := fun _ => rel_refl fun e _ => Grows.refl e

theorem KeptLog.trans {p'' : Player} (h : KeptLog Grows p p') (h' : KeptLog Grows p' p'') :
    KeptLog Grows p p'' := fun i => rel_trans (fun _ _ _ => Grows.trans) (h i) (h' i)

theorem keptLog_set {i : Fin 25} (he : p.m_questlog i = some e) (h : Grows e e') :
    KeptLog Grows p (p.set i e') := by
  intro k
  by_cases hk : k = i
  · subst hk
    simpa [Player.set, he] using Option.Rel.some h
  · simpa [Player.set, hk] using KeptLog.refl p k

theorem Kept.refl (w : World) : Kept Grows w w := fun plr => KeptLog.refl (w plr)

theorem Kept.trans {w'' : World} (h : Kept Grows w w') (h' : Kept Grows w' w'') :
    Kept Grows w w'' := fun plr => (h plr).trans (h' plr)

theorem kept_update (h : KeptLog Grows (w plr) p') : Kept Grows w (Function.update w plr p') := by
  intro q
  by_cases hq : q = plr
  · subst hq
    rwa [Function.update_self]
  · rw [Function.update_of_ne hq]
    exact KeptLog.refl (w q)

/-- A walk that treats each entry on its own. -/
theorem keptLog_map {f : QuestLogEntry → QuestLogEntry} (hf : ∀ e, Grows e (f e)) :
    KeptLog Grows p { p with m_questlog := fun i => (p.m_questlog i).map f } :=
  fun _ => rel_map fun e _ => hf e

/-! ## Kills -/

theorem kept_killLog (c : UInt32) (is : List (Fin 25)) (p : Player) :
    KeptLog Grows p (killLog c is p).1 := by
  induction is generalizing p with
  | nil => exact KeptLog.refl p
  | cons i is ih =>
    rw [killLog]
    cases he : p.m_questlog i with
    | none => exact ih p
    | some e =>
      by_cases hmob : e.m_quest.count_required_mob = 0
      · simpa [hmob] using ih p
      · cases hj : killObjective e c with
        | none => simpa [hmob, hj] using ih p
        | some j =>
          have hraise := keptLog_set he (Grows.setMobCount (killObjective_lt hj))
          by_cases hskip : QuestPlayer.SkippedKills e.m_quest.id.toNat = true
          · simpa [hmob, hj, hskip] using KeptLog.refl p
          · simpa [hmob, hj, hskip] using hraise.trans (ih _)

theorem kept_killGroup (c : UInt32) (ms : List PlayerId) (w : World) :
    Kept Grows w (killGroup plr c g ms w) := by
  induction ms generalizing w with
  | nil => exact Kept.refl w
  | cons m ms ih =>
    have hone := kept_update (kept_killLog c (List.finRange 25) (w m))
    rw [killGroup]
    dsimp only
    split_ifs with hreach hstop
    · exact hone
    · exact hone.trans (ih _)
    · exact ih w

theorem kept_onPlayerKill (c : UInt32) : Kept Grows w (OnPlayerKill w plr c g) := by
  have hone := kept_update (kept_killLog c (List.finRange 25) (w plr))
  unfold OnPlayerKill
  dsimp only
  split_ifs with hmob hstop
  · exact hone
  · exact hone.trans (kept_killGroup c g.members _)
  · exact kept_killGroup c g.members w

/-! ## Slain players -/

/-- The players whose logs a slain player counts in. -/
def Reached (plr : PlayerId) (g : Group) (q : PlayerId) : Prop :=
  q = plr ∨ q ∈ g.members ∧ g.isInRange q = true

theorem slainGroup_apply (plr q : PlayerId) (g : Group) {ms : List PlayerId} (hms : ms.Nodup)
    (w : World) :
    (q ∈ ms ∧ q ≠ plr ∧ g.isInRange q = true →
      slainGroup plr g ms w q = slainLog (w q)) ∧
    (¬ (q ∈ ms ∧ q ≠ plr ∧ g.isInRange q = true) → slainGroup plr g ms w q = w q) := by
  induction ms generalizing w with
  | nil => exact ⟨fun h => absurd h.1 List.not_mem_nil, fun _ => rfl⟩
  | cons m ms ih =>
    obtain ⟨hm, hms⟩ := List.nodup_cons.1 hms
    rw [slainGroup]
    by_cases hq : q = m
    · -- the rest of the group does not come to him again
      rw [← hq] at hm ⊢
      have hrest : ∀ v, slainGroup plr g ms v q = v q := fun v => (ih hms v).2 fun h => hm h.1
      split_ifs with hreach
      · rw [hrest, Function.update_self]
        exact ⟨fun _ => rfl, fun h => absurd ⟨List.mem_cons_self, hreach⟩ h⟩
      · rw [hrest]
        exact ⟨fun h => absurd h.2 hreach, fun _ => rfl⟩
    · have hmem : q ∈ m :: ms ↔ q ∈ ms := by simp [hq]
      rw [hmem]
      split_ifs with hreach
      · have hother := ih hms (Function.update w m (slainLog (w m)))
        rwa [Function.update_of_ne hq] at hother
      · exact ih hms w

/-- Whom `OnPlayerSlain` reaches, and what it does. -/
theorem onPlayerSlain_apply :
    (Reached plr g q → OnPlayerSlain w plr g q = slainLog (w q)) ∧
    (¬ Reached plr g q → OnPlayerSlain w plr g q = w q) := by
  have hgroup := slainGroup_apply plr q g g.nodup
    (Function.update w plr (slainLog (w plr)))
  unfold OnPlayerSlain
  by_cases hq : q = plr
  · subst hq
    rw [hgroup.2 fun h => h.2.1 rfl, Function.update_self]
    exact ⟨fun _ => rfl, fun h => absurd (Or.inl rfl) h⟩
  · rw [Function.update_of_ne hq] at hgroup
    constructor
    · rintro (rfl | ⟨hmem, hrange⟩)
      · exact absurd rfl hq
      · exact hgroup.1 ⟨hmem, hq, hrange⟩
    · intro hnot
      exact hgroup.2 fun h => hnot (Or.inr ⟨h.1, h.2.2⟩)

theorem counts_slainEntry : Counts e (slainEntry e) := by
  unfold slainEntry
  split
  · exact ⟨rfl, rfl, fun _ => UInt32.le_refl _, fun _ h => h, fun _ h => h⟩
  · exact Counts.refl e

/-! ## Progress -/

/-- The kill, player-kill and exploration conditions of `CanBeFinished`. -/
def Done (e : QuestLogEntry) : Prop := e.KillsDone ∧ e.SlainDone ∧ e.AreasDone

/-- No counter is above its requirement. -/
def Within (e : QuestLogEntry) : Prop := ∀ i, e.m_mobcount i ≤ e.m_quest.required_mobcount i

/-- What is kept of an entry. -/
structure Progresses (e e' : QuestLogEntry) : Prop where
  quest : e'.m_quest = e.m_quest
  time : e'.m_time_left = e.m_time_left
  mob : ∀ i, e.m_mobcount i ≤ e'.m_mobcount i
  within : Within e'
  done : Done e → Done e'

theorem Progresses.trans (h : Progresses e e') (h' : Progresses e' e'') : Progresses e e'' where
  quest := h'.quest.trans h.quest
  time := h'.time.trans h.time
  mob i := UInt32.le_trans (h.mob i) (h'.mob i)
  within := h'.within
  done hdone := h'.done (h.done hdone)

/-- A fresh entry is within its requirements. -/
theorem within_init (q : Quest) : Within (QuestLogEntry.init q) := fun _ => UInt32.zero_le

/-- What `Counts` says of the progress; the count of slain players is on
its own. -/
theorem Counts.progresses (h : Counts e e') (hw : Within e)
    (hslain : Done e → e'.SlainDone) : Progresses e e' where
  quest := h.quest
  time := h.time
  mob := h.mob
  within i := by
    rw [h.quest]
    exact h.bound i (hw i)
  done hdone := by
    refine ⟨?_, hslain hdone, ?_⟩
    · intro i hi hlt
      rw [h.quest] at hi hlt
      exact hdone.1 i hi (UInt32.lt_of_le_of_lt (h.mob i) hlt)
    · intro i hi
      rw [h.quest] at hi
      exact h.areas i (hdone.2.2 i hi)

theorem Grows.progresses (h : Grows e e') (hw : Within e) : Progresses e e' := by
  refine h.toCounts.progresses hw fun hdone => ?_
  unfold QuestLogEntry.SlainDone
  rw [h.quest, h.slain]
  exact hdone.2.1

def WithinWorld (w : World) : Prop := ∀ plr i e, (w plr).m_questlog i = some e → Within e

theorem kept_progresses_refl (hw : WithinWorld w) : Kept Progresses w w :=
  fun plr i => rel_refl fun e he => (Grows.refl e).progresses (hw plr i e he)

theorem kept_progresses_trans {w'' : World} (h : Kept Progresses w w')
    (h' : Kept Progresses w' w'') : Kept Progresses w w'' :=
  fun plr i => rel_trans (fun _ _ _ => Progresses.trans) (h plr i) (h' plr i)

theorem kept_progresses_of_grows (h : Kept Grows w w') (hw : WithinWorld w) :
    Kept Progresses w w' :=
  fun plr i => rel_imp (fun e _ he hgrow => hgrow.progresses (hw plr i e he)) (h plr i)

/-- What is kept is within its requirements. -/
theorem withinWorld_of_kept (h : Kept Progresses w w') : WithinWorld w' := by
  intro plr i e' he'
  obtain ⟨e, hp⟩ := exists_of_rel_right (h plr i) he'
  exact hp.within

/-! ## Runs -/

/-- No slain player counts for a quest whose progress is done. -/
def Fair (w : World) : Event → Prop
  | .slain plr g => ∀ q, Reached plr g q → ∀ i e, (w q).m_questlog i = some e →
      e.m_quest.required_kill_player ≠ 0 → ¬ Done e
  | _ => True

theorem not_slainDone_slainEntry (hreq : e.m_quest.required_kill_player ≠ 0)
    (hdone : e.SlainDone) : ¬ (slainEntry e).SlainDone := by
  have heq : e.m_quest.required_kill_player = e.m_player_slain := not_not.1 hdone
  unfold slainEntry
  rw [if_pos hreq]
  intro hnext
  have hnext' : e.m_quest.required_kill_player = e.m_player_slain + 1 := not_not.1 hnext
  rw [heq] at hnext'
  have hnat := congrArg UInt32.toNat hnext'
  rw [UInt32.toNat_add] at hnat
  have hone : (1 : UInt32).toNat = 1 := rfl
  omega

/-- One hook. -/
theorem kept_step_iff (hw : WithinWorld w) (ev : Event) :
    Kept Progresses w (step w ev) ↔ Fair w ev := by
  cases ev with
  | kill plr c g => exact iff_of_true (kept_progresses_of_grows (kept_onPlayerKill c) hw) trivial
  | cast plr s victim =>
    refine iff_of_true (kept_progresses_of_grows ?_ hw) trivial
    show Kept Grows w (OnPlayerCast w plr s victim)
    unfold OnPlayerCast
    split
    · exact Kept.refl w
    · cases victim with
      | none => exact Kept.refl w
      | some v => exact kept_update (keptLog_map fun _ => grows_castEntry s v)
  | explore plr a =>
    refine iff_of_true (kept_progresses_of_grows ?_ hw) trivial
    exact kept_update (keptLog_map fun _ => grows_exploreEntry a)
  | slain plr g =>
    constructor
    · intro h q hq i e he hreq hdone
      obtain ⟨e', he', hp⟩ := exists_of_rel (h q i) he
      rw [step, onPlayerSlain_apply.1 hq] at he'
      have hentry : slainEntry e = e' := by simpa [slainLog, he] using he'
      rw [← hentry] at hp
      exact not_slainDone_slainEntry hreq hdone.2.1 (hp.done hdone).2.1
    · intro hfair q i
      by_cases hq : Reached plr g q
      · rw [step, onPlayerSlain_apply.1 hq]
        refine rel_map fun e he => ?_
        refine counts_slainEntry.progresses (hw q i e he) fun hdone => ?_
        -- it is done, so it asks for no slain players
        have hnone : e.m_quest.required_kill_player = 0 := by
          by_contra hreq
          exact hfair q hq i e he hreq hdone
        unfold slainEntry
        rw [if_neg (not_not_intro hnone)]
        exact hdone.2.1
      · rw [step, onPlayerSlain_apply.2 hq]
        exact kept_progresses_refl hw q i

theorem run_append (w : World) (as bs : List Event) : run w (as ++ bs) = run (run w as) bs :=
  List.foldl_append

/-- Nothing that was reached is lost between two points of a run. -/
def KeepsProgress (w : World) (events : List Event) : Prop :=
  ∀ before during after, events = before ++ during ++ after →
    Kept Progresses (run w before) (run w (before ++ during))

/-- Every step of a run is fair. -/
def AllFair (w : World) (events : List Event) : Prop :=
  ∀ before ev after, events = before ++ ev :: after → Fair (run w before) ev

theorem kept_run (hw : WithinWorld w) (hfair : AllFair w events) :
    Kept Progresses w (run w events) := by
  induction events generalizing w with
  | nil => exact kept_progresses_refl hw
  | cons ev events ih =>
    have hstep := (kept_step_iff hw ev).2 (hfair [] ev events rfl)
    refine kept_progresses_trans hstep (ih (withinWorld_of_kept hstep) ?_)
    rintro before ev' after rfl
    exact hfair (ev :: before) ev' after rfl

/-- Over a run no counter exceeds its requirement or falls, and conditions
of `CanBeFinished` that hold together keep holding, exactly when no slain
player counts for a quest whose conditions hold already. -/
theorem quest_progress_kept_iff (w : World) (hw : WithinWorld w) (events : List Event) :
    KeepsProgress w events ↔ AllFair w events := by
  constructor
  · rintro h before ev after rfl
    have hbefore := h [] before (ev :: after) rfl
    have hstep := h before [ev] after (by simp)
    rw [run_append] at hstep
    exact (kept_step_iff (withinWorld_of_kept hbefore) ev).1 hstep
  · rintro h before during after rfl
    have hbefore : Kept Progresses w (run w before) := by
      refine kept_run hw ?_
      rintro pre ev post rfl
      exact h pre ev (post ++ during ++ after) (by simp)
    rw [run_append]
    refine kept_run (withinWorld_of_kept hbefore) ?_
    rintro pre ev post rfl
    rw [← run_append]
    exact h (before ++ pre) ev (post ++ after) (by simp)

/-- One slain player asked for. -/
def slayerQuest : Quest where
  id := 8
  required_mob := fun _ => 0
  required_mobcount := fun _ => 0
  required_mobtype := fun _ => .none
  required_spell := fun _ => 0
  required_item := fun _ => 0
  required_itemcount := fun _ => 0
  required_triggers := fun _ => 0
  required_money := 0
  required_kill_player := 1
  time := 0

def slayer : World := fun _ => {
  m_questlog := fun i => if i = 0 then some (QuestLogEntry.init slayerQuest) else none
  quest_mobs := ∅
  quest_spells := ∅ }

theorem withinWorld_slayer : WithinWorld slayer := by
  intro plr i e he
  unfold slayer at he
  dsimp only at he
  split_ifs at he with hi
  obtain rfl := Option.some.inj he
  exact within_init slayerQuest

/-- The second slain player undoes what the first has done. -/
theorem second_slain_undoes :
    let alone : Group := ⟨[], List.nodup_nil, fun _ => false⟩
    let finished := fun events => ((run slayer events 0).m_questlog 0).map fun e =>
      e.CanBeFinished ⟨fun _ => 0, 0, 0⟩
    finished [.slain 0 alone] = some true ∧
    finished [.slain 0 alone, .slain 0 alone] = some false := by
  decide +kernel

theorem quest_progress_kept_once :
    KeepsProgress slayer [.slain 0 ⟨[], List.nodup_nil, fun _ => false⟩] := by
  refine (quest_progress_kept_iff slayer withinWorld_slayer _).2 ?_
  intro before ev after hsplit
  cases before with
  | nil =>
    obtain ⟨rfl, rfl⟩ := List.cons.inj hsplit
    intro q hq i e he hreq hdone
    unfold run slayer at he
    dsimp only [List.foldl_nil] at he
    split_ifs at he with hi
    obtain rfl := Option.some.inj he
    exact absurd hdone.2.1 (by decide)
  | cons ev' before =>
    obtain ⟨rfl, hrest⟩ := List.cons.inj hsplit
    simp at hrest

end HearthStone.QuestProgress
