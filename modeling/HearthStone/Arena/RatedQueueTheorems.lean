/-
HearthStone.Arena.RatedQueueTheorems — which rated matches are started.

`avgRating[1]` keeps the rating of the last group that had a team when a
group without one is looked at (`stale`). So a group without a team goes
with whoever has that rating.

* `Proper` is what a match is to be, `Matchable` when the groups of a queue
  come to proper matches only.
* Sufficiency is an invariant of the turns (`Orderly`).
* Necessity: a turn that looks for a group, with the rating of that group
  left over, finds one without a team (`improper_of_stale`).
-/
import HearthStone.Arena.RatedQueue

namespace HearthStone.RatedQueue

/-! ## What a match is to be -/

section

variable (w : RatedWorld) (type : Nat)

/-- The average, without the limits of a machine word. -/
def average (G : QueuedGroup) (t : ArenaTeam) : Nat :=
  (w.ratings type G t).sum / (w.ratings type G t).length

/-- The averages differ by at most 150. -/
def Near (a b : Nat) : Prop := a ≤ b + 150 ∧ b ≤ a + 150

structure Proper (m : Match) : Prop where
  queued : m.group1 ∈ m.before ∧ m.group2 ∈ m.before
  distinct : m.group1 ≠ m.group2
  teams : ∃ G H t u, w.groupById m.group1 = some G ∧ w.groupById m.group2 = some H ∧
    w.teamOf m.type G = some t ∧ w.teamOf m.type H = some u ∧ t.id ≠ u.id ∧
      Near (average w m.type G t) (average w m.type H u)
  left : m.group1 ∉ m.after ∧ m.group2 ∉ m.after

/-- Either all groups have teams or none has; and those whose machine words
are near have near averages. -/
structure Matchable (q : List Nat) : Prop where
  unmixed : ∀ x ∈ q, ∀ y ∈ q, ∀ G H, w.groupById x = some G → w.groupById y = some H →
    w.teamOf type G = none → w.teamOf type H = none
  near : ∀ x ∈ q, ∀ y ∈ q, ∀ G H t u, w.groupById x = some G → w.groupById y = some H →
    w.teamOf type G = some t → w.teamOf type H = some u → t.id ≠ u.id →
      delta (w.avgOf type G t) (w.avgOf type H u) ≤ 150 →
        Near (average w type G t) (average w type H u)

end

variable {w : RatedWorld} {type x y d : Nat} {G H : QueuedGroup} {t u : ArenaTeam}
  {q xs ys : List Nat} {a b : UInt32} {s : QueueState} {o : Turn}

theorem Matchable.mono (h : Matchable w type q) {q' : List Nat} (hsub : ∀ x ∈ q', x ∈ q) :
    Matchable w type q' :=
  ⟨fun x hx y hy => h.unmixed x (hsub x hx) y (hsub y hy),
    fun x hx y hy => h.near x (hsub x hx) y (hsub y hy)⟩

/-! ## Choosing -/

theorem delta_self (a : UInt32) : delta a a = 0 := by
  unfold delta
  rw [UInt32.sub_self]
  rfl

theorem mem_of_pick {l : List Nat} {roll : Nat} (h : pick l roll = some x) : x ∈ l := by
  unfold pick at h
  split at h
  · exact List.mem_of_head? h
  · rcases Option.or_eq_some_iff.1 h with hget | ⟨-, hhead⟩
    · exact List.mem_of_getElem? hget
    · exact List.mem_of_head? hhead

/-- Every element is picked at some roll. -/
theorem exists_pick {l : List Nat} (h : x ∈ l) : ∃ roll, pick l roll = some x := by
  obtain ⟨i, hi⟩ := List.mem_iff_getElem?.1 h
  refine ⟨i + 1, ?_⟩
  unfold pick
  rw [if_neg (Nat.succ_ne_zero i), Nat.add_sub_cancel, hi, Option.some_or]

/-! ## What a turn looks at -/

theorem getArenaGroupQInfo_none (h : w.teamOf type G = none) (a : UInt32) :
    w.getArenaGroupQInfo type G a = (0, a) := by
  unfold RatedWorld.getArenaGroupQInfo
  rw [h]

theorem getArenaGroupQInfo_some (h : w.teamOf type G = some t) (a : UInt32) :
    w.getArenaGroupQInfo type G a = (t.id, w.avgOf type G t) := by
  unfold RatedWorld.getArenaGroupQInfo
  rw [h]

theorem id_ne_zero (h : w.teamOf type G = some t) : t.id ≠ 0 := by
  obtain ⟨p, -, hp⟩ := Option.bind_eq_some_iff.1 h
  obtain ⟨i, -, hi⟩ := Option.bind_eq_some_iff.1 hp
  intro hzero
  rw [w.team_id i t hi] at hzero
  rw [hzero, w.no_team_zero] at hi
  cases hi

/-- What `avgRating[1]` is when the loop has looked at some groups. -/
def stale (w : RatedWorld) (type : Nat) (a : UInt32) (xs : List Nat) : UInt32 :=
  xs.foldl (fun a x => match w.groupById x with
    | none => a
    | some G => (w.getArenaGroupQInfo type G a).2) a

theorem stale_append : stale w type a (xs ++ ys) = stale w type (stale w type a xs) ys :=
  List.foldl_append

/-- The group with this id has a team. -/
def HasTeam (w : RatedWorld) (type x : Nat) : Prop :=
  ∃ G t, w.groupById x = some G ∧ w.teamOf type G = some t

theorem stale_of_not_hasTeam (h : ∀ x ∈ xs, ¬ HasTeam w type x) : stale w type a xs = a := by
  induction xs with
  | nil => rfl
  | cons x xs ih =>
    have hx : stale w type a (x :: xs) = stale w type a xs := by
      unfold stale
      rw [List.foldl_cons]
      congr 1
      cases hG : w.groupById x with
      | none => rfl
      | some G =>
        cases ht : w.teamOf type G with
        | none => exact congrArg Prod.snd (getArenaGroupQInfo_none ht a)
        | some t => exact absurd ⟨G, t, hG, ht⟩ (h x List.mem_cons_self)
    rw [hx]
    exact ih fun y hy => h y (List.mem_cons_of_mem x hy)

/-- After the last group with a team, its rating is left. -/
theorem stale_last (hG : w.groupById x = some G) (ht : w.teamOf type G = some t)
    (hys : ∀ y ∈ ys, ¬ HasTeam w type y) :
    stale w type a (xs ++ x :: ys) = w.avgOf type G t := by
  have hcons : stale w type (stale w type a xs) (x :: ys) =
      stale w type (w.avgOf type G t) ys := by
    unfold stale
    rw [List.foldl_cons, hG]
    dsimp only
    rw [getArenaGroupQInfo_some ht]
  rw [stale_append, hcons, stale_of_not_hasTeam hys]

theorem possibleGroups_snd (id : Nat) (b : UInt32) :
    (w.possibleGroups type id b a xs).2 = stale w type a xs := by
  induction xs generalizing a with
  | nil => rfl
  | cons x xs ih =>
    unfold RatedWorld.possibleGroups stale
    rw [List.foldl_cons]
    cases w.groupById x with
    | none => exact ih
    | some G => exact ih

theorem possibleGroups_none {id : Nat} (hG : w.groupById x = none) :
    w.possibleGroups type id b a (x :: xs) = w.possibleGroups type id b a xs := by
  simp only [RatedWorld.possibleGroups, hG]

theorem possibleGroups_some {id : Nat} (hG : w.groupById x = some G) :
    (w.possibleGroups type id b a (x :: xs)).1 =
      if id ≠ (w.getArenaGroupQInfo type G a).1 ∧ delta b (w.getArenaGroupQInfo type G a).2 ≤ 150
      then x :: (w.possibleGroups type id b (w.getArenaGroupQInfo type G a).2 xs).1
      else (w.possibleGroups type id b (w.getArenaGroupQInfo type G a).2 xs).1 := by
  simp only [RatedWorld.possibleGroups, hG, w.groupById_id x G hG]

/-- A possible group stands where the rating left by those before it, or its
own, is near. -/
theorem mem_possibleGroups {id : Nat} :
    y ∈ (w.possibleGroups type id b a q).1 ↔ ∃ xs ys H, q = xs ++ y :: ys ∧
      w.groupById y = some H ∧ id ≠ (w.getArenaGroupQInfo type H (stale w type a xs)).1 ∧
        delta b (w.getArenaGroupQInfo type H (stale w type a xs)).2 ≤ 150 := by
  induction q generalizing a with
  | nil =>
    refine ⟨fun h => absurd h List.not_mem_nil, ?_⟩
    rintro ⟨xs, ys, H, heq, -⟩
    exact absurd heq.symm (List.append_ne_nil_of_right_ne_nil xs (List.cons_ne_nil y ys))
  | cons x q ih =>
    have hsplit : (∃ xs ys H, x :: q = xs ++ y :: ys ∧ w.groupById y = some H ∧
        id ≠ (w.getArenaGroupQInfo type H (stale w type a xs)).1 ∧
          delta b (w.getArenaGroupQInfo type H (stale w type a xs)).2 ≤ 150) ↔
        (y = x ∧ ∃ H, w.groupById x = some H ∧ id ≠ (w.getArenaGroupQInfo type H a).1 ∧
          delta b (w.getArenaGroupQInfo type H a).2 ≤ 150) ∨
        y ∈ (w.possibleGroups type id b (stale w type a [x]) q).1 := by
      rw [ih]
      constructor
      · rintro ⟨xs, ys, H, heq, hH, hne, hdelta⟩
        cases xs with
        | nil =>
          obtain ⟨rfl, -⟩ := List.cons.inj heq
          exact .inl ⟨rfl, H, hH, hne, hdelta⟩
        | cons x' xs =>
          obtain ⟨rfl, htail⟩ := List.cons.inj heq
          exact .inr ⟨xs, ys, H, htail, hH, hne, hdelta⟩
      · rintro (⟨rfl, H, hH, hne, hdelta⟩ | ⟨xs, ys, H, rfl, hH, hne, hdelta⟩)
        · exact ⟨[], q, H, rfl, hH, hne, hdelta⟩
        · exact ⟨x :: xs, ys, H, rfl, hH, hne, hdelta⟩
    rw [hsplit]
    cases hG : w.groupById x with
    | none =>
      have hstale : stale w type a [x] = a := by
        unfold stale
        rw [List.foldl_cons, hG]
        rfl
      rw [hstale, possibleGroups_none hG]
      exact ⟨.inr, fun h => h.resolve_left (by rintro ⟨-, H, hH, -⟩; cases hH)⟩
    | some G =>
      have hstale : stale w type a [x] = (w.getArenaGroupQInfo type G a).2 := by
        unfold stale
        rw [List.foldl_cons, hG]
        rfl
      rw [hstale, possibleGroups_some hG]
      split
      · rename_i hcond
        rw [List.mem_cons]
        exact ⟨fun h => h.imp_left fun heq => ⟨heq, G, rfl, hcond⟩, fun h => h.imp_left And.left⟩
      · rename_i hcond
        refine ⟨.inr, fun h => h.resolve_left ?_⟩
        rintro ⟨-, H, hH, hboth⟩
        obtain rfl := Option.some.inj hH
        exact hcond hboth

/-! ## The loops -/

/-- What every turn keeps, a bracket keeps. -/
theorem turns_invariant {P : QueueState → Prop} {o : Nat → Turn}
    (hturn : ∀ j s, P s → P (w.turn type (o j) s)) (h : P s) (j : Nat) :
    P (w.turns type o j s) := by
  induction j, s using RatedWorld.turns.induct w type o with
  | case1 j s hgo ih =>
    unfold RatedWorld.turns
    rw [if_pos hgo]
    exact ih (hturn j s h)
  | case2 j s hstop =>
    unfold RatedWorld.turns
    rw [if_neg hstop]
    exact h

theorem bracket_invariant {P : QueueState → Prop} {o : Nat → Turn}
    (hturn : ∀ j s, P s → P (w.turn type (o j) s)) (h : P s) : P (w.bracket type o s) := by
  unfold RatedWorld.bracket
  split
  · exact h
  · exact turns_invariant hturn h 0

/-- A turn does nothing, but for the ratings; or starts a match of its
bracket; or stops. -/
theorem turn_cases (w : RatedWorld) (type : Nat) (o : Turn) (s : QueueState) :
    ∃ a b, w.turn type o s = { s with avgRating0 := a, avgRating1 := b } ∨
      (∃ x y, w.turn type o s =
        RatedWorld.start type { s with avgRating0 := a, avgRating1 := b } x y) ∨
      o.created = false ∧
        w.turn type o s = { s with avgRating0 := a, avgRating1 := b, stopped := true } := by
  unfold RatedWorld.turn
  split
  · exact ⟨_, _, .inl rfl⟩
  · dsimp only
    split
    · exact ⟨_, _, .inl rfl⟩
    · split
      · exact ⟨_, _, .inr (.inl ⟨_, _, rfl⟩)⟩
      · rename_i hcreated
        exact ⟨_, _, .inr (.inr ⟨by simpa using hcreated, rfl⟩)⟩

/-! ## Proper matches only -/

/-- The state of a queue that comes to proper matches only. -/
structure Orderly (w : RatedWorld) (s : QueueState) : Prop where
  proper : ∀ m ∈ s.started, Proper w m
  matchable : ∀ type < 3, Matchable w type (s.queuedGroups type)

/-- A possible group of a queue that is matchable is properly possible. -/
theorem Matchable.possible (h : Matchable w type q) (hx : x ∈ q) (hG : w.groupById x = some G)
    (hy : y ∈ (w.possibleGroups type (w.getArenaGroupQInfo type G b).1
      (w.getArenaGroupQInfo type G b).2 a q).1) :
    y ∈ q ∧ ∃ H t u, w.groupById y = some H ∧ w.teamOf type G = some t ∧
      w.teamOf type H = some u ∧ t.id ≠ u.id ∧ Near (average w type G t) (average w type H u) := by
  obtain ⟨xs, ys, H, rfl, hH, hne, hdelta⟩ := mem_possibleGroups.1 hy
  have hin : y ∈ xs ++ y :: ys := List.mem_append_right _ List.mem_cons_self
  refine ⟨hin, H, ?_⟩
  cases ht : w.teamOf type G with
  | none =>
    have hu := h.unmixed x hx y hin G H hG hH ht
    rw [getArenaGroupQInfo_none ht, getArenaGroupQInfo_none hu] at hne
    exact absurd rfl hne
  | some t =>
    cases hu : w.teamOf type H with
    | none =>
      have hnone := h.unmixed y hin x hx H G hH hG hu
      rw [ht] at hnone
      cases hnone
    | some u =>
      rw [getArenaGroupQInfo_some ht, getArenaGroupQInfo_some hu] at hne hdelta
      exact ⟨t, u, hH, rfl, rfl, hne, h.near x hx y hin G H t u hG hH ht hu hne hdelta⟩

theorem Orderly.turn (h : Orderly w s) (htype : type < 3) (o : Turn) :
    Orderly w (w.turn type o s) := by
  unfold RatedWorld.turn
  split
  · exact h
  · rename_i G hfirst
    obtain ⟨x, hx, hG⟩ := Option.bind_eq_some_iff.1 hfirst
    dsimp only
    split
    · exact ⟨h.proper, h.matchable⟩
    · rename_i H hsecond
      obtain ⟨y, hy, hH⟩ := Option.bind_eq_some_iff.1 hsecond
      split
      · have hxq := mem_of_pick hx
        obtain ⟨hyq, H', t, u, hH', ht, hu, hne, hnear⟩ :=
          (h.matchable type htype).possible hxq hG (mem_of_pick hy)
        obtain rfl := Option.some.inj (hH.symm.trans hH')
        obtain rfl := w.groupById_id x G hG
        obtain rfl := w.groupById_id y H hH
        refine ⟨fun m hm => ?_, fun type' htype' => ?_⟩
        · rcases List.mem_append.1 hm with hm | hm
          · exact h.proper m hm
          · obtain rfl := List.mem_singleton.1 hm
            refine ⟨⟨hxq, hyq⟩, ?_, ⟨G, H, t, u, hG, hH, ht, hu, hne, hnear⟩, ?_⟩
            · intro heq
              dsimp only at heq
              rw [heq, hH] at hG
              obtain rfl := Option.some.inj hG
              rw [ht] at hu
              exact hne (congrArg ArenaTeam.id (Option.some.inj hu))
            · simp
        · unfold RatedWorld.start
          dsimp only
          by_cases htt : type' = type
          · subst htt
            rw [Function.update_self]
            exact (h.matchable type' htype').mono fun z hz => List.mem_of_mem_filter hz
          · rw [Function.update_of_ne htt]
            exact h.matchable type' htype'
      · exact ⟨h.proper, h.matchable⟩

theorem Orderly.bracket (h : Orderly w s) (htype : type < 3) (o : Nat → Turn) :
    Orderly w (w.bracket type o s) :=
  bracket_invariant (fun j _ hs => hs.turn htype (o j)) h

/-! ## Improper matches -/

def Improper (w : RatedWorld) (s : QueueState) : Prop := ∃ m ∈ s.started, ¬ Proper w m

/-- What has started stays so. -/
theorem Improper.turn (h : Improper w s) (o : Turn) : Improper w (w.turn type o s) := by
  obtain ⟨m, hm, hnot⟩ := h
  obtain ⟨a, b, heq | ⟨x, y, heq⟩ | ⟨-, heq⟩⟩ := turn_cases w type o s
  · exact ⟨m, heq ▸ hm, hnot⟩
  · exact ⟨m, heq ▸ List.mem_append_left _ hm, hnot⟩
  · exact ⟨m, heq ▸ hm, hnot⟩

theorem Improper.bracket (h : Improper w s) (o : Nat → Turn) :
    Improper w (w.bracket type o s) :=
  bracket_invariant (fun j _ hs => hs.turn (o j)) h

/-- A turn starts a match of a group of the queue and a possible one. -/
theorem exists_turn (hx : x ∈ s.queuedGroups type) (hG : w.groupById x = some G)
    (hy : y ∈ (w.possibleGroups type (w.getArenaGroupQInfo type G s.avgRating0).1
      (w.getArenaGroupQInfo type G s.avgRating0).2 s.avgRating1 (s.queuedGroups type)).1) :
    ∃ o after, ⟨type, x, y, s.queuedGroups type, after⟩ ∈ (w.turn type o s).started := by
  obtain ⟨i, hi⟩ := exists_pick hx
  obtain ⟨j, hj⟩ := exists_pick hy
  obtain ⟨-, -, H, -, hH, -, -⟩ := mem_possibleGroups.1 hy
  obtain rfl := w.groupById_id x G hG
  obtain rfl := w.groupById_id y H hH
  refine ⟨⟨i, j, true⟩, (s.queuedGroups type).filter fun x => x != G.id && x != H.id, ?_⟩
  unfold RatedWorld.turn
  simp only [hi, hG, Option.bind_some, hj, hH, if_true]
  exact List.mem_append_right _ List.mem_cons_self

/-- A turn that finds nobody. -/
theorem turn_of_nil (hpick : pick (s.queuedGroups type) o.first = some x)
    (hG : w.groupById x = some G)
    (hnil : (w.possibleGroups type (w.getArenaGroupQInfo type G s.avgRating0).1
      (w.getArenaGroupQInfo type G s.avgRating0).2 s.avgRating1 (s.queuedGroups type)).1 = []) :
    w.turn type o s = { s with
      avgRating0 := (w.getArenaGroupQInfo type G s.avgRating0).2
      avgRating1 := stale w type s.avgRating1 (s.queuedGroups type) } := by
  have hnone : ∀ roll, pick [] roll = none := by
    intro roll
    unfold pick
    split <;> rfl
  unfold RatedWorld.turn
  simp only [hpick, Option.bind_some, hG, hnil, hnone, Option.bind_none, possibleGroups_snd]

/-- A match with a group without a team is not proper. -/
theorem not_proper_of_none {m : Match} (hG : w.groupById m.group1 = some G)
    (hH : w.groupById m.group2 = some H)
    (hnone : w.teamOf m.type G = none ∨ w.teamOf m.type H = none) : ¬ Proper w m := by
  intro h
  obtain ⟨G', H', t, u, hG', hH', ht, hu, -⟩ := h.teams
  obtain rfl := Option.some.inj (hG.symm.trans hG')
  obtain rfl := Option.some.inj (hH.symm.trans hH')
  rcases hnone with hnone | hnone
  · rw [hnone] at ht
    cases ht
  · rw [hnone] at hu
    cases hu

/-- A group whose rating is left over when one without a team is looked at. -/
theorem improper_of_stale (hd : d ∈ s.queuedGroups type) (hG : w.groupById d = some G)
    (ht : w.teamOf type G = some t) (hq : s.queuedGroups type = xs ++ y :: ys)
    (hH : w.groupById y = some H) (hu : w.teamOf type H = none)
    (hstale : stale w type s.avgRating1 xs = w.avgOf type G t) :
    ∃ o, Improper w (w.turn type o s) := by
  have hy : y ∈ (w.possibleGroups type (w.getArenaGroupQInfo type G s.avgRating0).1
      (w.getArenaGroupQInfo type G s.avgRating0).2 s.avgRating1 (s.queuedGroups type)).1 := by
    refine mem_possibleGroups.2 ⟨xs, ys, H, hq, hH, ?_⟩
    rw [getArenaGroupQInfo_some ht, getArenaGroupQInfo_none hu, hstale, delta_self]
    exact ⟨id_ne_zero ht, UInt32.zero_le⟩
  obtain ⟨o, after, hm⟩ := exists_turn hd hG hy
  exact ⟨o, _, hm, not_proper_of_none hG hH (.inr hu)⟩

/-- Two groups whose machine words are near. -/
theorem improper_of_delta (hx : x ∈ s.queuedGroups type) (hy : y ∈ s.queuedGroups type)
    (hG : w.groupById x = some G) (hH : w.groupById y = some H)
    (ht : w.teamOf type G = some t) (hu : w.teamOf type H = some u) (hne : t.id ≠ u.id)
    (hdelta : delta (w.avgOf type G t) (w.avgOf type H u) ≤ 150)
    (hfar : ¬ Near (average w type G t) (average w type H u)) :
    ∃ o, Improper w (w.turn type o s) := by
  obtain ⟨xs, ys, hq⟩ := List.append_of_mem hy
  have hpossible : y ∈ (w.possibleGroups type (w.getArenaGroupQInfo type G s.avgRating0).1
      (w.getArenaGroupQInfo type G s.avgRating0).2 s.avgRating1 (s.queuedGroups type)).1 := by
    refine mem_possibleGroups.2 ⟨xs, ys, H, hq, hH, ?_⟩
    rw [getArenaGroupQInfo_some ht, getArenaGroupQInfo_some hu]
    exact ⟨hne, hdelta⟩
  obtain ⟨o, after, hm⟩ := exists_turn hx hG hpossible
  refine ⟨o, _, hm, fun h => ?_⟩
  obtain ⟨G', H', t', u', hG', hH', ht', hu', -, hnear⟩ := h.teams
  obtain rfl := Option.some.inj (hG.symm.trans hG')
  obtain rfl := Option.some.inj (hH.symm.trans hH')
  obtain rfl := Option.some.inj (ht.symm.trans ht')
  obtain rfl := Option.some.inj (hu.symm.trans hu')
  exact hfar hnear

/-! ## A queue that is not matchable -/

/-- The last element with a property. -/
theorem exists_last {p : Nat → Prop} {l : List Nat} (h : ∃ x ∈ l, p x) :
    ∃ xs d ys, l = xs ++ d :: ys ∧ p d ∧ ∀ y ∈ ys, ¬ p y := by
  induction l with
  | nil =>
    obtain ⟨x, hx, -⟩ := h
    exact absurd hx List.not_mem_nil
  | cons x l ih =>
    by_cases hlater : ∃ y ∈ l, p y
    · obtain ⟨xs, d, ys, rfl, hd, hys⟩ := ih hlater
      exact ⟨x :: xs, d, ys, rfl, hd, hys⟩
    · obtain ⟨y, hy, hpy⟩ := h
      rcases List.mem_cons.1 hy with rfl | hy
      · exact ⟨[], y, l, rfl, hpy, fun z hz hpz => hlater ⟨z, hz, hpz⟩⟩
      · exact absurd ⟨y, hy, hpy⟩ hlater

theorem two_le_length (hx : x ∈ q) (hy : y ∈ q) (hne : x ≠ y) : 2 ≤ q.length := by
  match q with
  | [] => exact absurd hx List.not_mem_nil
  | [z] => exact absurd ((List.mem_singleton.1 hx).trans (List.mem_singleton.1 hy).symm) hne
  | _ :: _ :: _ => simp

/-- The first turn of a bracket. -/
theorem improper_bracket (hgo : s.stopped = false) (hlen : 2 ≤ (s.queuedGroups type).length)
    (h : ∃ o, Improper w (w.turn type o s)) : ∃ o, Improper w (w.bracket type o s) := by
  obtain ⟨o, h⟩ := h
  refine ⟨fun _ => o, ?_⟩
  unfold RatedWorld.bracket RatedWorld.turns
  rw [if_neg (by omega), if_pos ⟨hgo, by omega⟩]
  exact turns_invariant (fun _ _ hs => hs.turn _) h 1

/-- The second turn, when the first has matched nobody. -/
theorem improper_bracket_second (hgo : s.stopped = false)
    (hlen : 2 ≤ (s.queuedGroups type).length) {o₁ : Turn} {avgRating0 avgRating1 : UInt32}
    (hfirst : w.turn type o₁ s = { s with avgRating0 := avgRating0, avgRating1 := avgRating1 })
    (h : ∃ o, Improper w (w.turn type o
      { s with avgRating0 := avgRating0, avgRating1 := avgRating1 })) :
    ∃ o, Improper w (w.bracket type o s) := by
  obtain ⟨o₂, h⟩ := h
  refine ⟨fun j => if j = 0 then o₁ else o₂, ?_⟩
  unfold RatedWorld.bracket RatedWorld.turns
  rw [if_neg (by omega), if_pos ⟨hgo, by omega⟩, if_pos rfl, hfirst]
  unfold RatedWorld.turns
  rw [if_pos ⟨hgo, hlen⟩]
  exact turns_invariant (fun _ _ hs => hs.turn _) h 2

/-- A group without a team and one with a team in a queue. -/
theorem improper_of_mixed (hgo : s.stopped = false) (hx : x ∈ s.queuedGroups type)
    (hy : y ∈ s.queuedGroups type) (hG : w.groupById x = some G) (hH : w.groupById y = some H)
    (hnone : w.teamOf type G = none) (hu : w.teamOf type H = some u) :
    ∃ o, Improper w (w.bracket type o s) := by
  have hne : x ≠ y := by
    rintro rfl
    obtain rfl := Option.some.inj (hG.symm.trans hH)
    rw [hnone] at hu
    cases hu
  have hlen := two_le_length hx hy hne
  by_cases hbehind : ∃ xs z ys K, s.queuedGroups type = xs ++ z :: ys ∧
      w.groupById z = some K ∧ w.teamOf type K = none ∧ ∃ d ∈ xs, HasTeam w type d
  · -- the last group with a team before it leaves its rating
    obtain ⟨xs, z, ys, K, hq, hK, hKnone, hd⟩ := hbehind
    obtain ⟨ms, d, ns, rfl, ⟨D, t, hD, ht⟩, hns⟩ := exists_last hd
    refine improper_bracket hgo hlen (improper_of_stale ?_ hD ht hq hK hKnone
      (stale_last hD ht hns))
    rw [hq]
    exact List.mem_append_left _ (List.mem_append_right _ List.mem_cons_self)
  · -- those without a team stand in front: the first turn leaves the rating of the last group
    obtain ⟨ms, d, ns, hq, ⟨D, t, hD, ht⟩, hns⟩ :=
      exists_last (p := HasTeam w type) ⟨y, hy, H, u, hH, hu⟩
    obtain ⟨xs, ys, hsplit⟩ := List.append_of_mem hx
    have hxs : ∀ z ∈ xs, ¬ HasTeam w type z :=
      fun z hz hteam => hbehind ⟨xs, x, ys, G, hsplit, hG, hnone, z, hz, hteam⟩
    cases hpossible : (w.possibleGroups type (w.getArenaGroupQInfo type G s.avgRating0).1
        (w.getArenaGroupQInfo type G s.avgRating0).2 s.avgRating1 (s.queuedGroups type)).1 with
    | cons z zs =>
      have hz : z ∈ (w.possibleGroups type (w.getArenaGroupQInfo type G s.avgRating0).1
          (w.getArenaGroupQInfo type G s.avgRating0).2 s.avgRating1 (s.queuedGroups type)).1 :=
        hpossible ▸ List.mem_cons_self
      obtain ⟨o, after, hm⟩ := exists_turn hx hG hz
      obtain ⟨-, -, K, -, hK, -, -⟩ := mem_possibleGroups.1 hz
      exact improper_bracket hgo hlen ⟨o, _, hm, not_proper_of_none hG hK (.inl hnone)⟩
    | nil =>
      obtain ⟨i, hi⟩ := exists_pick hx
      have hfirst := turn_of_nil (o := ⟨i, 0, true⟩) hi hG hpossible
      have hleft : stale w type s.avgRating1 (s.queuedGroups type) = w.avgOf type D t := by
        rw [hq, stale_last hD ht hns]
      rw [hleft] at hfirst
      refine improper_bracket_second hgo hlen hfirst (improper_of_stale ?_ hD ht hsplit hG hnone
        (stale_of_not_hasTeam hxs))
      change d ∈ s.queuedGroups type
      rw [hq]
      exact List.mem_append_right _ List.mem_cons_self

/-- A queue that is not matchable, whatever the ratings left over are. -/
theorem matchable_of_bracket (hgo : s.stopped = false)
    (h : ∀ o, ¬ Improper w (w.bracket type o s)) : Matchable w type (s.queuedGroups type) := by
  constructor
  · intro x hx y hy G H hG hH hnone
    cases hu : w.teamOf type H with
    | none => rfl
    | some u =>
      obtain ⟨o, himproper⟩ := improper_of_mixed hgo hx hy hG hH hnone hu
      exact absurd himproper (h o)
  · intro x hx y hy G H t u hG hH ht hu hne hdelta
    by_contra hfar
    have hxy : x ≠ y := by
      rintro rfl
      obtain rfl := Option.some.inj (hG.symm.trans hH)
      exact hne (congrArg ArenaTeam.id (Option.some.inj (ht.symm.trans hu)))
    obtain ⟨o, himproper⟩ := improper_bracket hgo (two_le_length hx hy hxy)
      (improper_of_delta hx hy hG hH ht hu hne hdelta hfar)
    exact h o himproper

/-! ## The call -/

/-- Other brackets are left alone, and nothing stops where instances are created. -/
theorem bracket_frame {o : Nat → Turn} (hcreated : ∀ j, (o j).created = true) {type' : Nat}
    (hne : type' ≠ type) (hgo : s.stopped = false) :
    (w.bracket type o s).queuedGroups type' = s.queuedGroups type' ∧
      (w.bracket type o s).stopped = false := by
  refine bracket_invariant (P := fun s' =>
    s'.queuedGroups type' = s.queuedGroups type' ∧ s'.stopped = false) (fun j s' h => ?_) ⟨rfl, hgo⟩
  obtain ⟨a, b, heq | ⟨x, y, heq⟩ | ⟨hnot, -⟩⟩ := turn_cases w type (o j) s'
  · rw [heq]
    exact h
  · rw [heq]
    exact ⟨(Function.update_of_ne hne ..).trans h.1, h.2⟩
  · rw [hcreated j] at hnot
    cases hnot

/-- Every match is what it is to be, however the dice fall. -/
def Right (w : RatedWorld) (queuedGroups : Nat → List Nat) : Prop :=
  ∀ o, ∀ m ∈ (w.eventQueueUpdate queuedGroups o).started, Proper w m

theorem right_of_matchable {queuedGroups : Nat → List Nat}
    (h : ∀ type < 3, Matchable w type (queuedGroups type)) : Right w queuedGroups := by
  intro o
  have hstart : Orderly w ⟨queuedGroups, 0, 0, [], false⟩ :=
    ⟨fun m hm => absurd hm List.not_mem_nil, h⟩
  exact (((hstart.bracket (by decide) (o 0)).bracket (by decide) (o 1)).bracket (by decide)
    (o 2)).proper

/-- Instances are created. -/
def creating : Nat → Turn := fun _ => ⟨0, 0, true⟩

/-- Dice for one bracket. -/
def inBracket (type : Nat) (o : Nat → Turn) (type' : Nat) : Nat → Turn :=
  if type' = type then o else creating

theorem matchable_of_right {queuedGroups : Nat → List Nat} (h : Right w queuedGroups)
    (htype : type < 3) : Matchable w type (queuedGroups type) := by
  let s₀ : QueueState := ⟨queuedGroups, 0, 0, [], false⟩
  let s₁ := w.bracket 0 creating s₀
  let s₂ := w.bracket 1 creating s₁
  have hproper : ∀ o, ¬ Improper w (w.eventQueueUpdate queuedGroups o) := by
    rintro o ⟨m, hm, hnot⟩
    exact hnot (h o m hm)
  have hframe₁ : ∀ type' ≠ 0, s₁.queuedGroups type' = queuedGroups type' ∧ s₁.stopped = false :=
    fun type' hne => bracket_frame (s := s₀) (fun _ => rfl) hne rfl
  have hframe₂ : s₂.queuedGroups 2 = s₁.queuedGroups 2 ∧ s₂.stopped = false :=
    bracket_frame (fun _ => rfl) (by decide) (hframe₁ 1 (by decide)).2
  match type, htype with
  | 0, _ =>
    refine matchable_of_bracket (s := s₀) rfl fun o himproper => hproper (inBracket 0 o) ?_
    exact (Improper.bracket himproper _).bracket _
  | 1, _ =>
    rw [← (hframe₁ 1 (by decide)).1]
    refine matchable_of_bracket (hframe₁ 1 (by decide)).2 fun o himproper =>
      hproper (inBracket 1 o) ?_
    exact Improper.bracket himproper _
  | 2, _ =>
    rw [← (hframe₁ 2 (by decide)).1, ← hframe₂.1]
    exact matchable_of_bracket hframe₂.2 fun o himproper => hproper (inBracket 2 o) himproper

/-- Which queues come to proper matches only. -/
theorem eventQueueUpdate_right_iff (w : RatedWorld) (queuedGroups : Nat → List Nat) :
    Right w queuedGroups ↔ ∀ type < 3, Matchable w type (queuedGroups type) :=
  ⟨fun h _ htype => matchable_of_right h htype, right_of_matchable⟩

/-! ## A leader who is offline -/

def teamOfOne (id player rating : Nat) : ArenaTeam :=
  { id := id, type := 0, data := ⟨player, "", 0, 0, 0, 0, 0, rating, 0, 0, 0, 0, 0⟩
    members := [⟨some player, 0, 0, 0, 0, rating⟩], memberCount := 1 }

/-- Player 1 leads a group, and so does player 2, who is offline; the member
of his group who is online plays for his team, with 500 points more than
player 1. -/
def offlineLeader : RatedWorld where
  arena :=
    { teams := fun id =>
        if id = 1 then some (teamOfOne 1 1 1500)
        else if id = 2 then some (teamOfOne 2 3 2000) else none
      arenaTeam := fun _ p => if p = 1 then some 1 else some 2 }
  loggedIn := fun p => p != 2
  groupById := fun x =>
    if x = 1 then some ⟨1, some 1, [1]⟩ else if x = 2 then some ⟨2, some 2, [2, 3]⟩ else none
  groupById_id := by
    intro x G h
    split at h
    · obtain rfl := Option.some.inj h
      exact Eq.symm ‹x = 1›
    · split at h
      · obtain rfl := Option.some.inj h
        exact Eq.symm ‹x = 2›
      · cases h
  team_id := by
    intro x t h
    dsimp only at h
    split at h
    · obtain rfl := Option.some.inj h
      exact Eq.symm ‹x = 1›
    · split at h
      · obtain rfl := Option.some.inj h
        exact Eq.symm ‹x = 2›
      · cases h
  no_team_zero := rfl

/-- The two groups can be matched. -/
theorem offlineLeader_not_right : ¬ Right offlineLeader fun _ => [1, 2] := by
  intro h
  have hmatchable := matchable_of_right h (show 0 < 3 by decide)
  have hnone := hmatchable.unmixed 2 (by decide) 1 (by decide) ⟨2, some 2, [2, 3]⟩ ⟨1, some 1, [1]⟩
    rfl rfl rfl
  have hsome : offlineLeader.teamOf 0 ⟨1, some 1, [1]⟩ = some (teamOfOne 1 1 1500) := rfl
  rw [hsome] at hnone
  cases hnone

end HearthStone.RatedQueue
