/-
HearthStone.Arena.RosterRuns — when the rosters of all arena teams are
right.

A member who is loaded behind a column without a player is not among the
first `m_memberCount` slots, though his pointer is set: he is not shown,
not saved, and overwritten by the next player. `AddMember` does not look
whether the player is in a team of this type; those who accept an
invitation are asked before, those who have signed a charter are not.

* `RostersOk` is the property and `Fit` the condition on a step.
* A team changes together with the pointers to it, and the pointers to the
  other teams stay (`Inv.update`).
-/
import HearthStone.Lib.Run
import HearthStone.Arena.Rosters

namespace HearthStone

open Lib

namespace ArenaWorld

variable {players : PlayerInfos} {w w' : ArenaWorld} {t t' : ArenaTeam} {i info g type : Nat}
  {arena : Nat → Nat → Option Nat}

/-- The first slots of a team are its members, each once: the players
whose pointer is the team. A team that is saved and loaded has the same
roster. -/
structure TeamOk (players : PlayerInfos) (w : ArenaWorld) (t : ArenaTeam) : Prop where
  bound : t.memberCount ≤ allocateSlots t.type
  whole : ∀ m ∈ t.roster, m.info.isSome = true
  once : t.guids.Nodup
  points : ∀ g, w.arenaTeam t.type g = some t.id ↔ g ∈ t.guids
  reload : ∃ t', ArenaTeam.load players t.save = some t' ∧ t'.roster = t.roster

/-- All teams, and nobody points to a team that is gone. -/
structure RostersOk (players : PlayerInfos) (w : ArenaWorld) : Prop where
  teams : ∀ i t, w.teams i = some t → t.id = i ∧ TeamOk players w t
  there : ∀ type g i, w.arenaTeam type g = some i → ∃ t, w.teams i = some t ∧ t.type = type

structure Inv (players : PlayerInfos) (w : ArenaWorld) : Prop where
  id : ∀ i t, w.teams i = some t → t.id = i
  whole : ∀ i t, w.teams i = some t → t.Whole players
  points : ∀ i t, w.teams i = some t → ∀ g, w.arenaTeam t.type g = some i ↔ g ∈ t.guids
  there : ∀ type g i, w.arenaTeam type g = some i → ∃ t, w.teams i = some t ∧ t.type = type

theorem Inv.ok (h : Inv players w) : RostersOk players w := by
  refine ⟨?_, h.there⟩
  intro i t ht
  have hwhole := h.whole i t ht
  refine ⟨h.id i t ht, by rw [← hwhole.slots]; exact hwhole.bound, hwhole.whole, hwhole.once, ?_,
    hwhole.load_save⟩
  rw [h.id i t ht]
  exact h.points i t ht

/-! ## One team changes -/

theorem setTeam_self : (w.setTeam i (some t)).teams i = some t := if_pos rfl

theorem setTeam_of_ne {j : Nat} {o : Option ArenaTeam} (h : j ≠ i) :
    (w.setTeam i o).teams j = w.teams j := if_neg h

/-- A team changes with the pointers to it. -/
theorem Inv.update (h : Inv players w) (hid : t.id = i) (hwhole : t.Whole players)
    (hother : ∀ ty g j, j ≠ i → (arena ty g = some j ↔ w.arenaTeam ty g = some j))
    (hself : ∀ ty g, arena ty g = some i ↔ ty = t.type ∧ g ∈ t.guids) :
    Inv players { w.setTeam i (some t) with arenaTeam := arena } := by
  have hteam : ∀ j u, (w.setTeam i (some t)).teams j = some u →
      (j = i ∧ u = t) ∨ (j ≠ i ∧ w.teams j = some u) := by
    intro j u hu
    by_cases hj : j = i
    · subst hj
      rw [setTeam_self] at hu
      cases hu
      exact Or.inl ⟨rfl, rfl⟩
    · rw [setTeam_of_ne hj] at hu
      exact Or.inr ⟨hj, hu⟩
  refine ⟨?_, ?_, ?_, ?_⟩
  · intro j u hu
    rcases hteam j u hu with ⟨rfl, rfl⟩ | ⟨-, hold⟩
    · exact hid
    · exact h.id j u hold
  · intro j u hu
    rcases hteam j u hu with ⟨-, rfl⟩ | ⟨-, hold⟩
    · exact hwhole
    · exact h.whole j u hold
  · intro j u hu g
    rcases hteam j u hu with ⟨rfl, rfl⟩ | ⟨hj, hold⟩
    · refine (hself _ g).trans ?_
      simp
    · exact (hother _ g j hj).trans (h.points j u hold g)
  · intro ty g j hj
    by_cases hji : j = i
    · subst hji
      exact ⟨t, setTeam_self, ((hself ty g).1 hj).1.symm⟩
    · obtain ⟨u, hu, hty⟩ := h.there ty g j ((hother ty g j hji).1 hj)
      exact ⟨u, (setTeam_of_ne hji).trans hu, hty⟩

theorem point_nil {o : Option Nat} : w.point type [] o = w := by
  unfold point
  simp

/-- Pointers that are set where there was none. -/
theorem point_some {infos : List Nat} (hnone : ∀ g ∈ infos, w.arenaTeam type g = none) {ty j : Nat} :
    (w.point type infos (some i)).arenaTeam ty g = some j ↔
      (ty = type ∧ g ∈ infos ∧ j = i) ∨ w.arenaTeam ty g = some j := by
  unfold point
  dsimp only
  by_cases hin : ty = type ∧ g ∈ infos
  · obtain ⟨rfl, hg⟩ := hin
    rw [if_pos ⟨rfl, hg⟩, hnone g hg]
    simp [hg, eq_comm]
  · rw [if_neg hin]
    constructor
    · intro hold
      exact Or.inr hold
    · rintro (⟨hty, hg, -⟩ | hold)
      · exact absurd ⟨hty, hg⟩ hin
      · exact hold

/-- A pointer that is taken back. -/
theorem point_none {ty j : Nat} :
    (w.point type [info] none).arenaTeam ty g = some j ↔
      ¬ (ty = type ∧ g = info) ∧ w.arenaTeam ty g = some j := by
  unfold point
  simp only [List.mem_singleton]
  by_cases hin : ty = type ∧ g = info
  · rw [if_pos hin]
    simp [hin]
  · rw [if_neg hin]
    simp [hin]

/-! ## The steps -/

/-- A new team takes over players who are in none. -/
theorem Inv.add (h : Inv players w) (hfresh : w.teams i = none) (hid : t.id = i)
    (hwhole : t.Whole players) {infos : List Nat} (hinfos : ∀ g, g ∈ infos ↔ g ∈ t.guids)
    (hnone : ∀ g ∈ infos, w.arenaTeam t.type g = none) :
    Inv players ((w.setTeam i (some t)).point t.type infos (some i)) := by
  have hnobody : ∀ ty g, w.arenaTeam ty g ≠ some i := by
    intro ty g hg
    obtain ⟨u, hu, -⟩ := h.there ty g i hg
    rw [hfresh] at hu
    cases hu
  refine h.update hid hwhole ?_ ?_
  · intro ty g j hj
    refine (point_some (w := w) hnone).trans ?_
    exact or_iff_right (fun hin => hj hin.2.2)
  · intro ty g
    refine (point_some (w := w) hnone).trans ?_
    rw [hinfos g]
    simp [hnobody ty g]

theorem Inv.addMember (h : Inv players w) (ht : w.teams i = some t)
    (hadd : t.addMember info = some t') (hknown : players.known info = true)
    (hnone : w.arenaTeam t.type info = none) :
    Inv players ((w.setTeam i (some t')).point t'.type [info] (some i)) := by
  have hwhole := h.whole i t ht
  obtain ⟨-, -, -, -, htype, hid⟩ := ArenaTeam.addMember_some hadd
  have hnew : info ∉ t.guids := by
    intro hin
    rw [(h.points i t ht info).2 hin] at hnone
    cases hnone
  have hpoint : ∀ g ∈ [info], w.arenaTeam t'.type g = none := by
    intro g hg
    rw [List.mem_singleton] at hg
    rw [hg, htype]
    exact hnone
  refine h.update (hid.trans (h.id i t ht)) (hwhole.addMember hadd hknown hnew) ?_ ?_
  · intro ty g j hj
    refine (point_some (w := w) hpoint).trans ?_
    exact or_iff_right (fun hin => hj hin.2.2)
  · intro ty g
    refine (point_some (w := w) hpoint).trans ?_
    rw [ArenaTeam.guids_addMember hadd, List.mem_append, htype]
    constructor
    · rintro (⟨hty, hg, -⟩ | hold)
      · exact ⟨hty, Or.inr hg⟩
      · obtain ⟨u, hu, hty⟩ := h.there ty g i hold
        rw [ht] at hu
        cases hu
        subst hty
        exact ⟨rfl, Or.inl ((h.points i t ht g).1 hold)⟩
    · rintro ⟨rfl, hg | hg⟩
      · exact Or.inr ((h.points i t ht g).2 hg)
      · exact Or.inl ⟨rfl, hg, rfl⟩

theorem Inv.removeMember (h : Inv players w) : Inv players (w.removeMember i info) := by
  unfold ArenaWorld.removeMember
  split
  · exact h
  · rename_i t ht
    split
    · exact h
    · rename_i t' hremove
      have hwhole := h.whole i t ht
      obtain ⟨-, -, -, -, -, -, htype, hid⟩ := ArenaTeam.removeMember_some hwhole hremove
      have hperm := ArenaTeam.guids_removeMember hwhole hremove
      obtain ⟨hgone, -⟩ := List.nodup_cons.1 (hperm.nodup_iff.1 hwhole.once)
      have hwas : w.arenaTeam t.type info = some i :=
        (h.points i t ht info).2 (hperm.mem_iff.2 List.mem_cons_self)
      refine h.update (hid.trans (h.id i t ht)) (hwhole.removeMember hremove) ?_ ?_
      · intro ty g j hj
        refine (point_none (w := w)).trans ?_
        refine and_iff_right_of_imp ?_
        rintro hold ⟨rfl, rfl⟩
        rw [htype, hwas] at hold
        cases hold
        exact hj rfl
      · intro ty g
        refine (point_none (w := w)).trans ?_
        rw [htype]
        constructor
        · rintro ⟨hne, hold⟩
          obtain ⟨u, hu, hty⟩ := h.there ty g i hold
          rw [ht] at hu
          cases hu
          subst hty
          have hin := hperm.mem_iff.1 ((h.points i t ht g).1 hold)
          exact ⟨rfl, (List.mem_cons.1 hin).resolve_left (fun hg => hne ⟨rfl, hg⟩)⟩
        · rintro ⟨rfl, hg⟩
          refine ⟨?_, (h.points i t ht g).2 (hperm.mem_iff.2 (List.mem_cons_of_mem info hg))⟩
          rintro ⟨-, rfl⟩
          exact hgone hg

/-- The team after `RemoveMember`, and the players it may still have. -/
theorem removeMember_teams (info : Nat) (h : Inv players w) (ht : w.teams i = some t) :
    ∃ t', (w.removeMember i info).teams i = some t' ∧ ∀ g ∈ t'.guids, g ∈ t.guids ∧ g ≠ info := by
  unfold ArenaWorld.removeMember
  rw [ht]
  dsimp only
  split
  · rename_i hnone
    refine ⟨t, ht, ?_⟩
    intro g hg
    refine ⟨hg, ?_⟩
    rintro rfl
    exact ArenaTeam.removeMember_none hnone hg
  · rename_i t' hremove
    have hwhole := h.whole i t ht
    have hperm := ArenaTeam.guids_removeMember hwhole hremove
    obtain ⟨hgone, -⟩ := List.nodup_cons.1 (hperm.nodup_iff.1 hwhole.once)
    refine ⟨t', setTeam_self, ?_⟩
    intro g hg
    refine ⟨hperm.mem_iff.2 (List.mem_cons_of_mem info hg), ?_⟩
    rintro rfl
    exact hgone hg

/-- The loop of `Destroy`. -/
theorem removeAll (h : Inv players w) (ht : w.teams i = some t) {infos : List Nat}
    (hall : ∀ g ∈ t.guids, g ∈ infos) :
    Inv players (infos.foldl (fun w info => w.removeMember i info) w) ∧
      ∃ t', (infos.foldl (fun w info => w.removeMember i info) w).teams i = some t' ∧
        t'.guids = [] := by
  induction infos generalizing w t with
  | nil =>
    refine ⟨h, t, ht, ?_⟩
    exact List.eq_nil_iff_forall_not_mem.2 (fun g hg => List.not_mem_nil (hall g hg))
  | cons info infos ih =>
    obtain ⟨t', ht', hleft⟩ := removeMember_teams info h ht
    refine ih h.removeMember ht' ?_
    intro g hg
    obtain ⟨hin, hne⟩ := hleft g hg
    exact (List.mem_cons.1 (hall g hin)).resolve_left hne

/-- A team without members is taken away. -/
theorem Inv.remove (h : Inv players w) (ht : w.teams i = some t) (hnone : t.guids = []) :
    Inv players (w.setTeam i none) := by
  have hteam : ∀ j u, (w.setTeam i none).teams j = some u → w.teams j = some u := by
    intro j u hu
    by_cases hj : j = i
    · subst hj
      rw [show (w.setTeam j none).teams j = none from if_pos rfl] at hu
      cases hu
    · exact (setTeam_of_ne hj).symm.trans hu
  refine ⟨fun j u hu => h.id j u (hteam j u hu), fun j u hu => h.whole j u (hteam j u hu),
    fun j u hu => h.points j u (hteam j u hu), ?_⟩
  intro ty g j hj
  obtain ⟨u, hu, hty⟩ := h.there ty g j hj
  refine ⟨u, ?_, hty⟩
  rw [← hu]
  refine setTeam_of_ne ?_
  rintro rfl
  rw [ht] at hu
  cases hu
  subst hty
  have hin := (h.points j t ht g).1 hj
  rw [hnone] at hin
  cases hin

theorem Inv.destroy (h : Inv players w) : Inv players (w.destroy i) := by
  unfold ArenaWorld.destroy
  split
  · exact h
  · rename_i t ht
    obtain ⟨hinv, t', ht', hnone⟩ := removeAll h ht (fun g hg => hg)
    exact hinv.remove ht' hnone

/-- The condition on a row: no player stands behind a column without one,
nobody is in it twice, and nobody of it is in a team of its type. -/
def FitRow (players : PlayerInfos) (w : ArenaWorld) (row : ArenaTeamRow) : Prop :=
  ArenaTeam.Gapless (row.resolved players) ∧ (row.resolved players).reduceOption.Nodup ∧
    ∀ g ∈ (row.resolved players).reduceOption, w.arenaTeam row.type g = none

/-- The condition on a step. Who is added to a team that is not full is in
no team of its type. -/
def Fit (players : PlayerInfos) (w : ArenaWorld) : Action → Prop
  | .load row => FitRow players w row
  | .addMember id info => (w.teams id).all
      (fun t => decide (t.members.length ≤ t.memberCount) || (w.arenaTeam t.type info).isNone) = true
  | _ => True

instance (players : PlayerInfos) (w : ArenaWorld) : (a : Action) → Decidable (Fit players w a)
  | .load row => inferInstanceAs (Decidable
      (ArenaTeam.Gapless (row.resolved players) ∧ (row.resolved players).reduceOption.Nodup ∧
        ∀ g ∈ (row.resolved players).reduceOption, w.arenaTeam row.type g = none))
  | .create _ _ _ => .isTrue trivial
  | .addMember id info => inferInstanceAs (Decidable ((w.teams id).all
      (fun t => decide (t.members.length ≤ t.memberCount) || (w.arenaTeam t.type info).isNone) =
        true))
  | .removeMember _ _ => .isTrue trivial
  | .destroy _ => .isTrue trivial

theorem load_eq {row : ArenaTeamRow} (hstep : w.load players row = some w') :
    w.teams row.id = none ∧ ∃ t, ArenaTeam.load players row = some t ∧
      w' = (w.setTeam row.id (some t)).point t.type (row.resolved players).reduceOption
        (some row.id) := by
  unfold ArenaWorld.load at hstep
  split at hstep
  · cases hstep
  · rename_i hfresh
    obtain ⟨t, hload, rfl⟩ := Option.map_eq_some_iff.1 hstep
    refine ⟨Option.not_isSome_iff_eq_none.1 hfresh, t, hload, ?_⟩
    unfold List.reduceOption
    rw [← ArenaTeam.map_info_load hload, List.filterMap_map, (ArenaTeam.load_members hload).2.2.2.1]
    rfl

theorem addMember_eq {id : Nat} (hstep : w.addMember players id info = some w') :
    players.known info = true ∧ ∃ t, w.teams id = some t ∧
      ((t.addMember info = none ∧ w' = w) ∨ ∃ t', t.addMember info = some t' ∧
        w' = (w.setTeam id (some t')).point t'.type [info] (some id)) := by
  unfold ArenaWorld.addMember at hstep
  rw [Option.ite_none_right_eq_some] at hstep
  obtain ⟨hknown, hstep⟩ := hstep
  refine ⟨hknown, ?_⟩
  split at hstep
  · cases hstep
  · rename_i t ht
    refine ⟨t, ht, ?_⟩
    split at hstep
    · rename_i hfull
      cases hstep
      exact Or.inl ⟨hfull, rfl⟩
    · rename_i t' hadd
      cases hstep
      exact Or.inr ⟨t', hadd, rfl⟩

theorem Inv.step (h : Inv players w) {a : Action} (hok : Fit players w a)
    (hstep : w.step players a = some w') : Inv players w' := by
  cases a with
  | load row =>
    obtain ⟨hgap, honce, hnone⟩ := hok
    obtain ⟨hfresh, t, hload, rfl⟩ := load_eq hstep
    obtain ⟨-, -, htype, hid, -⟩ := ArenaTeam.load_members hload
    have hwhole := ArenaTeam.whole_load hload hgap honce
    refine h.add hfresh hid hwhole ?_ (by rw [htype]; exact hnone)
    intro g
    rw [ArenaTeam.guids_load hload hwhole.whole]
  | create id type data =>
    change w.create id type data = some w' at hstep
    unfold ArenaWorld.create at hstep
    split at hstep
    · cases hstep
    · rename_i hfresh
      obtain ⟨t, hcreate, rfl⟩ := Option.map_eq_some_iff.1 hstep
      obtain ⟨hwhole, hguids, hid, htype⟩ := ArenaTeam.whole_create hcreate
      have hadd : Inv players ((w.setTeam id (some t)).point t.type [] (some id)) :=
        h.add (Option.not_isSome_iff_eq_none.1 hfresh) hid hwhole (by simp [hguids]) (by simp)
      rw [point_nil] at hadd
      exact hadd
  | addMember id info =>
    obtain ⟨hknown, t, ht, hcase⟩ := addMember_eq hstep
    change (w.teams id).all _ = true at hok
    rw [ht, Option.all_some, Bool.or_eq_true, decide_eq_true_eq, Option.isNone_iff_eq_none] at hok
    rcases hcase with ⟨-, rfl⟩ | ⟨t', hadd, rfl⟩
    · exact h
    · refine h.addMember ht hadd hknown (hok.resolve_left ?_)
      intro hfull
      unfold ArenaTeam.addMember at hadd
      rw [if_pos hfull] at hadd
      cases hadd
  | removeMember id info =>
    cases hstep
    exact h.removeMember
  | destroy id =>
    cases hstep
    exact h.destroy

/-! ## Steps that do not meet the condition -/

/-- The server has loaded no team yet. -/
def empty : ArenaWorld := ⟨fun _ => none, fun _ _ => none⟩

def plainData : ArenaTeamData := ⟨1, "Twos", 0, 0, 0, 0, 0, 1600, 0, 0, 0, 0, 1⟩

/-- A row of a team for two with these players. -/
def rowOf (guids : List Nat) : ArenaTeamRow where
  id := 7
  type := 0
  data := plainData
  playerData := fun i => match guids[i.val]? with
    | some guid => [guid, 2, 1, 20, 10, 1550]
    | none => [0, 0, 0, 0, 0, 0]

end ArenaWorld

end HearthStone
