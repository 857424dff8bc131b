/-
HearthStone.Arena.Rosters — the roster of one arena team.

The constructor that loads a team writes every column into the slot of its
number and counts only the players who exist, and every other loop looks
at the first `m_memberCount` slots.

* `Whole` says that those are the members, each once.
* `AddMember`, `RemoveMember` and a load of what was saved keep it; a load
  of any other row does when no player stands behind a column without one
  (`load_whole_iff`).
-/
import HearthStone.Arena.ArenaTeam

namespace HearthStone

open Lib

namespace ArenaTeam

variable {players : PlayerInfos} {t t' : ArenaTeam} {info g : Nat} {row : ArenaTeamRow}

/-- The players of the roster. -/
def guids (t : ArenaTeam) : List Nat := t.roster.filterMap (·.info)

theorem allocateSlots_le (type : Nat) : allocateSlots type ≤ 10 := by
  unfold allocateSlots
  split <;> omega

/-- What holds of a team by itself. -/
structure Whole (players : PlayerInfos) (t : ArenaTeam) : Prop where
  slots : t.members.length = allocateSlots t.type
  slotted : allocateSlots t.type ≠ 0
  bound : t.memberCount ≤ t.members.length
  whole : ∀ m ∈ t.roster, m.info.isSome = true
  once : t.guids.Nodup
  known : ∀ g ∈ t.guids, players.known g = true

theorem Whole.length_roster (h : Whole players t) : t.roster.length = t.memberCount := by
  unfold roster
  rw [List.length_take, Nat.min_eq_left h.bound]

theorem mem_guids : g ∈ t.guids ↔ ∃ m ∈ t.roster, m.info = some g := by
  unfold guids
  rw [List.mem_filterMap]

/-! ## Saving and loading -/

/-- The member of a column that was saved. -/
theorem loadMember_saveMember {m : ArenaTeamMember} {rating : Nat} (hinfo : m.info = some g)
    (hknown : players.known g = true) : loadMember players rating (saveMember m) = m := by
  obtain ⟨info, a, b, c, d, e⟩ := m
  change info = some g at hinfo
  subst hinfo
  unfold loadMember saveMember resolve
  simp [hknown]

/-- An empty column has no player. -/
theorem loadMember_zero (rating : Nat) :
    loadMember players rating [0, 0, 0, 0, 0, 0] = ⟨none, 0, 0, 0, 0, 0⟩ := by
  unfold loadMember resolve
  simp [players.nobody]

theorem load_members {row : ArenaTeamRow} (h : load players row = some t) :
    t.members = row.columns.map (loadMember players row.data.rating) ∧
      t.memberCount = t.members.countP (·.info.isSome) ∧ t.type = row.type ∧ t.id = row.id ∧
      allocateSlots row.type ≠ 0 := by
  unfold load at h
  split at h
  · cases h
  · rename_i hslots
    cases h
    exact ⟨rfl, rfl, rfl, rfl, hslots⟩

theorem length_columns (row : ArenaTeamRow) : row.columns.length = allocateSlots row.type := by
  unfold ArenaTeamRow.columns
  rw [List.length_take, List.length_ofFn, Nat.min_eq_left (allocateSlots_le row.type)]

theorem Whole.members_load (h : Whole players t) :
    t.save.columns.map (loadMember players t.data.rating) =
      t.roster ++ List.replicate (allocateSlots t.type - t.memberCount) ⟨none, 0, 0, 0, 0, 0⟩ := by
  have hle := allocateSlots_le t.type
  have hbound := h.slots ▸ h.bound
  apply List.ext_getElem?
  intro k
  unfold ArenaTeamRow.columns
  rw [List.getElem?_map, List.getElem?_take, List.getElem?_append, h.length_roster,
    List.getElem?_replicate]
  show Option.map _ (if k < allocateSlots t.type then (List.ofFn t.save.playerData)[k]? else none) = _
  by_cases hk : k < allocateSlots t.type
  · rw [if_pos hk, List.getElem?_ofFn, dif_pos (by omega), Option.map_some]
    unfold save
    dsimp only
    by_cases hin : k < t.memberCount
    · have hget := List.getElem?_eq_getElem (h.length_roster ▸ hin : k < t.roster.length)
      have hmem := List.getElem_mem (h.length_roster ▸ hin : k < t.roster.length)
      obtain ⟨g, hg⟩ := Option.isSome_iff_exists.1 (h.whole _ hmem)
      rw [if_pos hin, hget]
      exact congrArg some (loadMember_saveMember hg (h.known g (mem_guids.2 ⟨_, hmem, hg⟩)))
    · rw [if_neg hin, if_pos (by omega),
        List.getElem?_eq_none (by rw [h.length_roster]; omega)]
      exact congrArg some (loadMember_zero _)
  · rw [if_neg hk, if_neg (by omega), if_neg (by omega)]
    rfl

/-- A team that has been saved is loaded with the same roster. -/
theorem Whole.load_save (h : Whole players t) :
    ∃ t', load players t.save = some t' ∧ t'.roster = t.roster := by
  have hall : ∀ m ∈ t.roster, (fun m : ArenaTeamMember => m.info.isSome) m = true := h.whole
  have hcount : (t.save.columns.map (loadMember players t.data.rating)).countP
      (·.info.isSome) = t.memberCount := by
    rw [h.members_load, List.countP_append, List.countP_eq_length.2 hall, h.length_roster,
      List.countP_replicate]
    exact Nat.add_zero _
  refine ⟨_, if_neg h.slotted, ?_⟩
  show List.take (List.countP _ (t.save.columns.map (loadMember players t.data.rating)))
    (t.save.columns.map (loadMember players t.data.rating)) = t.roster
  rw [hcount, h.members_load]
  exact List.take_left' h.length_roster

/-! ## One team -/

/-- `AddMember` puts a player behind the others. -/
theorem addMember_some (h : t.addMember info = some t') :
    t'.roster = t.roster ++ [⟨some info, 0, 0, 0, 0, 1500⟩] ∧ t'.memberCount = t.memberCount + 1 ∧
      t'.members.length = t.members.length ∧ t'.memberCount ≤ t'.members.length ∧
      t'.type = t.type ∧ t'.id = t.id := by
  unfold addMember at h
  split at h
  · cases h
  · rename_i hfull
    rw [Nat.not_le] at hfull
    cases h
    refine ⟨?_, rfl, List.length_set, ?_, rfl, rfl⟩
    · unfold roster
      dsimp only
      rw [List.set_eq_take_append_cons_drop, if_pos hfull, List.take_append, List.length_take,
        Nat.min_eq_left (by omega), List.take_of_length_le (by rw [List.length_take]; omega),
        Nat.add_sub_cancel_left]
      rfl
    · rw [List.length_set]
      exact hfull

theorem guids_addMember (h : t.addMember info = some t') : t'.guids = t.guids ++ [info] := by
  unfold guids
  rw [(addMember_some h).1, List.filterMap_append]
  rfl

theorem Whole.addMember (h : Whole players t) (hadd : t.addMember info = some t')
    (hknown : players.known info = true) (hnew : info ∉ t.guids) : Whole players t' := by
  obtain ⟨hroster, -, hlen, hbound, htype, -⟩ := addMember_some hadd
  have hguids := guids_addMember hadd
  refine ⟨by rw [hlen, htype]; exact h.slots, by rw [htype]; exact h.slotted, hbound, ?_, ?_, ?_⟩
  · intro m hm
    rw [hroster, List.mem_append, List.mem_singleton] at hm
    rcases hm with hm | rfl
    · exact h.whole m hm
    · rfl
  · rw [hguids]
    exact List.nodup_append.2 ⟨h.once, List.nodup_singleton info, by
      rintro a ha b hb rfl
      rw [List.mem_singleton] at hb
      exact hnew (hb ▸ ha)⟩
  · intro g hg
    rw [hguids, List.mem_append, List.mem_singleton] at hg
    rcases hg with hg | rfl
    · exact h.known g hg
    · exact hknown

/-- `RemoveMember` closes the gap. -/
theorem removeMember_some (h : Whole players t) (hremove : t.removeMember info = some t') :
    ∃ i, ∃ hi : i < t.roster.length, t.roster[i].info = some info ∧
      t'.roster = t.roster.eraseIdx i ∧ t'.memberCount = t.memberCount - 1 ∧
      t'.members.length = t.members.length ∧ t'.type = t.type ∧ t'.id = t.id := by
  obtain ⟨i, hfind, rfl⟩ := Option.map_eq_some_iff.1 hremove
  obtain ⟨hi, hinfo, -⟩ := List.findIdx?_eq_some_iff_getElem.1 hfind
  have hlt : i < t.memberCount := h.length_roster ▸ hi
  refine ⟨i, hi, beq_iff_eq.1 hinfo, ?_, rfl, length_shiftDown _ _ _, rfl, rfl⟩
  exact take_shiftDown t.members i t.memberCount hlt h.bound

theorem removeMember_none (hremove : t.removeMember info = none) : info ∉ t.guids := by
  unfold removeMember at hremove
  rw [Option.map_eq_none_iff, List.findIdx?_eq_none_iff] at hremove
  intro hmem
  obtain ⟨m, hm, hinfo⟩ := mem_guids.1 hmem
  have hne := hremove m hm
  rw [hinfo, beq_self_eq_true] at hne
  cases hne

theorem guids_removeMember (h : Whole players t) (hremove : t.removeMember info = some t') :
    t.guids.Perm (info :: t'.guids) := by
  obtain ⟨i, hi, hinfo, hroster, -⟩ := removeMember_some h hremove
  unfold guids
  rw [hroster]
  have hperm := (List.getElem_cons_eraseIdx_perm hi).symm.filterMap (·.info)
  rw [List.filterMap_cons_some hinfo] at hperm
  exact hperm

theorem Whole.removeMember (h : Whole players t) (hremove : t.removeMember info = some t') :
    Whole players t' := by
  obtain ⟨i, hi, -, hroster, hcount, hlen, htype, -⟩ := removeMember_some h hremove
  have hperm := guids_removeMember h hremove
  refine ⟨by rw [hlen, htype]; exact h.slots, by rw [htype]; exact h.slotted, ?_, ?_, ?_, ?_⟩
  · rw [hlen, hcount]
    exact (Nat.sub_le _ _).trans h.bound
  · intro m hm
    rw [hroster] at hm
    exact h.whole m (List.mem_of_mem_eraseIdx hm)
  · exact (List.nodup_cons.1 (hperm.nodup_iff.1 h.once)).2
  · intro g hg
    exact h.known g (hperm.mem_iff.2 (List.mem_cons_of_mem info hg))

theorem whole_create {id type : Nat} {data : ArenaTeamData}
    (h : ArenaTeam.create id type data = some t) :
    Whole players t ∧ t.guids = [] ∧ t.id = id ∧ t.type = type := by
  unfold ArenaTeam.create at h
  split at h
  · cases h
  · rename_i hslots
    cases h
    exact ⟨⟨List.length_replicate, hslots, Nat.zero_le _, by rintro m ⟨⟩, List.nodup_nil,
      by rintro g ⟨⟩⟩, rfl, rfl, rfl⟩

end ArenaTeam

/-- The players of the columns of a row. -/
def ArenaTeamRow.resolved (players : PlayerInfos) (row : ArenaTeamRow) : List (Option Nat) :=
  row.columns.map (resolve players)

namespace ArenaTeam

variable {players : PlayerInfos} {t t' : ArenaTeam} {info g : Nat} {row : ArenaTeamRow}

theorem map_info_load (h : load players row = some t) :
    t.members.map (·.info) = row.resolved players := by
  rw [(load_members h).1, List.map_map]
  rfl

/-- No player of the row stands behind a column without one. -/
def Gapless (l : List (Option Nat)) : Prop := l.Pairwise fun a b => b.isSome = true → a.isSome = true

instance (l : List (Option Nat)) : Decidable (Gapless l) :=
  inferInstanceAs (Decidable (l.Pairwise fun a b => b.isSome = true → a.isSome = true))

theorem load_whole_iff (h : load players row = some t) :
    (∀ m ∈ t.roster, m.info.isSome = true) ↔ Gapless (row.resolved players) := by
  unfold Gapless roster
  rw [← map_info_load h, List.pairwise_map, (load_members h).2.1]
  exact front_iff (fun m : ArenaTeamMember => m.info.isSome) t.members

/-- The roster has all the players of the row when there is no gap. -/
theorem guids_load (h : load players row = some t)
    (hwhole : ∀ m ∈ t.roster, m.info.isSome = true) :
    t.guids = (row.resolved players).reduceOption := by
  have hrest : (t.members.drop t.memberCount).filterMap (·.info) = [] := by
    rw [List.filterMap_eq_nil_iff]
    intro m hm
    have hcount := (load_members h).2.1
    unfold roster at hwhole
    rw [hcount] at hwhole hm
    exact Option.isNone_iff_eq_none.1 (Option.isSome_eq_false_iff.1
      (not_counted_of_front (p := fun m : ArenaTeamMember => m.info.isSome) hwhole m hm))
  unfold List.reduceOption
  rw [← map_info_load h, List.filterMap_map]
  unfold guids roster
  show _ = t.members.filterMap (·.info)
  rw [← List.take_append_drop t.memberCount t.members, List.filterMap_append, hrest,
    List.append_nil, List.take_append_drop]

/-- A team that has been loaded is whole when its row has no gap and
nobody twice. -/
theorem whole_load (h : load players row = some t) (hgap : Gapless (row.resolved players))
    (honce : ((row.resolved players).reduceOption).Nodup) : Whole players t := by
  obtain ⟨hmembers, hcount, htype, hid, hslots⟩ := load_members h
  have hwhole := (load_whole_iff h).2 hgap
  refine ⟨?_, by rw [htype]; exact hslots, ?_, hwhole, by rw [guids_load h hwhole]; exact honce, ?_⟩
  · rw [hmembers, List.length_map, length_columns, htype]
  · rw [hcount]
    exact List.countP_le_length
  · intro g hg
    obtain ⟨m, hm, hinfo⟩ := mem_guids.1 hg
    have hin := List.mem_of_mem_take hm
    rw [hmembers, List.mem_map] at hin
    obtain ⟨numbers, -, rfl⟩ := hin
    change resolve players numbers = some g at hinfo
    unfold resolve at hinfo
    rw [Option.ite_none_right_eq_some] at hinfo
    obtain ⟨⟨-, hknown⟩, heq⟩ := hinfo
    cases heq
    exact hknown

end ArenaTeam

end HearthStone
