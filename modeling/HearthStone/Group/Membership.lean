/-
HearthStone.Group.Membership — who is in which subgroup.

A group's sets, its counter and the fields of the players' records are
written one after the other. `Groups.Inv` says that they agree: the sets
of all groups are the fibres of the map the records make up
(`Groups.placeOf`), and every group counts its members.

* A call on the roles of a group does not touch its roster.
* A call on its members is one of four writes: a player who is in no
  group is put in a subgroup, a member is taken out, a group is
  destroyed, a raid gets its empty subgroups.
* `GroupCall.Sound` is the condition under which a call is one of them.
-/
import HearthStone.Group.Group
import HearthStone.Lib.Fibers
import HearthStone.Lib.Run

namespace HearthStone

open Lib

/-! ## The roster of a group -/

/-- The part of a group that says who is in it. -/
structure Roster where
  subGroups : Fin 8 → Option SubGroup
  subGroupCount : UInt8
  memberCount : UInt32
  groupType : UInt8

namespace Group

variable {G H : Group} {online : Nat → Bool} {i j : Fin 8} {p q : Nat}

def roster (G : Group) : Roster where
  subGroups := G.subGroups
  subGroupCount := G.subGroupCount
  memberCount := G.memberCount
  groupType := G.groupType

@[simp] theorem roster_update : (G.update online).roster = G.roster := by
  unfold update
  split <;> rfl

@[simp] theorem roster_setLeader (player : Option Nat) :
    (G.setLeader online player).roster = G.roster := by
  unfold setLeader
  rw [roster_update]
  split <;> rfl

@[simp] theorem roster_setLooter (player : Option Nat) (method : UInt8) (threshold : UInt16) :
    (G.setLooter online player method threshold).roster = G.roster := by
  unfold setLooter
  rw [roster_update]
  rfl

@[simp] theorem roster_setAssistantLeader (member : Option Nat) :
    (G.setAssistantLeader online member).roster = G.roster := by
  unfold setAssistantLeader
  split
  · rfl
  · rw [roster_update]
    rfl

@[simp] theorem roster_setMainTank (member : Option Nat) :
    (G.setMainTank online member).roster = G.roster := by
  unfold setMainTank
  split
  · rfl
  · rw [roster_update]
    rfl

@[simp] theorem roster_setMainAssist (member : Option Nat) :
    (G.setMainAssist online member).roster = G.roster := by
  unfold setMainAssist
  split
  · rfl
  · rw [roster_update]
    rfl

@[simp] theorem roster_defaultLeader : (G.defaultLeader online p).roster = G.roster := by
  unfold defaultLeader
  split <;> rfl

@[simp] theorem roster_repairRoles : (G.repairRoles online p).roster = G.roster := by
  unfold repairRoles
  dsimp only
  split <;> split <;> try split
  all_goals first | rfl | exact roster_setLeader _

theorem members_congr (h : G.roster = H.roster) : G.members = H.members := by
  have hsub : G.subGroups = H.subGroups := congrArg Roster.subGroups h
  funext i
  unfold members
  rw [hsub]

@[simp] theorem members_insertMember :
    (G.insertMember i p).members = Function.update G.members i (insert p (G.members i)) := by
  funext j
  by_cases hj : j = i
  · subst hj
    simp [insertMember, members]
  · simp [insertMember, members, hj]

@[simp] theorem members_eraseMember :
    (G.eraseMember i p).members = Function.update G.members i ((G.members i).erase p) := by
  funext j
  by_cases hj : j = i
  · subst hj
    simp [eraseMember, members]
  · simp [eraseMember, members, hj]

theorem mem_slots : i ∈ G.slots ↔ i.val < G.subGroupCount.toNat := by
  simp [slots]

/-- The subgroups stand in the first slots, and there is one. -/
structure Slotted (G : Group) : Prop where
  first : 0 ∈ G.slots
  slotted : ∀ i, (G.subGroups i).isSome ↔ i ∈ G.slots

theorem Slotted.congr (h : G.Slotted) (hsub : H.subGroups = G.subGroups)
    (hcount : H.subGroupCount = G.subGroupCount) : H.Slotted := by
  have hslots : H.slots = G.slots := by
    unfold slots
    rw [hcount]
  constructor
  · rw [hslots]
    exact h.first
  · rw [hsub, hslots]
    exact h.slotted

theorem Slotted.of_roster (h : G.Slotted) (hroster : H.roster = G.roster) : H.Slotted :=
  h.congr (congrArg Roster.subGroups hroster) (congrArg Roster.subGroupCount hroster)

theorem Slotted.insertMember (h : G.Slotted) (hi : i ∈ G.slots) : (G.insertMember i p).Slotted := by
  constructor
  · exact h.first
  · intro j
    change _ ↔ j ∈ G.slots
    by_cases hj : j = i
    · subst hj
      simp [Group.insertMember, hi]
    · rw [← h.slotted j]
      simp [Group.insertMember, hj]

theorem Slotted.eraseMember (h : G.Slotted) (hi : i ∈ G.slots) : (G.eraseMember i p).Slotted := by
  constructor
  · exact h.first
  · intro j
    change _ ↔ j ∈ G.slots
    by_cases hj : j = i
    · subst hj
      simp [Group.eraseMember, hi]
    · rw [← h.slotted j]
      simp [Group.eraseMember, hj]

theorem Slotted.expandToRaid (h : G.Slotted) : (G.expandToRaid online).Slotted := by
  let H : Group :=
    { G with subGroupCount := 8
             subGroups := fun i => if i = 0 then G.subGroups i else some .new
             groupType := GROUP_TYPE_RAID }
  have hH : H.Slotted := by
    constructor
    · rw [mem_slots]
      exact Nat.zero_lt_succ 7
    · intro i
      have hslot : i ∈ H.slots := mem_slots.2 i.isLt
      by_cases hi : i = 0
      · subst hi
        simp [hslot, H, (h.slotted 0).2 h.first]
      · simp [hslot, H, hi]
  refine hH.of_roster ?_
  unfold Group.expandToRaid
  rw [roster_update]
  rfl

/-- A slot without a subgroup has no members. -/
theorem Slotted.mem_slots_of_mem (h : G.Slotted) (hp : p ∈ G.members i) : i ∈ G.slots := by
  rw [← h.slotted]
  unfold members at hp
  cases hsg : G.subGroups i with
  | none => simp [hsg] at hp
  | some sg => rfl

/-- No subgroup has more than five members, and the counter is right. -/
structure Sound (G : Group) : Prop extends Slotted G where
  five : ∀ i, (G.members i).card ≤ 5
  counted : G.memberCount.toNat = ∑ i, (G.members i).card

theorem Sound.congr (h : G.Sound) (hroster : H.roster = G.roster) : H.Sound := by
  have hcount : H.memberCount = G.memberCount := congrArg Roster.memberCount hroster
  refine ⟨h.toSlotted.of_roster hroster, ?_, ?_⟩
  · rw [members_congr hroster]
    exact h.five
  · rw [hcount, members_congr hroster]
    exact h.counted

theorem members_new (groupId : UInt32) : (new groupId).members i = ∅ := by
  unfold members new
  dsimp only
  split <;> rfl

theorem slotted_new (groupId : UInt32) : (new groupId).Slotted := by
  constructor
  · rw [mem_slots]
    exact Nat.zero_lt_one
  · intro i
    rw [mem_slots]
    change (if i = 0 then some SubGroup.new else none).isSome ↔ i.val < 1
    split
    · rename_i hi
      simp [hi]
    · rename_i hi
      have hne : i.val ≠ 0 := Fin.val_ne_zero_iff.2 hi
      simp [hne]

theorem sound_new (groupId : UInt32) : (new groupId).Sound := by
  refine ⟨slotted_new groupId, ?_, ?_⟩
  · intro i
    simp [members_new]
  · simp only [members_new]
    rfl

theorem Sound.counted_le (h : G.Sound) : G.memberCount.toNat ≤ 40 := by
  have hle : ∑ i, (G.members i).card ≤ ∑ _i : Fin 8, 5 := Finset.sum_le_sum fun i _ => h.five i
  rw [h.counted]
  simpa using hle

theorem hasRoom_iff :
    G.hasRoom i = true ↔ (G.subGroups i).isSome ∧ (G.members i).card < 5 := by
  unfold hasRoom members SubGroup.isFull
  cases G.subGroups i with
  | none => simp
  | some sg => simp

/-! ### The searches -/

theorem Slotted.findSubGroupOf_of_mem (h : G.Slotted) (hp : p ∈ G.members i)
    (hone : ∀ j, p ∈ G.members j → j = i) (s : Option (Fin 8)) :
    G.findSubGroupOf p s = some i := by
  unfold findSubGroupOf
  dsimp only
  split
  · rename_i hfound
    obtain ⟨j, hj, hmem⟩ := (Option.any_eq_true _ _).1 hfound
    rw [hj, hone j (of_decide_eq_true hmem)]
  · have hsome : (G.slots.find? fun i => decide (p ∈ G.members i)).isSome := by
      rw [List.find?_isSome]
      exact ⟨i, h.mem_slots_of_mem hp, decide_eq_true hp⟩
    obtain ⟨j, hj⟩ := Option.isSome_iff_exists.1 hsome
    have hmem : decide (p ∈ G.members j) = true :=
      List.find?_some (p := fun i => decide (p ∈ G.members i)) hj
    rw [hj, Option.some_or, hone j (of_decide_eq_true hmem)]

/-- The search ends at a slot with a subgroup. -/
theorem Slotted.mem_slots_of_find (h : G.Slotted) {s : Option (Fin 8)}
    (hi : G.findSubGroupOf p s = some i) : i ∈ G.slots := by
  have hhint : ∀ j, (s.filter fun i => (G.subGroups i).isSome) = some j → j ∈ G.slots := by
    intro j hj
    exact (h.slotted j).1 (Option.filter_eq_some_iff.1 hj).2
  unfold findSubGroupOf at hi
  dsimp only at hi
  split at hi
  · exact hhint i hi
  · cases hfind : G.slots.find? fun i => decide (p ∈ G.members i) with
    | some j =>
      rw [hfind, Option.some_or] at hi
      obtain rfl := Option.some.inj hi
      exact List.mem_of_find?_eq_some hfind
    | none =>
      rw [hfind, Option.none_or] at hi
      exact hhint i hi

theorem findSubGroupOf_of_not_mem (hp : ∀ j, p ∉ G.members j) (s : Option (Fin 8)) :
    G.findSubGroupOf p s = s.filter fun i => (G.subGroups i).isSome := by
  have hfind : (G.slots.find? fun i => decide (p ∈ G.members i)) = none := by
    rw [List.find?_eq_none]
    intro j _
    simpa using hp j
  unfold findSubGroupOf
  dsimp only
  rw [hfind, Option.none_or, ite_self]

/-- A subgroup still has room when somebody has been taken out. -/
theorem hasRoom_eraseMember (h : G.hasRoom j = true) : (G.eraseMember i p).hasRoom j = true := by
  obtain ⟨hsome, hcard⟩ := hasRoom_iff.1 h
  rw [hasRoom_iff, members_eraseMember]
  by_cases hj : j = i
  · subst hj
    rw [Function.update_self]
    exact ⟨by simp [eraseMember],
      lt_of_le_of_lt (Finset.card_le_card (Finset.erase_subset p _)) hcard⟩
  · rw [Function.update_of_ne hj]
    exact ⟨by simpa [eraseMember, hj] using hsome, hcard⟩

end Group

/-! ## The state of all groups -/

namespace Groups

variable {M : Groups} {g g' p q : Nat} {i j : Fin 8} {G H : Group}

/-- Who is in a subgroup; nobody is in that of a destroyed group. -/
def members (M : Groups) (x : Nat × Fin 8) : Finset Nat :=
  ((M.group x.1).map fun G => G.members x.2).getD ∅

/-- The place a player's record names. -/
def placeOf (M : Groups) (p : Nat) : Option (Nat × Fin 8) :=
  (M.info p).group.bind fun g => (M.info p).subGroup.map fun i => (g, i)

/-- Sets, counters and records agree. -/
structure Inv (M : Groups) : Prop where
  sound : ∀ g G, M.group g = some G → G.Sound
  fibers : Fibers M.members M.placeOf
  placed : ∀ p g, (M.info p).group = some g → M.placeOf p ≠ none

theorem placeOf_eq_some :
    M.placeOf p = some (g, i) ↔ (M.info p).group = some g ∧ (M.info p).subGroup = some i := by
  unfold placeOf
  cases (M.info p).group <;> cases (M.info p).subGroup <;> simp

theorem placeOf_eq_none (h : (M.info p).group = none) : M.placeOf p = none := by
  unfold placeOf
  rw [h]
  rfl

theorem members_of_group (hg : M.group g = some G) : M.members (g, i) = G.members i := by
  simp [members, hg]

@[simp] theorem placeOf_setGroup (o : Option Group) : (M.setGroup g o).placeOf = M.placeOf := rfl

@[simp] theorem members_setPlace (o : Option Nat) (s : Option (Fin 8)) :
    (M.setPlace p o s).members = M.members := rfl

@[simp] theorem info_setPlace_of_ne (o : Option Nat) (s : Option (Fin 8)) (h : q ≠ p) :
    (M.setPlace p o s).info q = M.info q := Function.update_of_ne h ..

@[simp] theorem info_setPlace_self (o : Option Nat) (s : Option (Fin 8)) :
    (M.setPlace p o s).info p = { M.info p with group := o, subGroup := s } :=
  Function.update_self ..

@[simp] theorem online_setPlace (o : Option Nat) (s : Option (Fin 8)) :
    (M.setPlace p o s).online = M.online := by
  funext q
  unfold online
  by_cases hq : q = p
  · subst hq
    rw [info_setPlace_self]
  · rw [info_setPlace_of_ne o s hq]

theorem placeOf_setPlace (o : Option Nat) (s : Option (Fin 8)) :
    (M.setPlace p o s).placeOf =
      Function.update M.placeOf p (o.bind fun g => s.map fun i => (g, i)) := by
  funext q
  by_cases hq : q = p
  · subst hq
    rw [Function.update_self]
    unfold placeOf
    rw [info_setPlace_self]
  · rw [Function.update_of_ne hq]
    unfold placeOf
    rw [info_setPlace_of_ne o s hq]

theorem members_setGroup {X : Finset Nat} (hg : M.group g = some G)
    (hH : H.members = Function.update G.members i X) :
    (M.setGroup g (some H)).members = Function.update M.members (g, i) X := by
  funext ⟨h, j⟩
  by_cases hh : h = g
  · subst hh
    by_cases hj : j = i
    · subst hj
      simp [members, setGroup, hH]
    · simp [members, setGroup, hH, hj, hg]
  · simp [members, setGroup, hh]

theorem group_setGroup_cases {h : Nat} {G' : Group} {o : Option Group}
    (hG : (M.setGroup g o).group h = some G') :
    (h = g ∧ o = some G') ∨ (h ≠ g ∧ M.group h = some G') := by
  by_cases hh : h = g
  · subst hh
    simp [setGroup] at hG
    exact Or.inl ⟨rfl, hG⟩
  · simp [setGroup, hh] at hG
    exact Or.inr ⟨hh, hG⟩

/-! ## What a call does to the groups -/

section

variable {P : Group → Prop} {k : Nat} {K : Group}

theorem group_setGroup_self (o : Option Group) : (M.setGroup g o).group g = o :=
  Function.update_self ..

theorem group_setGroup_of_ne {o : Option Group} (hk : k ≠ g) :
    (M.setGroup g o).group k = M.group k := Function.update_of_ne hk ..

theorem online_disband : (M.disband g G).online = M.online := by
  funext q
  unfold Groups.online disband
  dsimp only
  split <;> rfl

theorem online_removePlayer : (M.removePlayer g p).online = M.online := by
  unfold removePlayer
  split
  · rfl
  · split
    · exact online_setPlace ..
    · dsimp only
      split
      · rw [online_disband, online_setPlace]
      · exact online_setPlace ..

theorem online_leaveOther : (M.leaveOther g p).online = M.online := by
  unfold leaveOther
  split
  · split
    · rfl
    · exact online_removePlayer
  · rfl

theorem online_addMember {subgroupid : Int} :
    (M.addMember g p subgroupid).1.online = M.online := by
  unfold addMember
  split
  · rfl
  · split
    · exact online_setPlace ..
    · split
      · rfl
      · split
        · exact online_setPlace ..
        · exact (online_setPlace ..).trans (online_leaveOther.trans (online_setPlace ..))

theorem online_movePlayer {subgroup : UInt8} : (M.movePlayer g p subgroup).online = M.online := by
  unfold movePlayer
  split
  · rfl
  · split
    · rfl
    · split
      · rfl
      · split
        · rfl
        · split
          · rfl
          · rename_i hroom _ _ _
            dsimp only
            rw [if_pos (Group.hasRoom_eraseMember (by simpa using hroom))]
            exact online_setPlace ..

theorem group_removePlayer_of_ne (hgg' : g ≠ g') :
    (M.removePlayer g' p).group g = M.group g := by
  unfold removePlayer
  split
  · rfl
  · split
    · rfl
    · dsimp only
      split
      · exact Function.update_of_ne hgg' ..
      · exact Function.update_of_ne hgg' ..

theorem group_leaveOther_self : (M.leaveOther g p).group g = M.group g := by
  unfold leaveOther
  split
  · split
    · rfl
    · rename_i hne
      exact group_removePlayer_of_ne (Ne.symm hne)
  · rfl

theorem group_modify_cases {f : Group → Group} (hK : (M.modify g f).group k = some K) :
    (k ≠ g ∧ M.group k = some K) ∨ ∃ G, k = g ∧ M.group g = some G ∧ f G = K := by
  rcases group_setGroup_cases hK with ⟨hk, heq⟩ | ⟨hk, hK⟩
  · obtain ⟨G, hg, hf⟩ := Option.map_eq_some_iff.1 heq
    exact Or.inr ⟨G, hk, hg, hf⟩
  · exact Or.inl ⟨hk, hK⟩

/-- A group after `RemovePlayer` has been left alone, or has lost the
player and looked after its roles. -/
theorem removePlayer_cases (hK : (M.removePlayer g p).group k = some K) :
    M.group k = some K ∨ ∃ G i, k = g ∧ M.group g = some G ∧
      G.findSubGroupOf p (M.info p).subGroup = some i ∧ G.disbands = false ∧
      K = (({ G.eraseMember i p with
        dirty := true, memberCount := G.memberCount - 1 } : Group).repairRoles M.online p).update
          M.online := by
  unfold removePlayer at hK
  split at hK
  · exact Or.inl hK
  · rename_i G hg
    split at hK
    · exact Or.inl hK
    · rename_i i hi
      split at hK
      · by_cases hk : k = g
        · subst hk
          simp [disband] at hK
        · exact Or.inl (by simpa [disband, setPlace, hk] using hK)
      · rename_i hstays
        rcases group_setGroup_cases hK with ⟨hk, heq⟩ | ⟨-, hK⟩
        · exact Or.inr ⟨G, i, hk, hg, hi, by simpa using hstays, (Option.some.inj heq).symm⟩
        · exact Or.inl hK

/-- A group after `AddMember` has been left alone; or has lost the player
to the other; or has got him. -/
theorem addMember_cases {subgroupid : Int}
    (hK : (M.addMember g p subgroupid).1.group k = some K) :
    M.group k = some K ∨ ∃ G i, M.group g = some G ∧ G.chosenSubGroup subgroupid = some i ∧
      G.hasRoom i = true ∧
      ((∃ G' j, k ≠ g ∧ (M.info p).group = some k ∧ M.group k = some G' ∧
          G'.findSubGroupOf p (some i) = some j ∧ G'.disbands = false ∧
          K = (({ G'.eraseMember j p with
            dirty := true, memberCount := G'.memberCount - 1 } : Group).repairRoles M.online
              p).update M.online) ∨
        k = g ∧ K = (({ G.insertMember i p with
          dirty := true, memberCount := G.memberCount + 1 } : Group).update M.online).defaultLeader
            M.online p) := by
  unfold addMember at hK
  split at hK
  · exact Or.inl hK
  · rename_i G hg
    split at hK
    · exact Or.inl hK
    · split at hK
      · exact Or.inl hK
      · rename_i i hchosen
        split at hK
        · exact Or.inl hK
        · rename_i hroom
          have hroom : G.hasRoom i = true := by simpa using hroom
          let M₁ := (M.setPlace p (M.info p).group (some i)).setGroup g
            (some (({ G.insertMember i p with
              dirty := true, memberCount := G.memberCount + 1 } : Group).update M.online))
          have honline : M₁.online = M.online := online_setPlace ..
          have hinfo : M₁.info p = { M.info p with subGroup := some i } := info_setPlace_self ..
          rcases group_modify_cases (M := M₁.leaveOther g p) hK with ⟨hk, hK⟩ | ⟨G₁, hk, hG₁, hf⟩
          · have hother : M₁.group k = M.group k := group_setGroup_of_ne hk
            unfold leaveOther at hK
            split at hK
            · rename_i g' hg'
              rw [hinfo] at hg'
              split at hK
              · rw [hother] at hK
                exact Or.inl hK
              · rcases removePlayer_cases hK with hK | ⟨G', j, rfl, hG', hj, hstays, hK⟩
                · rw [hother] at hK
                  exact Or.inl hK
                · rw [hinfo] at hj
                  rw [hother] at hG'
                  rw [honline] at hK
                  exact Or.inr ⟨G, i, hg, hchosen, hroom,
                    Or.inl ⟨G', j, hk, hg', hG', hj, hstays, hK⟩⟩
            · rw [hother] at hK
              exact Or.inl hK
          · rw [group_leaveOther_self, group_setGroup_self] at hG₁
            obtain rfl := Option.some.inj hG₁
            exact Or.inr ⟨G, i, hg, hchosen, hroom, Or.inr ⟨hk, hf.symm⟩⟩

/-- A group after `MovePlayer` has been left alone, or has put the player
in another of its subgroups. -/
theorem movePlayer_cases {subgroup : UInt8} (hK : (M.movePlayer g p subgroup).group k = some K) :
    M.group k = some K ∨ ∃ G i j s, k = g ∧ M.group g = some G ∧ G.hasRoom j = true ∧
      G.findSubGroupOf p s = some i ∧
      K = ((G.eraseMember i p).insertMember j p).update M.online := by
  unfold movePlayer at hK
  split at hK
  · exact Or.inl hK
  · rename_i G hg
    split at hK
    · exact Or.inl hK
    · split at hK
      · exact Or.inl hK
      · rename_i j hslot
        split at hK
        · exact Or.inl hK
        · rename_i hroom
          have hroom : G.hasRoom j = true := by simpa using hroom
          split at hK
          · exact Or.inl hK
          · rename_i i hi
            dsimp only at hK
            rw [if_pos (Group.hasRoom_eraseMember hroom)] at hK
            rcases group_modify_cases
              (M := (M.setGroup g (some ((G.eraseMember i p).insertMember j p))).setPlace p (some g)
                (some j)) hK with ⟨hk, hK⟩ | ⟨G₁, hk, hG₁, hf⟩
            · have hother : (M.setGroup g (some ((G.eraseMember i p).insertMember j p))).group k =
                  M.group k := group_setGroup_of_ne hk
              exact Or.inl (hother.symm.trans hK)
            · have hself : (M.setGroup g (some ((G.eraseMember i p).insertMember j p))).group g =
                  some ((G.eraseMember i p).insertMember j p) := group_setGroup_self _
              obtain rfl := Option.some.inj (hself.symm.trans hG₁)
              exact Or.inr ⟨G, i, j, _, hk, hg, hroom, hi, hf.symm⟩

end

/-! ## Four writes -/

/-- A member's record names his place. -/
theorem Inv.mem_iff (h : M.Inv) (hg : M.group g = some G) :
    p ∈ G.members i ↔ M.placeOf p = some (g, i) := by
  rw [← h.fibers (g, i) p, members_of_group hg]

theorem Inv.not_mem (h : M.Inv) (hg : M.group g = some G) (hp : (M.info p).group ≠ some g) :
    p ∉ G.members i := by
  intro hmem
  exact hp (placeOf_eq_some.1 ((h.mem_iff hg).1 hmem)).1

/-- A player in no group is put in a subgroup. -/
theorem Inv.put (h : M.Inv) (hg : M.group g = some G) (hp : (M.info p).group = none)
    (hroom : G.hasRoom i = true)
    (hroster : H.roster =
      { (G.insertMember i p).roster with memberCount := G.memberCount + 1 }) :
    ((M.setGroup g (some H)).setPlace p (some g) (some i)).Inv := by
  have hmem : H.members = Function.update G.members i (insert p (G.members i)) := by
    rw [← Group.members_insertMember]
    exact Group.members_congr (H := { G.insertMember i p with memberCount := G.memberCount + 1 })
      hroster
  have hnot : p ∉ G.members i := h.not_mem hg (by simp [hp])
  have hG := h.sound g G hg
  obtain ⟨hsome, hcard⟩ := Group.hasRoom_iff.1 hroom
  have hslotted : H.Slotted :=
    (hG.toSlotted.insertMember ((hG.slotted i).1 hsome)).congr (congrArg Roster.subGroups hroster)
      (congrArg Roster.subGroupCount hroster)
  have hcount : H.memberCount = G.memberCount + 1 := congrArg Roster.memberCount hroster
  constructor
  · intro k K hK
    rcases group_setGroup_cases (o := some H) hK with ⟨-, heq⟩ | ⟨-, hK⟩
    · obtain rfl := Option.some.inj heq
      refine ⟨hslotted, ?_, ?_⟩
      · intro j
        rw [hmem]
        by_cases hj : j = i
        · subst hj
          rw [Function.update_self, Finset.card_insert_of_notMem hnot]
          omega
        · rw [Function.update_of_ne hj]
          exact hG.five j
      · rw [hcount, hmem, sum_card_put hnot, ← hG.counted, UInt32.toNat_add]
        have hle := hG.counted_le
        have hone : (1 : UInt32).toNat = 1 := rfl
        omega
    · exact h.sound k K hK
  · rw [placeOf_setPlace, members_setPlace, members_setGroup hg hmem, ← members_of_group hg]
    exact h.fibers.put (placeOf_eq_none hp)
  · intro q k hq
    by_cases hqp : q = p
    · subst hqp
      simp [placeOf_setPlace]
    · rw [info_setPlace_of_ne _ _ hqp] at hq
      rw [placeOf_setPlace, Function.update_of_ne hqp]
      exact h.placed q k hq

/-- A member is taken out. -/
theorem Inv.take (h : M.Inv) (hg : M.group g = some G) (hp : M.placeOf p = some (g, i))
    (hroster : H.roster =
      { (G.eraseMember i p).roster with memberCount := G.memberCount - 1 }) :
    ((M.setPlace p none none).setGroup g (some H)).Inv := by
  have hmem : H.members = Function.update G.members i ((G.members i).erase p) := by
    rw [← Group.members_eraseMember]
    exact Group.members_congr (H := { G.eraseMember i p with memberCount := G.memberCount - 1 })
      hroster
  have hin : p ∈ G.members i := (h.mem_iff hg).2 hp
  have hG := h.sound g G hg
  have hslotted : H.Slotted :=
    (hG.toSlotted.eraseMember (hG.mem_slots_of_mem hin)).congr (congrArg Roster.subGroups hroster)
      (congrArg Roster.subGroupCount hroster)
  have hcount : H.memberCount = G.memberCount - 1 := congrArg Roster.memberCount hroster
  constructor
  · intro k K hK
    rcases group_setGroup_cases hK with ⟨-, heq⟩ | ⟨-, hK⟩
    · obtain rfl := Option.some.inj heq
      refine ⟨hslotted, ?_, ?_⟩
      · intro j
        rw [hmem]
        by_cases hj : j = i
        · subst hj
          rw [Function.update_self]
          exact le_trans (Finset.card_le_card (Finset.erase_subset p _)) (hG.five j)
        · rw [Function.update_of_ne hj]
          exact hG.five j
      · have hsum := sum_card_take hin
        have hle := hG.counted_le
        rw [← hG.counted] at hsum
        have hone : (1 : UInt32).toNat = 1 := rfl
        rw [hcount, hmem, UInt32.toNat_sub]
        omega
    · exact h.sound k K hK
  · rw [placeOf_setGroup, placeOf_setPlace, members_setGroup (M := M.setPlace p none none) hg hmem,
      ← members_of_group hg]
    exact h.fibers.take hp
  · intro q k hq
    by_cases hqp : q = p
    · subst hqp
      have hself : ((M.setPlace q none none).info q).group = some k := hq
      rw [info_setPlace_self] at hself
      cases hself
    · have hother : ((M.setPlace p none none).info q).group = some k := hq
      rw [info_setPlace_of_ne _ _ hqp] at hother
      rw [placeOf_setGroup, placeOf_setPlace, Function.update_of_ne hqp]
      exact h.placed q k hother

/-- A player in no group has his record cleared. -/
theorem Inv.clearPlace (h : M.Inv) (hp : (M.info p).group = none) :
    (M.setPlace p none none).Inv := by
  have hplace : (M.setPlace p none none).placeOf = M.placeOf := by
    rw [placeOf_setPlace, Option.bind_none, ← placeOf_eq_none hp, Function.update_eq_self]
  constructor
  · exact h.sound
  · rw [hplace]
    exact h.fibers
  · intro q k hq
    rw [hplace]
    by_cases hqp : q = p
    · subst hqp
      rw [info_setPlace_self] at hq
      cases hq
    · rw [info_setPlace_of_ne _ _ hqp] at hq
      exact h.placed q k hq

/-- A group is rewritten without a change of its members. -/
theorem Inv.setGroup (h : M.Inv) (hmem : ∀ i, M.members (g, i) = H.members i) (hs : H.Sound) :
    (M.setGroup g (some H)).Inv := by
  constructor
  · intro k K hK
    rcases group_setGroup_cases hK with ⟨-, heq⟩ | ⟨-, hK⟩
    · obtain rfl := Option.some.inj heq
      exact hs
    · exact h.sound k K hK
  · have hsame : (M.setGroup g (some H)).members = M.members := by
      funext ⟨k, i⟩
      by_cases hk : k = g
      · subst hk
        rw [hmem i]
        simp [members, Groups.setGroup]
      · simp [members, Groups.setGroup, hk]
    rw [placeOf_setGroup, hsame]
    exact h.fibers
  · exact h.placed

/-- A call on the roles of a group. -/
theorem Inv.modify (h : M.Inv) {f : Group → Group} (hf : ∀ G, (f G).roster = G.roster) :
    (M.modify g f).Inv := by
  unfold Groups.modify
  cases hg : M.group g with
  | none =>
    have hsame : M.setGroup g none = M := by
      unfold Groups.setGroup
      rw [← hg, Function.update_eq_self]
    rw [Option.map_none, hsame]
    exact h
  | some G =>
    refine h.setGroup ?_ ((h.sound g G hg).congr (hf G))
    intro i
    rw [members_of_group hg, Group.members_congr (hf G)]

theorem placeOf_disband (g q : Nat) (H : Group) :
    (M.disband g H).placeOf q =
      if ∃ i ∈ H.slots, q ∈ H.members i then none else M.placeOf q := by
  unfold placeOf Groups.disband
  dsimp only
  split <;> rfl

theorem members_disband (g : Nat) (H : Group) :
    (M.disband g H).members = fun x => if decide (x.1 = g) then ∅ else M.members x := by
  funext ⟨k, i⟩
  by_cases hk : k = g
  · subst hk
    simp [members, Groups.disband]
  · simp [members, Groups.disband, hk]

/-- A group is destroyed. `H` is what is left of it when the player `p`,
whose record is cleared as well, has been taken out. -/
theorem Inv.disband (h : M.Inv) (hg : M.group g = some G) (hslots : H.slots = G.slots)
    (hmem : ∀ q, q ≠ p → ∀ i, q ∈ H.members i ↔ q ∈ G.members i)
    (hp : ∀ k, (M.info p).group = some k → k = g) :
    ((M.setPlace p none none).disband g H).Inv := by
  have hcleared : ∀ q, q ≠ p →
      ((∃ i ∈ H.slots, q ∈ H.members i) ↔ ∃ i, M.placeOf q = some (g, i)) := by
    intro q hq
    constructor
    · rintro ⟨i, -, hi⟩
      exact ⟨i, (h.mem_iff hg).1 ((hmem q hq i).1 hi)⟩
    · rintro ⟨i, hi⟩
      have hin := (h.mem_iff hg).2 hi
      exact ⟨i, hslots ▸ (h.sound g G hg).mem_slots_of_mem hin, (hmem q hq i).2 hin⟩
  have hplace : ((M.setPlace p none none).disband g H).placeOf =
      fun q => (M.placeOf q).filter fun x => !decide (x.1 = g) := by
    funext q
    rw [placeOf_disband, placeOf_setPlace, Option.bind_none]
    by_cases hqp : q = p
    · subst hqp
      rw [Function.update_self, ite_self]
      cases hq : M.placeOf q with
      | none => rfl
      | some x =>
        have hx := hp x.1 (placeOf_eq_some.1 hq).1
        simp [Option.filter_some, hx]
    · rw [Function.update_of_ne hqp]
      simp only [hcleared q hqp]
      cases hq : M.placeOf q with
      | none => simp
      | some x =>
        obtain ⟨k, i⟩ := x
        by_cases hk : k = g <;> simp [Option.filter_some, hk]
  constructor
  · intro k K hK
    by_cases hk : k = g
    · subst hk
      simp [Groups.disband] at hK
    · simp [Groups.disband, hk] at hK
      exact h.sound k K hK
  · rw [hplace, members_disband]
    exact h.fibers.clear fun x => decide (x.1 = g)
  · intro q k hq
    have hqp : q ≠ p := by
      rintro rfl
      unfold Groups.disband at hq
      dsimp only at hq
      split at hq
      · cases hq
      · rw [info_setPlace_self] at hq
        cases hq
    unfold Groups.disband at hq
    dsimp only at hq
    rw [info_setPlace_of_ne _ _ hqp] at hq
    split at hq
    · cases hq
    · rename_i hout
      rw [placeOf_disband, if_neg hout, placeOf_setPlace, Function.update_of_ne hqp]
      exact h.placed q k hq

/-! ## The calls -/

theorem setPlace_setPlace (o o' : Option Nat) (s s' : Option (Fin 8)) :
    (M.setPlace p o s).setPlace p o' s' = M.setPlace p o' s' := by
  unfold setPlace
  dsimp only
  rw [Function.update_idem, Function.update_self]

theorem setGroup_comm (hgg' : g ≠ g') (o o' : Option Group) :
    (M.setGroup g o).setGroup g' o' = (M.setGroup g' o').setGroup g o := by
  unfold Groups.setGroup
  rw [Function.update_comm hgg']

theorem disband_setGroup (hgg' : g ≠ g') (o : Option Group) :
    (M.setGroup g o).disband g' H = (M.disband g' H).setGroup g o := by
  unfold Groups.disband Groups.setGroup
  rw [Function.update_comm hgg']

theorem Inv.find_of_placeOf (h : M.Inv) (hg : M.group g = some G)
    (hp : M.placeOf p = some (g, i)) (s : Option (Fin 8)) : G.findSubGroupOf p s = some i := by
  refine (h.sound g G hg).findSubGroupOf_of_mem ((h.mem_iff hg).2 hp) ?_ s
  intro j hj
  have heq := ((h.mem_iff hg).1 hj).symm.trans hp
  exact congrArg Prod.snd (Option.some.inj heq)

/-- A record that names a group names a place in it. -/
theorem Inv.placeOf_of_group (h : M.Inv) (hp : (M.info p).group = some g) :
    ∃ i, M.placeOf p = some (g, i) := by
  obtain ⟨x, hx⟩ := Option.ne_none_iff_exists'.1 (h.placed p g hp)
  have hgroup := (placeOf_eq_some.1 hx).1
  rw [hp] at hgroup
  obtain rfl := Option.some.inj hgroup
  exact ⟨x.2, hx⟩

/-- The record's group has not been destroyed. -/
theorem Inv.group_of_placeOf (h : M.Inv) (hp : M.placeOf p = some (g, i)) :
    ∃ G, M.group g = some G := by
  have hmem := (h.fibers (g, i) p).2 hp
  cases hg : M.group g with
  | none => simp [members, hg] at hmem
  | some G => exact ⟨G, rfl⟩

/-- `RemovePlayer` of a member. -/
theorem Inv.removePlayer_of_mem (h : M.Inv) (hp : (M.info p).group = some g) :
    (M.removePlayer g p).Inv ∧ ((M.removePlayer g p).info p).group = none := by
  obtain ⟨i, hplace⟩ := h.placeOf_of_group hp
  obtain ⟨G, hg⟩ := h.group_of_placeOf hplace
  unfold removePlayer
  simp only [hg, h.find_of_placeOf hg hplace]
  split
  · constructor
    · refine h.disband hg rfl ?_ ?_
      · intro q hq j
        change q ∈ (G.eraseMember i p).members j ↔ _
        rw [Group.members_eraseMember]
        by_cases hj : j = i
        · subst hj
          simp [hq]
        · rw [Function.update_of_ne hj]
      · intro k hk
        exact Option.some.inj (hk.symm.trans hp)
    · unfold Groups.disband
      dsimp only
      split
      · rfl
      · rw [info_setPlace_self]
  · constructor
    · refine h.take hg hplace ?_
      rw [Group.roster_update, Group.roster_repairRoles]
      rfl
    · change ((M.setPlace p none none).info p).group = none
      rw [info_setPlace_self]

/-- It concerns nothing of the other groups, and finds the member whatever
subgroup his record names. -/
theorem Inv.removePlayer_frame (h : M.Inv) (hp : (M.info p).group = some g') (hgg' : g ≠ g')
    (o : Option Nat) (s : Option (Fin 8)) (K : Group) :
    ((M.setPlace p o s).setGroup g (some K)).removePlayer g' p =
      (M.removePlayer g' p).setGroup g (some K) := by
  obtain ⟨i, hplace⟩ := h.placeOf_of_group hp
  obtain ⟨G, hg⟩ := h.group_of_placeOf hplace
  have hgroup : ((M.setPlace p o s).setGroup g (some K)).group g' = some G := by
    rw [← hg]
    exact Function.update_of_ne hgg'.symm ..
  have hplaces : ((M.setPlace p o s).setGroup g (some K)).setPlace p none none =
      (M.setPlace p none none).setGroup g (some K) :=
    setPlace_setPlace (M := M.setGroup g (some K)) ..
  have honline : ((M.setPlace p o s).setGroup g (some K)).online = M.online :=
    online_setPlace (M := M.setGroup g (some K)) ..
  unfold removePlayer
  simp only [hgroup, hg, h.find_of_placeOf hg hplace, hplaces, honline]
  split
  · exact disband_setGroup hgg' _
  · exact setGroup_comm hgg' ..

/-! ### When a call is one of the four writes -/

/-- `AddMember` meets a player in no group; or one of another group, whom
it does not refuse for want of room. (It refuses for a missing subgroup
before it writes anything.) -/
def CanAdd (M : Groups) (g p : Nat) (subgroupid : Int) : Prop :=
  subgroupid < 8 ∧ ∃ G, M.group g = some G ∧
    ((M.info p).group = none ∨
      G.isFull = false ∧
        ∀ i, G.chosenSubGroup subgroupid = some i → G.hasRoom i = true ∧ (M.info p).group ≠ some g)

/-- `RemovePlayer` meets a member; or a player in no group whose record
names no subgroup of this one, or whose removal disbands it. -/
def CanRemove (M : Groups) (g p : Nat) : Prop :=
  ∃ G, M.group g = some G ∧
    ((M.info p).group = some g ∨
      (M.info p).group = none ∧
        (G.disbands = true ∨ ∀ i, (M.info p).subGroup = some i → G.subGroups i = none))

/-- `MovePlayer` meets a member; or it is refused, for the number of the
subgroup, for want of room in it, or because the player's record names no
subgroup of this group but the first. -/
def CanMove (M : Groups) (g p : Nat) (subgroup : UInt8) : Prop :=
  ∃ G, M.group g = some G ∧
    ((M.info p).group = some g ∨ G.subGroupCount ≤ subgroup ∨
      (∀ j, Group.slot subgroup.toNat = some j → G.hasRoom j = false) ∨
      ∀ i, (M.info p).subGroup = some i → i.val = 0 ∨ G.subGroups i = none)

/-- `ExpandToRaid` meets nobody outside the first subgroup. -/
def CanExpand (M : Groups) (g : Nat) : Prop :=
  ∃ G, M.group g = some G ∧ ∀ i, i.val ≠ 0 → G.members i = ∅

theorem canExpand_of_members (hg : (M.group g).isSome)
    (hempty : ∀ i : Fin 8, i.val ≠ 0 → M.members (g, i) = ∅) : M.CanExpand g := by
  obtain ⟨G, hG⟩ := Option.isSome_iff_exists.1 hg
  refine ⟨G, hG, ?_⟩
  intro i hi
  rw [← members_of_group hG]
  exact hempty i hi

theorem canMove_of_group {subgroup : UInt8} (hg : (M.group g).isSome)
    (hp : (M.info p).group = some g) : M.CanMove g p subgroup := by
  obtain ⟨G, hG⟩ := Option.isSome_iff_exists.1 hg
  exact ⟨G, hG, Or.inl hp⟩

theorem setGroup_setGroup (o o' : Option Group) :
    (M.setGroup g o).setGroup g o' = M.setGroup g o' := by
  unfold Groups.setGroup
  rw [Function.update_idem]

/-- The player added has left the group he was in, if any: up to what is
written next, the state is one in which he is in no group. -/
theorem Inv.leaveOther (h : M.Inv) (hne : (M.info p).group ≠ some g) (s : Option (Fin 8))
    (K : Group) :
    ∃ N : Groups, N.Inv ∧ (N.info p).group = none ∧ N.group g = M.group g ∧
      (((M.setPlace p (M.info p).group s).setGroup g (some K)).leaveOther g p).group g = some K ∧
        ∀ o s', ((((M.setPlace p (M.info p).group s).setGroup g (some K)).leaveOther g p).setGroup
          g o).setPlace p (some g) s' = (N.setGroup g o).setPlace p (some g) s' := by
  have hself : (((M.setPlace p (M.info p).group s).setGroup g (some K)).info p).group =
      (M.info p).group := by
    change ((M.setPlace p (M.info p).group s).info p).group = _
    rw [info_setPlace_self]
  unfold Groups.leaveOther
  rw [hself]
  cases hp : (M.info p).group with
  | none =>
    refine ⟨M, h, hp, rfl, Function.update_self .., ?_⟩
    intro o s'
    rw [setGroup_setGroup]
    exact setPlace_setPlace (M := M.setGroup g o) ..
  | some g' =>
    have hgg' : g ≠ g' := by
      rintro rfl
      exact hne hp
    obtain ⟨hN, hnone⟩ := h.removePlayer_of_mem hp
    refine ⟨M.removePlayer g' p, hN, hnone, group_removePlayer_of_ne hgg', ?_, ?_⟩
    · dsimp only
      rw [if_neg hgg'.symm, h.removePlayer_frame hp hgg']
      exact Function.update_self ..
    · intro o s'
      dsimp only
      rw [if_neg hgg'.symm, h.removePlayer_frame hp hgg', setGroup_setGroup]

theorem Inv.addMember (h : M.Inv) {subgroupid : Int} (hcan : M.CanAdd g p subgroupid) :
    (M.addMember g p subgroupid).1.Inv := by
  obtain ⟨-, G, hg, hcan⟩ := hcan
  unfold Groups.addMember
  simp only [hg]
  split
  · rename_i hfull
    rcases hcan with hp | ⟨hfree, -⟩
    · exact h.clearPlace hp
    · rw [hfree] at hfull
      cases hfull
  · split
    · exact h
    · rename_i i hchosen
      split
      · rename_i hroom
        rcases hcan with hp | ⟨-, hfree⟩
        · exact h.clearPlace hp
        · simp [(hfree i hchosen).1] at hroom
      · rename_i hroom
        have hroom : G.hasRoom i = true := by simpa using hroom
        have hne : (M.info p).group ≠ some g := by
          rcases hcan with hp | ⟨-, hfree⟩
          · simp [hp]
          · exact (hfree i hchosen).2
        obtain ⟨N, hN, hnone, hgroup, hK, hrest⟩ := h.leaveOther hne (some i)
          (({ G.insertMember i p with
                dirty := true, memberCount := G.memberCount + 1 } : Group).update M.online)
        rw [hK, Option.map_some, hrest]
        refine hN.put (hgroup.trans hg) hnone hroom ?_
        rw [Group.roster_defaultLeader, Group.roster_update]
        rfl

theorem Inv.removePlayer (h : M.Inv) (hcan : M.CanRemove g p) : (M.removePlayer g p).Inv := by
  obtain ⟨G, hg, hp | ⟨hp, hcan⟩⟩ := hcan
  · exact (h.removePlayer_of_mem hp).1
  have hnot : ∀ j, p ∉ G.members j := fun j => h.not_mem hg (by simp [hp])
  unfold Groups.removePlayer
  simp only [hg, Group.findSubGroupOf_of_not_mem hnot]
  split
  · exact h.clearPlace hp
  · rename_i i hfound
    obtain ⟨hsub, hsome⟩ := Option.filter_eq_some_iff.1 hfound
    rcases hcan with hdisbands | hnone
    · rw [if_pos hdisbands]
      refine h.disband hg rfl ?_ ?_
      · intro q hq j
        change q ∈ (G.eraseMember i p).members j ↔ _
        rw [Group.members_eraseMember]
        by_cases hj : j = i
        · subst hj
          simp [hq]
        · rw [Function.update_of_ne hj]
      · intro k hk
        rw [hp] at hk
        cases hk
    · rw [hnone i hsub] at hsome
      cases hsome

/-- A member is taken out and put in again: the counter may stay as it is. -/
theorem Inv.move (h : M.Inv) (hg : M.group g = some G) (hp : M.placeOf p = some (g, i))
    (hroom : G.hasRoom j = true) :
    let M₁ := (M.setGroup g (some ((G.eraseMember i p).insertMember j p))).setPlace p (some g)
      (some j)
    (M₁.setGroup g ((M₁.group g).map fun G => G.update M.online)).Inv := by
  intro M₁
  let H : Group := { G.eraseMember i p with memberCount := G.memberCount - 1 }
  have hN : ((M.setPlace p none none).setGroup g (some H)).Inv := h.take hg hp rfl
  have hnone : (((M.setPlace p none none).setGroup g (some H)).info p).group = none := by
    change ((M.setPlace p none none).info p).group = none
    rw [info_setPlace_self]
  have hroom' : H.hasRoom j = true := Group.hasRoom_eraseMember hroom
  have hgroup : M₁.group g = some ((G.eraseMember i p).insertMember j p) :=
    Function.update_self ..
  rw [hgroup, Option.map_some]
  have hput := hN.put (g := g) (G := H)
    (H := ((G.eraseMember i p).insertMember j p).update M.online)
    (Function.update_self ..) hnone hroom' (by
      rw [Group.roster_update]
      have hback : G.memberCount - 1 + 1 = G.memberCount := UInt32.sub_add_cancel ..
      change _ = ({ (H.insertMember j p).roster with memberCount := G.memberCount - 1 + 1 } : Roster)
      rw [hback]
      rfl)
  rw [setGroup_setGroup] at hput
  have heq : M₁.setGroup g (some (((G.eraseMember i p).insertMember j p).update M.online)) =
      (((M.setPlace p none none).setGroup g
        (some (((G.eraseMember i p).insertMember j p).update M.online))).setPlace p (some g)
          (some j)) := by
    have hleft : M₁.setGroup g (some (((G.eraseMember i p).insertMember j p).update M.online)) =
        ((M.setGroup g (some ((G.eraseMember i p).insertMember j p))).setGroup g
          (some (((G.eraseMember i p).insertMember j p).update M.online))).setPlace p (some g)
            (some j) := rfl
    rw [hleft, setGroup_setGroup]
    exact (setPlace_setPlace (M := M.setGroup g _) ..).symm
  rw [heq]
  exact hput

theorem Inv.movePlayer (h : M.Inv) {subgroup : UInt8} (hcan : M.CanMove g p subgroup) :
    (M.movePlayer g p subgroup).Inv := by
  obtain ⟨G, hg, hcan⟩ := hcan
  unfold Groups.movePlayer
  simp only [hg]
  split
  · exact h
  · rename_i hcount
    split
    · exact h
    · rename_i j hslot
      split
      · exact h
      · rename_i hroom
        have hroom : G.hasRoom j = true := by simpa using hroom
        by_cases hp : (M.info p).group = some g
        · obtain ⟨i, hplace⟩ := h.placeOf_of_group hp
          rw [h.find_of_placeOf hg hplace]
          dsimp only
          rw [if_pos (Group.hasRoom_eraseMember hroom)]
          exact h.move hg hplace hroom
        · have hnot : ∀ j, p ∉ G.members j := fun j => h.not_mem hg hp
          have hnone : G.findSubGroupOf p
              ((M.info p).subGroup.filter fun i => decide (0 < i)) = none := by
            rw [Group.findSubGroupOf_of_not_mem hnot, Option.filter_eq_none_iff]
            intro i hi hsome
            obtain ⟨hsub, hpos⟩ := Option.filter_eq_some_iff.1 hi
            rcases hcan with hin | hcount' | hfull | hhint
            · exact hp hin
            · exact hcount hcount'
            · rw [hfull j hslot] at hroom
              cases hroom
            · rcases hhint i hsub with hzero | hnull
              · simp [Fin.lt_def, hzero] at hpos
              · rw [hnull] at hsome
                cases hsome
          rw [hnone]
          exact h

theorem Inv.expandToRaid (h : M.Inv) (hcan : M.CanExpand g) :
    (M.modify g fun G => G.expandToRaid M.online).Inv := by
  obtain ⟨G, hg, hempty⟩ := hcan
  let H : Group :=
    { G with subGroupCount := 8
             subGroups := fun i => if i = 0 then G.subGroups i else some .new
             groupType := GROUP_TYPE_RAID }
  have hmem : G.members = H.members := by
    funext i
    by_cases hi : i = 0
    · subst hi
      rfl
    · rw [hempty i (Fin.val_ne_zero_iff.2 hi)]
      simp [H, Group.members, hi, SubGroup.new]
  have hG := h.sound g G hg
  unfold Groups.modify
  rw [hg, Option.map_some]
  have hroster : (G.expandToRaid M.online).roster = H.roster := by
    unfold Group.expandToRaid
    rw [Group.roster_update]
    rfl
  have hmembers : (G.expandToRaid M.online).members = G.members :=
    (Group.members_congr hroster).trans hmem.symm
  refine h.setGroup ?_ ⟨hG.toSlotted.expandToRaid, ?_, ?_⟩
  · intro i
    rw [members_of_group hg, hmembers]
  · rw [hmembers]
    exact hG.five
  · have hcount : (G.expandToRaid M.online).memberCount = G.memberCount :=
      congrArg Roster.memberCount hroster
    rw [hcount, hmembers]
    exact hG.counted

end Groups

/-- What a call is to meet. None is made on a group that has been destroyed. -/
def GroupCall.Sound (M : Groups) : GroupCall → Prop
  | .newGroup _ _ | .setLoggedIn _ _ => True
  | .addMember g p subgroupid => M.CanAdd g p subgroupid
  | .removePlayer g p => M.CanRemove g p
  | .movePlayer g p subgroup => M.CanMove g p subgroup
  | .expandToRaid g => M.CanExpand g
  | .setLeader g _ | .setLooter g _ _ _ | .setAssistantLeader g _ | .setMainTank g _
  | .setMainAssist g _ | .setDontDisband g => ∃ G, M.group g = some G

/-! ## Runs -/

namespace Groups

variable {M N : Groups} {c : GroupCall} {calls : List GroupCall}

theorem Start.inv (h : M.Start) : M.Inv := by
  constructor
  · intro g G hg
    rw [h.2 g] at hg
    cases hg
  · intro ⟨g, i⟩ p
    simp [members, h.2 g, placeOf_eq_none (h.1 p)]
  · intro p g hp
    rw [h.1 p] at hp
    cases hp

theorem Inv.setOnline (h : M.Inv) (p : Nat) (loggedIn : Bool) : (M.setOnline p loggedIn).Inv := by
  have hinfo : ∀ q, ((M.setOnline p loggedIn).info q).group = (M.info q).group ∧
      ((M.setOnline p loggedIn).info q).subGroup = (M.info q).subGroup := by
    intro q
    by_cases hq : q = p
    · subst hq
      simp [Groups.setOnline]
    · simp [Groups.setOnline, hq]
  have hplace : (M.setOnline p loggedIn).placeOf = M.placeOf := by
    funext q
    unfold placeOf
    rw [(hinfo q).1, (hinfo q).2]
  constructor
  · exact h.sound
  · rw [hplace]
    exact h.fibers
  · intro q g hq
    rw [hplace]
    exact h.placed q g ((hinfo q).1 ▸ hq)

/-- A player logs in or out. -/
theorem Inv.setLoggedIn (h : M.Inv) (p : Nat) (loggedIn : Bool) :
    (M.setLoggedIn p loggedIn).Inv := by
  unfold Groups.setLoggedIn
  split
  · exact (h.setOnline p loggedIn).modify fun G => Group.roster_update
  · exact h.setOnline p loggedIn

/-- The step lemma. -/
theorem Inv.call (h : M.Inv) (hc : c.Sound M) : (M.call c).Inv := by
  cases c with
  | newGroup g groupId =>
    simp only [Groups.call]
    split
    · rename_i hnone
      refine h.setGroup ?_ (Group.sound_new groupId)
      intro i
      rw [Group.members_new]
      simp [members, hnone]
    · exact h
  | addMember g p subgroupid => exact h.addMember hc
  | removePlayer g p => exact h.removePlayer hc
  | movePlayer g p subgroup => exact h.movePlayer hc
  | expandToRaid g => exact h.expandToRaid hc
  | setLeader g player => exact h.modify fun G => Group.roster_setLeader player
  | setLooter g player method threshold =>
    exact h.modify fun G => Group.roster_setLooter player method threshold
  | setAssistantLeader g member => exact h.modify fun G => Group.roster_setAssistantLeader member
  | setMainTank g member => exact h.modify fun G => Group.roster_setMainTank member
  | setMainAssist g member => exact h.modify fun G => Group.roster_setMainAssist member
  | setDontDisband g => exact h.modify fun G => rfl
  | setLoggedIn p loggedIn => exact h.setLoggedIn p loggedIn

/-- The run lemma. -/
theorem Inv.run (h : M.Inv)
    (hrun : Run (Guarded GroupCall.Sound (FunStep Groups.call)) M calls N) :
    N.Inv := by
  refine hrun.invariant Groups.Inv ?_ h
  rintro s c t hs ⟨hc, rfl⟩
  exact hs.call hc

/-- A group's sets, its counter and the players' records agree. -/
structure Consistent (M : Groups) (g : Nat) (G : Group) : Prop where
  one_subGroup : ∀ p i j, p ∈ G.members i → p ∈ G.members j → i = j
  at_most_five : ∀ i, (G.members i).card ≤ 5
  counted : G.memberCount.toNat = ∑ i, (G.members i).card
  pointed : ∀ p i,
    (M.info p).group = some g ∧ (M.info p).subGroup = some i ↔ p ∈ G.members i

theorem Inv.consistent {g : Nat} {G : Group} (h : M.Inv) (hg : M.group g = some G) :
    M.Consistent g G where
  one_subGroup := by
    intro p i j hi hj
    have heq := ((h.mem_iff hg).1 hi).symm.trans ((h.mem_iff hg).1 hj)
    exact congrArg Prod.snd (Option.some.inj heq)
  at_most_five := (h.sound g G hg).five
  counted := (h.sound g G hg).counted
  pointed := by
    intro p i
    rw [← placeOf_eq_some]
    exact (h.mem_iff hg).symm

/-- In every run whose calls meet their conditions, all groups that have
not been destroyed are consistent with the players' records. -/
theorem membership_consistent (hstart : M.Start)
    (hrun : Run (Guarded GroupCall.Sound (FunStep Groups.call)) M calls N)
    (g : Nat) (G : Group) (hg : N.group g = some G) : N.Consistent g G :=
  (hstart.inv.run hrun).consistent hg

/-- Players who have just logged in, with the record of a new character. -/
def newcomers : Groups where
  info := fun p => { guid := p.toUInt32, loggedIn := true, group := none, subGroup := Group.slot 0 }
  group := fun _ => none

theorem start_newcomers : newcomers.Start := ⟨fun _ => rfl, fun _ => rfl⟩

/-- The leader of a raid moves a member to the second subgroup. -/
def raidOfTwo : List GroupCall :=
  [.newGroup 1 1, .addMember 1 10 (-1), .addMember 1 11 (-1), .expandToRaid 1, .movePlayer 1 11 1]

theorem membership_consistent_raid :
    ∃ G, (raidOfTwo.foldl Groups.call newcomers).group 1 = some G ∧
      (raidOfTwo.foldl Groups.call newcomers).Consistent 1 G := by
  have hrun : Run (Guarded GroupCall.Sound (FunStep Groups.call)) newcomers raidOfTwo
      (raidOfTwo.foldl Groups.call newcomers) := by
    refine .cons ⟨trivial, rfl⟩ (.cons ⟨⟨by decide, _, rfl, Or.inl rfl⟩, rfl⟩
      (.cons ⟨⟨by decide, _, rfl, Or.inl rfl⟩, rfl⟩ (.cons ⟨?_, rfl⟩ (.cons ⟨?_, rfl⟩ (.nil _)))))
    · exact canExpand_of_members (by decide +kernel) (by decide +kernel)
    · exact canMove_of_group (by decide +kernel) (by decide +kernel)
  have hsome : ((raidOfTwo.foldl Groups.call newcomers).group 1).isSome := by decide +kernel
  obtain ⟨G, hG⟩ := Option.isSome_iff_exists.1 hsome
  exact ⟨G, hG, membership_consistent start_newcomers hrun 1 G hG⟩

/-- The leader asks to convert the raid once more: the member's subgroup
is replaced by an empty one. -/
theorem conversion_loses_member :
    ¬ ∀ (M N : Groups) (calls : List GroupCall), M.Start →
        Run (FunStep Groups.call) M calls N → ∀ g G, N.group g = some G → N.Consistent g G := by
  intro h
  let N := (raidOfTwo ++ [GroupCall.expandToRaid 1]).foldl Groups.call newcomers
  have hplace : N.placeOf 11 = some (1, 1) := by decide +kernel
  have hmem : N.members (1, 1) = ∅ := by decide +kernel
  have hsome : (N.group 1).isSome := by decide +kernel
  obtain ⟨G, hG⟩ := Option.isSome_iff_exists.1 hsome
  have hN := h newcomers N _ start_newcomers (Run.foldl ..) 1 G hG
  have hin := (hN.pointed 11 1).1 (placeOf_eq_some.1 hplace)
  rw [← members_of_group hG, hmem] at hin
  simp at hin

end Groups

end HearthStone
