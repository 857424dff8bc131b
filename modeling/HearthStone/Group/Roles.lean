/-
HearthStone.Group.Roles — leader, looter, assistant leader, main tank and
main assist.

A role is the address of a player's record. `Group.RolesHeld` says that
every role is unset or held by a member, and that a group has a leader
while one of its members is logged in. (`RemovePlayer` of a leader whom
nobody logged in can follow sets `m_Leader` to NULL, so a group of
members who are all logged out may have none.)

* `update` mends a leader or a looter who is not logged in. What it
  leaves with roles held is `Mendable` (`Mendable.update`).
* `RemovePlayer` looks after leader and looter only. `Group.CanLose` is
  what a group must meet to lose a player and keep its other roles.
* `GroupCall.KeepsRoles` is the condition of each call, next to the one
  under which sets, counters and records agree (`GroupCall.Sound`).
-/
import HearthStone.Group.Membership

namespace HearthStone

open Lib

namespace Group

variable {G H : Group} {online : Nat → Bool} {i j : Fin 8} {p q : Nat}

def HasMember (G : Group) (p : Nat) : Prop := ∃ i, p ∈ G.members i

/-- A role is unset or held by a member. -/
def Held (G : Group) (role : Option Nat) : Prop := ∀ p, role = some p → G.HasMember p

/-- A member is logged in. -/
def SomeOnline (G : Group) (online : Nat → Bool) : Prop := ∃ q, G.HasMember q ∧ online q = true

structure RolesHeld (G : Group) (online : Nat → Bool) : Prop where
  leader : G.Held G.leader
  looter : G.Held G.looter
  assistantLeader : G.Held G.assistantLeader
  mainTank : G.Held G.mainTank
  mainAssist : G.Held G.mainAssist
  led : G.SomeOnline online → G.leader ≠ none

/-- What `update` leaves with all roles held. -/
structure Mendable (G : Group) : Prop where
  leader : G.Held G.leader
  looter : G.Held G.looter
  assistantLeader : G.Held G.assistantLeader
  mainTank : G.Held G.mainTank
  mainAssist : G.Held G.mainAssist

theorem RolesHeld.mendable (h : G.RolesHeld online) : G.Mendable where
  leader := h.leader
  looter := h.looter
  assistantLeader := h.assistantLeader
  mainTank := h.mainTank
  mainAssist := h.mainAssist

theorem held_none : G.Held none := by
  intro p hp
  cases hp

theorem hasMember_congr (h : G.subGroups = H.subGroups) : G.HasMember = H.HasMember := by
  funext p
  unfold HasMember members
  rw [h]

theorem held_congr (h : G.subGroups = H.subGroups) : G.Held = H.Held := by
  funext role
  unfold Held
  rw [hasMember_congr h]

theorem hasMember_insertMember :
    (G.insertMember i p).HasMember q ↔ q = p ∨ G.HasMember q := by
  unfold HasMember
  rw [members_insertMember]
  constructor
  · rintro ⟨j, hj⟩
    by_cases hji : j = i
    · subst hji
      rw [Function.update_self, Finset.mem_insert] at hj
      exact hj.imp id fun hq => ⟨j, hq⟩
    · rw [Function.update_of_ne hji] at hj
      exact Or.inr ⟨j, hj⟩
  · rintro (rfl | ⟨j, hj⟩)
    · exact ⟨i, by simp⟩
    · refine ⟨j, ?_⟩
      by_cases hji : j = i
      · subst hji
        simp [hj]
      · rwa [Function.update_of_ne hji]

theorem hasMember_eraseMember_of_ne (hq : q ≠ p) :
    (G.eraseMember i p).HasMember q ↔ G.HasMember q := by
  unfold HasMember
  rw [members_eraseMember]
  refine exists_congr ?_
  intro j
  by_cases hji : j = i
  · subst hji
    simp [hq]
  · rw [Function.update_of_ne hji]

/-! ## The first player logged in -/

theorem findFirstPlayer_some (h : G.findFirstPlayer online = some q) :
    G.HasMember q ∧ online q = true := by
  obtain ⟨i, -, hi⟩ := List.exists_of_findSome?_eq_some h
  have hmem := List.mem_of_find?_eq_some hi
  exact ⟨⟨i, mem_inOrder.1 hmem⟩, List.find?_some hi⟩

theorem Slotted.findFirstPlayer_none (h : G.Slotted) (hnone : G.findFirstPlayer online = none) :
    ¬ G.SomeOnline online := by
  rintro ⟨q, ⟨i, hi⟩, hq⟩
  have hslot := List.findSome?_eq_none_iff.1 hnone i (h.mem_slots_of_mem hi)
  have hoff := List.find?_eq_none.1 hslot q (mem_inOrder.2 hi)
  exact hoff hq

/-! ## Mending -/

/-- A holder who gives way to the first player logged in gives way to a member. -/
theorem Held.mend {role : Option Nat} (h : G.Held role) (c : Bool) :
    G.Held ((if c then G.findFirstPlayer online else none).or role) := by
  intro q hq
  cases hfirst : (if c then G.findFirstPlayer online else none) with
  | some r =>
    rw [hfirst, Option.some_or] at hq
    obtain rfl := Option.some.inj hq
    split at hfirst
    · exact (findFirstPlayer_some hfirst).1
    · cases hfirst
  | none =>
    rw [hfirst, Option.none_or] at hq
    exact h q hq

theorem Mendable.update (h : G.Mendable) (hs : G.Slotted) (hblock : G.updateblock = false) :
    (G.update online).RolesHeld online := by
  have hsub : (G.update online).subGroups = G.subGroups := congrArg Roster.subGroups roster_update
  have hleader : (G.update online).leader =
      (if G.leader.all fun q => !online q then G.findFirstPlayer online else none).or G.leader := by
    unfold Group.update
    rw [hblock]
    rfl
  have hlooter : (G.update online).looter =
      (if G.looter.any fun q => !online q then G.findFirstPlayer online else none).or G.looter := by
    have hfirst : ∀ c : Bool, (if c then G.findFirstPlayer online else none).or
        (G.findFirstPlayer online) = G.findFirstPlayer online := by
      intro c
      cases c
      · rfl
      · exact Option.or_self
    unfold Group.update
    rw [if_neg (by simp [hblock])]
    dsimp only
    rw [hfirst]
  have hroles : (G.update online).assistantLeader = G.assistantLeader ∧
      (G.update online).mainTank = G.mainTank ∧ (G.update online).mainAssist = G.mainAssist := by
    unfold Group.update
    rw [hblock]
    exact ⟨rfl, rfl, rfl⟩
  obtain ⟨hassistant, htank, hassist⟩ := hroles
  constructor
  · rw [held_congr hsub, hleader]
    exact h.leader.mend _
  · rw [held_congr hsub, hlooter]
    exact h.looter.mend _
  · rw [held_congr hsub, hassistant]
    exact h.assistantLeader
  · rw [held_congr hsub, htank]
    exact h.mainTank
  · rw [held_congr hsub, hassist]
    exact h.mainAssist
  · unfold SomeOnline
    rw [hasMember_congr hsub, hleader]
    intro hon hnone
    obtain ⟨hfirst, hleft⟩ := Option.or_eq_none_iff.1 hnone
    rw [hleft, Option.all_none, if_pos rfl] at hfirst
    exact hs.findFirstPlayer_none hfirst hon

/-- What every live group meets besides: its subgroups stand in their
slots, and its updates are not blocked. -/
structure Live (G : Group) : Prop extends Slotted G where
  unblocked : G.updateblock = false

@[simp] theorem updateblock_update : (G.update online).updateblock = G.updateblock := by
  unfold Group.update
  split <;> rfl

theorem Live.congr (h : G.Live) (hroster : H.roster = G.roster)
    (hblock : H.updateblock = G.updateblock) : H.Live where
  toSlotted := h.toSlotted.of_roster hroster
  unblocked := hblock.trans h.unblocked

/-- All roles held, in a live group. -/
structure Manned (G : Group) (online : Nat → Bool) : Prop extends Live G, RolesHeld G online

theorem Mendable.manned (h : G.Mendable) (hl : G.Live) : (G.update online).Manned online where
  toSlotted := hl.toSlotted.of_roster roster_update
  unblocked := by rw [updateblock_update, hl.unblocked]
  toRolesHeld := h.update hl.toSlotted hl.unblocked

/-! ## A player leaves -/

/-- The group can lose this player and keep its roles: it is destroyed, or
he is neither assistant leader, main tank nor main assist. -/
def CanLose (G : Group) (p : Nat) : Prop :=
  G.disbands = true ∨
    (G.assistantLeader ≠ some p ∧ G.mainTank ≠ some p ∧ G.mainAssist ≠ some p)

/-- `RemovePlayer` about a looter who leaves. -/
def replaceLooter (H : Group) (online : Nat → Bool) (p : Nat) : Group :=
  if H.looter = some p then { H with looter := H.findFirstPlayer online } else H

/-- `RemovePlayer` about a leader who leaves. -/
def replaceLeader (H : Group) (online : Nat → Bool) (p : Nat) : Group :=
  if H.leader = some p then
    match H.findFirstPlayer online with
    | some q => H.setLeader online (some q)
    | none => { H with leader := none }
  else H

/-- Both get the same player, who is looked for once or twice. -/
theorem repairRoles_eq : H.repairRoles online p = (H.replaceLooter online p).replaceLeader online p := by
  unfold repairRoles replaceLeader replaceLooter
  have hsame : ∀ o, ({ H with looter := o } : Group).findFirstPlayer online =
      H.findFirstPlayer online := fun _ => rfl
  by_cases hlooter : H.looter = some p
  · cases hfirst : H.findFirstPlayer online <;>
      simp only [if_pos hlooter, hsame, hfirst, Option.or_self]
  · cases hfirst : H.findFirstPlayer online <;>
      simp only [if_neg hlooter, hfirst, Option.none_or]

/-- What is left of a group once a member was taken out: leader and looter
may still be he. -/
structure Bereft (H : Group) (p : Nat) : Prop where
  leader : ∀ q, H.leader = some q → q = p ∨ H.HasMember q
  looter : ∀ q, H.looter = some q → q = p ∨ H.HasMember q
  assistantLeader : H.Held H.assistantLeader
  mainTank : H.Held H.mainTank
  mainAssist : H.Held H.mainAssist

theorem Bereft.replaceLooter (h : H.Bereft p) :
    (H.replaceLooter online p).Bereft p ∧
      (H.replaceLooter online p).Held (H.replaceLooter online p).looter := by
  unfold Group.replaceLooter
  split
  · have hfirst : H.Held (H.findFirstPlayer online) := fun q hq => (findFirstPlayer_some hq).1
    refine ⟨⟨h.leader, ?_, h.assistantLeader, h.mainTank, h.mainAssist⟩, hfirst⟩
    intro q hq
    exact Or.inr (hfirst q hq)
  · rename_i hne
    refine ⟨h, ?_⟩
    intro q hq
    refine (h.looter q hq).resolve_left ?_
    rintro rfl
    exact hne hq

theorem Bereft.replaceLeader (h : H.Bereft p) (hlooter : H.Held H.looter) (hl : H.Live) :
    (H.replaceLeader online p).Mendable := by
  unfold Group.replaceLeader
  split
  · split
    · rename_i q hq
      have hheld : H.Held (some q) := by
        intro r hr
        obtain rfl := Option.some.inj hr
        exact (findFirstPlayer_some hq).1
      have hset : ({ H with leader := some q, dirty := true } : Group).Mendable :=
        ⟨hheld, hlooter, h.assistantLeader, h.mainTank, h.mainAssist⟩
      exact (hset.manned (hl.congr rfl rfl)).toRolesHeld.mendable
    · exact ⟨held_none, hlooter, h.assistantLeader, h.mainTank, h.mainAssist⟩
  · rename_i hne
    have hheld : H.Held H.leader := by
      intro q hq
      refine (h.leader q hq).resolve_left ?_
      rintro rfl
      exact hne hq
    exact ⟨hheld, hlooter, h.assistantLeader, h.mainTank, h.mainAssist⟩

theorem live_repairRoles (hl : H.Live) : (H.repairRoles online p).Live := by
  refine hl.congr roster_repairRoles ?_
  unfold Group.repairRoles
  dsimp only
  split <;> split <;> try split
  all_goals first | rfl | exact updateblock_update

theorem Bereft.repairRoles (h : H.Bereft p) (hl : H.Live) : (H.repairRoles online p).Mendable := by
  rw [repairRoles_eq]
  obtain ⟨hbereft, hlooter⟩ := h.replaceLooter
  refine hbereft.replaceLeader hlooter (hl.congr ?_ ?_)
  · unfold Group.replaceLooter
    split <;> rfl
  · unfold Group.replaceLooter
    split <;> rfl

/-- The group without the member taken out. -/
theorem Mendable.bereft (h : G.Mendable) {n : UInt32} (hassistant : G.assistantLeader ≠ some p)
    (htank : G.mainTank ≠ some p) (hassist : G.mainAssist ≠ some p) :
    ({ G.eraseMember i p with dirty := true, memberCount := n } : Group).Bereft p := by
  have hstays : ∀ q, G.HasMember q → q = p ∨ (G.eraseMember i p).HasMember q := by
    intro q hq
    by_cases hqp : q = p
    · exact Or.inl hqp
    · exact Or.inr ((hasMember_eraseMember_of_ne hqp).2 hq)
  have hheld : ∀ role, G.Held role → role ≠ some p → (G.eraseMember i p).Held role := by
    intro role hrole hne q hq
    refine (hstays q (hrole q hq)).resolve_left ?_
    rintro rfl
    exact hne hq
  exact
    { leader := fun q hq => hstays q (h.leader q hq)
      looter := fun q hq => hstays q (h.looter q hq)
      assistantLeader := hheld _ h.assistantLeader hassistant
      mainTank := hheld _ h.mainTank htank
      mainAssist := hheld _ h.mainAssist hassist }

theorem Manned.lose (h : G.Manned online) (hcan : G.CanLose p) (hstays : G.disbands = false)
    {s : Option (Fin 8)} (hi : G.findSubGroupOf p s = some i) :
    ((({ G.eraseMember i p with
      dirty := true, memberCount := G.memberCount - 1 } : Group).repairRoles online p).update
        online).Manned online := by
  obtain ⟨hassistant, htank, hassist⟩ := hcan.resolve_left (by simp [hstays])
  have hlive : ({ G.eraseMember i p with
      dirty := true, memberCount := G.memberCount - 1 } : Group).Live :=
    ⟨(h.toSlotted.eraseMember (h.toSlotted.mem_slots_of_find hi)).congr rfl rfl, h.unblocked⟩
  exact ((h.toRolesHeld.mendable.bereft hassistant htank hassist).repairRoles hlive).manned
    (live_repairRoles hlive)

/-! ## A player comes or moves -/

theorem Mendable.map (h : G.Mendable) (hmem : ∀ q, G.HasMember q → H.HasMember q)
    (hleader : H.leader = G.leader) (hlooter : H.looter = G.looter)
    (hassistant : H.assistantLeader = G.assistantLeader) (htank : H.mainTank = G.mainTank)
    (hassist : H.mainAssist = G.mainAssist) : H.Mendable := by
  have hheld : ∀ role, G.Held role → H.Held role := fun role hrole q hq => hmem q (hrole q hq)
  constructor
  · exact hleader ▸ hheld _ h.leader
  · exact hlooter ▸ hheld _ h.looter
  · exact hassistant ▸ hheld _ h.assistantLeader
  · exact htank ▸ hheld _ h.mainTank
  · exact hassist ▸ hheld _ h.mainAssist

theorem Manned.insertMember (h : G.Manned online) (hi : i ∈ G.slots) {n : UInt32} :
    (({ G.insertMember i p with dirty := true, memberCount := n } : Group).update online).Manned
      online := by
  refine Mendable.manned ?_ ⟨(h.toSlotted.insertMember hi).congr rfl rfl, h.unblocked⟩
  refine h.toRolesHeld.mendable.map ?_ rfl rfl rfl rfl rfl
  intro q hq
  exact hasMember_insertMember.2 (Or.inr hq)

theorem Manned.defaultLeader (h : G.Manned online) (hp : G.HasMember p) :
    (G.defaultLeader online p).Manned online := by
  unfold Group.defaultLeader
  split
  · refine ⟨⟨h.toSlotted.congr rfl rfl, h.unblocked⟩, ?_⟩
    refine ⟨?_, h.looter, h.assistantLeader, h.mainTank, h.mainAssist, fun _ => by simp⟩
    intro q hq
    obtain rfl := Option.some.inj hq
    exact hp
  · exact h

theorem Manned.move (h : G.Manned online) (hi : i ∈ G.slots) (hj : j ∈ G.slots) :
    (((G.eraseMember i p).insertMember j p).update online).Manned online := by
  refine Mendable.manned ?_ ⟨(h.toSlotted.eraseMember hi).insertMember hj, h.unblocked⟩
  refine h.toRolesHeld.mendable.map ?_ rfl rfl rfl rfl rfl
  intro q hq
  rw [hasMember_insertMember]
  by_cases hqp : q = p
  · exact Or.inl hqp
  · exact Or.inr ((hasMember_eraseMember_of_ne hqp).2 hq)

/-! ## A role is given, a raid is made -/

theorem Manned.setLeader (h : G.Manned online) {player : Option Nat} (hp : G.Held player) :
    (G.setLeader online player).Manned online := by
  cases player with
  | none => exact h.toRolesHeld.mendable.manned h.toLive
  | some q =>
    refine Mendable.manned ?_ ⟨h.toSlotted.congr rfl rfl, h.unblocked⟩
    exact ⟨hp, h.looter, h.assistantLeader, h.mainTank, h.mainAssist⟩

theorem Manned.setLooter (h : G.Manned online) {player : Option Nat} (hp : G.Held player)
    (method : UInt8) (threshold : UInt16) :
    (G.setLooter online player method threshold).Manned online := by
  refine Mendable.manned ?_ ⟨h.toSlotted.congr rfl rfl, h.unblocked⟩
  exact ⟨h.leader, hp, h.assistantLeader, h.mainTank, h.mainAssist⟩

theorem Manned.setAssistantLeader (h : G.Manned online) {member : Option Nat}
    (hp : G.Held member) : (G.setAssistantLeader online member).Manned online := by
  unfold Group.setAssistantLeader
  split
  · exact h
  · refine Mendable.manned ?_ ⟨h.toSlotted.congr rfl rfl, h.unblocked⟩
    exact ⟨h.leader, h.looter, hp, h.mainTank, h.mainAssist⟩

theorem Manned.setMainTank (h : G.Manned online) {member : Option Nat} (hp : G.Held member) :
    (G.setMainTank online member).Manned online := by
  unfold Group.setMainTank
  split
  · exact h
  · refine Mendable.manned ?_ ⟨h.toSlotted.congr rfl rfl, h.unblocked⟩
    exact ⟨h.leader, h.looter, h.assistantLeader, hp, h.mainAssist⟩

theorem Manned.setMainAssist (h : G.Manned online) {member : Option Nat} (hp : G.Held member) :
    (G.setMainAssist online member).Manned online := by
  unfold Group.setMainAssist
  split
  · exact h
  · refine Mendable.manned ?_ ⟨h.toSlotted.congr rfl rfl, h.unblocked⟩
    exact ⟨h.leader, h.looter, h.assistantLeader, h.mainTank, hp⟩

theorem Manned.expandToRaid (h : G.Manned online) (hempty : ∀ i : Fin 8, i.val ≠ 0 → G.members i = ∅) :
    (G.expandToRaid online).Manned online := by
  let K : Group :=
    { G with subGroupCount := 8
             subGroups := fun i => if i = 0 then G.subGroups i else some .new
             groupType := GROUP_TYPE_RAID, dirty := true }
  have hK : K.Mendable := by
    refine h.toRolesHeld.mendable.map ?_ rfl rfl rfl rfl rfl
    rintro q ⟨i, hi⟩
    by_cases h0 : i = 0
    · subst h0
      exact ⟨0, hi⟩
    · rw [hempty i (Fin.val_ne_zero_iff.2 h0)] at hi
      simp at hi
  have hslotted : (K.update online).Slotted := h.toSlotted.expandToRaid
  exact hK.manned ⟨hslotted.of_roster roster_update.symm, h.unblocked⟩

theorem manned_new (groupId : UInt32) : (new groupId).Manned online := by
  refine ⟨⟨slotted_new groupId, rfl⟩, held_none, held_none, held_none, held_none, held_none, ?_⟩
  rintro ⟨p, ⟨i, hp⟩, -⟩
  rw [members_new] at hp
  simp at hp

end Group

/-! ## The calls -/

namespace Groups

variable {M N : Groups} {g g' p : Nat} {i : Fin 8} {G : Group} {c : GroupCall}
  {calls : List GroupCall}

/-- All roles held, in every group. -/
def Manned (M : Groups) : Prop := ∀ g G, M.group g = some G → G.Manned M.online

/-- The player can leave the group his record names, other than for `g`. -/
def CanLeaveFor (M : Groups) (g p : Nat) : Prop :=
  ∀ g' G, (M.info p).group = some g' → g' ≠ g → M.group g' = some G → G.CanLose p

theorem Manned.modify (h : M.Manned) {f : Group → Group}
    (hf : ∀ G, M.group g = some G → (f G).Manned M.online) : (M.modify g f).Manned := by
  intro k K hK
  rcases group_modify_cases hK with ⟨-, hK⟩ | ⟨G, rfl, hG, rfl⟩
  · exact h k K hK
  · exact hf G hG

theorem Manned.removePlayer (h : M.Manned) (hcan : ∀ G, M.group g = some G → G.CanLose p) :
    (M.removePlayer g p).Manned := by
  intro k K hK
  rw [online_removePlayer]
  rcases removePlayer_cases hK with hK | ⟨G, i, rfl, hG, hi, hstays, rfl⟩
  · exact h k K hK
  · exact (h k G hG).lose (hcan G hG) hstays hi

theorem Manned.addMember (h : M.Manned) {subgroupid : Int}
    (hcan : ∀ G i, M.group g = some G → G.chosenSubGroup subgroupid = some i →
      M.CanLeaveFor g p) :
    (M.addMember g p subgroupid).1.Manned := by
  intro k K hK
  rw [online_addMember]
  rcases addMember_cases hK with hK | ⟨G, i, hG, hchosen, hroom, hK⟩
  · exact h k K hK
  rcases hK with ⟨G', j, hk, hp, hG', hj, hstays, rfl⟩ | ⟨rfl, rfl⟩
  · exact (h k G' hG').lose (hcan G i hG hchosen k G' hp hk hG') hstays hj
  · have hmanned := h k G hG
    refine (hmanned.insertMember ((hmanned.slotted i).1 (Group.hasRoom_iff.1 hroom).1)).defaultLeader
      ?_
    rw [Group.hasMember_congr (H := G.insertMember i p)
      (congrArg Roster.subGroups Group.roster_update), Group.hasMember_insertMember]
    exact Or.inl rfl

theorem Manned.movePlayer (h : M.Manned) {subgroup : UInt8} :
    (M.movePlayer g p subgroup).Manned := by
  intro k K hK
  rw [online_movePlayer]
  rcases movePlayer_cases hK with hK | ⟨G, i, j, s, rfl, hG, hroom, hi, rfl⟩
  · exact h k K hK
  · have hmanned := h k G hG
    exact hmanned.move (hmanned.toSlotted.mem_slots_of_find hi)
      ((hmanned.slotted j).1 (Group.hasRoom_iff.1 hroom).1)

/-- A player who logs in or out is a member of no group but the one that
is told. -/
theorem Manned.setLoggedIn (h : M.Manned) (hinv : M.Inv) (p : Nat) (loggedIn : Bool) :
    (M.setLoggedIn p loggedIn).Manned := by
  have hothers : ∀ k K, M.group k = some K → (M.info p).group ≠ some k →
      K.Manned (M.setOnline p loggedIn).online := by
    intro k K hK hne
    have hmanned := h k K hK
    refine ⟨hmanned.toLive, hmanned.leader, hmanned.looter, hmanned.assistantLeader,
      hmanned.mainTank, hmanned.mainAssist, ?_⟩
    rintro ⟨q, ⟨i, hi⟩, hq⟩
    refine hmanned.led ⟨q, ⟨i, hi⟩, ?_⟩
    have hqp : q ≠ p := by
      rintro rfl
      exact hinv.not_mem hK hne hi
    simpa [Groups.online, setOnline, hqp] using hq
  unfold Groups.setLoggedIn
  split
  · rename_i g hg
    intro k K hK
    rcases group_modify_cases hK with ⟨hne, hK⟩ | ⟨G, -, hG, rfl⟩
    · refine hothers k K hK ?_
      rw [hg]
      exact fun heq => hne (Option.some.inj heq).symm
    · have hmanned := h g G hG
      exact hmanned.toRolesHeld.mendable.manned hmanned.toLive
  · rename_i hnone
    intro k K hK
    exact hothers k K hK (by simp [hnone])

end Groups

/-- What a call is to meet for the roles to be held after it: nobody who is
assistant leader, main tank or main assist leaves, and a role is given to
members only. -/
def GroupCall.KeepsRoles (M : Groups) : GroupCall → Prop
  | .addMember g p subgroupid =>
    ∀ G i, M.group g = some G → G.chosenSubGroup subgroupid = some i → M.CanLeaveFor g p
  | .removePlayer g p => ∀ G, M.group g = some G → G.CanLose p
  | .setLeader g role | .setLooter g role _ _ | .setAssistantLeader g role | .setMainTank g role
  | .setMainAssist g role => ∀ G, M.group g = some G → G.Held role
  | .newGroup _ _ | .movePlayer _ _ _ | .expandToRaid _ | .setDontDisband _ | .setLoggedIn _ _ =>
    True

namespace Groups

variable {M N : Groups} {g p : Nat} {G : Group} {c : GroupCall} {calls : List GroupCall}

/-- The step lemma. -/
theorem Manned.call (h : M.Manned) (hinv : M.Inv) (hsound : c.Sound M) (hc : c.KeepsRoles M) :
    (M.call c).Manned := by
  cases c with
  | newGroup g groupId =>
    simp only [Groups.call]
    split
    · intro k K hK
      rcases group_setGroup_cases hK with ⟨-, heq⟩ | ⟨-, hK⟩
      · obtain rfl := Option.some.inj heq
        exact Group.manned_new groupId
      · exact h k K hK
    · exact h
  | addMember g p subgroupid => exact h.addMember hc
  | removePlayer g p => exact h.removePlayer hc
  | movePlayer g p subgroup => exact h.movePlayer
  | expandToRaid g =>
    obtain ⟨G, hg, hempty⟩ := hsound
    refine h.modify ?_
    intro G' hG'
    obtain rfl := Option.some.inj (hg.symm.trans hG')
    exact (h g G hg).expandToRaid hempty
  | setLeader g role => exact h.modify fun G hG => (h g G hG).setLeader (hc G hG)
  | setLooter g role method threshold =>
    exact h.modify fun G hG => (h g G hG).setLooter (hc G hG) method threshold
  | setAssistantLeader g role =>
    exact h.modify fun G hG => (h g G hG).setAssistantLeader (hc G hG)
  | setMainTank g role => exact h.modify fun G hG => (h g G hG).setMainTank (hc G hG)
  | setMainAssist g role => exact h.modify fun G hG => (h g G hG).setMainAssist (hc G hG)
  | setDontDisband g =>
    refine h.modify ?_
    intro G hG
    have hmanned := h g G hG
    exact ⟨⟨hmanned.toSlotted.congr rfl rfl, hmanned.unblocked⟩, hmanned.leader, hmanned.looter,
      hmanned.assistantLeader, hmanned.mainTank, hmanned.mainAssist, hmanned.led⟩
  | setLoggedIn p loggedIn => exact h.setLoggedIn hinv p loggedIn

/-- In every run whose calls meet their conditions, the roles of all groups
are unset or held by members, and a group with a member logged in has a
leader. -/
theorem roles_refer_to_members (hstart : M.Start)
    (hrun : Run (Guarded (fun M c => GroupCall.Sound M c ∧ GroupCall.KeepsRoles M c)
      (FunStep Groups.call)) M calls N)
    (g : Nat) (G : Group) (hg : N.group g = some G) : G.RolesHeld N.online := by
  have hM : M.Inv ∧ M.Manned := by
    refine ⟨hstart.inv, ?_⟩
    intro k K hK
    rw [hstart.2 k] at hK
    cases hK
  have hN : N.Inv ∧ N.Manned := by
    refine hrun.invariant (fun M => M.Inv ∧ M.Manned) ?_ hM
    rintro s c t ⟨hinv, hmanned⟩ ⟨⟨hsound, hc⟩, rfl⟩
    exact ⟨hinv.call hsound, hmanned.call hinv hsound hc⟩
  exact (hN.2 g G hg).toRolesHeld

/-- Three players group up, and the leader makes the second his assistant. -/
def assistedParty : List GroupCall :=
  [.newGroup 1 1, .addMember 1 10 (-1), .addMember 1 11 (-1), .addMember 1 12 (-1),
    .setAssistantLeader 1 (some 11)]

/-- The leader leaves the party. -/
def partyLeft : List GroupCall := assistedParty ++ [.removePlayer 1 10]

theorem roles_refer_to_members_party :
    ∃ G, (partyLeft.foldl Groups.call newcomers).group 1 = some G ∧
      G.RolesHeld (partyLeft.foldl Groups.call newcomers).online := by
  have hjoin : ∀ (M : Groups) (p : Nat), (M.group 1).isSome → (M.info p).group = none →
      GroupCall.Sound M (.addMember 1 p (-1)) ∧ GroupCall.KeepsRoles M (.addMember 1 p (-1)) := by
    intro M p hg hp
    obtain ⟨G, hG⟩ := Option.isSome_iff_exists.1 hg
    refine ⟨⟨by decide, G, hG, Or.inl hp⟩, ?_⟩
    intro G i _ _ g' G' hg'
    rw [hp] at hg'
    cases hg'
  have hgiven : ∀ M : Groups, 11 ∈ M.members (1, 0) →
      GroupCall.Sound M (.setAssistantLeader 1 (some 11)) ∧
        GroupCall.KeepsRoles M (.setAssistantLeader 1 (some 11)) := by
    intro M hmem
    cases hg : M.group 1 with
    | none => simp [members, hg] at hmem
    | some G =>
      refine ⟨⟨G, hg⟩, ?_⟩
      intro G' hG' p hp
      obtain rfl := Option.some.inj hp
      rw [members_of_group hG'] at hmem
      exact ⟨0, hmem⟩
  have hleave : ∀ M : Groups, (M.info 10).group = some 1 →
      ((M.group 1).map fun G => (G.assistantLeader, G.mainTank, G.mainAssist)) =
        some (some 11, none, none) →
      GroupCall.Sound M (.removePlayer 1 10) ∧ GroupCall.KeepsRoles M (.removePlayer 1 10) := by
    intro M hp hroles
    obtain ⟨G, hG, hroles⟩ := Option.map_eq_some_iff.1 hroles
    injection hroles with hassistant hrest
    injection hrest with htank hassist
    refine ⟨⟨G, hG, Or.inl hp⟩, ?_⟩
    intro G' hG'
    obtain rfl := Option.some.inj (hG.symm.trans hG')
    exact Or.inr ⟨by simp [hassistant], by simp [htank], by simp [hassist]⟩
  have hrun : Run (Guarded (fun M c => GroupCall.Sound M c ∧ GroupCall.KeepsRoles M c)
      (FunStep Groups.call)) newcomers partyLeft
        (partyLeft.foldl Groups.call newcomers) := by
    refine .cons ⟨⟨trivial, trivial⟩, rfl⟩ (.cons ⟨hjoin _ _ ?_ ?_, rfl⟩
      (.cons ⟨hjoin _ _ ?_ ?_, rfl⟩ (.cons ⟨hjoin _ _ ?_ ?_, rfl⟩
        (.cons ⟨hgiven _ ?_, rfl⟩ (.cons ⟨hleave _ ?_ ?_, rfl⟩ (.nil _))))))
    all_goals decide +kernel
  have hsome : ((partyLeft.foldl Groups.call newcomers).group 1).isSome := by decide +kernel
  obtain ⟨G, hG⟩ := Option.isSome_iff_exists.1 hsome
  exact ⟨G, hG, roles_refer_to_members start_newcomers hrun 1 G hG⟩

/-- With the others logged out, nobody follows the leader. And the assistant
who leaves is assistant leader still. -/
theorem roles_outlive_members :
    (∃ calls N G p, Run (FunStep Groups.call) newcomers calls N ∧ N.group 1 = some G ∧
      G.HasMember p ∧ G.leader = none) ∧
    (∃ calls N G p, Run (FunStep Groups.call) newcomers calls N ∧ N.group 1 = some G ∧
      G.assistantLeader = some p ∧ ¬ G.HasMember p) := by
  constructor
  · let calls := assistedParty ++
      [.setLoggedIn 11 false, .setLoggedIn 12 false, .removePlayer 1 10]
    let N := calls.foldl Groups.call newcomers
    have hleader : ((N.group 1).map Group.leader) = some none := by decide +kernel
    have hmem : 11 ∈ N.members (1, 0) := by decide +kernel
    obtain ⟨G, hG, hleader⟩ := Option.map_eq_some_iff.1 hleader
    rw [members_of_group hG] at hmem
    exact ⟨calls, N, G, 11, Run.foldl .., hG, ⟨0, hmem⟩, hleader⟩
  · let calls := assistedParty ++ [.removePlayer 1 11]
    let N := calls.foldl Groups.call newcomers
    have hassistant : ((N.group 1).map Group.assistantLeader) = some (some 11) := by decide +kernel
    have hmem : ∀ i, 11 ∉ N.members (1, i) := by decide +kernel
    obtain ⟨G, hG, hassistant⟩ := Option.map_eq_some_iff.1 hassistant
    refine ⟨calls, N, G, 11, Run.foldl .., hG, hassistant, ?_⟩
    rintro ⟨i, hi⟩
    rw [← members_of_group hG] at hi
    exact hmem i hi

end Groups

end HearthStone
