/-
HearthStone.Group.LfgMgrTheorems — what becomes of the players who look
for a group.

* Adding to a group that was there is never defined: either nothing is
  added, or the call ends without a meaning (`addToGroups_eq`).
* A new group is followed while it is filled (`Young`), and every other
  group only loses members (`Lessens`).
* `Matched` is what the matching is for, `Matchable` when it comes out so.
-/
import HearthStone.Group.LfgMgr
import HearthStone.Group.Membership

namespace HearthStone

/-! ## Adding a member -/

namespace Group

variable {G H : Group} {online : Nat → Bool} {i : Fin 8} {p : Nat}

/-- How many members there are. -/
def total (G : Group) : Nat := ∑ i, (G.members i).card

def capacity (G : Group) : Nat := if G.groupType = GROUP_TYPE_PARTY then 5 else 40

/-- A group of the type of another, with no more members. -/
def Lessens (G H : Group) : Prop := G.total ≤ H.total ∧ G.groupType = H.groupType

theorem Lessens.refl : G.Lessens G := ⟨le_rfl, rfl⟩

theorem Lessens.trans {K : Group} (h : G.Lessens H) (h' : H.Lessens K) : G.Lessens K :=
  ⟨h.1.trans h'.1, h.2.trans h'.2⟩

theorem Lessens.capacity (h : G.Lessens H) (hle : H.total ≤ H.capacity) :
    G.total ≤ G.capacity := by
  unfold Group.capacity at hle ⊢
  rw [h.2]
  exact h.1.trans hle

theorem lessens_of_roster {c : UInt32}
    (h : H.roster = { (G.eraseMember i p).roster with memberCount := c }) : H.Lessens G := by
  have hmem : H.members = (G.eraseMember i p).members :=
    members_congr (H := { G.eraseMember i p with memberCount := c }) h
  refine ⟨Finset.sum_le_sum fun j _ => Finset.card_le_card ?_,
    show H.roster.groupType = _ by rw [h]; rfl⟩
  rw [hmem, members_eraseMember]
  by_cases hj : j = i
  · subst hj
    rw [Function.update_self]
    exact Finset.erase_subset ..
  · rw [Function.update_of_ne hj]

/-- A party that has been made and has got at most so many members. -/
structure Young (k : Nat) (r : Roster) : Prop where
  party : r.groupType = GROUP_TYPE_PARTY
  count : r.memberCount.toNat = k
  slot : r.subGroupCount = 1
  first : ∃ sg, r.subGroups 0 = some sg ∧ sg.members.card ≤ k
  others : ∀ i, i ≠ 0 → r.subGroups i = none

theorem young_new (groupId : UInt32) : Young 0 (new groupId).roster where
  party := rfl
  count := rfl
  slot := rfl
  first := ⟨SubGroup.new, rfl, le_rfl⟩
  others := fun _ hi => if_neg hi

variable {k : Nat}

theorem Young.total_le (h : Young k G.roster) : G.total ≤ k := by
  obtain ⟨sg, hsg, hcard⟩ := h.first
  have hfirst : G.members 0 = sg.members := by
    unfold members
    rw [show G.subGroups 0 = _ from hsg]
    rfl
  have hrest : ∀ i ∈ Finset.univ, i ≠ 0 → (G.members i).card = 0 := by
    intro i _ hi
    unfold members
    rw [show G.subGroups i = _ from h.others i hi]
    rfl
  unfold total
  rw [Finset.sum_eq_single 0 hrest (fun hnot => absurd (Finset.mem_univ _) hnot), hfirst]
  exact hcard

theorem Young.not_full (h : Young k G.roster) (hk : k < 5) : G.isFull = false := by
  have hparty : G.groupType = GROUP_TYPE_PARTY := h.party
  have hcount : G.memberCount.toNat = k := h.count
  have hlt : ¬ MAX_GROUP_SIZE_PARTY ≤ G.memberCount := by
    rw [UInt32.le_iff_toNat_le, hcount]
    exact Nat.not_le.2 hk
  unfold isFull
  rw [hparty, decide_eq_false hlt]
  rfl

theorem Young.findFreeSubGroup (h : Young k G.roster) (hk : k < 5) :
    G.findFreeSubGroup = some 0 := by
  have hslots : G.slots = [0] := by
    unfold slots
    rw [show G.subGroupCount = 1 from h.slot]
    rfl
  obtain ⟨sg, hsg, hcard⟩ := h.first
  have hroom : G.hasRoom 0 = true := by
    unfold hasRoom SubGroup.isFull
    rw [show G.subGroups 0 = _ from hsg]
    simpa using hcard.trans_lt hk
  unfold Group.findFreeSubGroup
  rw [hslots]
  exact List.find?_cons_of_pos hroom

theorem Young.insert (h : Young k G.roster) (hk : k < 5)
    (hroster : H.roster = { (G.insertMember 0 p).roster with memberCount := G.memberCount + 1 }) :
    Young (k + 1) H.roster := by
  obtain ⟨sg, hsg, hcard⟩ := h.first
  have hcount : G.memberCount.toNat = k := h.count
  have hfirst : G.members 0 = sg.members := by
    unfold members
    rw [show G.subGroups 0 = _ from hsg]
    rfl
  have hupdate : H.roster.subGroups =
      Function.update G.subGroups 0 (some ⟨Insert.insert p (G.members 0)⟩) := by
    rw [hroster]
    rfl
  refine ⟨by rw [hroster]; exact h.party, ?_, by rw [hroster]; exact h.slot,
    ⟨⟨Insert.insert p (G.members 0)⟩, by rw [hupdate, Function.update_self], ?_⟩,
    fun i hi => by rw [hupdate, Function.update_of_ne hi]; exact h.others i hi⟩
  · have hone : (1 : UInt32).toNat = 1 := rfl
    rw [hroster]
    change (G.memberCount + 1).toNat = _
    rw [UInt32.toNat_add, hcount]
    omega
  · rw [hfirst]
    exact (Finset.card_insert_le ..).trans (Nat.succ_le_succ hcard)

end Group

namespace Groups

variable {M : Groups} {g k p q : Nat} {G K : Group} {i : Fin 8}

theorem addMember_none (hg : M.group g = some G) (hfull : G.isFull = false)
    (hfree : G.findFreeSubGroup = none) : M.addMember g p (-1) = (M, false) := by
  have hchosen : G.chosenSubGroup (-1) = none := hfree
  unfold addMember
  simp [hg, hfull, hchosen]

/-- The group with its new member, before the player leaves the other. -/
def grown (M : Groups) (G : Group) (i : Fin 8) (p : Nat) : Group :=
  ({ G.insertMember i p with dirty := true, memberCount := G.memberCount + 1 } : Group).update
    M.online

/-- The other group has been left. -/
def left (M : Groups) (g : Nat) (G : Group) (i : Fin 8) (p : Nat) : Groups :=
  ((M.setPlace p (M.info p).group (some i)).setGroup g (some (M.grown G i p))).leaveOther g p

/-- `AddMember` to a group that has room. -/
theorem addMember_some (hg : M.group g = some G) (hfull : G.isFull = false)
    (hfree : G.findFreeSubGroup = some i) :
    M.addMember g p (-1) =
      (((M.left g G i p).setGroup g
        (some ((M.grown G i p).defaultLeader (M.left g G i p).online p))).setPlace p (some g)
          (some i), true) := by
  have hchosen : G.chosenSubGroup (-1) = some i := hfree
  have hroom : G.hasRoom i = true := List.find?_some hfree
  have hself : (M.left g G i p).group g = some (M.grown G i p) :=
    group_leaveOther_self.trans (group_setGroup_self _)
  have honline : (M.left g G i p).online = M.online :=
    online_leaveOther.trans (online_setPlace ..)
  have hmap : (some ((M.grown G i p).defaultLeader M.online p) : Option Group) =
      ((M.left g G i p).group g).map fun G => G.defaultLeader M.online p := by
    rw [hself, Option.map_some]
  rw [honline, hmap]
  unfold addMember
  simp only [hg, hchosen]
  rw [if_neg (by simp [hfull]), if_neg (by simp [hroom])]
  rfl

/-- The group of an addition has the member. -/
theorem group_addMember_self (hg : M.group g = some G) (hfull : G.isFull = false)
    (hfree : G.findFreeSubGroup = some i) :
    ∃ H, (M.addMember g p (-1)).1.group g = some H ∧
      H.roster = { (G.insertMember i p).roster with memberCount := G.memberCount + 1 } := by
  rw [addMember_some hg hfull hfree]
  refine ⟨_, group_setGroup_self _, ?_⟩
  rw [Group.roster_defaultLeader]
  exact Group.roster_update

/-- The other groups at most lose one. -/
theorem group_addMember_of_ne (hk : k ≠ g)
    (hK : (M.addMember g p (-1)).1.group k = some K) :
    ∃ G, M.group k = some G ∧ K.Lessens G := by
  rcases addMember_cases hK with hsame | ⟨_, _, -, -, -, hcases⟩
  · exact ⟨K, hsame, .refl⟩
  · rcases hcases with ⟨G', j, -, -, hG', -, -, heq⟩ | ⟨heq, -⟩
    · refine ⟨G', hG', Group.lessens_of_roster (i := j) (p := p) (c := G'.memberCount - 1) ?_⟩
      rw [heq, Group.roster_update, Group.roster_repairRoles]
      rfl
    · exact absurd heq hk

/-- What the records of others lose, they lose with the group of the
player. -/
theorem Inv.info_removePlayer (h : M.Inv) (hp : (M.info p).group = some g) (hq : q ≠ p) :
    ((M.removePlayer g p).info q).group = (M.info q).group ∨
      ((M.removePlayer g p).info q).group = none ∧ (M.info q).group = some g := by
  obtain ⟨i, hplace⟩ := h.placeOf_of_group hp
  obtain ⟨G, hg⟩ := h.group_of_placeOf hplace
  have hother : (M.setPlace p none none).info q = M.info q := info_setPlace_of_ne _ _ hq
  unfold Groups.removePlayer
  simp only [hg, h.find_of_placeOf hg hplace]
  split
  · unfold Groups.disband
    dsimp only
    split
    · rename_i hin
      obtain ⟨j, -, hj⟩ := hin
      change q ∈ (G.eraseMember i p).members j at hj
      have hmem : q ∈ G.members j := by
        rw [Group.members_eraseMember] at hj
        by_cases hji : j = i
        · subst hji
          rw [Function.update_self] at hj
          exact Finset.mem_of_mem_erase hj
        · rwa [Function.update_of_ne hji] at hj
      exact Or.inr ⟨rfl, (placeOf_eq_some.1 ((h.mem_iff hg).1 hmem)).1⟩
    · rw [hother]
      exact Or.inl rfl
  · exact Or.inl (congrArg PlayerInfo.group hother)

/-- `AddMember` of somebody from elsewhere: he is in the group, and what
the records of others lose, they lose with the group he leaves. -/
theorem Inv.info_addMember (h : M.Inv) (hg : M.group g = some G) (hfull : G.isFull = false)
    (hfree : G.findFreeSubGroup = some i) (hne : (M.info p).group ≠ some g) :
    ((M.addMember g p (-1)).1.info p).group = some g ∧
      ∀ q, q ≠ p → ((M.addMember g p (-1)).1.info q).group = (M.info q).group ∨
        ((M.addMember g p (-1)).1.info q).group = none ∧
          (M.info q).group = (M.info p).group := by
  rw [addMember_some hg hfull hfree]
  refine ⟨congrArg PlayerInfo.group (info_setPlace_self ..), fun q hq => ?_⟩
  rw [info_setPlace_of_ne _ _ hq]
  change ((M.left g G i p).info q).group = _ ∨ ((M.left g G i p).info q).group = _ ∧ _
  have hself : (((M.setPlace p (M.info p).group (some i)).setGroup g
      (some (M.grown G i p))).info p).group = (M.info p).group := by
    change ((M.setPlace p (M.info p).group (some i)).info p).group = _
    rw [info_setPlace_self]
  unfold left Groups.leaveOther
  rw [hself]
  cases hp : (M.info p).group with
  | none => exact Or.inl (congrArg PlayerInfo.group (info_setPlace_of_ne _ _ hq))
  | some g' =>
    have hgg' : g ≠ g' := by
      rintro rfl
      exact hne hp
    dsimp only
    rw [if_neg hgg'.symm, ← hp, h.removePlayer_frame hp hgg', hp]
    exact h.info_removePlayer hp hq

end Groups

namespace LfgMgr

open Groups

variable {s s₀ : LfgState} {M : Groups} {d g k l p q : Nat} {G : Group} {ps : List Nat}

/-! ## Groups that are there -/

theorem not_full_of_suitable (h : s.suitable p = true) (hp : groupOf s.groups p = some (g, G)) :
    s.groups.group g = some G ∧ G.isFull = false := by
  obtain ⟨g', -, hmap⟩ := Option.bind_eq_some_iff.1 hp
  obtain ⟨G', hG', heq⟩ := Option.map_eq_some_iff.1 hmap
  obtain ⟨rfl, rfl⟩ := Prod.mk.inj heq
  unfold LfgState.suitable at h
  rw [hp] at h
  simp only [Option.any_some, Bool.and_eq_true, Bool.not_eq_true'] at h
  exact ⟨hG', h.1.2⟩

theorem exists_groupOf_of_suitable (h : s.suitable p = true) :
    ∃ g G, groupOf s.groups p = some (g, G) := by
  obtain ⟨⟨g, G⟩, hp, -⟩ := (Option.any_eq_true _ _).1 h
  exact ⟨g, G, hp⟩

theorem possibleGroupLeaders_some (p : Nat) (more : List Nat) :
    s.possibleGroupLeaders (some p) more =
      some (if s.suitable p then List.replicate more.length p else []) := by
  induction more with
  | nil => simp [LfgState.possibleGroupLeaders]
  | cons l more ih =>
    simp only [LfgState.possibleGroupLeaders, ih, Option.map_some]
    split <;> rfl

/-- No member finds a place in the leader's group. -/
theorem addToGroup_of_none (hp : groupOf M l = some (g, G)) (hg : M.group g = some G)
    (hfull : G.isFull = false) (hfree : G.findFreeSubGroup = none) (ps : List Nat) :
    addToGroup l M ps = some M := by
  induction ps with
  | nil => rfl
  | cons p ps ih =>
    simp only [addToGroup, hp, hfull, addMember_none hg hfull hfree]
    exact ih

/-- The first member finds one. -/
theorem addToGroup_of_some {i : Fin 8} (hp : groupOf M l = some (g, G)) (hg : M.group g = some G)
    (hfull : G.isFull = false) (hfree : G.findFreeSubGroup = some i) (p : Nat) (ps : List Nat) :
    addToGroup l M (p :: ps) = none := by
  simp [addToGroup, hp, hfull, addMember_some hg hfull hfree]

theorem addToGroups_replicate (h : addToGroup l M ps = some M) (n : Nat) :
    addToGroups ps M (List.replicate n l) = some M := by
  induction n with
  | zero => rfl
  | succ n ih =>
    simp only [List.replicate_succ, addToGroups, h, Option.bind_some]
    exact ih

/-- The loop over `m_lookingForMore` has a player to ask, and his group
takes none of the members. -/
structure LfgState.Untaken (s : LfgState) (d : Nat) : Prop where
  asked : s.lookingForMore d = [] ∨ s.lookingForGroup d ≠ []
  taken : s.lookingForMore d ≠ [] → s.possibleMembers d ≠ [] →
    ∀ p g G, (s.lookingForGroup d).getLast? = some p → s.suitable p = true →
      groupOf s.groups p = some (g, G) → G.findFreeSubGroup = none

variable (s d) in
/-- Both loops over groups that are there. -/
def LfgState.fillGroups : Option Groups :=
  (s.possibleGroupLeaders (s.lookingForGroup d).getLast? (s.lookingForMore d)).bind
    (addToGroups (s.possibleMembers d) s.groups)

/-- A leader nobody asks for takes nobody. -/
theorem addToGroups_nil (ls : List Nat) : addToGroups [] M ls = some M := by
  induction ls with
  | nil => rfl
  | cons l ls ih => exact ih

/-- When the loops are defined, they add nobody. -/
theorem fillGroups_of_untaken (h : s.Untaken d) : s.fillGroups d = some s.groups := by
  unfold LfgState.fillGroups
  cases hmore : s.lookingForMore d with
  | nil => rfl
  | cons m more =>
    have hne : s.lookingForMore d ≠ [] := by simp [hmore]
    have hasked : s.lookingForGroup d ≠ [] := h.asked.resolve_left hne
    obtain ⟨p, hlast⟩ := Option.isSome_iff_exists.1 (List.getLast?_isSome.2 hasked)
    rw [hlast, possibleGroupLeaders_some, Option.bind_some]
    cases hmem : s.possibleMembers d with
    | nil => exact addToGroups_nil _
    | cons q ps =>
      split
      · rename_i hsuit
        obtain ⟨g, G, hp⟩ := exists_groupOf_of_suitable hsuit
        obtain ⟨hg, hfull⟩ := not_full_of_suitable hsuit hp
        have hfree := h.taken hne (by simp [hmem]) p g G hlast hsuit hp
        exact addToGroups_replicate (addToGroup_of_none hp hg hfull hfree _) _
      · rfl

theorem untaken_of_fillGroups (h : s.fillGroups d = some M) : s.Untaken d := by
  unfold LfgState.fillGroups at h
  by_cases hne : s.lookingForMore d = []
  · exact ⟨.inl hne, fun hmore => absurd hne hmore⟩
  obtain ⟨m, more, hmore⟩ := List.exists_cons_of_ne_nil hne
  rw [hmore] at h
  have hasked : s.lookingForGroup d ≠ [] := by
    intro hnil
    rw [hnil] at h
    cases h
  refine ⟨.inr hasked, ?_⟩
  intro _ hmem p g G hlast hsuit hp
  obtain ⟨q, ps, hcons⟩ := List.exists_cons_of_ne_nil hmem
  obtain ⟨hg, hfull⟩ := not_full_of_suitable hsuit hp
  rw [hlast, possibleGroupLeaders_some, if_pos hsuit, Option.bind_some, hcons, List.length_cons,
    List.replicate_succ] at h
  cases hfree : G.findFreeSubGroup with
  | none => rfl
  | some i =>
    simp only [addToGroups, addToGroup_of_some hp hg hfull hfree, Option.bind_none] at h
    cases h

/-! ## New groups -/

def LfgState.placed (s : LfgState) : List Nat := s.placements.map Prod.fst

/-- The records of the players placed name their groups. -/
structure Settled (s₀ s : LfgState) : Prop where
  inv : s.groups.Inv
  known : ∀ p g, (s.groups.info p).group = some g → s₀.next ≤ g → (p, g) ∈ s.placements
  member : ∀ x ∈ s.placements, (s.groups.info x.1).group = some x.2

/-- What holds while new groups are made, `s₀` being the state before. -/
structure Filling (s₀ : LfgState) (d : Nat) (s : LfgState) : Prop where
  next_le : s₀.next ≤ s.next
  unused : ∀ g, s.next ≤ g → s.groups.group g = none
  new : ∀ x ∈ s.placements, s₀.next ≤ x.2
  lessens : ∀ g K, s.groups.group g = some K →
    (∃ G, s₀.groups.group g = some G ∧ K.Lessens G) ∨ K.total ≤ K.capacity
  kept : ∀ p ∈ s₀.lookingForGroup d, p ∈ s.placed ∨ p ∈ s.lookingForGroup d
  removed : ∀ p ∈ s.placed, p ∉ s.lookingForGroup d
  settled : s₀.groups.Inv → s.placed.Nodup → Settled s₀ s

theorem Filling.newGroup (h : Filling s₀ d s) : Filling s₀ d s.newGroup := by
  have hnone := h.unused s.next le_rfl
  refine ⟨h.next_le.trans (Nat.le_succ _), fun g hg => ?_, h.new, fun g K hK => ?_, h.kept,
    h.removed, fun hinv hnodup => ?_⟩
  · have hne : g ≠ s.next := Nat.ne_of_gt hg
    exact (group_setGroup_of_ne hne).trans (h.unused g (Nat.le_of_succ_le hg))
  · rcases group_setGroup_cases hK with ⟨-, heq⟩ | ⟨-, hK⟩
    · obtain rfl := Option.some.inj heq
      exact .inr ((Group.young_new _).total_le.trans (Nat.zero_le _))
    · exact h.lessens g K hK
  · have hs := h.settled hinv hnodup
    refine ⟨hs.inv.setGroup (fun i => ?_) (Group.sound_new _), hs.known, hs.member⟩
    rw [Group.members_new]
    simp [Groups.members, hnone]

/-- One player more in a new group. -/
theorem Filling.join (h : Filling s₀ d s) (hg : s.groups.group g = some G)
    (hyoung : Group.Young k G.roster) (hk : k < 5) (hnew : s₀.next ≤ g) (hlt : g < s.next)
    (p : Nat) :
    Filling s₀ d (s.join d g p) ∧ (s.join d g p).placements = s.placements ++ [(p, g)] ∧
      ∃ H, (s.join d g p).groups.group g = some H ∧ Group.Young (k + 1) H.roster := by
  have hfull := hyoung.not_full hk
  have hfree := hyoung.findFreeSubGroup hk
  have hplace : (s.join d g p).placements = s.placements ++ [(p, g)] := by
    simp [LfgState.join, addMember_some hg hfull hfree]
  have hplaced : (s.join d g p).placed = s.placed ++ [p] := by
    unfold LfgState.placed
    rw [hplace, List.map_append]
    rfl
  have hqueue : (s.join d g p).lookingForGroup d =
      (s.lookingForGroup d).filter fun q => q != p := Function.update_self ..
  obtain ⟨H, hH, hroster⟩ := group_addMember_self (p := p) hg hfull hfree
  have hyoung' := hyoung.insert hk hroster
  refine ⟨⟨h.next_le, fun k hle => ?_, fun x hx => ?_, fun k K hK => ?_, fun q hq => ?_,
    fun q hq => ?_, fun hinv hnodup => ?_⟩, hplace, H, hH, hyoung'⟩
  · have hle : s.next ≤ k := hle
    cases hK : (s.join d g p).groups.group k with
    | none => rfl
    | some K =>
      obtain ⟨G', hG', -⟩ := group_addMember_of_ne (Nat.ne_of_gt (hlt.trans_le hle)) hK
      rw [h.unused k hle] at hG'
      cases hG'
  · rw [hplace] at hx
    rcases List.mem_append.1 hx with hx | hx
    · exact h.new x hx
    · obtain rfl := List.mem_singleton.1 hx
      exact hnew
  · by_cases hkg : k = g
    · subst hkg
      obtain rfl := Option.some.inj (hH.symm.trans hK)
      have hcap : H.capacity = 5 := if_pos hyoung'.party
      exact .inr (hyoung'.total_le.trans (by omega))
    · obtain ⟨G', hG', hless⟩ := group_addMember_of_ne hkg hK
      rcases h.lessens k G' hG' with ⟨G₀, hG₀, hless₀⟩ | hcap
      · exact .inl ⟨G₀, hG₀, hless.trans hless₀⟩
      · exact .inr (hless.capacity hcap)
  · rw [hplaced, hqueue]
    by_cases hqp : q = p
    · exact .inl (List.mem_append_right _ (List.mem_singleton.2 hqp))
    · rcases h.kept q hq with hin | hin
      · exact .inl (List.mem_append_left _ hin)
      · exact .inr (List.mem_filter.2 ⟨hin, bne_iff_ne.2 hqp⟩)
  · rw [hplaced] at hq
    rw [hqueue, List.mem_filter]
    rintro ⟨hin, hqp⟩
    rcases List.mem_append.1 hq with hq | hq
    · exact h.removed q hq hin
    · exact bne_iff_ne.1 hqp (List.mem_singleton.1 hq)
  · rw [hplaced] at hnodup
    obtain ⟨hnodup, -, hdisjoint⟩ := List.nodup_append'.1 hnodup
    have hp : p ∉ s.placed := fun hin => hdisjoint hin (List.mem_singleton.2 rfl)
    have hs := h.settled hinv hnodup
    have hnot : ∀ g, s₀.next ≤ g → (s.groups.info p).group ≠ some g := by
      intro g hg heq
      exact hp (List.mem_map.2 ⟨_, hs.known p g heq hg, rfl⟩)
    obtain ⟨hself, hothers⟩ := hs.inv.info_addMember hg hfull hfree (hnot g hnew)
    refine ⟨hs.inv.addMember ⟨by decide, G, hg, .inr ⟨hfull, fun i hi => ?_⟩⟩, ?_, ?_⟩
    · exact ⟨List.find?_some hi, hnot g hnew⟩
    · intro q g' hq hle
      rw [hplace]
      by_cases hqp : q = p
      · subst hqp
        obtain rfl := Option.some.inj (hself.symm.trans hq)
        exact List.mem_append_right _ (List.mem_singleton.2 rfl)
      · change ((s.groups.addMember g p (-1)).1.info q).group = _ at hq
        rcases hothers q hqp with hsame | ⟨hnone, -⟩
        · rw [hsame] at hq
          exact List.mem_append_left _ (hs.known q g' hq hle)
        · rw [hnone] at hq
          cases hq
    · intro x hx
      change ((s.groups.addMember g p (-1)).1.info x.1).group = _
      rw [hplace] at hx
      rcases List.mem_append.1 hx with hx | hx
      · have hxp : x.1 ≠ p := fun heq => hp (heq ▸ List.mem_map_of_mem hx)
        rcases hothers x.1 hxp with hsame | ⟨-, hsame⟩
        · rw [hsame]
          exact hs.member x hx
        · rw [hs.member x hx] at hsame
          exact absurd hsame.symm (hnot x.2 (h.new x hx))
      · obtain rfl := List.mem_singleton.1 hx
        exact hself

/-- A new group is filled. -/
theorem Filling.foldl (h : Filling s₀ d s) (ps : List Nat) (hg : s.groups.group g = some G)
    (hyoung : Group.Young k G.roster) (hk : k + ps.length ≤ 5) (hnew : s₀.next ≤ g)
    (hlt : g < s.next) :
    Filling s₀ d (ps.foldl (LfgState.join d g) s) ∧
      (ps.foldl (LfgState.join d g) s).placed = s.placed ++ ps := by
  induction ps generalizing s k G with
  | nil => exact ⟨h, (List.append_nil _).symm⟩
  | cons p ps ih =>
    rw [List.length_cons] at hk
    obtain ⟨hjoin, hplace, H, hH, hyoung⟩ := h.join hg hyoung (by omega) hnew hlt p
    obtain ⟨hfill, hplaced⟩ := ih hjoin hH hyoung (by omega) hlt
    refine ⟨hfill, ?_⟩
    rw [List.foldl_cons, hplaced]
    unfold LfgState.placed
    rw [hplace, List.map_append, List.append_assoc]
    rfl

/-- The members new groups are made of: all, or all but the last. -/
def grouped (members : List Nat) : List Nat :=
  if members.length % 5 = 1 then members.dropLast else members

theorem grouped_short (h : ps.length ≤ 1) : grouped ps = [] := by
  match ps with
  | [] => rfl
  | [p] => rfl

theorem grouped_long (h : 1 < ps.length) : ps.take 5 ++ grouped (ps.drop 5) = grouped ps := by
  unfold grouped
  rw [List.length_drop]
  rcases Nat.lt_or_ge ps.length 5 with hlt | hge
  · rw [if_neg (by omega), if_neg (by omega), List.take_append_drop]
  · have hmod : (ps.length - 5) % 5 = ps.length % 5 := by omega
    rw [hmod]
    split
    · rename_i hone
      have hne : ps.drop 5 ≠ [] := List.ne_nil_of_length_pos (by rw [List.length_drop]; omega)
      rw [← List.dropLast_append_of_ne_nil hne, List.take_append_drop]
    · exact List.take_append_drop 5 ps

theorem next_foldl (ps : List Nat) (s : LfgState) :
    (ps.foldl (LfgState.join d g) s).next = s.next := by
  induction ps generalizing s with
  | nil => rfl
  | cons p ps ih => exact ih (s.join d g p)

theorem next_createGroups (ps : List Nat) (s : LfgState) :
    s.next ≤ (s.createGroups d ps).next := by
  induction ps using (measure List.length).wf.induction generalizing s with
  | _ ps ih =>
    unfold LfgState.createGroups
    split
    · have hrest := ih (ps.drop 5) (by
        change (ps.drop 5).length < ps.length
        rw [List.length_drop]
        omega) ((ps.take 5).foldl (LfgState.join d s.next) s.newGroup)
      rw [next_foldl] at hrest
      exact (Nat.le_succ _).trans hrest
    · exact le_rfl

theorem next_createGroups_eq_iff : (s.createGroups d ps).next = s.next ↔ ps.length ≤ 1 := by
  unfold LfgState.createGroups
  split
  · rename_i hlong
    have hle := next_createGroups (d := d) (ps.drop 5)
      ((ps.take 5).foldl (LfgState.join d s.next) s.newGroup)
    rw [next_foldl] at hle
    have hsucc : s.next + 1 ≤ _ := hle
    exact ⟨fun h => by omega, fun h => by omega⟩
  · rename_i hshort
    exact ⟨fun _ => Nat.le_of_not_lt hshort, fun _ => rfl⟩

theorem Filling.createGroups (h : Filling s₀ d s) (ps : List Nat) :
    Filling s₀ d (s.createGroups d ps) ∧
      (s.createGroups d ps).placed = s.placed ++ grouped ps := by
  induction ps using (measure List.length).wf.induction generalizing s with
  | _ ps ih =>
    unfold LfgState.createGroups
    split
    · rename_i hlong
      obtain ⟨hfill, hplaced⟩ := h.newGroup.foldl (ps.take 5) (group_setGroup_self _)
        (Group.young_new _) (by rw [List.length_take]; omega) h.next_le (Nat.lt_succ_self _)
      obtain ⟨hrest, hrestplaced⟩ := ih (ps.drop 5) (by
        change (ps.drop 5).length < ps.length
        rw [List.length_drop]
        omega) hfill
      refine ⟨hrest, ?_⟩
      rw [hrestplaced, hplaced, List.append_assoc, grouped_long hlong]
      rfl
    · rename_i hshort
      refine ⟨h, ?_⟩
      rw [grouped_short (Nat.le_of_not_lt hshort), List.append_nil]

/-! ## What the matching is for -/

/-- `s'` is the state after players of `s` who wait in a queue have been
matched. -/
structure Matched (s : LfgState) (d : Nat) (s' : LfgState) : Prop where
  /-- each player is put in a group at most once, and only if he waited -/
  once : s'.placed.Nodup
  waited : ∀ p ∈ s'.placed, p ∈ s.possibleMembers d
  /-- whoever has been put in a group is a member of it -/
  member : s.groups.Inv → s'.groups.Inv ∧
    ∀ x ∈ s'.placements, (s'.groups.info x.1).group = some x.2 ∧
      ∃ i, x.1 ∈ s'.groups.members (x.2, i)
  /-- there is no new group before the groups that wait for members are filled -/
  filled : s'.next ≠ s.next → ∀ l ∈ s.lookingForMore d, s.suitable l = true →
    ∀ g G, groupOf s.groups l = some (g, G) →
      G.memberCount.toNat + (s'.placements.filter fun x => x.2 == g).length = 5
  capacity : ∀ g K, s'.groups.group g = some K →
    (∀ G, s.groups.group g = some G → G.total ≤ G.capacity) → K.total ≤ K.capacity
  /-- nobody is dropped, and whoever has been put in a group waits no longer -/
  kept : ∀ p ∈ s.lookingForGroup d, p ∈ s'.placed ∨ p ∈ s'.lookingForGroup d
  removed : ∀ p ∈ s'.placed, p ∉ s'.lookingForGroup d

/-- The call has a meaning, and players are matched. -/
def Right (w : LfgWorld) (lfgDungeonId : UInt32) : Prop :=
  ∃ s', updateLfgQueue w.toLfgState lfgDungeonId = some s' ∧
    Matched w.toLfgState lfgDungeonId.toNat s'

/-- Nobody who takes members is asked for them, no group that takes members
is passed over for a new one, and none who gets into a new group waits twice. -/
structure Matchable (s : LfgState) (d : Nat) : Prop extends s.Untaken d where
  unfilled : (s.possibleMembers d).length ≤ 1 ∨ ∀ l ∈ s.lookingForMore d, s.suitable l = false
  once : (grouped (s.possibleMembers d)).Nodup

theorem mem_of_mem_grouped (h : p ∈ grouped ps) : p ∈ ps := by
  unfold grouped at h
  split at h
  · exact List.mem_of_mem_dropLast h
  · exact h

/-- A call that does nothing. -/
theorem matched_self (h : s.placements = []) : Matched s d s := by
  have hnone : s.placed = [] := congrArg (List.map Prod.fst) h
  refine ⟨by simp [hnone], by simp [hnone], fun hinv => ⟨hinv, by simp [h]⟩,
    fun hne => absurd rfl hne, fun g K hK hcap => hcap K hK, fun p hp => .inr hp, by simp [hnone]⟩

theorem LfgWorld.filling (w : LfgWorld) : Filling w.toLfgState d w.toLfgState := by
  have hnone : w.placed = [] := congrArg (List.map Prod.fst) w.unplaced
  refine ⟨le_rfl, w.unused, by simp [w.unplaced], fun g K hK => .inl ⟨K, hK, .refl⟩,
    fun p hp => .inr hp, by simp [hnone], fun hinv _ => ⟨hinv, fun p g hp hle => ?_,
      by simp [w.unplaced]⟩⟩
  obtain ⟨i, hplace⟩ := hinv.placeOf_of_group hp
  obtain ⟨G, hG⟩ := hinv.group_of_placeOf hplace
  rw [w.unused g hle] at hG
  cases hG

theorem LfgWorld.placed_createGroups (w : LfgWorld) (ps : List Nat) :
    (w.createGroups d ps).placed = grouped ps := by
  have hnone : w.placed = [] := congrArg (List.map Prod.fst) w.unplaced
  rw [(w.filling.createGroups ps).2, hnone, List.nil_append]

/-- A group that takes members has not five. -/
theorem memberCount_of_suitable (h : s.suitable p = true) (hp : groupOf s.groups p = some (g, G)) :
    G.memberCount.toNat < 5 := by
  unfold LfgState.suitable at h
  rw [hp] at h
  simp only [Option.any_some, Bool.and_eq_true, Bool.not_eq_true', beq_iff_eq] at h
  obtain ⟨⟨-, hfull⟩, hparty⟩ := h
  unfold Group.isFull at hfull
  rw [hparty, beq_self_eq_true, Bool.true_and, Bool.or_eq_false_iff] at hfull
  have hlt := of_decide_eq_false hfull.1
  rw [UInt32.le_iff_toNat_le] at hlt
  exact Nat.lt_of_not_le hlt

/-- No group that takes members gets one. -/
theorem LfgWorld.filled_iff (w : LfgWorld) (h : Filling w.toLfgState d s) :
    (∀ l ∈ w.lookingForMore d, w.suitable l = true → ∀ g G, groupOf w.groups l = some (g, G) →
      G.memberCount.toNat + (s.placements.filter fun x => x.2 == g).length = 5) ↔
      ∀ l ∈ w.lookingForMore d, w.suitable l = false := by
  refine ⟨fun hall l hl => ?_, fun hnone l hl hsuit => ?_⟩
  · by_contra hsuit
    rw [Bool.not_eq_false] at hsuit
    obtain ⟨g, G, hp⟩ := exists_groupOf_of_suitable hsuit
    obtain ⟨hg, -⟩ := not_full_of_suitable hsuit hp
    have hlt : g < w.next := by
      by_contra hle
      rw [w.unused g (Nat.le_of_not_lt hle)] at hg
      cases hg
    have hempty : (s.placements.filter fun x => x.2 == g) = [] := by
      rw [List.filter_eq_nil_iff]
      intro x hx heq
      have hge := h.new x hx
      rw [beq_iff_eq] at heq
      omega
    have hcount := memberCount_of_suitable hsuit hp
    have hfive := hall l hl hsuit g G hp
    rw [hempty, List.length_nil] at hfive
    omega
  · rw [hnone l hl] at hsuit
    cases hsuit

theorem LfgWorld.matched_createGroups_iff (w : LfgWorld) :
    Matched w.toLfgState d (w.createGroups d (w.possibleMembers d)) ↔
      ((w.possibleMembers d).length ≤ 1 ∨ ∀ l ∈ w.lookingForMore d, w.suitable l = false) ∧
        (grouped (w.possibleMembers d)).Nodup := by
  obtain ⟨hfill, -⟩ := w.filling.createGroups (d := d) (w.possibleMembers d)
  have hplaced := w.placed_createGroups (d := d) (w.possibleMembers d)
  have hfilled := w.filled_iff hfill
  constructor
  · intro h
    refine ⟨?_, hplaced ▸ h.once⟩
    rcases Nat.lt_or_ge 1 (w.possibleMembers d).length with hlong | hshort
    · exact .inr (hfilled.1 (h.filled fun heq =>
        Nat.not_le.2 hlong (next_createGroups_eq_iff.1 heq)))
    · exact .inl hshort
  · rintro ⟨hleaders, honce⟩
    refine ⟨hplaced ▸ honce, fun p hp => mem_of_mem_grouped (hplaced ▸ hp), fun hinv => ?_,
      fun hne => ?_, fun g K hK hcap => ?_, hfill.kept, hfill.removed⟩
    · have hs := hfill.settled hinv (hplaced ▸ honce)
      refine ⟨hs.inv, fun x hx => ⟨hs.member x hx, ?_⟩⟩
      obtain ⟨i, hplace⟩ := hs.inv.placeOf_of_group (hs.member x hx)
      exact ⟨i, (hs.inv.fibers (x.2, i) x.1).2 hplace⟩
    · rcases hleaders with hshort | hnone
      · exact absurd (next_createGroups_eq_iff.2 hshort) hne
      · exact hfilled.2 hnone
    · rcases hfill.lessens g K hK with ⟨G, hG, hless⟩ | hK
      · exact hless.capacity (hcap G hG)
      · exact hK

theorem LfgWorld.right_iff_of_autojoinable (w : LfgWorld) {lfgDungeonId : UInt32}
    (hlt : lfgDungeonId.toNat < MAX_DUNGEONS) (hauto : w.autojoinable lfgDungeonId.toNat) :
    Right w lfgDungeonId ↔ Matchable w.toLfgState lfgDungeonId.toNat := by
  have hcall : updateLfgQueue w.toLfgState lfgDungeonId =
      (w.fillGroups lfgDungeonId.toNat).map fun M =>
        { w.toLfgState with groups := M }.createGroups lfgDungeonId.toNat
          (w.possibleMembers lfgDungeonId.toNat) := by
    unfold updateLfgQueue LfgState.fillGroups
    rw [if_neg (by omega), if_neg (by omega), if_pos hauto, Option.map_bind]
    rfl
  unfold Right
  rw [hcall]
  constructor
  · rintro ⟨s', hs', hmatched⟩
    obtain ⟨M, hM, rfl⟩ := Option.map_eq_some_iff.1 hs'
    have huntaken := untaken_of_fillGroups hM
    obtain rfl := Option.some.inj ((fillGroups_of_untaken huntaken).symm.trans hM)
    obtain ⟨hleaders, honce⟩ := w.matched_createGroups_iff.1 hmatched
    exact ⟨huntaken, hleaders, honce⟩
  · intro h
    rw [fillGroups_of_untaken h.toUntaken, Option.map_some]
    exact ⟨_, rfl, w.matched_createGroups_iff.2 ⟨h.unfilled, h.once⟩⟩

/-- Without an effect for numbers past the array and for other dungeons; no
meaning for the first number past the array. -/
theorem updateLfgQueue_right_iff (w : LfgWorld) (lfgDungeonId : UInt32) :
    Right w lfgDungeonId ↔
      MAX_DUNGEONS < lfgDungeonId.toNat ∨
        lfgDungeonId.toNat < MAX_DUNGEONS ∧
          (w.autojoinable lfgDungeonId.toNat → Matchable w.toLfgState lfgDungeonId.toNat) := by
  have hself : Matched w.toLfgState lfgDungeonId.toNat w.toLfgState := matched_self w.unplaced
  rcases Nat.lt_trichotomy lfgDungeonId.toNat MAX_DUNGEONS with hlt | heq | hpast
  · by_cases hauto : w.autojoinable lfgDungeonId.toNat
    · rw [w.right_iff_of_autojoinable hlt hauto]
      refine ⟨fun h => .inr ⟨hlt, fun _ => h⟩, fun h => ?_⟩
      rcases h with hpast | ⟨-, h⟩
      · omega
      · exact h hauto
    · refine ⟨fun _ => .inr ⟨hlt, fun h => absurd h hauto⟩, fun _ => ⟨w.toLfgState, ?_, hself⟩⟩
      unfold updateLfgQueue
      rw [if_neg (by omega), if_neg (by omega), if_neg hauto]
  · refine ⟨?_, fun h => by omega⟩
    rintro ⟨s', h, -⟩
    unfold updateLfgQueue at h
    rw [if_neg (by omega), if_pos heq] at h
    cases h
  · refine ⟨fun _ => .inl hpast, fun _ => ⟨w.toLfgState, ?_, hself⟩⟩
    unfold updateLfgQueue
    rw [if_pos hpast]

/-! ## A leader who looks for more -/

/-- A party that has its leader only. -/
def leaderAlone : Groups where
  info := fun p => ⟨p.toUInt32, true, if p = 10 then some 1 else none, Group.slot 0⟩
  group := fun g =>
    if g = 1 then
      some { Group.new 1 with
        leader := some 10, memberCount := 1
        subGroups := fun i => if i.val = 0 then some ⟨{10}⟩ else none }
    else none

theorem unused_leaderAlone (g : Nat) (h : 2 ≤ g) : leaderAlone.group g = none :=
  if_neg (by omega)

/-- He takes members and looks for more, and two others wait. -/
def crowd : LfgWorld where
  groups := leaderAlone
  player := fun _ => ⟨0, false, true, true⟩
  dungeonTypes := fun _ => LFG_INSTANCE
  lookingForGroup := fun _ => [11, 12]
  lookingForMore := fun _ => [10]
  hiGroupId := 1
  next := 2
  placements := []
  unused := unused_leaderAlone
  unplaced := rfl

/-- The two get a group of their own, and nobody joins his. -/
theorem crowd_not_right : ¬ Right crowd 1 := by
  intro h
  have hmatch := (crowd.right_iff_of_autojoinable (by decide) (.inl rfl)).1 h
  have hsuit : crowd.suitable 10 = true := by decide
  rcases hmatch.unfilled with hshort | hnone
  · exact absurd hshort (by decide)
  · have hten := hnone 10 List.mem_cons_self
    rw [hsuit] at hten
    cases hten

end LfgMgr

end HearthStone
