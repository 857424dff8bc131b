/-
HearthStone.Group.Group — parties and raids (`Group.cpp`).

* `PlayerInfo` is the part of a player's record the groups use. A record
  is named by its address; a `std::set` of records is a `Finset` of
  addresses, walked in their order. `subGroup` is an `int8` that is only
  ever -1 (here `none`) or the number of one of the eight slots.
* `Group` has eight slots for subgroups, of which a party uses one and a
  raid all. A slot that holds no subgroup is `none`, the NULL of the
  array. The counter of members is a machine word of its own.
* `Groups` is the record of all players together with all groups that
  have not been destroyed.

Left out: packets, the area auras of a leaving player, the battleground
queue and the voice channel, none of which is read back here, and the
statement `SaveToDB` executes inside `update` (the row it writes is in
`Group.Persistence`). `GROUP_FLAG_REMOVE_OFFLINE_PLAYERS` is set nowhere,
so the pass of `update` it turns on is left out with it.

`addMember` reads the slot its caller names. No caller names one, and a
number past the last slot would read outside the array; the model finds
no subgroup there.
-/
import Mathlib

namespace HearthStone

/-- The part of a player's record that the groups read and write. -/
structure PlayerInfo where
  guid : UInt32
  /-- whether `m_loggedInPlayer` is set -/
  loggedIn : Bool
  group : Option Nat
  subGroup : Option (Fin 8)
  deriving DecidableEq

/-- The addresses in a set, as an iterator meets them. -/
def inOrder (s : Finset Nat) : List Nat :=
  (List.range (s.sup id + 1)).filter fun p => decide (p ∈ s)

@[simp] theorem mem_inOrder {s : Finset Nat} {p : Nat} : p ∈ inOrder s ↔ p ∈ s := by
  unfold inOrder
  rw [List.mem_filter, List.mem_range, decide_eq_true_iff]
  constructor
  · rintro ⟨-, hp⟩
    exact hp
  · intro hp
    have hle : p ≤ s.sup id := Finset.le_sup (f := id) hp
    exact ⟨by omega, hp⟩

structure SubGroup where
  members : Finset Nat
  deriving DecidableEq

/-- `new SubGroup`. -/
def SubGroup.new : SubGroup := { members := ∅ }

def MAX_GROUP_SIZE_PARTY : UInt32 := 5
def MAX_GROUP_SIZE_RAID : UInt32 := 40

def GROUP_TYPE_PARTY : UInt8 := 0
def GROUP_TYPE_RAID : UInt8 := 1

def PARTY_LOOT_GROUP : UInt8 := 3

def SubGroup.isFull (sg : SubGroup) : Bool := decide (5 ≤ sg.members.card)

structure Group where
  groupId : UInt32
  leader : Option Nat
  looter : Option Nat
  assistantLeader : Option Nat
  mainTank : Option Nat
  mainAssist : Option Nat
  lootMethod : UInt8
  lootThreshold : UInt16
  groupType : UInt8
  subGroups : Fin 8 → Option SubGroup
  subGroupCount : UInt8
  memberCount : UInt32
  difficulty : UInt8
  dirty : Bool
  updateblock : Bool
  /-- `GROUP_FLAG_DONT_DISBAND_WITH_NO_MEMBERS`, the flag of a battleground's group -/
  dontDisband : Bool

namespace Group

variable (G : Group) (online : Nat → Bool) (i : Fin 8) (p : Nat)

/-- `new Group`: a party with one subgroup. -/
def new (groupId : UInt32) : Group where
  groupId := groupId
  leader := none
  looter := none
  assistantLeader := none
  mainTank := none
  mainAssist := none
  lootMethod := PARTY_LOOT_GROUP
  lootThreshold := 2
  groupType := GROUP_TYPE_PARTY
  subGroups := fun i => if i = 0 then some .new else none
  subGroupCount := 1
  memberCount := 0
  difficulty := 0
  dirty := false
  updateblock := false
  dontDisband := false

/-- Who is in the subgroup of a slot. -/
def members : Finset Nat := ((G.subGroups i).map SubGroup.members).getD ∅

/-- The slots below `m_SubGroupCount`, in order. -/
def slots : List (Fin 8) := (List.finRange 8).filter fun i => decide (i.val < G.subGroupCount.toNat)

/-- `Group::IsFull`. -/
def isFull : Bool :=
  (G.groupType == GROUP_TYPE_PARTY && decide (MAX_GROUP_SIZE_PARTY ≤ G.memberCount)) ||
    (G.groupType == GROUP_TYPE_RAID && decide (MAX_GROUP_SIZE_RAID ≤ G.memberCount))

/-- The subgroup of a slot can take another member. -/
def hasRoom : Bool := (G.subGroups i).any fun sg => !sg.isFull

def findFreeSubGroup : Option (Fin 8) := G.slots.find? G.hasRoom

/-- The slot of a number. -/
def slot (n : Nat) : Option (Fin 8) := if h : n < 8 then some ⟨n, h⟩ else none

/-- The subgroup `AddMember` puts a player in, `none` for NULL. -/
def chosenSubGroup (subgroupid : Int) : Option (Fin 8) :=
  if 0 < subgroupid then (slot subgroupid.toNat).filter fun i => (G.subGroups i).isSome
  else G.findFreeSubGroup

/-- The first member who is logged in. -/
def findFirstPlayer : Option Nat := G.slots.findSome? fun i => (inOrder (G.members i)).find? online

/-- The subgroup with this member: the slot his record names, or else the
first that has him. When no subgroup has him, the slot his record names
is what is left in `sg`. -/
def findSubGroupOf (subGroup : Option (Fin 8)) : Option (Fin 8) :=
  let sg := subGroup.filter fun i => (G.subGroups i).isSome
  if sg.any fun i => decide (p ∈ G.members i) then sg
  else (G.slots.find? fun i => decide (p ∈ G.members i)).or sg

/-- `SubGroup::AddPlayer`, the set's part. -/
def insertMember : Group :=
  { G with subGroups := Function.update G.subGroups i (some ⟨insert p (G.members i)⟩) }

/-- `SubGroup::RemovePlayer`, the set's part. -/
def eraseMember : Group :=
  { G with subGroups := Function.update G.subGroups i (some ⟨(G.members i).erase p⟩) }

/-- `Group::Update`: a leader or looter who has gone offline is replaced. -/
def update : Group :=
  if G.updateblock then G
  else
    let newLeader := if G.leader.all fun q => !online q then G.findFirstPlayer online else none
    let newLooter :=
      if G.looter.any fun q => !online q then newLeader.or (G.findFirstPlayer online) else none
    { G with leader := newLeader.or G.leader, looter := newLooter.or G.looter, dirty := false }

/-! ## Roles -/

/-- `Group::SetLeader`; no player leaves the leader as he is. -/
def setLeader (player : Option Nat) : Group :=
  (match player with
    | some q => { G with leader := some q, dirty := true }
    | none => G).update online

/-- `Group::SetLooter`. -/
def setLooter (player : Option Nat) (method : UInt8) (threshold : UInt16) : Group :=
  { G with lootMethod := method, looter := player, lootThreshold := threshold
           dirty := true }.update online

/-- `Group::SetAssistantLeader`. -/
def setAssistantLeader (member : Option Nat) : Group :=
  if G.assistantLeader = member then G
  else { G with assistantLeader := member, dirty := true }.update online

/-- `Group::SetMainTank`. -/
def setMainTank (member : Option Nat) : Group :=
  if G.mainTank = member then G else { G with mainTank := member, dirty := true }.update online

/-- `Group::SetMainAssist`. -/
def setMainAssist (member : Option Nat) : Group :=
  if G.mainAssist = member then G else { G with mainAssist := member, dirty := true }.update online

/-- What `RemovePlayer` does about the roles of the player who left. -/
def repairRoles : Group :=
  let newPlayer := if G.looter = some p then G.findFirstPlayer online else none
  let H := if G.looter = some p then { G with looter := newPlayer } else G
  if H.leader = some p then
    match newPlayer.or (H.findFirstPlayer online) with
    | some q => H.setLeader online (some q)
    | none => { H with leader := none }
  else H

/-- `Group::ExpandToRaid`. -/
def expandToRaid : Group :=
  { G with subGroupCount := 8
           subGroups := fun i => if i = 0 then G.subGroups i else some .new
           groupType := GROUP_TYPE_RAID, dirty := true }.update online

/-- `AddMember` gives a group without a leader its new member, if he is logged in. -/
def defaultLeader : Group :=
  if G.leader.isNone && online p then { G with leader := some p } else G

/-- The counter of members reaches the point where a removal disbands. -/
def disbands : Bool := decide (G.memberCount - 1 < 2) && !G.dontDisband

end Group

/-- All players' records and all groups. -/
structure Groups where
  info : Nat → PlayerInfo
  group : Nat → Option Group

namespace Groups

variable (M : Groups)

def online (p : Nat) : Bool := (M.info p).loggedIn

def setGroup (g : Nat) (G : Option Group) : Groups :=
  { M with group := Function.update M.group g G }

/-- The two fields of a record that name its place are written. -/
def setPlace (p : Nat) (g : Option Nat) (i : Option (Fin 8)) : Groups :=
  { M with info := Function.update M.info p { M.info p with group := g, subGroup := i } }

/-- `Group::Disband`: the records of all members are cleared, and the
group is destroyed. -/
def disband (g : Nat) (G : Group) : Groups where
  info := fun p =>
    if ∃ i ∈ G.slots, p ∈ G.members i then { M.info p with group := none, subGroup := none }
    else M.info p
  group := Function.update M.group g none

/-- `Group::RemovePlayer`. -/
def removePlayer (g p : Nat) : Groups :=
  match M.group g with
  | none => M
  | some G =>
    match G.findSubGroupOf p (M.info p).subGroup with
    | none => M.setPlace p none none
    | some i =>
      let H := { G.eraseMember i p with dirty := true, memberCount := G.memberCount - 1 }
      if G.disbands then (M.setPlace p none none).disband g H
      else
        (M.setPlace p none none).setGroup g (some ((H.repairRoles M.online p).update M.online))

/-- The last lines of `AddMember`: the player leaves the group he was in. -/
def leaveOther (g p : Nat) : Groups :=
  match (M.info p).group with
  | some g' => if g' = g then M else M.removePlayer g' p
  | none => M

/-- `Group::AddMember`. -/
def addMember (g p : Nat) (subgroupid : Int) : Groups × Bool :=
  match M.group g with
  | none => (M, false)
  | some G =>
    if G.isFull then (M.setPlace p none none, false)
    else
      match G.chosenSubGroup subgroupid with
      | none => (M, false)
      | some i =>
        if !G.hasRoom i then (M.setPlace p none none, false)
        else
          let H := { G.insertMember i p with dirty := true, memberCount := G.memberCount + 1 }
          let M₁ := (M.setPlace p (M.info p).group (some i)).setGroup g (some (H.update M.online))
          let M₂ := M₁.leaveOther g p
          let M₃ := M₂.setGroup g ((M₂.group g).map fun G => G.defaultLeader M.online p)
          (M₃.setPlace p (some g) (some i), true)

/-- `Group::MovePlayer`. -/
def movePlayer (g p : Nat) (subgroup : UInt8) : Groups :=
  match M.group g with
  | none => M
  | some G =>
    if G.subGroupCount ≤ subgroup then M
    else
      match Group.slot subgroup.toNat with
      | none => M
      | some j =>
        if !G.hasRoom j then M
        else
          match G.findSubGroupOf p ((M.info p).subGroup.filter fun i => decide (0 < i)) with
          | none => M
          | some i =>
            let H := G.eraseMember i p
            let M₁ :=
              if H.hasRoom j then
                (M.setGroup g (some (H.insertMember j p))).setPlace p (some g) (some j)
              else
                let M₂ := ((M.setPlace p (M.info p).group none).setGroup g (some H)).removePlayer g p
                M₂.setPlace p none (M₂.info p).subGroup
            M₁.setGroup g ((M₁.group g).map fun G => G.update M.online)

/-- A call that concerns one group and no record. -/
def modify (g : Nat) (f : Group → Group) : Groups := M.setGroup g ((M.group g).map f)

def setOnline (p : Nat) (loggedIn : Bool) : Groups :=
  { M with info := Function.update M.info p { M.info p with loggedIn := loggedIn } }

/-- `FullLogin` and `LogoutPlayer`: the player's group is told. -/
def setLoggedIn (p : Nat) (loggedIn : Bool) : Groups :=
  match (M.info p).group with
  | some g => (M.setOnline p loggedIn).modify g fun G => G.update (M.setOnline p loggedIn).online
  | none => M.setOnline p loggedIn

end Groups

/-- The calls that change a group, and a player who logs in or out. -/
inductive GroupCall
  | newGroup (g : Nat) (groupId : UInt32)
  | addMember (g p : Nat) (subgroupid : Int)
  | removePlayer (g p : Nat)
  | movePlayer (g p : Nat) (subgroup : UInt8)
  | expandToRaid (g : Nat)
  | setLeader (g : Nat) (player : Option Nat)
  | setLooter (g : Nat) (player : Option Nat) (method : UInt8) (threshold : UInt16)
  | setAssistantLeader (g : Nat) (member : Option Nat)
  | setMainTank (g : Nat) (member : Option Nat)
  | setMainAssist (g : Nat) (member : Option Nat)
  | setDontDisband (g : Nat)
  | setLoggedIn (p : Nat) (loggedIn : Bool)

/-- The state after a call. A new group is at an address no other group is at. -/
def Groups.call (M : Groups) : GroupCall → Groups
  | .newGroup g groupId =>
    match M.group g with
    | none => M.setGroup g (some (.new groupId))
    | some _ => M
  | .addMember g p subgroupid => (M.addMember g p subgroupid).1
  | .removePlayer g p => M.removePlayer g p
  | .movePlayer g p subgroup => M.movePlayer g p subgroup
  | .expandToRaid g => M.modify g fun G => G.expandToRaid M.online
  | .setLeader g player => M.modify g fun G => G.setLeader M.online player
  | .setLooter g player method threshold =>
    M.modify g fun G => G.setLooter M.online player method threshold
  | .setAssistantLeader g member => M.modify g fun G => G.setAssistantLeader M.online member
  | .setMainTank g member => M.modify g fun G => G.setMainTank M.online member
  | .setMainAssist g member => M.modify g fun G => G.setMainAssist M.online member
  | .setDontDisband g => M.modify g fun G => { G with dontDisband := true }
  | .setLoggedIn p loggedIn => M.setLoggedIn p loggedIn

/-- Nobody is in a group, and there is none. -/
def Groups.Start (M : Groups) : Prop :=
  (∀ p, (M.info p).group = none) ∧ ∀ g, M.group g = none

end HearthStone
