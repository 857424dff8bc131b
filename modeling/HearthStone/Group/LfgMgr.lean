/-
HearthStone.Group.LfgMgr — players who look for a group (`LfgMgr::UpdateLfgQueue`).

* A player is named by the address of his record, as in `Group.Group`; the
  queues are lists of these addresses.
* The loop over `m_lookingForMore` asks `plr`, which it does not set: it is
  what the loop over `m_lookingForGroup` left, the last player of that
  queue, or NULL.
* When a member has been added to a group that was there, the element after
  him is erased and the loop goes on from the erased element. Nothing is
  defined from there on, and the model gives `none`.
* `placements` is no field of the source: who has been added to which group.
-/
import HearthStone.Group.Group

namespace HearthStone.LfgMgr

def LFG_INSTANCE : UInt32 := 1
def LFG_HEROIC_DUNGEON : UInt32 := 5

def MAX_DUNGEONS : Nat := 250 + 1

/-- What the queues read of a player. -/
structure LfgPlayer where
  lfgInviterGuid : UInt32
  /-- whether `m_lfgMatch` is set -/
  lfgMatch : Bool
  autojoin : Bool
  autoAddMem : Bool

/-- `next` is where the next group is allocated. The arrays have
`MAX_DUNGEONS` elements. -/
structure LfgState where
  groups : Groups
  player : Nat → LfgPlayer
  dungeonTypes : Nat → UInt32
  lookingForGroup : Nat → List Nat
  lookingForMore : Nat → List Nat
  hiGroupId : UInt32
  next : Nat
  placements : List (Nat × Nat)

/-- Before the call: no group is where the next ones are allocated. -/
structure LfgWorld extends LfgState where
  unused : ∀ g, next ≤ g → groups.group g = none
  unplaced : placements = []

/-- `GetGroup()`. -/
def groupOf (M : Groups) (p : Nat) : Option (Nat × Group) :=
  (M.info p).group.bind fun g => (M.group g).map fun G => (g, G)

namespace LfgState

variable (s : LfgState) (d : Nat)

def autojoinable : Prop :=
  s.dungeonTypes d = LFG_INSTANCE ∨ s.dungeonTypes d = LFG_HEROIC_DUNGEON

instance : Decidable (s.autojoinable d) := inferInstanceAs (Decidable (_ ∨ _))

/-! ## The two loops over the queues -/

def possibleMember (p : Nat) : Bool :=
  !((s.player p).lfgInviterGuid != 0 || (s.player p).lfgMatch) && (s.player p).autojoin

def possibleMembers : List Nat := (s.lookingForGroup d).filter s.possibleMember

/-- A suitable candidate for a group for others to join. -/
def suitable (p : Nat) : Bool :=
  (groupOf s.groups p).any fun (_, G) =>
    (s.player p).autoAddMem && G.leader == some p && !G.isFull && G.groupType == GROUP_TYPE_PARTY

/-- The loop over `m_lookingForMore`, with `plr` as it stands. -/
def possibleGroupLeaders (plr : Option Nat) : List Nat → Option (List Nat)
  | [] => some []
  | _ :: more =>
    match plr with
    | none => none
    | some p =>
      (possibleGroupLeaders plr more).map fun ls => if s.suitable p then p :: ls else ls

end LfgState

/-! ## Groups that are there -/

/-- The inner loop, for one leader. -/
def addToGroup (leader : Nat) (M : Groups) : List Nat → Option Groups
  | [] => some M
  | p :: ps =>
    match groupOf M leader with
    | none => none
    | some (g, G) =>
      if G.isFull then addToGroup leader M ps
      else if (M.addMember g p (-1)).2 then none
      else addToGroup leader (M.addMember g p (-1)).1 ps

def addToGroups (members : List Nat) (M : Groups) : List Nat → Option Groups
  | [] => some M
  | l :: ls => (addToGroup l M members).bind fun M => addToGroups members M ls

/-! ## New groups -/

namespace LfgState

variable (d : Nat)

/-- `new Group(true)`. -/
def newGroup (s : LfgState) : LfgState :=
  { s with
    groups := s.groups.setGroup s.next (some (.new (s.hiGroupId + 1)))
    hiGroupId := s.hiGroupId + 1
    next := s.next + 1 }

/-- The body of the loop that fills a new group. -/
def join (g : Nat) (s : LfgState) (p : Nat) : LfgState :=
  { s with
    groups := (s.groups.addMember g p (-1)).1
    lookingForGroup :=
      Function.update s.lookingForGroup d ((s.lookingForGroup d).filter fun q => q != p)
    placements :=
      if (s.groups.addMember g p (-1)).2 then s.placements ++ [(p, g)] else s.placements }

/-- `while(possibleMembers.size() > 1)`. -/
def createGroups (s : LfgState) (possibleMembers : List Nat) : LfgState :=
  if 1 < possibleMembers.length then
    createGroups ((possibleMembers.take 5).foldl (join d s.next) s.newGroup)
      (possibleMembers.drop 5)
  else s
termination_by possibleMembers.length
decreasing_by
  rw [List.length_drop]
  omega

end LfgState

open LfgState in
/-- `LfgMgr::UpdateLfgQueue`. The check lets the first number past the end
of the arrays through. -/
def updateLfgQueue (s : LfgState) (lfgDungeonId : UInt32) : Option LfgState :=
  let d := lfgDungeonId.toNat
  if MAX_DUNGEONS < d then some s
  else if d = MAX_DUNGEONS then none
  else if s.autojoinable d then
    (s.possibleGroupLeaders (s.lookingForGroup d).getLast? (s.lookingForMore d)).bind fun leaders =>
      (addToGroups (s.possibleMembers d) s.groups leaders).map fun M =>
        createGroups d { s with groups := M } (s.possibleMembers d)
  else some s

end HearthStone.LfgMgr
