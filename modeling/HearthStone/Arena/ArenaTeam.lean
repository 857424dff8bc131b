/-
HearthStone.Arena.ArenaTeam — arena teams, their rows, and the teams the
players point to (`ArenaTeam.cpp`, `ArenaTeam.h`, and `LoadArenaTeams`).

A team has an array of slots for its members, filled from the front up to
`m_memberCount`. It is saved in a row with ten columns for members.

* A player is a guid. `PlayerInfos` says which characters exist; nobody
  has guid 0.
* `m_slots` is the length of `m_members`.
* A column for a member is the list of the numbers that `sscanf` reads.
* `ArenaWorld.arenaTeam` is the `arenaTeam` of each player, by type; a
  team is pointed to by its id.
* `load` and `create` are undefined where `ASSERT(Slots)` fails, and where
  the id, the key of the table, is in use.

The packets and the fields of players who are logged in are left out.
-/
import HearthStone.Lib.Shift
import Mathlib

namespace HearthStone

open Lib

structure PlayerInfos where
  known : Nat → Bool
  nobody : known 0 = false

structure ArenaTeamMember where
  info : Option Nat
  playedThisWeek : Nat
  wonThisWeek : Nat
  playedThisSeason : Nat
  wonThisSeason : Nat
  personalRating : Nat
  deriving DecidableEq

/-- The columns of a team before those of its members. -/
structure ArenaTeamData where
  leader : Nat
  name : String
  emblemStyle : Nat
  emblemColour : Nat
  borderStyle : Nat
  borderColour : Nat
  backgroundColour : Nat
  rating : Nat
  gamesPlayedWeek : Nat
  gamesWonWeek : Nat
  gamesPlayedSeason : Nat
  gamesWonSeason : Nat
  ranking : Nat
  deriving DecidableEq

structure ArenaTeam where
  id : Nat
  type : Nat
  data : ArenaTeamData
  members : List ArenaTeamMember
  memberCount : Nat
  deriving DecidableEq

structure ArenaTeamRow where
  id : Nat
  type : Nat
  data : ArenaTeamData
  playerData : Fin 10 → List Nat

/-- `AllocateSlots`: of the types 2v2, 3v3 and 5v5. -/
def allocateSlots : Nat → Nat
  | 0 => 4
  | 1 => 6
  | 2 => 10
  | _ => 0

/-- The player of a column, if it has enough numbers and he exists. -/
def resolve (players : PlayerInfos) (numbers : List Nat) : Option Nat :=
  if 5 ≤ numbers.length ∧ players.known (numbers.getD 0 0) = true then some (numbers.getD 0 0)
  else none

/-- The columns that the constructor reads. -/
def ArenaTeamRow.columns (row : ArenaTeamRow) : List (List Nat) :=
  (List.ofFn row.playerData).take (allocateSlots row.type)

namespace ArenaTeam

/-- The entries that the loops look at. -/
def roster (t : ArenaTeam) : List ArenaTeamMember := t.members.take t.memberCount

/-- A member from a column. Where the rating is missing it is the team's. -/
def loadMember (players : PlayerInfos) (rating : Nat) (numbers : List Nat) : ArenaTeamMember where
  info := resolve players numbers
  playedThisWeek := numbers.getD 1 0
  wonThisWeek := numbers.getD 2 0
  playedThisSeason := numbers.getD 3 0
  wonThisSeason := numbers.getD 4 0
  personalRating := if numbers.length = 5 then rating else numbers.getD 5 0

/-- `ArenaTeam(Field*)`. -/
def load (players : PlayerInfos) (row : ArenaTeamRow) : Option ArenaTeam :=
  if allocateSlots row.type = 0 then none
  else
    let members := row.columns.map (loadMember players row.data.rating)
    some ⟨row.id, row.type, row.data, members, members.countP (·.info.isSome)⟩

/-- `ArenaTeam(Type, Id)`, and what its founder sets. -/
def create (id type : Nat) (data : ArenaTeamData) : Option ArenaTeam :=
  if allocateSlots type = 0 then none
  else some ⟨id, type, data, List.replicate (allocateSlots type) ⟨none, 0, 0, 0, 0, 0⟩, 0⟩

variable (t : ArenaTeam)

/-- `None` where the team is full. -/
def addMember (info : Nat) : Option ArenaTeam :=
  if t.members.length ≤ t.memberCount then none
  else some { t with
    members := t.members.set t.memberCount ⟨some info, 0, 0, 0, 0, 1500⟩
    memberCount := t.memberCount + 1 }

/-- `None` where the player is not found. -/
def removeMember (info : Nat) : Option ArenaTeam :=
  (t.roster.findIdx? fun m => m.info == some info).map fun i =>
    { t with
      members := shiftDown t.members i t.memberCount
      memberCount := t.memberCount - 1 }

def saveMember (m : ArenaTeamMember) : List Nat :=
  match m.info with
  | some guid => [guid, m.playedThisWeek, m.wonThisWeek, m.playedThisSeason, m.wonThisSeason,
      m.personalRating]
  | none => [0, 0, 0, 0, 0, 0]

/-- `SaveToDB`. -/
def save : ArenaTeamRow where
  id := t.id
  type := t.type
  data := t.data
  playerData := fun i => match t.roster[i.val]? with
    | some m => saveMember m
    | none => [0, 0, 0, 0, 0, 0]

end ArenaTeam

/-! ## The teams and the players -/

structure ArenaWorld where
  teams : Nat → Option ArenaTeam
  arenaTeam : Nat → Nat → Option Nat

namespace ArenaWorld

variable (players : PlayerInfos) (w : ArenaWorld)

def setTeam (id : Nat) (t : Option ArenaTeam) : ArenaWorld :=
  { w with teams := fun i => if i = id then t else w.teams i }

/-- `arenaTeam[type]` of some players. -/
def point (type : Nat) (infos : List Nat) (id : Option Nat) : ArenaWorld :=
  { w with arenaTeam := fun ty g => if ty = type ∧ g ∈ infos then id else w.arenaTeam ty g }

/-- `LoadArenaTeams`, of one row. -/
def load (row : ArenaTeamRow) : Option ArenaWorld :=
  if (w.teams row.id).isSome then none
  else (ArenaTeam.load players row).map fun t =>
    (w.setTeam row.id (some t)).point t.type (t.members.filterMap (·.info)) (some t.id)

def create (id type : Nat) (data : ArenaTeamData) : Option ArenaWorld :=
  if (w.teams id).isSome then none
  else (ArenaTeam.create id type data).map fun t => w.setTeam id (some t)

/-- `AddMember`, of a character that exists. -/
def addMember (id info : Nat) : Option ArenaWorld :=
  if players.known info then
    match w.teams id with
    | none => none
    | some t =>
      match t.addMember info with
      | none => some w
      | some t => some ((w.setTeam id (some t)).point t.type [info] (some id))
  else none

def removeMember (id info : Nat) : ArenaWorld :=
  match w.teams id with
  | none => w
  | some t =>
    match t.removeMember info with
    | none => w
    | some t => (w.setTeam id (some t)).point t.type [info] none

/-- `Destroy`. -/
def destroy (id : Nat) : ArenaWorld :=
  match w.teams id with
  | none => w
  | some t =>
    let tokill := t.roster.filterMap (·.info)
    (tokill.foldl (fun w info => w.removeMember id info) w).setTeam id none

inductive Action
  | load (row : ArenaTeamRow)
  | create (id type : Nat) (data : ArenaTeamData)
  | addMember (id info : Nat)
  | removeMember (id info : Nat)
  | destroy (id : Nat)

def step : Action → Option ArenaWorld
  | .load row => w.load players row
  | .create id type data => w.create id type data
  | .addMember id info => w.addMember players id info
  | .removeMember id info => some (w.removeMember id info)
  | .destroy id => some (w.destroy id)

end ArenaWorld

end HearthStone
