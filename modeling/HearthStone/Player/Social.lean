/-
HearthStone.Player.Social — friend lists (`Player.cpp`,
`CharacterHandler.cpp`, `WorldSession.cpp`).

A player has a map of his friends and a set of those who have him as
theirs. Both are read from the table `social_friends` at login; while he
plays, adding and removing friends writes the row, the own map and, if the
other player is found, the other's set.

* `queryFriends` … `addPlayer` — a login: the rows are queried, the answer
  is loaded, `m_loggedInPlayer` is set, friends are told, and last
  `ObjectMgr::AddPlayer` makes the player findable.
* `addFriend`, `removeFriend` — they look the other player up in two
  places: `m_loggedInPlayer` and `ObjectMgr::GetPlayer`.
* `Realm.step` — one step of anybody. A login and a logout are several
  steps, for the answer of a query is loaded in the thread of the database.

A character is its guid. The order in which the players of a set are told
is left open.
-/
import Mathlib

namespace HearthStone.Social

/-- Where a character is between two logins. -/
inductive Phase
  | offline
  /-- the answers: friends with their notes, and who has him as a friend -/
  | queried (friends : List (Nat × String)) (hasFriend : List Nat)
  | loaded
  /-- `m_loggedInPlayer` is set -/
  | loggedIn
  | told
  /-- `ObjectMgr::GetPlayer` finds him -/
  | online
  /-- `LogoutPlayer` has told his friends -/
  | leaving
  /-- `ObjectMgr::RemovePlayer` -/
  | removed
  deriving DecidableEq

/-- `FRIEND_STATUS_RESP`, as far as it is sent here. -/
inductive FriendStatus
  | FRIEND_NOT_FOUND
  | FRIEND_ENEMY
  | FRIEND_SELF
  | FRIEND_ALREADY
  | FRIEND_ADDED_ONLINE
  | FRIEND_ADDED_OFFLINE
  | FRIEND_REMOVED
  | FRIEND_ONLINE
  | FRIEND_OFFLINE
  deriving DecidableEq

/-- `SMSG_FRIEND_STATUS`; the packet for an unknown name has no guid. -/
structure Notice where
  receiver : Nat
  status : FriendStatus
  guid : Option Nat
  deriving DecidableEq

/-- The players of a realm and one table. -/
structure Realm where
  /-- `GetPlayerInfoByName` -/
  playerInfoByName : String → Option Nat
  team : Nat → Nat
  hasGMPermissions : Nat → Bool
  /-- `social_friends`, by its primary key `character_guid`, `friend_guid` -/
  rows : AList fun _ : Nat × Nat => String
  phase : Nat → Phase
  friends : Nat → AList fun _ : Nat => Option String
  hasFriendList : Nat → List Nat
  sent : List Notice

namespace Phase

/-- `PlayerInfo::m_loggedInPlayer` is set. -/
def loggedInPlayer : Phase → Bool
  | .loggedIn | .told | .online | .leaving | .removed => true
  | .offline | .queried .. | .loaded => false

/-- `ObjectMgr::GetPlayer` finds the player. -/
def found : Phase → Bool
  | .online | .leaving => true
  | .offline | .queried .. | .loaded | .loggedIn | .told | .removed => false

/-- The session has a player and is not in `LogoutPlayer`. -/
def acts : Phase → Bool
  | .loaded | .loggedIn | .told | .online => true
  | .offline | .queried .. | .leaving | .removed => false

end Phase

namespace Realm

def getPlayer (m : Realm) (c : Nat) : Bool := (m.phase c).found

def setPhase (m : Realm) (c : Nat) (p : Phase) : Realm :=
  { m with phase := Function.update m.phase c p }

def setFriends (m : Realm) (c : Nat) (friends : AList fun _ : Nat => Option String) : Realm :=
  { m with friends := Function.update m.friends c friends }

def setHasFriendList (m : Realm) (c : Nat) (has : List Nat) : Realm :=
  { m with hasFriendList := Function.update m.hasFriendList c has }

def send (m : Realm) (notices : List Notice) : Realm := { m with sent := m.sent ++ notices }

/-! ## The table -/

/-- `SELECT friend_guid, note … WHERE character_guid = c`. -/
def friendRows (m : Realm) (c : Nat) : List (Nat × String) :=
  m.rows.entries.filterMap fun e => if e.1.1 = c then some (e.1.2, e.2) else none

/-- `SELECT character_guid … WHERE friend_guid = c`. -/
def hasFriendRows (m : Realm) (c : Nat) : List Nat :=
  m.rows.entries.filterMap fun e => if e.1.2 = c then some e.1.1 else none

/-- `INSERT`; a second row of the same key is refused. -/
def insertRow (m : Realm) (a b : Nat) (note : String) : Realm :=
  if (a, b) ∈ m.rows then m else { m with rows := m.rows.insert (a, b) note }

/-- `DELETE`. -/
def deleteRow (m : Realm) (a b : Nat) : Realm := { m with rows := m.rows.erase (a, b) }

/-! ## Friends -/

/-- `Social_AddFriend`. -/
def addFriend (m : Realm) (a : Nat) (name : String) (note : Option String) : Realm :=
  match m.playerInfoByName name with
  | none => m.send [⟨a, .FRIEND_NOT_FOUND, none⟩]
  | some info =>
    if m.team info ≠ m.team a then m.send [⟨a, .FRIEND_ENEMY, some info⟩]
    else if info = a then m.send [⟨a, .FRIEND_SELF, some a⟩]
    else if info ∈ m.friends a then m.send [⟨a, .FRIEND_ALREADY, some info⟩]
    else if (m.phase info).loggedInPlayer then
      (((m.setHasFriendList info ((m.hasFriendList info).insert a)).setFriends a
        ((m.friends a).insert info note)).send [⟨a, .FRIEND_ADDED_ONLINE, some info⟩]).insertRow
          a info (note.getD "")
    else
      ((m.setFriends a ((m.friends a).insert info note)).send
        [⟨a, .FRIEND_ADDED_OFFLINE, some info⟩]).insertRow a info (note.getD "")

/-- `Social_RemoveFriend`. -/
def removeFriend (m : Realm) (a guid : Nat) : Realm :=
  if guid = a then m.send [⟨a, .FRIEND_SELF, some a⟩]
  else
    let m := m.setFriends a ((m.friends a).erase guid)
    let m :=
      if m.getPlayer guid then
        m.setHasFriendList guid ((m.hasFriendList guid).filter (· ≠ a))
      else m
    (m.send [⟨a, .FRIEND_REMOVED, some guid⟩]).deleteRow a guid

/-- `Social_TellFriendsOnline`, `Social_TellFriendsOffline`. -/
def tellFriends (m : Realm) (c : Nat) (status : FriendStatus) : Realm :=
  m.send (((m.hasFriendList c).filter m.getPlayer).map fun a => ⟨a, status, some c⟩)

/-- The rows of friends as `LoadFromDBProc` reads them: an empty note is
none, and the first row of a guid stays. -/
def loadFriends (rows : List (Nat × String)) : AList fun _ : Nat => Option String :=
  rows.foldl (fun friends row =>
    if row.1 ∈ friends then friends
    else friends.insert row.1 (if row.2.isEmpty then none else some row.2)) ∅

def loadHasFriendList (rows : List Nat) : List Nat := rows.foldl (fun has a => has.insert a) []

/-! ## Steps -/

inductive Op
  | queryFriends (c : Nat)
  | loadFailed (c : Nat)
  | load (c : Nat)
  | setLoggedInPlayer (c : Nat)
  | tellFriendsOnline (c : Nat)
  | addPlayer (c : Nat)
  | tellFriendsOffline (c : Nat)
  | removePlayer (c : Nat)
  | clearLoggedInPlayer (c : Nat)
  | addFriend (a : Nat) (name : String) (note : Option String)
  | removeFriend (a guid : Nat)

/-- One step. -/
def step (m : Realm) : Op → Option Realm
  | .queryFriends c =>
    if m.phase c = .offline then
      some (m.setPhase c (.queried (m.friendRows c) (m.hasFriendRows c)))
    else none
  | .loadFailed c =>
    match m.phase c with
    | .queried _ _ => some (m.setPhase c .offline)
    | _ => none
  | .load c =>
    match m.phase c with
    | .queried friends has =>
      some (((m.setFriends c (loadFriends friends)).setHasFriendList c
        (loadHasFriendList has)).setPhase c .loaded)
    | _ => none
  | .setLoggedInPlayer c =>
    if m.phase c = .loaded then some (m.setPhase c .loggedIn) else none
  | .tellFriendsOnline c =>
    if m.phase c = .loggedIn then
      -- a game master is not announced
      if m.hasGMPermissions c then some (m.setPhase c .told)
      else some ((m.tellFriends c .FRIEND_ONLINE).setPhase c .told)
    else none
  | .addPlayer c => if m.phase c = .told then some (m.setPhase c .online) else none
  | .tellFriendsOffline c =>
    if m.phase c = .online then some ((m.tellFriends c .FRIEND_OFFLINE).setPhase c .leaving)
    else none
  | .removePlayer c => if m.phase c = .leaving then some (m.setPhase c .removed) else none
  | .clearLoggedInPlayer c => if m.phase c = .removed then some (m.setPhase c .offline) else none
  | .addFriend a name note => if (m.phase a).acts then some (m.addFriend a name note) else none
  | .removeFriend a guid => if (m.phase a).acts then some (m.removeFriend a guid) else none

/-- Nobody is logged in. -/
def start (playerInfoByName : String → Option Nat) (team : Nat → Nat)
    (hasGMPermissions : Nat → Bool) (rows : AList fun _ : Nat × Nat => String) : Realm :=
  ⟨playerInfoByName, team, hasGMPermissions, rows, fun _ => .offline, fun _ => ∅, fun _ => [], []⟩

end Realm

end HearthStone.Social
