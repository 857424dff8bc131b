/-
HearthStone.Arena.RatedQueue — rated arena matches (the part of
`CBattlegroundManager::EventQueueUpdate` over `m_queuedGroups`, and
`GetArenaGroupQInfo`), without `forceStart`.

* A player is a guid, a bracket is an index of `arenaTeam`: 0, 1 and 2 stand
  for `BATTLEGROUND_ARENA_2V2` and its successors. A team is pointed to by
  its id, and players point to teams that exist.
* `QueuedGroup` is what is read of a group: its leader and the members of
  its first subgroup.
* The dice and the success of `CreateArenaType` at each turn of the loop are
  an argument (`Turn`). A roll of 0 is -1 after the subtraction, which runs
  past the end of a list.
* `started` is no field of the source: the matches that have started.

Starting a match changes no rating, no team and no leader here.
-/
import HearthStone.Arena.ArenaTeam

namespace HearthStone.RatedQueue

structure QueuedGroup where
  id : Nat
  leader : Option Nat
  members : List Nat

/-- Ids of teams are counted from 1. -/
structure RatedWorld where
  arena : ArenaWorld
  loggedIn : Nat → Bool
  groupById : Nat → Option QueuedGroup
  groupById_id : ∀ x G, groupById x = some G → G.id = x
  team_id : ∀ x t, arena.teams x = some t → t.id = x
  no_team_zero : arena.teams 0 = none

structure Turn where
  first : Nat
  second : Nat
  created : Bool

/-- A match, with the queue before and after. -/
structure Match where
  type : Nat
  group1 : Nat
  group2 : Nat
  before : List Nat
  after : List Nat

structure QueueState where
  queuedGroups : Nat → List Nat
  avgRating0 : UInt32
  avgRating1 : UInt32
  started : List Match
  stopped : Bool

namespace RatedWorld

variable (w : RatedWorld) (type : Nat)

/-! ## Teams and ratings -/

/-- The team of a group's leader, if he is logged in and has one. -/
def teamOf (G : QueuedGroup) : Option ArenaTeam :=
  (G.leader.filter w.loggedIn).bind fun p => (w.arena.arenaTeam type p).bind w.arena.teams

/-- `GetMemberByGuid`, the rating of the entry. -/
def personalRating (t : ArenaTeam) (p : Nat) : Option Nat :=
  (t.roster.find? fun m => m.info == some p).map fun m => m.personalRating

/-- The ratings that the loop over the members adds up. -/
def ratings (G : QueuedGroup) (t : ArenaTeam) : List Nat :=
  (G.members.filter fun p => w.loggedIn p && w.arena.arenaTeam type p == some t.id).filterMap
    (personalRating t)

/-- The loop, with its two words. -/
def addUp (rs : List Nat) : UInt32 × UInt32 :=
  rs.foldl (fun a r => (a.1 + r.toUInt32, a.2 + 1)) (0, 0)

def avgOf (G : QueuedGroup) (t : ArenaTeam) : UInt32 :=
  if 0 < (addUp (w.ratings type G t)).2 then
    (addUp (w.ratings type G t)).1 / (addUp (w.ratings type G t)).2
  else 0

/-- `GetArenaGroupQInfo`: the id that is returned, and what is left in
`*avgRating`. -/
def getArenaGroupQInfo (G : QueuedGroup) (avgRating : UInt32) : Nat × UInt32 :=
  match w.teamOf type G with
  | none => (0, avgRating)
  | some t => (t.id, w.avgOf type G t)

end RatedWorld

/-! ## Choosing -/

/-- `abs((int32)a - (int32)b)` as a `uint32`. -/
def delta (a b : UInt32) : UInt32 := if (a - b).toNat < 2 ^ 31 then a - b else 0 - (a - b)

/-- The element that `RandomUInt(size) - 1` steps lead to, or else the first. -/
def pick (l : List Nat) (roll : Nat) : Option Nat :=
  if roll = 0 then l.head? else (l[roll - 1]?).or l.head?

namespace RatedWorld

variable (w : RatedWorld) (type : Nat)

/-- The loop that fills `possibleGroups` for a team id and a rating, and what
is left in `avgRating[1]`. -/
def possibleGroups (teamid : Nat) (avgRating : UInt32) : UInt32 → List Nat → List Nat × UInt32
  | avg, [] => ([], avg)
  | avg, x :: xs =>
    match w.groupById x with
    | none => possibleGroups teamid avgRating avg xs
    | some G =>
      let info := w.getArenaGroupQInfo type G avg
      let rest := possibleGroups teamid avgRating info.2 xs
      (if teamid ≠ info.1 ∧ delta avgRating info.2 ≤ 150 then G.id :: rest.1 else rest.1, rest.2)

/-! ## The loops -/

/-- `CreateArenaType` and the two removals. -/
def start (s : QueueState) (group1 group2 : Nat) : QueueState :=
  let after := (s.queuedGroups type).filter fun x => x != group1 && x != group2
  { s with
    queuedGroups := Function.update s.queuedGroups type after
    started := s.started ++ [⟨type, group1, group2, s.queuedGroups type, after⟩] }

/-- The body of the inner loop. -/
def turn (o : Turn) (s : QueueState) : QueueState :=
  match (pick (s.queuedGroups type) o.first).bind w.groupById with
  | none => s
  | some G =>
    let info := w.getArenaGroupQInfo type G s.avgRating0
    let possible := w.possibleGroups type info.1 info.2 s.avgRating1 (s.queuedGroups type)
    let s := { s with avgRating0 := info.2, avgRating1 := possible.2 }
    match (pick possible.1 o.second).bind w.groupById with
    | none => s
    | some H => if o.created then start type s G.id H.id else { s with stopped := true }

theorem length_queuedGroups_turn (o : Turn) (s : QueueState) :
    ((w.turn type o s).queuedGroups type).length ≤ (s.queuedGroups type).length := by
  unfold turn
  split
  · exact le_rfl
  · dsimp only
    split
    · exact le_rfl
    · split
      · unfold start
        dsimp only
        rw [Function.update_self]
        exact List.length_filter_le ..
      · exact le_rfl

/-- The inner loop, from `j` on. -/
def turns (o : Nat → Turn) (j : Nat) (s : QueueState) : QueueState :=
  if s.stopped = false ∧ j < (s.queuedGroups type).length then
    turns o (j + 1) (w.turn type (o j) s)
  else s
termination_by (s.queuedGroups type).length - j
decreasing_by
  have hle := w.length_queuedGroups_turn type (o j) s
  omega

/-- The body of the outer loop. -/
def bracket (o : Nat → Turn) (s : QueueState) : QueueState :=
  if (s.queuedGroups type).length < 2 then s else w.turns type o 0 s

def eventQueueUpdate (queuedGroups : Nat → List Nat) (o : Nat → Nat → Turn) : QueueState :=
  [0, 1, 2].foldl (fun s type => w.bracket type (o type) s) ⟨queuedGroups, 0, 0, [], false⟩

end RatedWorld

end HearthStone.RatedQueue
