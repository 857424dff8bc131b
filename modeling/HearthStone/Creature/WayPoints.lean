/-
HearthStone.Creature.WayPoints — the waypoints of a creature
(`AIInterface.cpp`).

`m_waypoints` is a vector of pointers, and the waypoint with id `n` is to
stand at index `n - 1`. Places without a waypoint are null.

* `wayPoint` is what is allocated: a pointer that was deleted, or was
  never made, leads nowhere.
* A read or write of the vector past its end is undefined, and so is the
  exception of `at`. A null or dangling pointer that is followed is, too.
* `saveWayPoints` writes the rows of one spawn. A row is its id and the
  other columns, which no function here looks at.
-/
import Mathlib

namespace HearthStone

structure WayPoint (R : Type*) where
  id : UInt32
  row : R
  deriving DecidableEq

/-- The waypoints of a creature, and its rows of `creature_waypoints`. -/
structure WayPointTable (P R : Type*) where
  waypoints : Option (List (Option P))
  wayPoint : P → Option (WayPoint R)
  saved : UInt32 → Option R

namespace WayPointTable

variable {P R : Type*} (s : WayPointTable P R)

/-- The table itself is replaced. -/
def withTable (v : List (Option P)) : WayPointTable P R := { s with waypoints := some v }

/-- `resize` to more places. -/
def resize (v : List (Option P)) (n : Nat) : List (Option P) :=
  v ++ List.replicate (n - v.length) none

/-- `(*m_waypoints)[i] = p`. -/
def put (v : List (Option P)) (i : UInt32) (p : P) : Option (List (Option P)) :=
  if i.toNat < v.length then some (v.set i.toNat (some p)) else none

/-- The end of `addWayPoint`, on a table that is long enough. -/
def insertAt (v : List (Option P)) (i : UInt32) (p : P) : Option (Bool × WayPointTable P R) :=
  v[i.toNat]?.bind fun slot =>
    if slot.isNone then (put v i p).map fun v => (true, s.withTable v)
    else some (false, s.withTable v)

def addWayPoint (wp : Option P) : Option (Bool × WayPointTable P R) :=
  match wp with
  | none => some (false, s.withTable (s.waypoints.getD []))
  | some p =>
    (s.wayPoint p).bind fun w =>
      if w.id ≤ 0 then some (false, s.withTable (s.waypoints.getD []))
      else s.insertAt (resize (s.waypoints.getD []) w.id.toNat) (w.id - 1) p

/-- The id is made one of the table. -/
def clampId (v : List (Option P)) (wpid : UInt32) : UInt32 :=
  if wpid.toNat > v.length then UInt32.ofNat v.length else if wpid = 0 then 1 else wpid

def getWayPoint (wpid : UInt32) : Option (Option P) :=
  match s.waypoints with
  | none => some none
  | some v => v[(clampId v wpid - 1).toNat]?

section

variable [DecidableEq P]

/-- `wp->id = id`. -/
def setId (p : P) (id : UInt32) : Option (WayPointTable P R) :=
  (s.wayPoint p).map fun w =>
    { s with wayPoint := Function.update s.wayPoint p (some { w with id := id }) }

/-- The loop of `saveWayPoints`: one `REPLACE` for each place. -/
def saveRows (s : WayPointTable P R) : List (Option P) → (UInt32 → Option R) →
    Option (UInt32 → Option R)
  | [], saved => some saved
  | none :: _, _ => none
  | some p :: v, saved => (s.wayPoint p).bind fun w =>
      saveRows s v (Function.update saved w.id (some w.row))

/-- `hasSpawn` says that the unit is a creature with a spawn. -/
def saveWayPoints (hasSpawn : Bool) : Option (Bool × WayPointTable P R) :=
  match s.waypoints with
  | none => some (false, s)
  | some v =>
    if hasSpawn then
      (s.saveRows v fun _ => none).map fun saved => (true, { s with saved := saved })
    else some (false, s)

/-- The exchange at the end of `changeWayPointID`. -/
def exchange (v : List (Option P)) (oldwp originalwp : P) (oldwpid newwpid : UInt32) :
    Option (WayPointTable P R) :=
  (s.setId oldwp newwpid).bind fun s =>
    (s.setId originalwp oldwpid).bind fun s =>
      (s.wayPoint oldwp).bind fun w =>
        (put v (w.id - 1) oldwp).bind fun v =>
          (s.wayPoint originalwp).bind fun w =>
            (put v (w.id - 1) originalwp).map s.withTable

def changeWayPointID (hasSpawn : Bool) (oldwpid newwpid : UInt32) : Option (WayPointTable P R) :=
  match s.waypoints with
  | none => some s
  | some v =>
    if newwpid ≤ 0 then some s
    else if newwpid.toNat > v.length then some s
    else if oldwpid.toNat > v.length then some s
    else if newwpid = oldwpid then some s
    else
      (s.getWayPoint newwpid).bind fun originalwp =>
        match originalwp with
        | none => some s
        | some originalwp =>
          (s.getWayPoint oldwpid).bind fun oldwp =>
            match oldwp with
            | none => some s
            | some oldwp =>
              (s.exchange v oldwp originalwp oldwpid newwpid).bind fun s =>
                (s.saveWayPoints hasSpawn).map (·.2)

/-- The first loop of `deleteWayPoint`: the waypoints that are kept. -/
def keepOthers (wpid : UInt32) : List (Option P) → WayPointTable P R →
    Option (List P × WayPointTable P R)
  | [], s => some ([], s)
  | none :: v, s => keepOthers wpid v s
  | some p :: v, s => (s.wayPoint p).bind fun w =>
      if w.id = wpid then
        keepOthers wpid v { s with wayPoint := Function.update s.wayPoint p none }
      else (keepOthers wpid v s).map fun r => (p :: r.1, r.2)

/-- The second loop: the ids are given anew. -/
def renumber : UInt32 → List P → WayPointTable P R → Option (WayPointTable P R)
  | _, [], s => some s
  | newpid, p :: ps, s => (s.setId p newpid).bind fun s => renumber (newpid + 1) ps s

/-- `deleteWayPoint`. Index 0 is taken by "waypoint 0". -/
def deleteWayPoint (hasSpawn : Bool) (wpid : UInt32) : Option (WayPointTable P R) :=
  match s.waypoints with
  | none => some s
  | some v =>
    if wpid ≤ 0 then some s
    else if wpid.toNat > v.length then some s
    else
      (keepOthers wpid v s).bind fun r =>
        (renumber 1 r.1 r.2).bind fun s =>
          ((s.withTable (none :: r.1.map some)).saveWayPoints hasSpawn).map (·.2)

/-- The loop of `deleteWaypoints`. -/
def freeAll : List (Option P) → WayPointTable P R → Option (WayPointTable P R)
  | [], s => some s
  | none :: v, s => freeAll v s
  | some p :: v, s => (s.wayPoint p).bind fun _ =>
      freeAll v { s with wayPoint := Function.update s.wayPoint p none }

def deleteWaypoints : Option (WayPointTable P R) :=
  match s.waypoints with
  | none => some s
  | some v => (freeAll v s).map fun s => s.withTable []

/-! ## The calls -/

/-- A waypoint to be added was made by the caller, at some address. -/
inductive Call (P R : Type*)
  | addWayPoint (wp : Option (P × WayPoint R))
  | changeWayPointID (oldwpid newwpid : UInt32)
  | deleteWayPoint (wpid : UInt32)
  | deleteWaypoints
  | getWayPoint (wpid : UInt32)
  | saveWayPoints

/-- `new WayPoint`. -/
def make (p : P) (w : WayPoint R) : WayPointTable P R :=
  { s with wayPoint := Function.update s.wayPoint p (some w) }

def step (hasSpawn : Bool) : Call P R → Option (WayPointTable P R)
  | .addWayPoint none => (s.addWayPoint none).map (·.2)
  | .addWayPoint (some (p, w)) => ((s.make p w).addWayPoint (some p)).map (·.2)
  | .changeWayPointID oldwpid newwpid => s.changeWayPointID hasSpawn oldwpid newwpid
  | .deleteWayPoint wpid => s.deleteWayPoint hasSpawn wpid
  | .deleteWaypoints => s.deleteWaypoints
  | .getWayPoint wpid => (s.getWayPoint wpid).map fun _ => s
  | .saveWayPoints => (s.saveWayPoints hasSpawn).map (·.2)

end

/-- A new waypoint is made where nothing is. -/
def Callable : Call P R → Prop
  | .addWayPoint (some (p, _)) => s.wayPoint p = none
  | _ => True

end WayPointTable

end HearthStone
