/-
HearthStone.Map.CellActivity — which cells of a map are active, and the
players that keep them so (`MapMgr.cpp`).

A cell is to be active while there are players, or a forced cell, among
the nine cells around it. `UpdateCellActivity` looks at the cells of a
window and activates or deactivates each; it is called when a player
enters a cell or is removed, and when a cell is forced.

* `getCell` is undefined at an index that is not on the grid.
* The ends of a window are computed on machine words: its start is a
  difference, taken modulo 2^32.
* The floats of a position are read through the cell they lie in and the
  comparisons with the borders of the map that the code makes.
* `_objects` and `GetMapCell` are kept for the players only. The spawns
  that `LoadObjects` puts into a cell are no players.
-/
import HearthStone.Lib.Fibers
import HearthStone.Map.MapCell
import HearthStone.Object.UnsignedValue

namespace HearthStone

/-- Players are in the cell, or it is forced to be active. -/
def MapCell.occupied (c : MapCell) : Bool := c.hasPlayers || c.forcedActive

namespace MapMgr

variable (m : MapMgr)

/-- `GetCell`, which makes no check of its own. -/
def getCell (x y : Nat) : Option (Option MapCell) :=
  if x < cellSize ∧ y < cellSize then some (m.cell x y) else none

/-- The loops of `_CellActive`, which return at the first cell found. -/
def scan : List (Nat × Nat) → Option Bool
  | [] => some false
  | p :: ps => (m.getCell p.1 p.2).bind fun c =>
      if c.any MapCell.occupied then some true else scan ps

/-- `_CellActive`, with every index it uses. -/
def readCellActive (x y : Nat) : Option Bool := m.scan (around x ×ˢ around y)

/-- `GetCell`, and `Create` when there is none. -/
def objCell (x y : Nat) : Option MapMgr :=
  (m.getCell x y).bind fun c => if c.isSome then some m else m.create x y

/-! ## `UpdateCellActivity` -/

/-- `endX`, or `endY`. -/
def windowEnd (x radius : Nat) : Nat :=
  if (x + radius) % 2 ^ 32 ≤ cellSize then (x + radius) % 2 ^ 32 else cellSize - 1

/-- `startX`, or `startY`: the difference is unsigned. -/
def windowStart (x radius : Nat) : Nat :=
  if 0 < (x + 2 ^ 32 - radius) % 2 ^ 32 then (x + 2 ^ 32 - radius) % 2 ^ 32 else 0

def window (x radius : Nat) : List Nat :=
  List.range' (windowStart x radius) (windowEnd x radius + 1 - windowStart x radius)

section

variable (mapUnloadTime : UInt32) (spawns : Nat → Nat → Bool)

/-- `SetActivity(true)`, and `LoadObjects` if there are spawns to load. -/
def cellGoneActive (x y : Nat) : Option MapMgr :=
  (m.setActivity mapUnloadTime x y true).bind fun m =>
    (m.cell x y).bind fun c =>
      if !c.loaded && spawns x y then m.loadObjects x y else some m

/-- The body of the loops. -/
def updateCell (posX posY : Nat) : Option MapMgr :=
  (m.getCell posX posY).bind fun objCell =>
    (m.readCellActive posX posY).bind fun cellActive =>
      match objCell with
      | none =>
        if cellActive then
          (m.create posX posY).bind fun m => m.cellGoneActive mapUnloadTime spawns posX posY
        else some m
      | some c =>
        if cellActive && !c.active then m.cellGoneActive mapUnloadTime spawns posX posY
        else if !cellActive && c.active then m.setActivity mapUnloadTime posX posY false
        else some m

def updateCellActivity (x y radius : Nat) : Option MapMgr :=
  (window x radius ×ˢ window y radius).foldlM
    (fun m p => m.updateCell mapUnloadTime spawns p.1 p.2) m

/-- `AddForcedCell` and `RemoveForcedCell`. -/
def forceCell (x y : Nat) (val : Bool) : Option MapMgr :=
  (m.setPermanentActivity x y val).bind fun m => m.updateCellActivity mapUnloadTime spawns x y 1

end

end MapMgr

/-! ## The players -/

/-- What the code reads of a position. -/
structure Position where
  cellX : Nat
  cellY : Nat
  /-- Within the borders of the map, as `GetPosX` and `GetPosY` assert. -/
  onMap : Bool
  /-- Strictly within them. -/
  insideX : Bool
  insideY : Bool
  deriving DecidableEq

def Position.cell (pos : Position) : Nat × Nat := (pos.cellX, pos.cellY)

/-- A map with the players on it. -/
structure PlayerMap where
  mgr : MapMgr
  objects : Nat × Nat → Finset PlayerGuid
  mapCell : PlayerGuid → Option (Nat × Nat)

namespace PlayerMap

/-- A new map. -/
def start : PlayerMap := ⟨⟨fun _ _ => none, []⟩, fun _ => ∅, fun _ => none⟩

variable (s : PlayerMap)

/-- `AddObject` and `SetMapCell`. -/
def addObject (p : PlayerGuid) (x y : Nat) : Option PlayerMap :=
  (s.mgr.countPlayer x y true).map fun mgr =>
    ⟨mgr, Function.update s.objects (x, y) (insert p (s.objects (x, y))),
      Function.update s.mapCell p (some (x, y))⟩

/-- `RemoveObject` of the cell and `SetMapCell(NULL)`. -/
def takeObject (p : PlayerGuid) (x y : Nat) : Option PlayerMap :=
  (s.mgr.countPlayer x y false).map fun mgr =>
    ⟨mgr, Function.update s.objects (x, y) ((s.objects (x, y)).erase p),
      Function.update s.mapCell p none⟩

def withMgr (mgr : MapMgr) : PlayerMap := { s with mgr := mgr }

section

variable (mapUnloadTime : UInt32) (spawns : Nat → Nat → Bool)

def updateCellActivity (x y radius : Nat) : Option PlayerMap :=
  (s.mgr.updateCellActivity mapUnloadTime spawns x y radius).map s.withMgr

/-- `PushObject`, from where the cell of the player is known. -/
def pushInto (p : PlayerGuid) (x y : Nat) : Option PlayerMap :=
  (s.mgr.objCell x y).bind fun mgr =>
    ((s.withMgr mgr).addObject p x y).bind fun s => s.updateCellActivity mapUnloadTime spawns x y 2

/-- `PushObject`. `bind` is the position the player is bound to, if that is
on this map; otherwise the player is teleported away. -/
def pushObject (p : PlayerGuid) (pos : Position) (bind : Option Position) : Option PlayerMap :=
  if pos.insideY && pos.onMap then
    if pos.cellX < cellSize ∧ pos.cellY < cellSize then
      s.pushInto mapUnloadTime spawns p pos.cellX pos.cellY
    else
      match bind with
      | none => some s
      | some home =>
        if home.onMap then s.pushInto mapUnloadTime spawns p home.cellX home.cellY else none
  else none

/-- The player moves from one cell to another. -/
def moveCell (p : PlayerGuid) (old : Nat × Nat) (x y : Nat) : Option PlayerMap :=
  (s.takeObject p old.1 old.2).bind fun s =>
    (s.addObject p x y).bind fun s =>
      (s.updateCellActivity mapUnloadTime spawns x y 2).bind fun s =>
        if ((x : Int) - old.1).natAbs > 2 ∨ ((y : Int) - old.2).natAbs > 2 then
          s.updateCellActivity mapUnloadTime spawns old.1 old.2 2
        else some s

/-- `ChangeObjectLocation`, from where the position is within the map. -/
def relocate (p : PlayerGuid) (old : Nat × Nat) (pos : Position) : Option PlayerMap :=
  if pos.onMap then
    if pos.cellX < cellSize ∧ pos.cellY < cellSize then
      (s.mgr.objCell pos.cellX pos.cellY).bind fun mgr =>
        if pos.cell = old then some (s.withMgr mgr)
        else (s.withMgr mgr).moveCell mapUnloadTime spawns p old pos.cellX pos.cellY
    else some s
  else none

/-- `ChangeObjectLocation`. -/
def changeObjectLocation (p : PlayerGuid) (pos : Position) (bind : Option Position) :
    Option PlayerMap :=
  match s.mapCell p with
  | none => some s
  | some old =>
    if pos.insideX && pos.insideY then s.relocate mapUnloadTime spawns p old pos
    else
      match bind with
      | none => some s
      | some home => s.relocate mapUnloadTime spawns p old home

/-- `RemoveObject` of a player who is on the map. -/
def removeObject (p : PlayerGuid) (pos : Position) : Option PlayerMap :=
  (s.mapCell p).bind fun old =>
    (s.takeObject p old.1 old.2).bind fun s =>
      if pos.onMap then s.updateCellActivity mapUnloadTime spawns pos.cellX pos.cellY 2
      else some s

/-- The calls that change which cells are to be active. -/
inductive Call
  | pushObject (p : PlayerGuid) (pos : Position) (bind : Option Position)
  | changeObjectLocation (p : PlayerGuid) (pos : Position) (bind : Option Position)
  | removeObject (p : PlayerGuid) (pos : Position)
  | forceCell (x y : Nat) (val : Bool)

def step : Call → Option PlayerMap
  | .pushObject p pos bind => s.pushObject mapUnloadTime spawns p pos bind
  | .changeObjectLocation p pos bind => s.changeObjectLocation mapUnloadTime spawns p pos bind
  | .removeObject p pos => s.removeObject mapUnloadTime spawns p pos
  | .forceCell x y val => (s.mgr.forceCell mapUnloadTime spawns x y val).map s.withMgr

end

/-- What the callers see to: a player is pushed who is not on the map and
removed who is on it, and a forced cell is one of the map. -/
def Callable : Call → Prop
  | .pushObject p _ _ => s.mapCell p = none
  | .changeObjectLocation _ _ _ => True
  | .removeObject p _ => s.mapCell p ≠ none
  | .forceCell x y _ => s.mgr.cell x y ≠ none

end PlayerMap

end HearthStone
