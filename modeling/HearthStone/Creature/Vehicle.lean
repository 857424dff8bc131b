/-
HearthStone.Creature.Vehicle — who sits in which vehicle (`Vehicle.cpp`,
`Vehicle.h`, and `Player::OnRemoveInRangeObject`).

A vehicle has eight seat slots, of which the table of vehicles says
which exist. `m_passengers` of all vehicles is one map from vehicle and
index; the passenger's own side is in `Player`. A step is `none` where
the code reads a seat through a null pointer.

* `initSeats` — the seats of a vehicle and how many there are.
* `addPassenger`, `addToSlot` — boarding. The loop runs to the number of
  seats, not over the seats.
* `removePassenger` — leaving, and with the one in seat 0 everybody.
* `step` — a summons, a click, and whatever ends a ride.
-/
import Mathlib

namespace HearthStone.VehicleSeats

/-- `VehicleSeatEntry`. -/
structure VehicleSeat where
  id : Nat
  deriving DecidableEq

/-- The tables `dbcVehicle` (its `m_seatID`) and `dbcVehicleSeat`. -/
structure Dbc where
  seatID : Nat → Option (Nat → Nat)
  seat : Nat → Option VehicleSeat

structure Vehicle where
  entry : Nat
  /-- `m_vehicleSeats`, of eight entries -/
  vehicleSeats : Nat → Option VehicleSeat
  maxPassengers : Nat
  passengerCount : Nat
  createdFromSpell : Bool
  /-- without `m_spawn` -/
  tempSpawn : Bool
  /-- `EVENT_VEHICLE_SAFE_DELETE` is pending -/
  safeDelete : Bool
  inWorld : Bool

/-- `m_CurrentCharm`. -/
inductive Charm where
  | vehicle (v : Nat)
  | other
  deriving DecidableEq

structure Player where
  currentVehicle : Option Nat
  inVehicleSeatId : Nat
  currentCharm : Option Charm
  deriving DecidableEq

structure World where
  dbc : Dbc
  vehicles : Nat → Option Vehicle
  /-- `m_passengers`, by vehicle and index -/
  passengers : Nat → Nat → Option Nat
  players : Nat → Player

/-! ## Seats -/

namespace Vehicle

def isFull (veh : Vehicle) : Bool := veh.passengerCount = veh.maxPassengers

end Vehicle

/-- How many of the eight slots have a seat. -/
def seatCount (seatID : Nat → Nat) : Nat := (List.range 8).countP fun i => seatID i ≠ 0

def initSeats (dbc : Dbc) (entry : Nat) (veh : Vehicle) : Vehicle :=
  match dbc.seatID entry with
  | none => { veh with entry := entry, maxPassengers := 0 }
  | some seatID =>
    { veh with
      entry := entry
      vehicleSeats := fun i =>
        if i < 8 ∧ seatID i ≠ 0 then dbc.seat (seatID i) else veh.vehicleSeats i
      maxPassengers := seatCount seatID }

/-- A vehicle of the constructor, after `Load`. -/
def loadVehicle (dbc : Dbc) (entry : Nat) (createdFromSpell tempSpawn : Bool) : Vehicle :=
  initSeats dbc entry
    { entry := entry, vehicleSeats := fun _ => none, maxPassengers := 0, passengerCount := 0
      createdFromSpell := createdFromSpell, tempSpawn := tempSpawn, safeDelete := false
      inWorld := true }

namespace World

variable (w : World)

def setVehicle (v : Nat) (veh : Vehicle) : World :=
  { w with vehicles := Function.update w.vehicles v (some veh) }

/-- A flag of the vehicle is written. -/
def modifyVehicle (v : Nat) (f : Vehicle → Vehicle) : World :=
  { w with vehicles := Function.update w.vehicles v ((w.vehicles v).map f) }

def setPlayer (p : Nat) (plr : Player) : World :=
  { w with players := Function.update w.players p plr }

def setPassenger (v i : Nat) (p : Option Nat) : World :=
  { w with passengers := Function.update w.passengers v (Function.update (w.passengers v) i p) }

/-! ## Boarding -/

/-- "Find an available seat". -/
def firstFree (v : Nat) (veh : Vehicle) : Option Nat :=
  (List.range veh.maxPassengers).find? fun i => (w.passengers v i).isNone

/-- What `_AddToSlot` writes first. -/
def sit (v i p : Nat) : World :=
  (w.setPassenger v i (some p)).setPlayer p { w.players p with inVehicleSeatId := i }

/-- "This is where the real magic happens". -/
def board (v i p : Nat) : World :=
  w.setPlayer p { w.players p with
    currentVehicle := some v
    currentCharm := if i = 0 then some (.vehicle v) else (w.players p).currentCharm }

def addToSlot (v : Nat) (veh : Vehicle) (p i : Nat) : Option World :=
  match veh.vehicleSeats i with
  | none => none
  | some _ =>
    -- a player with a charm is seated, but not told so
    if (w.players p).currentCharm.isSome then some (w.sit v i p)
    else some ((w.sit v i p).board v i p)

def addPassenger (v p : Nat) : Option World :=
  match w.vehicles v with
  | none => some w
  | some veh =>
    let veh := if veh.maxPassengers = 0 then initSeats w.dbc veh.entry veh else veh
    let w := w.setVehicle v veh
    match w.firstFree v veh with
    | none => some w
    | some i => w.addToSlot v veh p i

/-! ## Leaving -/

/-- What `RemovePassenger` writes first, and the charm of the player in
control. -/
def unlink (v p : Nat) : World :=
  w.setPlayer p
    { currentVehicle := none, inVehicleSeatId := 255
      currentCharm := if w.passengers v 0 = some p then none else (w.players p).currentCharm }

/-- `SafeDelete`, where the vehicle has no spawn to go back to. -/
def dropControl (v : Nat) : World :=
  w.modifyVehicle v fun veh => { veh with safeDelete := veh.safeDelete || veh.tempSpawn }

/-- `RemovePassenger`. The depth counts the calls within each other. A
call that has begun has taken its passenger's seat id, so that a call
for him within it ends at once, and there are eight passengers. -/
def removeLoop : Nat → World → Nat → Nat → Option World
  | 0, _, _, _ => none
  | depth + 1, w, v, p =>
    if (w.players p).inVehicleSeatId ≥ 8 then some w
    else
      match w.vehicles v with
      | none => none
      | some veh =>
        match veh.vehicleSeats (w.players p).inVehicleSeatId with
        | none => none
        | some _ =>
          if (w.players p).inVehicleSeatId = 0 then
            ((List.range' 1 (veh.maxPassengers - 1)).foldlM
                (fun (w : World) i =>
                  match w.passengers v i with
                  | none => some w
                  | some q => removeLoop depth w v q)
                ((w.unlink v p).dropControl v)).map
              fun w : World => w.setPassenger v 0 none
          else some ((w.unlink v p).setPassenger v (w.players p).inVehicleSeatId none)

def removePassenger (v p : Nat) : Option World := removeLoop 10 w v p

def hasPassenger (v : Nat) (veh : Vehicle) (p : Nat) : Bool :=
  (List.range veh.maxPassengers).any fun i => w.passengers v i = some p

/-! ## The steps -/

/-- A vehicle is created and loaded. -/
def create (v entry : Nat) (createdFromSpell tempSpawn : Bool) : World :=
  match w.vehicles v with
  | some _ => w
  | none =>
    { (w.setVehicle v (loadVehicle w.dbc entry createdFromSpell tempSpawn)) with
      passengers := Function.update w.passengers v fun _ => none }

/-- `SpellEffectSummon` of a vehicle: created, and its seats filled again
with the caster on the first. -/
def summon (v entry rider : Nat) : Option World :=
  match w.vehicles v with
  | some _ => some w
  | none =>
    ((w.create v entry true true).setVehicle v
        (initSeats w.dbc entry (loadVehicle w.dbc entry true true))).addPassenger v rider

/-- The checks of `HandleSpellClick`. -/
def canClick (p v : Nat) : Bool :=
  decide ((w.players p).currentVehicle = none) &&
    (w.vehicles v).any fun veh => veh.inWorld && decide (veh.maxPassengers ≠ 0) && !veh.safeDelete

def spellClick (p v : Nat) : Option World :=
  if w.canClick p v then
    match w.vehicles v with
    | none => some w
    | some veh =>
      (if w.hasPassenger v veh p then w.removePassenger v p else some w).bind
        fun w : World => w.addPassenger v p
  else some w

/-- `HandleVehicleDismiss`. -/
def dismiss (p : Nat) : Option World :=
  match (w.players p).currentVehicle with
  | none => some w
  | some v => w.removePassenger v p

/-- `RemoveFromWorld` of a player, and the other places that forget the
vehicle after it. -/
def leave (p : Nat) : Option World :=
  match (w.players p).currentVehicle with
  | none => some w
  | some v =>
    (w.removePassenger v p).map fun w : World => w.setPlayer p { w.players p with currentVehicle := none }

def setDeathState (v : Nat) (justDied : Bool) : Option World :=
  match w.vehicles v with
  | none => some w
  | some veh =>
    ((List.range veh.maxPassengers).foldlM
        (fun (w : World) i =>
          match w.passengers v i with
          | none => some w
          | some q => w.removePassenger v q) w).map
      fun w : World => w.modifyVehicle v fun veh =>
        { veh with safeDelete := veh.safeDelete || (justDied && veh.createdFromSpell) }

/-- `Player::OnRemoveInRangeObject`. -/
def onRemoveInRangeObject (v p : Nat) : Option World :=
  if (w.players p).currentCharm = some (.vehicle v) then
    (if (w.players p).currentVehicle = some v then w.removePassenger v p else some w).map
      fun w : World => w.setPlayer p { w.players p with currentCharm := none }
  else some w

/-- The vehicle leaves the world, and the players in range forget it. -/
def removeFromWorld (v : Nat) (inRange : List Nat) : Option World :=
  (inRange.foldlM (fun (w : World) p => w.onRemoveInRangeObject v p) w).map
    fun w : World => w.modifyVehicle v fun veh => { veh with inWorld := false }

/-- Another charm of a player begins or ends. -/
def setCharm (p : Nat) (charmed : Bool) : World :=
  w.setPlayer p { w.players p with currentCharm := if charmed then some .other else none }

end World

inductive Call where
  | create (v entry : Nat) (createdFromSpell tempSpawn : Bool)
  | summon (v entry rider : Nat)
  | spellClick (p v : Nat)
  | dismiss (p : Nat)
  | leave (p : Nat)
  | setDeathState (v : Nat) (justDied : Bool)
  | removeFromWorld (v : Nat) (inRange : List Nat)
  | setCharm (p : Nat) (charmed : Bool)

def step (w : World) : Call → Option World
  | .create v entry createdFromSpell tempSpawn =>
    some (w.create v entry createdFromSpell tempSpawn)
  | .summon v entry rider => w.summon v entry rider
  | .spellClick p v => w.spellClick p v
  | .dismiss p => w.dismiss p
  | .leave p => w.leave p
  | .setDeathState v justDied => w.setDeathState v justDied
  | .removeFromWorld v inRange => w.removeFromWorld v inRange
  | .setCharm p charmed => some (w.setCharm p charmed)

end HearthStone.VehicleSeats
