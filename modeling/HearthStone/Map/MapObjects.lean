/-
HearthStone.Map.MapObjects — how the objects of a map get their ids
(`MapMgr.cpp`, `MapCell.cpp`, `Creature.cpp`, `Vehicle.cpp`,
`GameObject.cpp`).

A GUID is made of a type, an entry and a number; the number comes from
the list of returned ones or from a counter. An object goes to the world
and leaves it for good or to respawn; it is then in `_respawnObjects` of a
cell. A cell that is unloaded removes both what is in it and what waits
in it.

* An object is its place in the order of creation. All that were ever
  created stay in `object`, with where they are now.
* A null pointer in a storage is not the same as nothing: `insert` keeps
  what is there.
* A call is undefined where an assertion fails, where it is made on no
  object, and where the type bits of a GUID name another class.
* `ObjectSet` is ordered by address, which nothing determines: unloading
  takes the order as an argument.

Pets, dynamic objects and players have ids of other sources and are left
out, with positions, events and everything an object does.
-/
import HearthStone.Lib.Run
import Mathlib.Logic.Function.Basic

namespace HearthStone

/-- The objects that a map numbers. -/
inductive ObjectKind
  | creature
  | vehicle
  | gameObject
  deriving DecidableEq, Repr

/-- `enum HIGHGUID_TYPE`. -/
def ObjectKind.highGuid : ObjectKind → UInt32
  | .creature => 0xF1300000
  | .vehicle => 0xF1500000
  | .gameObject => 0xF1100000

def HIGHGUID_TYPE_MASK : UInt32 := 0xFFF00000
def LOWGUID_ENTRY_MASK : UInt32 := 0x00FFFFFF

/-- `newguid` of the three functions that create. -/
def newGuid (kind : ObjectKind) (entry low : UInt32) : UInt64 :=
  (kind.highGuid.toUInt64 <<< 32) ||| (entry.toUInt64 <<< 24) ||| low.toUInt64

/-- `GetUIdFromGUID`. -/
def uidFromGuid (guid : UInt64) : UInt32 := guid.toUInt32 &&& LOWGUID_ENTRY_MASK

/-- `GetTypeFromGUID`. -/
def typeFromGuid (guid : UInt64) : UInt32 := (guid >>> 32).toUInt32 &&& HIGHGUID_TYPE_MASK

/-- Where an object is. -/
inductive Whereabouts
  | created
  /-- in `_objects` of a cell -/
  | inWorld (cell : Nat × Nat)
  /-- in `_respawnObjects` of a cell -/
  | respawning (cell : Nat × Nat)
  /-- out of the world, to be deleted -/
  | removed
  | destructed
  deriving DecidableEq, Repr

structure MapObject where
  kind : ObjectKind
  guid : UInt64
  loadedFromDB : Bool
  place : Whereabouts
  deriving DecidableEq

namespace MapObject

def uid (x : MapObject) : UInt32 := uidFromGuid x.guid

/-- In the world, or waiting to respawn. -/
def live (x : MapObject) : Bool :=
  match x.place with
  | .inWorld _ => true
  | .respawning _ => true
  | _ => false

end MapObject

/-- The counter, the returned numbers and the storage of a kind. -/
structure ObjectIds where
  highGuid : UInt32
  reusable : List UInt32
  storage : UInt32 → Option (Option Nat)

structure MapObjects where
  ids : ObjectKind → ObjectIds
  object : Nat → Option MapObject
  next : Nat

namespace MapObjects

/-- A map that has just been made. -/
def start : MapObjects := ⟨fun _ => ⟨0, [], fun _ => none⟩, fun _ => none, 0⟩

variable (s : MapObjects)

def setIds (kind : ObjectKind) (ids : ObjectIds) : MapObjects :=
  { s with ids := Function.update s.ids kind ids }

def setPlace (o : Nat) (place : Whereabouts) : MapObjects :=
  { s with
    object := Function.update s.object o ((s.object o).map fun x => { x with place := place }) }

/-- `insert(make_pair(uid, o))`. -/
def insertNew (storage : UInt32 → Option (Option Nat)) (uid : UInt32) (o : Nat) :
    UInt32 → Option (Option Nat) :=
  if (storage uid).isNone then Function.update storage uid (some (some o)) else storage

/-- `GetCreature`, `GetVehicle` and `GetGameObject`. -/
def lookup (kind : ObjectKind) (uid : UInt32) : Option Nat :=
  match kind with
  | .gameObject => ((s.ids kind).storage uid).join
  | _ => if uid ≤ (s.ids kind).highGuid then ((s.ids kind).storage uid).join else none

/-! ## Creating -/

def addObject (kind : ObjectKind) (guid : UInt64) (loadedFromDB : Bool) : MapObjects :=
  { s with
    object := Function.update s.object s.next (some ⟨kind, guid, loadedFromDB, .created⟩)
    next := s.next + 1 }

/-- The body that `CreateVehicle` and `CreateCreature` share. -/
def createUnit (kind : ObjectKind) (entry : UInt32) (loadedFromDB : Bool) : MapObjects :=
  let ids := s.ids kind
  match ids.reusable with
  | guid :: rest =>
    (s.setIds kind { ids with reusable := rest }).addObject kind (newGuid kind entry guid)
      loadedFromDB
  | [] =>
    let high := ids.highGuid + 1
    let guid := newGuid kind entry high
    (s.setIds kind { ids with
      highGuid := high
      storage := insertNew ids.storage (uidFromGuid guid) s.next }).addObject kind guid
      loadedFromDB

/-- The object `CreateVehicle` has made, with its assertion. -/
def createVehicle (entry : UInt32) (loadedFromDB : Bool) : Option MapObjects :=
  let s' := s.createUnit .vehicle entry loadedFromDB
  if (s'.object s.next).any fun v => typeFromGuid v.guid = ObjectKind.vehicle.highGuid
  then some s' else none

def createCreature (entry : UInt32) (loadedFromDB : Bool) : MapObjects :=
  s.createUnit .creature entry loadedFromDB

/-- `CreateGameObject`, of an entry that is in `GameObjectNameStorage`
or is not. -/
def createGameObject (known : Bool) (entry : UInt32) (loadedFromDB : Bool) : MapObjects :=
  if known then
    let ids := s.ids .gameObject
    let high := (ids.highGuid &&& LOWGUID_ENTRY_MASK) + 1
    (s.setIds .gameObject { ids with highGuid := high }).addObject .gameObject
      (newGuid .gameObject entry high) loadedFromDB
  else s

/-! ## The world -/

/-- The case of `switch(obj->GetTypeFromGUID())`, when it is one of the
three. Another class is cast to what it is not. -/
def storedAs (x : MapObject) : Option (Option ObjectKind) :=
  match [ObjectKind.creature, .vehicle, .gameObject].find? fun kind =>
      typeFromGuid x.guid = kind.highGuid with
  | none => some none
  | some kind => if kind = x.kind then some (some kind) else none

/-- `PushObject`, from the storages on. -/
def pushObject (o : Nat) (x : MapObject) : Option MapObjects :=
  match storedAs x with
  | none => none
  | some none => some s
  | some (some kind) =>
    let ids := s.ids kind
    if kind = .gameObject then
      some (s.setIds kind { ids with storage := insertNew ids.storage x.uid o })
    else if x.uid ≤ ids.highGuid then
      some (s.setIds kind { ids with storage := Function.update ids.storage x.uid (some (some o)) })
    else none

/-- `RemoveObject`. The number of a game object is not returned. -/
def removeObject (x : MapObject) (freeGuid : Bool) : Option MapObjects :=
  match storedAs x with
  | none => none
  | some none => some s
  | some (some kind) =>
    let ids := s.ids kind
    if kind = .gameObject then
      some (s.setIds kind { ids with storage := Function.update ids.storage x.uid none })
    else if x.uid ≤ ids.highGuid then
      some (s.setIds kind { ids with
        storage := Function.update ids.storage x.uid (some none)
        reusable := if freeGuid then ids.reusable ++ [x.uid] else ids.reusable })
    else none

/-- `PushToWorld`, of an object that has not been in the world. -/
def pushToWorld (o : Nat) (cell : Nat × Nat) : Option MapObjects :=
  match s.object o with
  | none => none
  | some x =>
    if x.place = .created then (s.pushObject o x).map (·.setPlace o (.inWorld cell)) else none

/-- `RemoveFromWorld(free_guid)`, and where the object is then. -/
def removeFromWorld (o : Nat) (x : MapObject) (freeGuid : Bool) (place : Whereabouts) :
    Option MapObjects :=
  (s.removeObject x freeGuid).map (·.setPlace o place)

/-- `Despawn(0, respawntime)`, with the cell to wait in when there is a
time. `SafeDelete` and `ExpireAndDelete` come later. -/
def despawn (o : Nat) (respawn : Option (Nat × Nat)) : Option MapObjects :=
  match s.object o with
  | none => none
  | some x =>
    match x.place with
    | .inWorld _ =>
      match respawn with
      | some cell => s.removeFromWorld o x false (.respawning cell)
      | none => s.removeFromWorld o x (x.kind ≠ .gameObject) .removed
    | _ => some s

/-- `EventRespawnVehicle`, `EventRespawnCreature` and
`EventRespawnGameObject`. -/
def eventRespawn (o : Nat) (cell : Nat × Nat) : Option MapObjects :=
  match s.object o with
  | none => none
  | some x =>
    match x.place with
    | .respawning _ => (s.pushObject o x).map (·.setPlace o (.inWorld cell))
    | _ => some s

/-- `Destructor`: only that of a vehicle frees the number. -/
def destructor (o : Nat) : Option MapObjects :=
  match s.object o with
  | none => none
  | some x =>
    match x.place with
    | .inWorld _ => s.removeFromWorld o x (x.kind = .vehicle) .destructed
    | _ => some (s.setPlace o .destructed)

/-- `DeleteMe` and `_Expire`. -/
def deleteMe (o : Nat) : Option MapObjects :=
  match s.object o with
  | none => none
  | some x =>
    match x.place with
    | .inWorld _ => s.removeFromWorld o x true .destructed
    | _ => some (s.setPlace o .destructed)

/-! ## Unloading a cell -/

/-- What `RemoveObjects` does with an object in `_respawnObjects`. -/
def removeWaiting (cell : Nat × Nat) (o : Nat) : MapObjects :=
  match s.object o with
  | none => s
  | some x =>
    if x.place = .respawning cell then
      let ids := s.ids x.kind
      let s := if x.kind = .gameObject then s
        else s.setIds x.kind { ids with reusable := ids.reusable ++ [x.uid] }
      s.setPlace o .destructed
    else s

/-- And with one in `_objects`. -/
def removeInside (cell : Nat × Nat) (unloadpending : Bool) (o : Nat) : Option MapObjects :=
  match s.object o with
  | none => some s
  | some x =>
    if x.place = .inWorld cell then
      if unloadpending ∧ x.loadedFromDB = false then some s
      else s.removeFromWorld o x true .destructed
    else some s

/-- `RemoveObjects`. -/
def removeObjects (cell : Nat × Nat) (unloadpending : Bool) (order : List Nat) :
    Option MapObjects :=
  order.foldlM (fun s o => s.removeInside cell unloadpending o)
    (order.foldl (fun s o => s.removeWaiting cell o) s)

/-! ## Runs -/

inductive Call
  | createCreature (entry : UInt32) (loadedFromDB : Bool)
  | createVehicle (entry : UInt32) (loadedFromDB : Bool)
  | createGameObject (known : Bool) (entry : UInt32) (loadedFromDB : Bool)
  | pushToWorld (o : Nat) (cell : Nat × Nat)
  | despawn (o : Nat) (respawn : Option (Nat × Nat))
  | eventRespawn (o : Nat) (cell : Nat × Nat)
  | destructor (o : Nat)
  | deleteMe (o : Nat)
  | removeObjects (cell : Nat × Nat) (unloadpending : Bool) (order : List Nat)

/-- The order of a set of objects has each of them once. -/
def step : Call → Option MapObjects
  | .createCreature entry db => some (s.createCreature entry db)
  | .createVehicle entry db => s.createVehicle entry db
  | .createGameObject known entry db => some (s.createGameObject known entry db)
  | .pushToWorld o cell => s.pushToWorld o cell
  | .despawn o respawn => s.despawn o respawn
  | .eventRespawn o cell => s.eventRespawn o cell
  | .destructor o => s.destructor o
  | .deleteMe o => s.deleteMe o
  | .removeObjects cell pending order =>
    if order.Perm (List.range s.next) then s.removeObjects cell pending order else none

end MapObjects

end HearthStone
