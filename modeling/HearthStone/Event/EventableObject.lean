/-
HearthStone.Event.EventableObject — timed events, the objects they belong
to and the holders that run them (`EventableObject.cpp`, `EventMgr.h`).

An event is on the list of a holder by its number, and belongs to that
holder as long as its `instanceId` says so: an entry that has become
stale stays on the list until the holder's next update comes to it.

* `EventableObjectHolder` — the list is kept in pieces around the
  position of an update that is under way. What is added at the end while
  the position is at the end is not come to any more (`beyond`).
* An update is a start, a visit of each entry, the return of each
  callback that is run, and an end, so that whatever callbacks and other
  threads do in between is a step of its own. `locked` says that the lock
  of the list is not to be had, and the insert pool is used.
* `log` and `processed` are records for the statements; the code keeps
  neither.

Holders are named by their instance id. Reference counts are left out: an
entry holds a reference, so no entry dangles.
-/
import Mathlib

namespace HearthStone

structure TimedEvent where
  obj : Nat
  eventType : UInt32
  eventFlag : UInt16
  msTime : UInt32
  currTime : UInt32
  repeats : UInt16
  deleted : Bool
  instanceId : Int32

/-- `EVENT_FLAG_DO_NOT_EXECUTE_IN_WORLD_CONTEXT`. -/
def flagDoNotExecuteInWorldContext : UInt16 := 0x1
def flagDeletesObject : UInt16 := 0x2
def flagFireOnDelete : UInt16 := 0x4

def eventRemovalFlagAll : UInt32 := 0xFFFFFFFF

/-- `WORLD_INSTANCE`. -/
def worldInstance : Int32 := -1

def TimedEvent.hasFlag (ev : TimedEvent) (flag : UInt16) : Bool :=
  decide (ev.eventFlag &&& flag ≠ 0)

/-- The holder does not run the event: it is the world's, and the event is
not to be run there. -/
def TimedEvent.barredFrom (ev : TimedEvent) (h : Int32) : Bool :=
  decide (h = worldInstance) && ev.hasFlag flagDoNotExecuteInWorldContext

/-- The constructor, and the instance id it is given. -/
def newEvent (obj : Nat) (eventType time : UInt32) (repeats flags : UInt16) (instanceId : Int32) :
    TimedEvent where
  obj := obj
  eventType := eventType
  eventFlag := flags
  msTime := time
  currTime := time
  repeats := repeats
  deleted := false
  instanceId := instanceId

structure EventableObject where
  /-- `m_holder`. -/
  holder : Option Int32
  /-- `m_event_Instanceid`. -/
  instanceid : Int32
  events : List Nat

/-- An entry an update has processed: the time left before, and
afterwards unless the callback was run. -/
structure Processing where
  event : Nat
  timeDifference : UInt32
  before : UInt32
  after : Option UInt32

structure EventableObjectHolder where
  seen : List Nat
  /-- The entry whose callback is being run. -/
  running : Option Nat
  ahead : List Nat
  beyond : List Nat
  insertPool : List Nat
  /-- The time difference of the update that is under way. -/
  update : Option UInt32
  /-- By that update, or the last one. -/
  processed : List Processing

namespace EventableObjectHolder

variable (H : EventableObjectHolder)

def empty : EventableObjectHolder := ⟨[], none, [], [], [], none, []⟩

/-- The list and the pool. -/
def entries : List Nat := H.seen ++ H.running.toList ++ H.ahead ++ H.beyond ++ H.insertPool

/-- `push_back`, to the pool or to the list. -/
def push (locked : Bool) (e : Nat) : EventableObjectHolder :=
  if locked then { H with insertPool := H.insertPool ++ [e] }
  else if H.update.isSome ∧ H.ahead = [] then { H with beyond := H.beyond ++ [e] }
  else { H with ahead := H.ahead ++ [e] }

end EventableObjectHolder

/-- What has happened to an event. -/
inductive EventRecord
  | ran (e : Nat)
  | removed (e : Nat)
  deriving DecidableEq

structure EventWorld where
  event : Nat → TimedEvent
  nextEvent : Nat
  object : Nat → EventableObject
  holder : Int32 → Option EventableObjectHolder
  log : List EventRecord

namespace EventWorld

variable (s : EventWorld)

/-! ## Objects -/

def setObject (o : Nat) (obj : EventableObject) : EventWorld :=
  { s with object := Function.update s.object o obj }

def setEvent (e : Nat) (ev : TimedEvent) : EventWorld :=
  { s with event := Function.update s.event e ev }

def setHolder (h : Int32) (H : EventableObjectHolder) : EventWorld :=
  { s with holder := Function.update s.holder h (some H) }

/-- `sEventMgr.GetEventHolder(id)`. -/
def getEventHolder (id : Int32) : Option Int32 := if (s.holder id).isSome then some id else none

/-- The place of a new key in a multimap is behind its equals. -/
def insertEvent (ev : Nat → TimedEvent) (events : List Nat) (e : Nat) : List Nat :=
  events.takeWhile (fun x => decide ((ev x).eventType ≤ (ev e).eventType)) ++
    e :: events.dropWhile (fun x => decide ((ev x).eventType ≤ (ev e).eventType))

/-- `m_holder` is set when the first event is added. -/
def attach (obj : EventableObject) (id : Int32) : EventableObject :=
  if obj.holder = none then { obj with instanceid := id, holder := s.getEventHolder id } else obj

/-- `event_AddEvent` of a new event; `id` is `event_GetInstanceID()`. The
event has been given the instance id when the world's holder is taken for
want of another. -/
def addEvent (o : Nat) (eventType time : UInt32) (repeats flags : UInt16) (id : Int32)
    (locked : Bool) : EventWorld :=
  let e := s.nextEvent
  let obj := s.attach (s.object o) id
  let ev := Function.update s.event e (newEvent o eventType time repeats flags obj.instanceid)
  let obj := { obj with events := insertEvent ev obj.events e }
  let obj := if obj.holder = none then
    { obj with instanceid := worldInstance, holder := some worldInstance } else obj
  let h := obj.holder.getD worldInstance
  { s with
    event := ev
    nextEvent := e + 1
    object := Function.update s.object o obj
    holder := Function.update s.holder h ((s.holder h).map fun H => H.push locked e) }

/-- Whether `event_RemoveEvents(EventType)` is about the event. -/
def removes (eventType : UInt32) (e : Nat) : Bool :=
  decide (eventType = eventRemovalFlagAll) || decide ((s.event e).eventType = eventType)

/-- The record of one removal. -/
def removal (e : Nat) : List EventRecord :=
  if (s.event e).hasFlag flagFireOnDelete ∧ (s.event e).deleted = false then [.ran e, .removed e]
  else [.removed e]

def removeEvents (o : Nat) (eventType : UInt32) : EventWorld :=
  let gone := (s.object o).events.filter (s.removes eventType)
  { s with
    event := fun e => if e ∈ gone then { s.event e with deleted := true } else s.event e
    object := Function.update s.object o
      { s.object o with events := (s.object o).events.filter fun e => !s.removes eventType e }
    log := s.log ++ gone.flatMap s.removal }

/-- The events `AddObject` transfers. -/
def moved (o : Nat) (h : Int32) : List Nat :=
  (s.object o).events.filter fun e => !(s.event e).deleted && !(s.event e).barredFrom h

/-- `AddObject`. -/
def addObject (o : Nat) (h : Int32) (locked : Bool) : EventWorld :=
  { s with
    event := fun e => if e ∈ s.moved o h then { s.event e with instanceId := h } else s.event e
    holder := Function.update s.holder h ((s.holder h).map fun H =>
      (s.moved o h).foldl (EventableObjectHolder.push · locked) H) }

/-- The holder `event_Relocate` goes to. -/
def newHolderOf (id : Int32) : Int32 := (s.getEventHolder id).getD worldInstance

/-- `event_Relocate`: the holder of the instance is compared before the
world's takes its place. -/
def relocate (o : Nat) (id : Int32) (locked : Bool) : EventWorld :=
  if s.getEventHolder id = (s.object o).holder then s
  else
    let h := s.newHolderOf id
    (s.addObject o h locked).setObject o { s.object o with instanceid := h, holder := some h }

/-! ## The update of a holder -/

/-- What is in the pool goes to the end of the list. -/
def beginUpdate (h : Int32) (timeDifference : UInt32) : Option EventWorld :=
  (s.holder h).bind fun H =>
    if H.update = none then
      some (s.setHolder h { H with
        ahead := H.ahead ++ H.insertPool.filter fun e =>
          !(s.event e).deleted && decide ((s.event e).instanceId = h)
        insertPool := []
        update := some timeDifference
        processed := [] })
    else none

/-- The entry is taken off the list. -/
def drops (h : Int32) (e : Nat) : Bool :=
  decide ((s.event e).instanceId ≠ h) || (s.event e).deleted || (s.event e).barredFrom h

/-- The next entry, up to the call of its callback. -/
def visit (h : Int32) : Option EventWorld :=
  (s.holder h).bind fun H =>
    match H.update, H.running, H.ahead with
    | some timeDifference, none, e :: ahead =>
      let ev := s.event e
      if s.drops h e then some (s.setHolder h { H with ahead := ahead })
      else if ev.currTime ≤ timeDifference then
        some { (s.setHolder h { H with
            ahead := ahead
            running := some e
            processed := H.processed ++ [⟨e, timeDifference, ev.currTime, none⟩] }).setEvent e
            { ev with deleted := ev.deleted || ev.hasFlag flagDeletesObject } with
          log := s.log ++ [.ran e] }
      else
        let currTime := ev.currTime - timeDifference
        some ((s.setHolder h { H with
            ahead := ahead
            seen := H.seen ++ [e]
            processed := H.processed ++ [⟨e, timeDifference, ev.currTime, some currTime⟩] }).setEvent
            e { ev with currTime := currTime })
    | _, _, _ => none

/-- The callback has returned. -/
def returned (h : Int32) : Option EventWorld :=
  (s.holder h).bind fun H =>
    match H.update, H.running with
    | some _, some e =>
      let ev := s.event e
      let repeats := if ev.repeats = 0 then 0 else ev.repeats - 1
      if ev.hasFlag flagDeletesObject then some (s.setHolder h { H with running := none })
      else if ev.repeats ≠ 0 ∧ repeats = 0 then
        some ((s.setHolder h { H with running := none }).setEvent e
          { ev with repeats := repeats, deleted := true })
      else if ev.deleted then
        some ((s.setHolder h { H with running := none }).setEvent e { ev with repeats := repeats })
      else
        some ((s.setHolder h { H with running := none, seen := H.seen ++ [e] }).setEvent e
          { ev with repeats := repeats, currTime := ev.msTime })
    | _, _ => none

/-- The position has reached the end. -/
def endUpdate (h : Int32) : Option EventWorld :=
  (s.holder h).bind fun H =>
    if H.update.isSome ∧ H.running = none ∧ H.ahead = [] then
      some (s.setHolder h
        { H with seen := [], ahead := H.seen ++ H.beyond, beyond := [], update := none })
    else none

/-- A holder comes into being with its instance; one that is there
already stays in the map. -/
def newHolder (id : Int32) : EventWorld :=
  if (s.holder id).isSome then s else s.setHolder id .empty

inductive Action
  | addEvent (o : Nat) (eventType time : UInt32) (repeats flags : UInt16) (id : Int32)
      (locked : Bool)
  | removeEvents (o : Nat) (eventType : UInt32)
  | relocate (o : Nat) (id : Int32) (locked : Bool)
  | beginUpdate (h : Int32) (timeDifference : UInt32)
  | visit (h : Int32)
  | returned (h : Int32)
  | endUpdate (h : Int32)
  | newHolder (id : Int32)

def step : Action → Option EventWorld
  | .addEvent o eventType time repeats flags id locked =>
    some (s.addEvent o eventType time repeats flags id locked)
  | .removeEvents o eventType => some (s.removeEvents o eventType)
  | .relocate o id locked => some (s.relocate o id locked)
  | .beginUpdate h timeDifference => s.beginUpdate h timeDifference
  | .visit h => s.visit h
  | .returned h => s.returned h
  | .endUpdate h => s.endUpdate h
  | .newHolder id => some (s.newHolder id)

end EventWorld

end HearthStone
