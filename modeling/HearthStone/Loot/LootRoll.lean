/-
HearthStone.Loot.LootRoll — the roll of a group for an item
(`LootRoll` of `LootMgr.cpp`).

A roll hangs from an item of the loot. Players choose while it does; when
as many choices have been counted as the group has members, or when the
minute is over, it is finalized.

* `m_NeedRolls` and `m_GreedRolls` are lists of a guid and a roll,
  `m_passRolls` a list of guids, all in the order of the guids.
* A call of `PlayerRolled` looks whether the player has rolled before it
  takes the lock; other threads may run in between, and between its
  release of the lock and `Finalize`. A thread is at one of these points.
* `_remaining` is an unsigned number that wraps.
* `log` holds what was done, oldest first: a choice that was counted and
  sent to the group, the last choice of the countdown, a finalization.

The texts of the packets and the item that is made for the winner are
left out.
-/
import HearthStone.Lib.Mutex
import Mathlib

namespace HearthStone

open Lib

/-- `NEED`. -/
def rollNeed : UInt8 := 1

/-- `GREED`. Every other choice is a pass. -/
def rollGreed : UInt8 := 2

structure LootRoll (τ : Type) where
  needRolls : List (Nat × Nat)
  greedRolls : List (Nat × Nat)
  passRolls : List Nat
  groupcount : UInt32
  remaining : UInt32
  lootLock : Mutex τ

/-- The best roll when a roll is finalized: nobody's, without a type, when
nobody rolled. -/
structure BestRoll where
  highest : Nat
  hightype : Option UInt8
  player : Nat
  deriving DecidableEq

/-- How a finalization ends. -/
inductive RollOutcome
  | lootGone
  | nothingLeft
  /-- `SMSG_LOOT_ALL_PASSED`, through the first passer on the map. -/
  | allPassed (through : Option Nat)
  /-- `SMSG_LOOT_ROLL_WON`, and whether the winner could take the item. -/
  | won (taken : Bool)
  deriving DecidableEq

inductive RollEvent
  | rolled (guid : Nat) (choice : UInt8) (roll : Nat)
  | closed
  | finalized (best : BestRoll) (outcome : RollOutcome)
  deriving DecidableEq

/-- Where a thread is. -/
inductive RollPoint
  | idle
  /-- It waits for the lock. -/
  | checked (guid : Nat) (choice : UInt8)
  | holding (guid : Nat) (choice : UInt8)
  /-- It is about to call `Finalize`. -/
  | finalizing
  deriving DecidableEq

/-- An item of the loot. `roll` says whether it points to the roll. -/
structure LootItem where
  roll : Bool
  itemsCount : UInt32
  passed : Bool
  deriving DecidableEq

/-- The roll, with the threads, the event and the item it hangs from,
unless its object is gone or has no such slot. -/
structure RollWorld (τ : Type) where
  roll : LootRoll τ
  thread : τ → RollPoint
  timer : Bool
  item : Option LootItem
  log : List RollEvent

/-- What `Finalize` asks the map and the winner. -/
structure RollMap where
  onMap : Nat → Bool
  canTake : Nat → Bool

namespace LootRoll

variable {τ : Type} (r : LootRoll τ)

/-- `insert` of a map: an entry that is there stays. -/
def insertRoll (guid roll : Nat) (rolls : List (Nat × Nat)) : List (Nat × Nat) :=
  if ∃ e ∈ rolls, e.1 = guid then rolls
  else rolls.orderedInsert (fun a b => a.1 ≤ b.1) (guid, roll)

def insertPass (guid : Nat) (passes : List Nat) : List Nat :=
  if guid ∈ passes then passes else passes.orderedInsert (· ≤ ·) guid

def init (groupcount : UInt32) : LootRoll τ := ⟨[], [], [], groupcount, groupcount, .free⟩

/-- The first lines of `PlayerRolled`. -/
def hasRolled (guid : Nat) : Bool :=
  r.needRolls.any (fun e => e.1 == guid) || r.greedRolls.any (fun e => e.1 == guid)

/-- A choice is entered and the countdown goes down. -/
def enter (guid : Nat) (choice : UInt8) (roll : Nat) : LootRoll τ :=
  let r := if choice = rollNeed then { r with needRolls := insertRoll guid roll r.needRolls }
    else if choice = rollGreed then { r with greedRolls := insertRoll guid roll r.greedRolls }
    else { r with passRolls := insertPass guid r.passRolls }
  { r with remaining := r.remaining - 1 }

/-- A loop of `Finalize`: the highest roll and its player. -/
def highestRoll (rolls : List (Nat × Nat)) : Nat × Nat :=
  rolls.foldl (fun best e => if best.1 < e.2 then (e.2, e.1) else best) (0, 0)

/-- Need before greed. -/
def best : BestRoll :=
  let needed := highestRoll r.needRolls
  if needed.1 = 0 then
    let greeded := highestRoll r.greedRolls
    if greeded.1 = 0 then ⟨0, none, 0⟩ else ⟨greeded.1, some rollGreed, greeded.2⟩
  else ⟨needed.1, some rollNeed, needed.2⟩

/-- The rest of `Finalize`, on an item that is there. -/
def award (map : RollMap) (item : LootItem) : LootItem × RollOutcome :=
  let item := { item with roll := false }
  if item.itemsCount = 0 then (item, .nothingLeft)
  else if r.best.player = 0 ∨ map.onMap r.best.player = false then
    ({ item with passed := true }, .allPassed (r.passRolls.find? map.onMap))
  else if map.canTake r.best.player then ({ item with itemsCount := 0 }, .won true)
  else (item, .won false)

end LootRoll

namespace RollWorld

variable {τ : Type} [DecidableEq τ] (w : RollWorld τ)

/-- `Init`, on an item. -/
def init (groupcount : UInt32) (itemsCount : UInt32) : RollWorld τ :=
  ⟨.init groupcount, fun _ => .idle, true, some ⟨true, itemsCount, false⟩, []⟩

def goto (t : τ) (p : RollPoint) : RollWorld τ :=
  { w with thread := fun u => if u = t then p else w.thread u }

/-- A player's choice comes for the roll that the item points to. -/
def call (t : τ) (guid : Nat) (choice : UInt8) : Option (RollWorld τ) :=
  if w.thread t = .idle ∧ w.item.any (·.roll) = true then
    if w.roll.hasRolled guid then some w else some (w.goto t (.checked guid choice))
  else none

/-- `mLootLock.Acquire()`. -/
def acquire (t : τ) : Option (RollWorld τ) :=
  match w.thread t with
  | .checked guid choice => (w.roll.lootLock.attemptAcquire t).map fun lock =>
      { w.goto t (.holding guid choice) with roll := { w.roll with lootLock := lock } }
  | _ => none

/-- The rest of `PlayerRolled`; `n` is what `RandomUInt(99)` drew. -/
def count (t : τ) (n : Nat) : Option (RollWorld τ) :=
  match w.thread t with
  | .holding guid choice =>
    if n ≤ 99 then
      let r := w.roll.enter guid choice (n + 1)
      let r := { r with lootLock := r.lootLock.release }
      let log := w.log ++ [.rolled guid choice (n + 1)]
      if r.remaining = 0 then
        some { w.goto t .finalizing with roll := r, log := log ++ [.closed] }
      else some { w.goto t .idle with roll := r, log := log }
    else none
  | _ => none

/-- `Finalize`. -/
def finalize (t : τ) (map : RollMap) : Option (RollWorld τ) :=
  match w.thread t with
  | .finalizing =>
    let w := { w.goto t .idle with timer := false }
    match w.roll.lootLock.attemptAcquire t with
    | none => some w
    | some lock =>
      let w := { w with roll := { w.roll with lootLock := lock } }
      match w.item with
      | none => some { w with log := w.log ++ [.finalized w.roll.best .lootGone] }
      | some item =>
        let (item, outcome) := w.roll.award map item
        some { w with item := some item, log := w.log ++ [.finalized w.roll.best outcome] }
  | _ => none

/-- The minute is over. -/
def timeout (t : τ) : Option (RollWorld τ) :=
  if w.thread t = .idle ∧ w.timer = true then
    some { w.goto t .finalizing with timer := false }
  else none

inductive Action (τ : Type)
  | call (t : τ) (guid : Nat) (choice : UInt8)
  | acquire (t : τ)
  | count (t : τ) (n : Nat)
  | finalize (t : τ) (map : RollMap)
  | timeout (t : τ)
  /-- `ClearLoot` of the object. -/
  | clearLoot
  /-- The object leaves the map. -/
  | despawn
  /-- The object has other loot. -/
  | refill (itemsCount : UInt32)

def step : Action τ → Option (RollWorld τ)
  | .call t guid choice => w.call t guid choice
  | .acquire t => w.acquire t
  | .count t n => w.count t n
  | .finalize t map => w.finalize t map
  | .timeout t => w.timeout t
  | .clearLoot => some { w with timer := w.timer && !w.item.any (·.roll), item := none }
  | .despawn => some { w with item := none }
  | .refill itemsCount => some { w with item := some ⟨false, itemsCount, false⟩ }

end RollWorld

end HearthStone
