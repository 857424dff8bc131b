/-
HearthStone.Item.RemoveItem — counting the units of an item and removing
some of them (`ItemInterface.cpp`).

The two functions that remove are one text but for a pointer that the
second sets to null when it has tried to remove the item it refers to.
`removeAmt` is that text, with what it does to the pointer as a parameter.

* `getItemCount` — `GetItemCount`, a 32-bit sum.
* `takeStack` — what is done with one stack: a part of it, all of it, or
  all of it and more from the next.
* `removeItemAmt`, `removeItemAmt_ProtectPointer`.

A loop that returns has a `result`; what follows leaves it alone. The
loops over the backpack ask for the entry and those over the bags for the
prototype, and whether a cell counts depends on the wrapping of the bag;
this is the code's.
-/
import HearthStone.Item.ItemInterface

namespace HearthStone

def EQUIPMENT_SLOT_START : Nat := 0

/-- `GetEntry() == itemid && wrapped_item_id == 0`. -/
def Item.isEntry (itemid : UInt32) (it : Item) : Bool :=
  it.entry = itemid && it.wrappedItemId = 0

/-- `GetProto()->ItemId == itemid && wrapped_item_id == 0`. -/
def Item.isProto (itemid : UInt32) (it : Item) : Bool :=
  it.proto.itemId = itemid && it.wrappedItemId = 0

/-- A gift has another entry than its prototype, but passes neither test. -/
theorem Item.isProto_eq (itemid : UInt32) (it : Item) : it.isProto itemid = it.isEntry itemid := by
  unfold isProto isEntry
  by_cases hgift : it.wrappedItemId = 0
  · rw [it.entry_eq hgift]
  · simp [hgift]

namespace ItemWorld

variable (w : ItemWorld) (me : PlayerGuid)

/-! ## Counting -/

/-- `count ? count : 1`. -/
def units (g : Guid) : UInt32 := if w.stackCount g ≠ 0 then w.stackCount g else 1

def countTops (test : Item → Bool) (a b : Nat) (cnt : UInt32) : UInt32 :=
  (slotRange a b).foldl (fun cnt (i : Nat) =>
    match w.getInventoryItem me i with
    | none => cnt
    | some g => if test (w.item g) then cnt + w.units g else cnt) cnt

def countBags (test : Item → Bool) (a b : Nat) (cnt : UInt32) : UInt32 :=
  (slotRange a b).foldl (fun cnt (i : Nat) =>
    match w.getInventoryItem me i with
    | none => cnt
    | some bag =>
      if w.isContainer bag then
        (slotRange 0 (w.containerSlots bag)).foldl (fun cnt (j : Nat) =>
          match w.getItem bag j with
          | none => cnt
          | some g =>
            if test (w.item g) && (w.item bag).wrappedItemId = 0 then cnt + w.units g
            else cnt) cnt
      else cnt) cnt

/-- `GetItemCount`. -/
def getItemCount (itemid : UInt32) (incBank : Bool) : UInt32 :=
  let cnt := w.countTops me (·.isEntry itemid) EQUIPMENT_SLOT_START INVENTORY_SLOT_ITEM_END 0
  let cnt := w.countBags me (·.entry = itemid) INVENTORY_SLOT_BAG_START INVENTORY_SLOT_BAG_END cnt
  let cnt := w.countTops me (·.isProto itemid) INVENTORY_KEYRING_START INVENTORY_KEYRING_END cnt
  if incBank then
    let cnt := w.countTops me (·.isProto itemid) BANK_SLOT_ITEM_START BANK_SLOT_BAG_END cnt
    w.countBags me (·.proto.itemId = itemid) BANK_SLOT_BAG_START BANK_SLOT_BAG_END cnt
  else cnt

end ItemWorld

/-! ## Removing -/

/-- The variables of the loops, and the value returned. -/
structure Removal where
  world : ItemWorld
  amt : UInt32
  /-- `*pointer`; none also when there is no pointer -/
  pointer : Option Guid
  result : Option UInt32

namespace Removal

variable (s : Removal) (me : PlayerGuid) (protect : Guid → Option Guid → Option Guid)

/-- What is done with a stack that `SafeFullRemoveItemFromSlot` finds at
a place. -/
def takeStack (g : Guid) (containerSlot slot : Int) : Removal :=
  let count := s.world.stackCount g
  if count > s.amt then
    { s with world := s.world.setStackCount g (count - s.amt), result := some s.amt }
  else
    let r := s.world.safeFullRemoveFromSlot me containerSlot slot
    if count = s.amt then
      { s with
        world := r.2, pointer := protect g s.pointer, result := some (if r.1 then s.amt else 0) }
    else { s with world := r.2, pointer := protect g s.pointer, amt := s.amt - count }

/-- The body of a loop is not run after a `return`. -/
def unlessReturned (f : Removal → Removal) : Removal := if s.result.isSome then s else f s

/-- The loop over the slots of a range. Only the first one looks for a
bag with items in it. -/
def removeTops (test : Item → Bool) (skipFullBags : Bool) (a b : Nat) : Removal :=
  (slotRange a b).foldl (fun s (i : Nat) => s.unlessReturned fun s =>
    match s.world.getInventoryItem me i with
    | none => s
    | some g =>
      if test (s.world.item g) then
        if skipFullBags && s.world.isFullBag g then s
        else s.takeStack me protect g INVENTORY_SLOT_NOT_SET i
      else s) s

/-- The loop over the cells of the bag in slot `i`. -/
def removeCells (test : Item → Bool) (bag : Guid) (i : Nat) : Removal :=
  (slotRange 0 (s.world.containerSlots bag)).foldl (fun s (j : Nat) => s.unlessReturned fun s =>
    match s.world.getItem bag j with
    | none => s
    | some g =>
      if test (s.world.item g) && (s.world.item bag).wrappedItemId = 0
      then s.takeStack me protect g i j else s) s

/-- The loop over the bags. -/
def removeBags (test : Item → Bool) (a b : Nat) : Removal :=
  (slotRange a b).foldl (fun s (i : Nat) => s.unlessReturned fun s =>
    match s.world.getInventoryItem me i with
    | none => s
    | some bag =>
      if s.world.isContainer bag then s.removeCells me protect test bag i else s) s

end Removal

namespace ItemWorld

variable (w : ItemWorld) (me : PlayerGuid)

/-- The text of the two functions. -/
def removeAmt (protect : Guid → Option Guid → Option Guid) (id amt : UInt32)
    (pointer : Option Guid) : Removal :=
  if w.getItemCount me id false < amt then ⟨w, amt, pointer, some 0⟩
  else
    let s : Removal := ⟨w, amt, pointer, none⟩
    let s := s.removeTops me protect (·.isEntry id) true EQUIPMENT_SLOT_START INVENTORY_SLOT_ITEM_END
    let s := s.removeBags me protect (·.proto.itemId = id) INVENTORY_SLOT_BAG_START
      INVENTORY_SLOT_BAG_END
    s.removeTops me protect (·.isProto id) false INVENTORY_KEYRING_START INVENTORY_KEYRING_END

/-- `RemoveItemAmt`. -/
def removeItemAmt (id amt : UInt32) : UInt32 × ItemWorld :=
  let s := w.removeAmt me (fun _ pointer => pointer) id amt none
  (s.result.getD 0, s.world)

/-- `if(*pointer == item) *pointer = NULLITEM`. -/
def nullIf (g : Guid) (pointer : Option Guid) : Option Guid :=
  if pointer = some g then none else pointer

/-- `RemoveItemAmt_ProtectPointer`. -/
def removeItemAmt_ProtectPointer (id amt : UInt32) (pointer : Option Guid) :
    UInt32 × ItemWorld × Option Guid :=
  let s := w.removeAmt me nullIf id amt pointer
  (s.result.getD 0, s.world, s.pointer)

end ItemWorld

end HearthStone
