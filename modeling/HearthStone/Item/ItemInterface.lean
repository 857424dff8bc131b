/-
HearthStone.Item.ItemInterface — the operations of a player's inventory
(`ItemInterface.cpp`).

`me` is `m_pOwner`; `m_pItems[i]` is `slots (.top me i)` and
`PLAYER_FIELD_INV_SLOT_HEAD + 2 * i` is `fields (.top me i)`. Slot
arguments are `int8` in the code and integers here; the assertions that
a slot is below `MAX_INVENTORY_SLOT` are left to the callers.

* `m_AddItem` — every insertion but the two direct ones into a bag.
* `safeRemoveFromSlot`, `safeFullRemoveFromSlot`, `locate` — removal by
  place and by GUID.
* `addItemToFreeSlot`, `findFreeInventorySlot`, `calculateFreeSlots`.
* `swapItemSlots`.

A search that stops at the first success is a `findSome?`: an attempt
that fails has written nothing.
-/
import HearthStone.Item.Container

namespace HearthStone

/-- `enum AddItemResult`; `error` is the false one. -/
inductive AddItemResult
  | error
  | ok
  | duplicated
  deriving DecidableEq, Repr

/-- `ItemInterface::IsBagSlot`. -/
def isBagSlot (slot : Int) : Bool :=
  (INVENTORY_SLOT_BAG_START ≤ slot ∧ slot < INVENTORY_SLOT_BAG_END) ∨
    (BANK_SLOT_BAG_START ≤ slot ∧ slot < BANK_SLOT_BAG_END)

/-- `struct SlotResult` of a search that succeeded. -/
structure SlotResult where
  containerSlot : Int
  slot : Int
  deriving DecidableEq, Repr

namespace ItemWorld

variable (w : ItemWorld) (me : PlayerGuid)

/-! ## Reading -/

/-- `GetInventoryItem(slot)`. The bound lets `MAX_INVENTORY_SLOT` itself
through: the cell behind the array. -/
def getInventoryItem (slot : Int) : Option Guid :=
  if slot < 0 ∨ slot > MAX_INVENTORY_SLOT then none else w.slots (.top me slot.toNat)

/-- `GetInventoryItem(ContainerSlot, slot)`. -/
def getInventoryItemIn (containerSlot slot : Int) : Option Guid :=
  if containerSlot ≤ INVENTORY_SLOT_NOT_SET then w.getInventoryItem me slot
  else if isBagSlot containerSlot then
    match w.slots (.top me containerSlot.toNat) with
    | some b => w.getItem b slot
    | none => none
  else none

/-- The double check of `m_AddItem`: the item is in a slot of the player
or in a cell of a bag in one. -/
def inInventory (g : Guid) : Bool :=
  (slotRange 0 MAX_INVENTORY_SLOT).any fun i =>
    match w.slots (.top me i) with
    | none => false
    | some t => t = g ||
        (w.isContainer t && (slotRange 0 (w.containerSlots t)).any fun (j : Nat) =>
          w.getItem t j = some g)

/-- `m_pItems[i]` when it is a bag with the given `BagFamily` test. -/
def bagAt (i : Nat) (family : UInt32 → Bool) : Option Guid :=
  match w.slots (.top me i) with
  | some b => if w.isContainer b && family (w.item b).proto.bagFamily then some b else none
  | none => none

/-- The first empty cell of `m_pItems` in a range. -/
def freeTop (a b : Nat) : Option Nat :=
  (slotRange a b).find? fun i => (w.slots (.top me i)).isNone

/-- `FindFreeBackPackSlot`. -/
def findFreeBackPackSlot : Int :=
  match w.freeTop me INVENTORY_SLOT_ITEM_START INVENTORY_SLOT_ITEM_END with
  | some i => i
  | none => INVENTORY_SLOT_NOT_SET

/-- A free cell of the first bag in `INVENTORY_SLOT_BAG_START ..` that
passes the test and has one. -/
def freeInBags (family : UInt32 → Bool) : Option SlotResult :=
  (slotRange INVENTORY_SLOT_BAG_START INVENTORY_SLOT_BAG_END).findSome? fun i =>
    match w.bagAt me i family with
    | none => none
    | some b =>
      let slot := w.findFreeSlot b
      if slot ≠ INVENTORY_SLOT_NOT_SET then some ⟨i, slot⟩ else none

/-- `FindFreeInventorySlot`. -/
def findFreeInventorySlot (proto : ItemPrototype) : Option SlotResult :=
  let special :=
    if proto.bagFamily = 0 then none
    else if proto.bagFamily &&& ITEM_TYPE_KEYRING ≠ 0 then
      (w.freeTop me INVENTORY_KEYRING_START INVENTORY_KEYRING_END).map
        fun (i : Nat) => ⟨INVENTORY_SLOT_NOT_SET, i⟩
    else w.freeInBags me (· = proto.bagFamily)
  let backpack := (w.freeTop me INVENTORY_SLOT_ITEM_START INVENTORY_SLOT_ITEM_END).map
    fun (i : Nat) => (⟨INVENTORY_SLOT_NOT_SET, i⟩ : SlotResult)
  special <|> backpack <|> w.freeInBags me (· = 0)

/-- `CalculateFreeSlots`. -/
def calculateFreeSlots (proto : Option ItemPrototype) : Nat :=
  let special :=
    match proto with
    | none => 0
    | some proto =>
      if proto.bagFamily = 0 then 0
      else if proto.bagFamily &&& ITEM_TYPE_KEYRING ≠ 0 then
        (slotRange INVENTORY_KEYRING_START INVENTORY_KEYRING_END).countP
          fun i => (w.slots (.top me i)).isNone
      else
        (slotRange INVENTORY_SLOT_BAG_START INVENTORY_SLOT_BAG_END).countP fun i =>
          match w.bagAt me i (· = proto.bagFamily) with
          | none => false
          | some b => w.findFreeSlot b ≠ INVENTORY_SLOT_NOT_SET
  let backpack := (slotRange INVENTORY_SLOT_ITEM_START INVENTORY_SLOT_ITEM_END).countP
    fun i => (w.slots (.top me i)).isNone
  let bags := (slotRange INVENTORY_SLOT_BAG_START INVENTORY_SLOT_BAG_END).map fun i =>
    match w.bagAt me i (· = 0) with
    | none => 0
    | some b => (slotRange 0 (w.containerSlots b)).countP fun (j : Nat) => (w.getItem b j).isNone
  special + backpack + bags.sum

/-! ## Adding -/

/-- The writes of `m_AddItem` for a place of `m_pItems`. -/
def intoTop (slot : Nat) (g : Guid) : ItemWorld :=
  ((w.modify g fun it => { it with owner := some me, contained := me.val.toNat }).modify g
    Item.bindOnPickup).put (.top me slot) g

/-- The slot of `m_pItems` that an insertion uses. An occupied one is
replaced by a free one, whose `Slot` is then taken for a place of
`m_pItems` whatever its `ContainerSlot` is. -/
def usedSlot (g : Guid) (slot : Int) : Option Int :=
  if (w.getInventoryItem me slot).isSome then
    (w.findFreeInventorySlot me (w.item g).proto).map SlotResult.slot
  else some slot

/-- The last part of `m_AddItem`, on the slots the searches decided. -/
def addItemAt (g : Guid) (containerSlot slot : Int) : AddItemResult × ItemWorld :=
  if containerSlot = INVENTORY_SLOT_NOT_SET then
    match w.usedSlot me g slot with
    | none => (.error, w)
    | some slot =>
      if (w.getInventoryItem me slot).isNone then (.ok, w.intoTop me slot.toNat g) else (.error, w)
  else
    match w.getInventoryItem me containerSlot with
    | none => (.error, w)
    | some b =>
      if w.isContainer b ∧ slot < w.containerSlots b then
        match w.containerAddItem b slot g with
        | none => (.error, w)
        | some w' => (.ok, w')
      else (.error, w)

/-- `ItemInterface::m_AddItem`, for an item that exists; `SafeAddItem`
calls it and nothing else. -/
def m_AddItem (g : Guid) (containerSlot slot : Int) : AddItemResult × ItemWorld :=
  if slot ≥ MAX_INVENTORY_SLOT then (.error, w)
  else if containerSlot ≥ MAX_INVENTORY_SLOT then (.error, w)
  else
    let target :=
      if slot < 0 then w.findFreeInventorySlot me (w.item g).proto
      else some ⟨containerSlot, slot⟩
    match target with
    | none => (.error, w)
    | some target =>
      if w.inInventory me g then (.duplicated, w)
      else w.addItemAt me g target.containerSlot target.slot

/-- `if(SafeAddItem(...))`: the world after an insertion that did not
report an error. -/
def tryAddItem (g : Guid) (containerSlot slot : Int) : Option ItemWorld :=
  match w.m_AddItem me g containerSlot slot with
  | (.error, _) => none
  | (_, w') => some w'

/-- `AddItemToFreeSlot`: `none` is `ADD_ITEM_RESULT_ERROR`. -/
def addItemToFreeSlot (g : Guid) : Option ItemWorld :=
  let family := (w.item g).proto.bagFamily
  let addInto (a b : Nat) : Option ItemWorld := (slotRange a b).findSome? fun i =>
    if (w.slots (.top me i)).isNone then w.tryAddItem me g INVENTORY_SLOT_NOT_SET i else none
  let special :=
    if family = 0 then none
    else if family &&& ITEM_TYPE_KEYRING ≠ 0 then
      addInto INVENTORY_KEYRING_START INVENTORY_KEYRING_END
    else
      (slotRange INVENTORY_SLOT_BAG_START INVENTORY_SLOT_BAG_END).findSome? fun i =>
        match w.bagAt me i (· = family) with
        | none => none
        | some b => (w.containerAddItemToFreeSlot b g).map Prod.snd
  let bags :=
    (slotRange INVENTORY_SLOT_BAG_START INVENTORY_SLOT_BAG_END).findSome? fun i =>
      match w.bagAt me i (· = 0) with
      | none => none
      | some b => (slotRange 0 (w.containerSlots b)).findSome? fun (j : Nat) =>
          if (w.getItem b j).isNone then w.tryAddItem me g i j else none
  special <|> addInto INVENTORY_SLOT_ITEM_START INVENTORY_SLOT_ITEM_END <|> bags

/-- `AddItemToFreeBankSlot`: the second and third search stop at the
first free place whatever the insertion answers. -/
def addItemToFreeBankSlot (g : Guid) : AddItemResult × ItemWorld :=
  let special :=
    (slotRange BANK_SLOT_BAG_START BANK_SLOT_BAG_END).findSome? fun i =>
      match w.bagAt me i (· = (w.item g).proto.bagFamily) with
      | none => none
      | some b => (w.containerAddItemToFreeSlot b g).map fun r => (AddItemResult.ok, r.2)
  let items := (w.freeTop me BANK_SLOT_ITEM_START BANK_SLOT_ITEM_END).map fun (i : Nat) =>
    w.m_AddItem me g INVENTORY_SLOT_NOT_SET i
  let bags :=
    (slotRange BANK_SLOT_BAG_START BANK_SLOT_BAG_END).findSome? fun i =>
      match w.bagAt me i (· = 0) with
      | none => none
      | some b =>
        ((slotRange 0 (w.containerSlots b)).find? fun (j : Nat) => (w.getItem b j).isNone).map fun (j : Nat) =>
          w.m_AddItem me g i j
  (special <|> items <|> bags).getD (.error, w)

/-! ## Removing -/

/-- A bag with items in it is not taken out of its slot. -/
def isFullBag (g : Guid) : Bool := w.containerSlots g > 0 && w.isContainer g && w.hasItems g

/-- `SafeRemoveAndRetreiveItemFromSlot`. With `destroy` the item also
leaves the world and the database, which nothing here sees. -/
def safeRemoveFromSlot (containerSlot slot : Int) : Option Guid × ItemWorld :=
  if containerSlot = INVENTORY_SLOT_NOT_SET then
    match w.getInventoryItemIn me containerSlot slot with
    | none => (none, w)
    | some g =>
      if w.isFullBag g then (none, w)
      else if (w.item g).owner = some me then (some g, w.clear (.top me slot.toNat))
      else (none, w.unlink (.top me slot.toNat))
  else
    match w.getInventoryItem me containerSlot with
    | none => (none, w)
    | some b => if w.isContainer b then w.containerSafeRemove b slot else (none, w)

/-- `SafeFullRemoveItemFromSlot`; with a bag it answers true whatever the
bag answered. -/
def safeFullRemoveFromSlot (containerSlot slot : Int) : Bool × ItemWorld :=
  if containerSlot = INVENTORY_SLOT_NOT_SET then
    match w.getInventoryItem me slot with
    | none => (false, w)
    | some g =>
      if w.isFullBag g then (false, w)
      else if (w.item g).owner = some me then
        (true, (w.clear (.top me slot.toNat)).destructor g)
      else (true, w.unlink (.top me slot.toNat))
  else
    match w.getInventoryItem me containerSlot with
    | none => (true, w)
    | some b =>
      if w.isContainer b then (true, (w.containerSafeFullRemove b slot).getD w) else (true, w)

/-- `m_pItems[i]`, for `i` in a range, with a given GUID. -/
def locateTop (g : Guid) (a b : Nat) : Option Place :=
  ((slotRange a b).find? fun i => w.slots (.top me i) = some g).map (.top me ·)

/-- The bags of a range, each before its cells. -/
def locateInBags (g : Guid) (a b : Nat) : Option Place :=
  (slotRange a b).findSome? fun i =>
    match w.slots (.top me i) with
    | none => none
    | some t =>
      if t = g then some (.top me i)
      else if w.isContainer t then
        ((slotRange 0 (w.containerSlots t)).find? fun (j : Nat) => w.getItem t j = some g).map
          (.cell t ·)
      else none

/-- The search the four removals by GUID share. It visits neither the
slots between the bank bags and the keyring nor the cells of a bag that
is not in a bag slot. -/
def locate (g : Guid) : Option Place :=
  w.locateTop me g 0 EQUIPMENT_SLOT_END
    <|> w.locateTop me g INVENTORY_SLOT_ITEM_START INVENTORY_SLOT_ITEM_END
    <|> w.locateTop me g INVENTORY_KEYRING_START INVENTORY_KEYRING_END
    <|> w.locateInBags me g INVENTORY_SLOT_BAG_START INVENTORY_SLOT_BAG_END
    <|> w.locateTop me g BANK_SLOT_ITEM_START BANK_SLOT_ITEM_END
    <|> w.locateInBags me g BANK_SLOT_BAG_START BANK_SLOT_BAG_END

/-- `SafeRemoveAndRetreiveItemByGuid`, and with the stat changes
`SafeRemoveAndRetreiveItemByGuidRemoveStats`. -/
def safeRemoveByGuid (g : Guid) : Option Guid × ItemWorld :=
  match w.locate me g with
  | none => (none, w)
  | some (.top _ i) => w.safeRemoveFromSlot me INVENTORY_SLOT_NOT_SET i
  | some (.cell b j) => w.containerSafeRemove b j

/-- `SafeFullRemoveItemByGuid`. -/
def safeFullRemoveByGuid (g : Guid) : Bool × ItemWorld :=
  match w.locate me g with
  | none => (false, w)
  | some (.top _ i) => w.safeFullRemoveFromSlot me INVENTORY_SLOT_NOT_SET i
  | some (.cell b j) =>
    match w.containerSafeFullRemove b j with
    | none => (false, w)
    | some w' => (true, w')

/-! ## Swapping -/

/-- `m_pOwner->SetUInt64Value(PLAYER_FIELD_INV_SLOT_HEAD + slot*2, ...)`
from what the slot now holds. -/
def syncField (p : Place) : ItemWorld :=
  { w with fields := Function.update w.fields p ((w.slots p).getD 0) }

/-- `m_pItems[slot] = item`. -/
def setTop (slot : Nat) (item : Option Guid) : ItemWorld :=
  { w with slots := Function.update w.slots (.top me slot) item }

/-- "Moving a bag with items to an empty bag slot": each item is taken
out under the old slot and put back under the new one. -/
def refillMovedBag (src : Guid) (srcslot dstslot : Nat) : ItemWorld :=
  (slotRange 0 (w.containerSlots src)).foldl (fun (w : ItemWorld) (j : Nat) =>
    let t := w.getItem src j
    let w := (w.safeRemoveFromSlot me srcslot j).2
    match t with
    | none => w
    | some t => (w.m_AddItem me t dstslot j).2) w

/-- "Swapping 2 bags filled with items": each pair of items is taken out
and put back. -/
def refillSwappedBags (src dst : Guid) (srcslot dstslot : Nat) : ItemWorld :=
  (slotRange 0 (max (w.containerSlots src) (w.containerSlots dst))).foldl
    (fun (w : ItemWorld) (j : Nat) =>
    let tSrc := (w.slots (.top me srcslot)).bind fun b => w.getItem b j
    let tDst := (w.slots (.top me dstslot)).bind fun b => w.getItem b j
    let w := if tSrc.isSome then (w.safeRemoveFromSlot me srcslot j).2 else w
    let w := if tDst.isSome then (w.safeRemoveFromSlot me dstslot j).2 else w
    let w := match tSrc with
      | none => w
      | some t => (w.containerAddItem dst j t).getD w
    match tDst with
    | none => w
    | some t => (w.containerAddItem src j t).getD w) w

/-- The refill when both slots hold a bag. -/
def refillExchanged (src : Guid) (dst : Option Guid) (srcslot dstslot : Nat) : ItemWorld :=
  match dst with
  | some dst =>
    if w.isContainer src ∧ w.isContainer dst then w.refillSwappedBags me src dst srcslot dstslot
    else w
  | none => w

/-- `if(slot < INVENTORY_SLOT_BAG_END)`: an item now equipped is bound. -/
def bindEquipped (slot : Nat) : ItemWorld :=
  if slot < INVENTORY_SLOT_BAG_END then
    match w.slots (.top me slot) with
    | some g => w.modify g Item.bindOnEquip
    | none => w
  else w

/-- The part of `SwapItemSlots` that exchanges the two slots. -/
def exchangeTops (src : Guid) (dst : Option Guid) (srcslot dstslot : Nat) : ItemWorld :=
  let w := w.setTop me dstslot (some src)
  let w := if dst.isNone ∧ w.isContainer src then w.refillMovedBag me src srcslot dstslot else w
  let w := w.setTop me srcslot dst
  let w := w.refillExchanged me src dst srcslot dstslot
  let w := w.syncField (.top me dstslot)
  let w := w.syncField (.top me srcslot)
  (w.bindEquipped me srcslot).bindEquipped me dstslot

/-- The three entries a game master in robes may equip. -/
def isRobe (g : Guid) : Bool :=
  (w.item g).entry = 12064 || (w.item g).entry = 2586 || (w.item g).entry = 11508

/-- `ItemInterface::SwapItemSlots`. `gmRobes` is the forced-robes setting
for a game master without the `az` permissions. An empty source slot is
dereferenced: undefined. -/
def swapItemSlots (gmRobes : Bool) (srcslot dstslot : Int) : Option ItemWorld :=
  if srcslot ≥ MAX_INVENTORY_SLOT ∨ srcslot < 0 then some w
  else if dstslot ≥ MAX_INVENTORY_SLOT ∨ dstslot < 0 then some w
  else
    match w.getInventoryItem me srcslot with
    | none => none
    | some src =>
      if gmRobes ∧ dstslot < INVENTORY_SLOT_BAG_END ∧ w.isRobe src = false then
        some ((w.addItemToFreeSlot me src).getD w)
      else
        let dst? := w.getInventoryItem me dstslot
        let exchanged := w.exchangeTops me src dst? srcslot.toNat dstslot.toNat
        match dst? with
        | none => some exchanged
        | some dst =>
          if (w.item src).entry = (w.item dst).entry ∧ (w.item src).proto.maxCount > 1 ∧
              (w.item src).wrappedItemId = 0 ∧ (w.item dst).wrappedItemId = 0 then
            let total := w.stackCount src + w.stackCount dst
            if total ≤ (w.item dst).proto.maxCount then
              let w := w.setStackCount dst (credit (w.stackCount dst) (w.stackCount src))
              some (w.safeFullRemoveFromSlot me INVENTORY_SLOT_NOT_SET srcslot).2
            else if w.stackCount dst = (w.item dst).proto.maxCount then some exchanged
            else some (w.fillStack src dst)
          else some exchanged

end ItemWorld

end HearthStone
