/-
HearthStone.Vendor.BuyItemOpcode — buying from a vendor
(`WorldSession::HandleBuyItemInSlotOpcode` and `HandleBuyItemOpcode`,
`ItemHandler.cpp`).

Either handler makes its checks, brings the item into the inventory and
then calls `BuyItem`. The checks write nothing; they are functions of
their own here.

* `getSellItemByItemId`, `modAvItemAmount` — what the vendor has.
* `getBagSlotByGuid` — the slot a bag is in.
* `buyInSlotChecks`, `dropInSlot`, `handleBuyItemInSlotOpcode` — by
  dragging the item to a place, or to a bag.
* `buyChecks`, `stow`, `handleBuyItemOpcode` — by clicking on it.

`bag` is the GUID of the packet, none when its upper half is zero. The
slot in the packet of a click is read and not used. The interrupted
spell, the timer that restocks, what is sent besides the answer and the
saving to the database are left out.
-/
import HearthStone.Mail.SendMail
import HearthStone.Vendor.BuyBackOpcode

namespace HearthStone

def INV_ERR_ITEM_DOESNT_GO_TO_SLOT : UInt8 := 3
def INV_ERR_ITEM_CANT_STACK : UInt8 := 19
def INV_ERR_ITEM_NOT_FOUND : UInt8 := 23
def INV_ERR_DONT_OWN_THAT_ITEM : UInt8 := 32
def INV_ERR_ITEM_IS_CURRENTLY_SOLD_OUT : UInt8 := 52

/-- `struct CreatureItem`. -/
structure CreatureItem where
  itemid : UInt32
  /-- the units sold at once -/
  amount : UInt32
  available_amount : UInt32
  max_amount : UInt32
  extended_cost : Option ItemExtendedCostEntry

/-- A creature that sells: its `m_SellItems`, and its prices. -/
structure Seller where
  sellItems : List CreatureItem
  prices : Vendor

namespace Seller

/-- `GetSellItemByItemId`; an entry of zero is taken for none. -/
def getSellItemByItemId (unit : Seller) (itemid : UInt32) : Option CreatureItem :=
  (unit.sellItems.find? (·.itemid = itemid)).filter (·.itemid ≠ 0)

/-- `ModAvItemAmount`, on the first entry for the item. -/
def modAvItemAmount (itemid value : UInt32) : List CreatureItem → List CreatureItem
  | [] => []
  | ci :: items =>
    if ci.itemid = itemid then
      if ci.available_amount ≠ 0 then
        if value > ci.available_amount then { ci with available_amount := 0 } :: items
        else { ci with available_amount := ci.available_amount - value } :: items
      else ci :: items
    else ci :: modAvItemAmount itemid value items

end Seller

/-- `ItemPrototypeStorage`. -/
structure ItemPrototypes where
  lookupEntry : UInt32 → Option ItemPrototype
  itemId_eq : ∀ id it, lookupEntry id = some it → it.itemId = id

/-- The answer to a request. -/
inductive BuyAnswer
  | nothing
  | inventoryError (error : UInt8)
  /-- `SMSG_BUY_FAILED` -/
  | buyFailed (itemid : UInt32) (error : UInt8)
  /-- `SMSG_BUY_ITEM` -/
  | bought (itemid amount : UInt32)
  deriving DecidableEq

/-- The call of `BuyItem`, and the items of the player at that time. -/
structure BuyCall where
  world : ItemWorld
  it : ItemPrototype
  amount : UInt8
  ci : CreatureItem

/-- What a request comes to. -/
structure Purchase where
  answer : BuyAnswer
  customer : Customer
  sellItems : List CreatureItem
  call : Option BuyCall

namespace ItemWorld

variable (w : ItemWorld) (me : PlayerGuid)

/-- `GetBagSlotByGuid`: the slot the item is in, or the slot of the bag
that it is in. -/
def getBagSlotByGuid (g : Guid) : Int :=
  let tops := slotRange EQUIPMENT_SLOT_START INVENTORY_SLOT_ITEM_END ++
    slotRange INVENTORY_KEYRING_START INVENTORY_KEYRING_END
  match tops.find? fun i => w.slots (.top me i) = some g with
  | some i => i
  | none =>
    let bags := slotRange INVENTORY_SLOT_BAG_START INVENTORY_SLOT_BAG_END
    let holds (i : Nat) : Bool :=
      match w.slots (.top me i) with
      | none => false
      | some b => w.isContainer b &&
          (slotRange 0 (w.containerSlots b)).any fun (j : Nat) => w.getItem b j = some g
    match bags.find? holds with
    | some i => i
    | none => INVENTORY_SLOT_NOT_SET

/-! ## To a place -/

/-- The slots the item is dragged to. The limit of a bag is compared as an
unsigned number. -/
def dragTarget (bag : Option Guid) (slot : Int) : Except BuyAnswer (Int × Int) :=
  match bag with
  | none =>
    if slot ≠ INVENTORY_SLOT_NOT_SET then
      if slot > INVENTORY_SLOT_ITEM_END ∨ slot < INVENTORY_SLOT_ITEM_START
      then .error (.inventoryError INV_ERR_ITEM_DOESNT_GO_TO_SLOT)
      else .ok (INVENTORY_SLOT_NOT_SET, slot)
    else .ok (INVENTORY_SLOT_NOT_SET, w.findFreeBackPackSlot me)
  | some bag =>
    match w.getItemByGUID me bag with
    | none =>
      if slot ≠ INVENTORY_SLOT_NOT_SET then .error .nothing
      else .error (.inventoryError INV_ERR_ITEM_NOT_FOUND)
    | some c =>
      let bagslot := w.getBagSlotByGuid me bag
      if slot ≠ INVENTORY_SLOT_NOT_SET then
        if bagslot = INVENTORY_SLOT_NOT_SET ∨ slot < 0 ∨ slot > w.containerSlots c
        then .error (.inventoryError INV_ERR_ITEM_DOESNT_GO_TO_SLOT)
        else .ok (bagslot, slot)
      else .ok (bagslot, w.findFreeSlot c)

/-- Some units go onto what is at the slots, or there as a new item. -/
def dropInSlot (it : ItemPrototype) (count_per_stack : UInt32) (bagslot slot : Int) :
    Except (BuyAnswer × ItemWorld) ItemWorld :=
  match w.getInventoryItemIn me bagslot slot with
  | some oldItem =>
    if (w.item oldItem).wrappedItemId ≠ 0 then
      .error (.inventoryError INV_ERR_CANT_CARRY_MORE_OF_THIS, w)
    else if (w.item oldItem).proto ≠ it ∨ (w.item oldItem).wrappedItemId ≠ 0 then
      .error (.inventoryError INV_ERR_ITEM_DOESNT_GO_TO_SLOT, w)
    else if w.stackCount oldItem + count_per_stack > it.maxCount then
      .error (.inventoryError INV_ERR_CANT_CARRY_MORE_OF_THIS, w)
    else .ok (w.setStackCount oldItem (credit (w.stackCount oldItem) count_per_stack))
  | none =>
    let pItem := w.nextGuid
    let w := w.createItem me it count_per_stack
    match w.tryAddItem me pItem bagslot slot with
    | some w => .ok w
    | none => .error (.nothing, w.destructor pItem)

/-! ## To any place -/

/-- A new item goes to the slots of a search. Whether it got there is not
looked at afterwards. -/
def placeNew (it : ItemPrototype) (units : UInt32) (r : SlotResult) : ItemWorld :=
  let itm := w.nextGuid
  let w := w.createItem me it (if units ≤ it.maxCount then units else it.maxCount)
  if r.containerSlot = INVENTORY_SLOT_NOT_SET then
    match w.tryAddItem me itm INVENTORY_SLOT_NOT_SET r.slot with
    | some w => w
    | none => w.destructor itm
  else
    match w.getInventoryItem me r.containerSlot with
    | none => w
    | some bag =>
      match w.containerAddItem bag r.slot itm with
      | some w => w
      | none => w.destructor itm

/-- Some units go onto a stack with room, or to a free slot. -/
def stow (it : ItemPrototype) (itemid units : UInt32) : Option ItemWorld :=
  match w.findItemLessMax me itemid units false with
  | some add => some (w.setStackCount add (credit (w.stackCount add) units))
  | none => (w.findFreeInventorySlot me it).map (w.placeNew me it units)

end ItemWorld

namespace Customer

section

variable (s : Customer) (me : PlayerGuid) (storage : ItemPrototypes) (unit : Seller)
  (itemid : UInt32)

/-- `if( amount < 1 ) amount = 1`. -/
def atLeastOne (amount : UInt8) : UInt8 := if amount < 1 then 1 else amount

/-- Nothing is bought. -/
def refuse (answer : BuyAnswer) : Purchase := ⟨answer, s, unit.sellItems, none⟩

/-- `BuyItem` with the item in the inventory. -/
def settle (call : BuyCall) (answer : BuyAnswer) (limited : Bool) : Purchase where
  answer := answer
  customer := { s with world := call.world }.buyItem me call.it call.amount.toUInt32
    (some unit.prices) call.ci.extended_cost
  sellItems :=
    if limited then
      Seller.modAvItemAmount call.ci.itemid (call.ci.amount * call.amount.toUInt32) unit.sellItems
    else unit.sellItems
  call := some call

/-- The checks of `HandleBuyItemInSlotOpcode`; the last is the one on the
slot. -/
def buyInSlotChecks (amount : UInt8) (bag : Option Guid) (slot : Int32) :
    Except BuyAnswer (CreatureItem × ItemPrototype × Int × Int) :=
  match unit.getSellItemByItemId itemid with
  | none => .error .nothing
  | some ci =>
    if ci.max_amount > 0 ∧ ci.available_amount < amount.toUInt32 then
      .error (.inventoryError INV_ERR_ITEM_IS_CURRENTLY_SOLD_OUT)
    else
      match storage.lookupEntry itemid with
      | none => .error .nothing
      | some it =>
        if it.maxCount > 0 ∧ ci.amount * amount.toUInt32 > it.maxCount then
          .error (.inventoryError INV_ERR_CANT_CARRY_MORE_OF_THIS)
        else
          match s.world.dragTarget me bag slot.toInt with
          | .error answer => .error answer
          | .ok (bagslot, slot) =>
            let error := s.world.canReceiveItem me it amount.toUInt32
            if error ≠ 0 then .error (.inventoryError error)
            else
              let error := s.canAffordItem me it amount.toUInt32 (some unit.prices) ci.extended_cost
              if error ≠ 0 then .error (.buyFailed ci.itemid error)
              else if slot = INVENTORY_SLOT_NOT_SET then
                .error (.inventoryError INV_ERR_BAG_FULL)
              else .ok (ci, it, bagslot, slot)

/-- `HandleBuyItemInSlotOpcode`. -/
def handleBuyItemInSlotOpcode (bag : Option Guid) (amount : UInt8) (slot : Int32) : Purchase :=
  let amount := atLeastOne amount
  match s.buyInSlotChecks me storage unit itemid amount bag slot with
  | .error answer => s.refuse unit answer
  | .ok (ci, it, bagslot, slot) =>
    match s.world.dropInSlot me it (ci.amount * amount.toUInt32) bagslot slot with
    | .error (answer, world) => { s with world }.refuse unit answer
    | .ok world =>
      s.settle me unit ⟨world, it, amount, ci⟩ (.bought itemid amount.toUInt32)
        (ci.max_amount ≠ 0)

/-- The checks of `HandleBuyItemOpcode`. -/
def buyChecks (amount : UInt8) : Except BuyAnswer (CreatureItem × ItemPrototype) :=
  if unit.sellItems = [] then .error .nothing
  else
    match unit.getSellItemByItemId itemid with
    | none => .error (.inventoryError INV_ERR_DONT_OWN_THAT_ITEM)
    | some item =>
      if item.max_amount > 0 ∧ item.available_amount < amount.toUInt32 then
        .error (.inventoryError INV_ERR_ITEM_IS_CURRENTLY_SOLD_OUT)
      else
        match storage.lookupEntry itemid with
        | none => .error (.inventoryError INV_ERR_DONT_OWN_THAT_ITEM)
        | some it =>
          if amount.toUInt32 > it.maxCount then .error (.inventoryError INV_ERR_ITEM_CANT_STACK)
          else
            let error := s.world.canReceiveItem me it (amount.toUInt32 * item.amount)
            if error ≠ 0 then .error (.inventoryError error)
            else
              let error :=
                s.canAffordItem me it amount.toUInt32 (some unit.prices) item.extended_cost
              if error ≠ 0 then .error (.buyFailed itemid error) else .ok (item, it)

/-- `HandleBuyItemOpcode`. -/
def handleBuyItemOpcode (amount : UInt8) : Purchase :=
  let amount := atLeastOne amount
  match s.buyChecks me storage unit itemid amount with
  | .error answer => s.refuse unit answer
  | .ok (item, it) =>
    let units := amount.toUInt32 * item.amount
    match s.world.stow me it itemid units with
    | none => s.refuse unit (.inventoryError INV_ERR_INVENTORY_FULL)
    | some world =>
      s.settle me unit ⟨world, it, amount, item⟩ (.bought itemid units)
        (item.max_amount.toInt32 > 0)

end

end Customer

end HearthStone
