/-
HearthStone.Item.Item — item prototypes, items and the places that hold
them (`ItemPrototype.h`, `Item.h`, `Container.h`, `ItemInterface.h`).

* `Place` — a cell of some player's `m_pItems` or of some bag's `m_Slot`.
* `ItemWorld` — every item object under its GUID, what each place points
  to (`slots`) and the GUID field the client sees for it (`fields`:
  `PLAYER_FIELD_INV_SLOT_HEAD` and `CONTAINER_FIELD_SLOT_1`).
* `put`, `clear`, `modify` — the writes everything else is made of.

An item object and its pointer are its GUID; GUIDs of items are numbers
handed out in order, the zero of an empty field is none of them. Objects
are shared pointers in the code, so a destroyed item keeps its record
and loses its owner. Enchantments, durability, the visible-item fields,
the stat changes of `ApplyItemMods` and everything written to the
database or sent to the client are left out: no function below reads them.
-/
import HearthStone.Object.UnsignedValue
import Mathlib.Logic.Function.Basic

namespace HearthStone

/-- The GUID of an item, and the pointer to it. -/
abbrev Guid := Nat

/-! ## Slot numbers -/

def MAX_INVENTORY_SLOT : Nat := 118
def EQUIPMENT_SLOT_END : Nat := 19
def INVENTORY_SLOT_BAG_START : Nat := 19
def INVENTORY_SLOT_BAG_END : Nat := 23
def INVENTORY_SLOT_ITEM_START : Nat := 23
def INVENTORY_SLOT_ITEM_END : Nat := 39
def BANK_SLOT_ITEM_START : Nat := 39
def BANK_SLOT_ITEM_END : Nat := 67
def BANK_SLOT_BAG_START : Nat := 67
def BANK_SLOT_BAG_END : Nat := 74
def INVENTORY_KEYRING_START : Nat := 86
def INVENTORY_KEYRING_END : Nat := 118

/-- `INVENTORY_SLOT_NOT_SET` and `ITEM_NO_SLOT_AVAILABLE`. -/
def INVENTORY_SLOT_NOT_SET : Int := -1

/-- `for(i = a; i < b; i++)`. -/
def slotRange (a b : Nat) : List Nat := List.range' a (b - a)

theorem mem_slotRange {a b i : Nat} : i ∈ slotRange a b ↔ a ≤ i ∧ i < b := by
  unfold slotRange
  rw [List.mem_range'_1]
  omega

/-! ## Prototypes and items -/

def ITEM_FLAG_SOULBOUND : UInt32 := 0x1
def ITEM_FLAG_CONJURED : UInt32 := 0x2
def ITEM_FLAG_QUEST : UInt32 := 0x800
def ITEM_BIND_ON_PICKUP : UInt32 := 1
def ITEM_BIND_ON_EQUIP : UInt32 := 2
def ITEM_TYPE_KEYRING : UInt32 := 256

/-- `struct ItemPrototype`. A bag has at most as many cells as the client
has fields for, and a stack count is never read as negative. -/
structure ItemPrototype where
  itemId : UInt32
  itemClass : UInt32 := 0
  subClass : UInt32 := 0
  flags : UInt32 := 0
  inventoryType : UInt32 := 0
  allowableClass : UInt32 := 0
  allowableRace : UInt32 := 0
  requiredLevel : UInt32 := 0
  requiredSkill : UInt32 := 0
  requiredSkillRank : UInt32 := 0
  requiredSkillSubRank : UInt32 := 0
  requiredFaction : UInt32 := 0
  requiredFactionStanding : UInt32 := 0
  unique : UInt32 := 0
  maxCount : UInt32 := 1
  containerSlots : Nat := 0
  bonding : UInt32 := 0
  bagFamily : UInt32 := 0
  buyPrice : UInt32 := 0
  quality : UInt32 := 0
  itemLevel : UInt32 := 0
  /-- `lowercase_name`, in bytes -/
  lowercaseName : List UInt8 := []
  containerSlots_le : containerSlots ≤ 36 := by decide
  maxCount_lt : maxCount.toNat < 2 ^ 31 := by decide
  deriving DecidableEq

/-- A prototype that restricts nothing. -/
def ItemPrototype.plain (itemId : UInt32) : ItemPrototype := { itemId }

/-- An `Item`, or a `Container` when `isContainer`. A gift has the
prototype of its paper and an entry of its own. -/
structure Item where
  proto : ItemPrototype
  isContainer : Bool
  stackCount : UInt32
  flags : UInt32
  owner : Option PlayerGuid
  /-- `ITEM_FIELD_CONTAINED`: the GUID of the player or of the bag -/
  contained : Nat
  wrappedItemId : UInt32
  /-- `OBJECT_FIELD_ENTRY`, which `GetEntry()` reads -/
  entry : UInt32
  entry_eq : wrappedItemId = 0 → entry = proto.itemId
  deriving DecidableEq

namespace Item

def isSoulbound (it : Item) : Bool := it.flags &&& (ITEM_FLAG_QUEST ||| ITEM_FLAG_SOULBOUND) ≠ 0

def isConjured (it : Item) : Bool := it.flags &&& ITEM_FLAG_CONJURED ≠ 0

def soulBind (it : Item) : Item := { it with flags := it.flags ||| ITEM_FLAG_SOULBOUND }

/-- `if(Bonding == ITEM_BIND_ON_PICKUP) SoulBind()`. -/
def bindOnPickup (it : Item) : Item :=
  if it.proto.bonding = ITEM_BIND_ON_PICKUP then it.soulBind else it

/-- `if(Bonding == ITEM_BIND_ON_EQUIP) SoulBind()`. -/
def bindOnEquip (it : Item) : Item :=
  if it.proto.bonding = ITEM_BIND_ON_EQUIP then it.soulBind else it

end Item

/-! ## Places -/

inductive Place
  /-- `m_pItems[slot]` of a player -/
  | top (player : PlayerGuid) (slot : Nat)
  /-- `m_Slot[slot]` of a bag -/
  | cell (bag : Guid) (slot : Nat)
  deriving DecidableEq, Repr

/-- Every item and every place. -/
structure ItemWorld where
  item : Guid → Item
  slots : Place → Option Guid
  fields : Place → Nat
  nextGuid : Guid

namespace ItemWorld

/-- One of an item of this prototype, new and nobody's. -/
def newItem (proto : ItemPrototype) (isContainer : Bool) : Item :=
  ⟨proto, isContainer, 1, 0, none, 0, 0, proto.itemId, fun _ => rfl⟩

/-- No place holds anything, and no GUID has been handed out. -/
def empty : ItemWorld where
  item := fun _ => newItem (.plain 0) false
  slots := fun _ => none
  fields := fun _ => 0
  nextGuid := 1

/-- `GetProto()->ContainerSlots`. -/
def containerSlots (w : ItemWorld) (g : Guid) : Nat := (w.item g).proto.containerSlots

def isContainer (w : ItemWorld) (g : Guid) : Bool := (w.item g).isContainer

def modify (w : ItemWorld) (g : Guid) (f : Item → Item) : ItemWorld :=
  { w with item := Function.update w.item g (f (w.item g)) }

/-- The item goes to the place, and its GUID into the place's field. -/
def put (w : ItemWorld) (p : Place) (g : Guid) : ItemWorld :=
  { w with slots := Function.update w.slots p (some g), fields := Function.update w.fields p g }

/-- The place is emptied, its field set to zero. -/
def clear (w : ItemWorld) (p : Place) : ItemWorld :=
  { w with slots := Function.update w.slots p none, fields := Function.update w.fields p 0 }

/-- The place is emptied, its field left as it is. -/
def unlink (w : ItemWorld) (p : Place) : ItemWorld :=
  { w with slots := Function.update w.slots p none }

variable {w : ItemWorld} {p q : Place} {g g' : Guid} {f : Item → Item}

@[simp] theorem modify_slots : (w.modify g f).slots = w.slots := rfl
@[simp] theorem modify_fields : (w.modify g f).fields = w.fields := rfl
@[simp] theorem modify_nextGuid : (w.modify g f).nextGuid = w.nextGuid := rfl
@[simp] theorem put_item : (w.put p g).item = w.item := rfl
@[simp] theorem put_nextGuid : (w.put p g).nextGuid = w.nextGuid := rfl
@[simp] theorem clear_item : (w.clear p).item = w.item := rfl
@[simp] theorem clear_nextGuid : (w.clear p).nextGuid = w.nextGuid := rfl
@[simp] theorem unlink_item : (w.unlink p).item = w.item := rfl
@[simp] theorem unlink_fields : (w.unlink p).fields = w.fields := rfl

@[simp] theorem put_slots : (w.put p g).slots = Function.update w.slots p (some g) := rfl
@[simp] theorem put_fields : (w.put p g).fields = Function.update w.fields p g := rfl
@[simp] theorem clear_slots : (w.clear p).slots = Function.update w.slots p none := rfl
@[simp] theorem clear_fields : (w.clear p).fields = Function.update w.fields p 0 := rfl
@[simp] theorem unlink_slots : (w.unlink p).slots = Function.update w.slots p none := rfl

@[simp] theorem modify_item_self : (w.modify g f).item g = f (w.item g) := by simp [modify]

theorem modify_item_of_ne (h : g' ≠ g) : (w.modify g f).item g' = w.item g' := by
  simp [modify, h]

end ItemWorld

end HearthStone
