/-
HearthStone.Item.Container — the operations of a bag (`Container.cpp`,
`Container.h`) and the destruction of an item.

A bag `b` is the container object under the GUID `b`; its `m_Slot[i]` is
`slots (.cell b i)` and `CONTAINER_FIELD_SLOT_1 + 2 * i` is
`fields (.cell b i)`. Slot arguments are `int8` in the code and integers
here. A call that returns `false` has written nothing and is `none`.
`m_isDirty` and the pushes to the client are left out.
-/
import HearthStone.Item.Item

namespace HearthStone

namespace ItemWorld

/-- `Container::GetItem`. -/
def getItem (w : ItemWorld) (b : Guid) (slot : Int) : Option Guid :=
  if 0 ≤ slot ∧ slot < w.containerSlots b then w.slots (.cell b slot.toNat) else none

/-- `Container::FindFreeSlot`. -/
def findFreeSlot (w : ItemWorld) (b : Guid) : Int :=
  match (slotRange 0 (w.containerSlots b)).find? fun i => (w.slots (.cell b i)).isNone with
  | some i => i
  | none => INVENTORY_SLOT_NOT_SET

/-- `Container::HasItems`. -/
def hasItems (w : ItemWorld) (b : Guid) : Bool :=
  (slotRange 0 (w.containerSlots b)).any fun i => (w.slots (.cell b i)).isSome

/-- `Item::Destructor` and `Container::Destructor`: the owner is dropped,
and with a bag what it holds for the same owner. The first argument
bounds the depth of bags inside bags. -/
def destructorAux : Nat → ItemWorld → Guid → ItemWorld
  | 0, w, _ => w
  | fuel + 1, w, g =>
    let w :=
      if w.isContainer g then
        (slotRange 0 (w.containerSlots g)).foldl (fun w i =>
          match w.slots (.cell g i) with
          | none => w
          | some c =>
            if (w.item c).owner = (w.item g).owner
            then (destructorAux fuel w c).unlink (.cell g i) else w) w
      else w
    w.modify g fun it => { it with owner := none }

/-- `Destructor()` of an item. -/
def destructor (w : ItemWorld) (g : Guid) : ItemWorld := destructorAux (w.nextGuid + 1) w g

/-- The writes of `Container::AddItem` to the item itself. -/
def intoBag (w : ItemWorld) (b g : Guid) : ItemWorld :=
  w.modify g fun it => { it with contained := b, owner := (w.item b).owner }

/-- `Container::AddItem`. -/
def containerAddItem (w : ItemWorld) (b : Guid) (slot : Int) (g : Guid) : Option ItemWorld :=
  if slot < 0 ∨ slot ≥ w.containerSlots b then none
  else if (w.slots (.cell b slot.toNat)).isSome then none
  else if (w.item b).owner = none then none
  else some (((w.intoBag b g).modify g Item.bindOnPickup).put (.cell b slot.toNat) g)

/-- `Container::AddItemToFreeSlot`; the number is `*r_slot`. A bag without
an owner is dereferenced by the code and does not occur. -/
def containerAddItemToFreeSlot (w : ItemWorld) (b g : Guid) : Option (Nat × ItemWorld) :=
  match (slotRange 0 (w.containerSlots b)).find? fun i => (w.slots (.cell b i)).isNone with
  | none => none
  | some i => some (i, (w.intoBag b g).put (.cell b i) g)

/-- `Container::SafeRemoveAndRetreiveItemFromSlot`. The item of another
owner is unlinked and not returned. -/
def containerSafeRemove (w : ItemWorld) (b : Guid) (slot : Int) : Option Guid × ItemWorld :=
  if slot < 0 ∨ slot ≥ w.containerSlots b then (none, w)
  else
    let p := Place.cell b slot.toNat
    match w.slots p with
    | none => (none, w)
    | some g =>
      if g = b then (none, w)
      else if (w.item g).owner = (w.item b).owner then
        (some g, (w.clear p).modify g fun it => { it with contained := 0 })
      else (none, w.unlink p)

/-- `Container::SafeFullRemoveItemFromSlot`. -/
def containerSafeFullRemove (w : ItemWorld) (b : Guid) (slot : Int) : Option ItemWorld :=
  if slot < 0 ∨ slot ≥ w.containerSlots b then none
  else
    let p := Place.cell b slot.toNat
    match w.slots p with
    | none => none
    | some g =>
      if g = b then none
      else some (((w.clear p).modify g fun it => { it with contained := 0 }).destructor g)

/-! ## Stacks -/

/-- `GetUInt32Value(ITEM_FIELD_STACK_COUNT)`. -/
def stackCount (w : ItemWorld) (g : Guid) : UInt32 := (w.item g).stackCount

def setStackCount (w : ItemWorld) (g : Guid) (c : UInt32) : ItemWorld :=
  w.modify g fun it => { it with stackCount := c }

/-- The condition under which a move merges two stacks. -/
def stacksMerge (w : ItemWorld) (src dst : Guid) : Bool :=
  (w.item src).entry = (w.item dst).entry && (w.item src).wrappedItemId = 0 &&
    (w.item dst).wrappedItemId = 0 && (w.item dst).proto.maxCount > 1

/-- The branch that fills the destination stack up to its maximum:
`delta` moves from the source. -/
def fillStack (w : ItemWorld) (src dst : Guid) : ItemWorld :=
  let max := (w.item dst).proto.maxCount
  let delta := max - w.stackCount dst
  let w := w.setStackCount dst max
  w.setStackCount src (debit (w.stackCount src) delta)

/-- The two pointers of a bag exchanged, with their fields. -/
def exchangeCells (w : ItemWorld) (b : Guid) (src dst : Nat) : ItemWorld :=
  let s := w.slots (.cell b src)
  let d := w.slots (.cell b dst)
  let slots := Function.update (Function.update w.slots (.cell b src) d) (.cell b dst) s
  let w := { w with slots }
  let fields := Function.update w.fields (.cell b dst) ((slots (.cell b dst)).getD 0)
  { w with fields := Function.update fields (.cell b src) ((slots (.cell b src)).getD 0) }

/-- `Container::SwapItems`. -/
def containerSwapItems (w : ItemWorld) (b : Guid) (srcSlot dstSlot : Int) : ItemWorld :=
  if srcSlot < 0 ∨ srcSlot ≥ w.containerSlots b then w
  else if dstSlot < 0 ∨ dstSlot ≥ w.containerSlots b then w
  else
    let exchanged := w.exchangeCells b srcSlot.toNat dstSlot.toNat
    match w.slots (.cell b srcSlot.toNat), w.slots (.cell b dstSlot.toNat) with
    | some src, some dst =>
      if w.stacksMerge src dst then
        let total := w.stackCount src + w.stackCount dst
        if total ≤ (w.item dst).proto.maxCount then
          let w := w.setStackCount dst (credit (w.stackCount dst) (w.stackCount src))
          (w.containerSafeFullRemove b srcSlot).getD w
        else if w.stackCount dst = (w.item dst).proto.maxCount then exchanged
        else w.fillStack src dst
      else exchanged
    | _, _ => exchanged

end ItemWorld

end HearthStone
