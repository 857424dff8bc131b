/-
HearthStone.Item.NewItem — items that come into being.

`createItem` makes an item under the next GUID, at no place. It touches
none, so a world that is orderly stays so.
-/
import HearthStone.Item.FreeSlot

namespace HearthStone

open Lib

def INVTYPE_BAG : UInt32 := 0x12

namespace ItemWorld

variable (w : ItemWorld) (me : PlayerGuid)

/-- `ObjectMgr::CreateItem`, with the stack it is given at once. -/
def createItem (proto : ItemPrototype) (stackCount : UInt32) : ItemWorld :=
  { w with
    item := Function.update w.item w.nextGuid
      { newItem proto (decide (proto.inventoryType = INVTYPE_BAG)) with
        stackCount, owner := some me, contained := me.val.toNat }
    nextGuid := w.nextGuid + 1 }

variable {w : ItemWorld} {me : PlayerGuid} {w' : ItemWorld} {g x : Guid} {n : UInt32}

theorem createItem_item_of_ne {proto : ItemPrototype} (h : x ≠ w.nextGuid) :
    (w.createItem me proto n).item x = w.item x := Function.update_of_ne h _ _

theorem createItem_orderly {proto : ItemPrototype} (hw : w.Orderly)
    (hnew : ¬ Placed w.slots w.nextGuid) : (w.createItem me proto n).Orderly := by
  have hitem : ∀ x, Placed w.slots x → (w.createItem me proto n).item x = w.item x := by
    intro x hx
    refine createItem_item_of_ne ?_
    rintro rfl
    exact hnew hx
  refine hw.congr rfl rfl ?_ ?_ ?_
  · intro x hx
    rw [hitem x hx]
  · intro x hx
    rw [hitem x hx]
  · intro x hx
    rw [hitem x hx]

end ItemWorld

end HearthStone
