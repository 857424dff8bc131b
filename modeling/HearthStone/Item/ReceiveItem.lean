/-
HearthStone.Item.ReceiveItem — what is looked up before an item comes to
a player (`ItemInterface.cpp`).

* `findItemLessMax` — the first stack of an entry with room for some more.
* `canReceiveItem` — the limit on how many of an item one may have.

The comparison with `MaxCount` is one of 32-bit sums, as is the one with
`Unique`. Slots are asked for the entry and cells for the prototype; that
is the code's.
-/
import HearthStone.Item.RemoveItem
import HearthStone.Item.ItemInterfaceTheorems

namespace HearthStone

open Lib

def INV_ERR_BAG_FULL : UInt8 := 4
def INV_ERR_CANT_CARRY_MORE_OF_THIS : UInt8 := 17
def INV_ERR_INVENTORY_FULL : UInt8 := 50

namespace ItemWorld

section

variable (w : ItemWorld) (me : PlayerGuid)

/-- `MaxCount >= ITEM_FIELD_STACK_COUNT + cnt`. -/
def stackHasRoom (g : Guid) (cnt : UInt32) : Bool :=
  (w.item g).proto.maxCount ≥ w.stackCount g + cnt

/-- The loop of `FindItemLessMax` over the slots of a range. -/
def findTop (test : Item → Bool) (cnt : UInt32) (a b : Nat) : Option Guid :=
  (slotRange a b).findSome? fun (i : Nat) =>
    match w.getInventoryItem me i with
    | none => none
    | some g => if test (w.item g) && w.stackHasRoom g cnt then some g else none

/-- The loop over the cells of the bags in a range. -/
def findCell (test : Item → Bool) (cnt : UInt32) (a b : Nat) : Option Guid :=
  (slotRange a b).findSome? fun (i : Nat) =>
    match w.getInventoryItem me i with
    | none => none
    | some bag =>
      if w.isContainer bag then
        (slotRange 0 (w.containerSlots bag)).findSome? fun (j : Nat) =>
          match w.getItem bag j with
          | none => none
          | some g => if test (w.item g) && w.stackHasRoom g cnt then some g else none
      else none

/-- `FindItemLessMax`. -/
def findItemLessMax (itemid cnt : UInt32) (incBank : Bool) : Option Guid :=
  let inBank :=
    if incBank then
      w.findTop me (·.isEntry itemid) cnt BANK_SLOT_ITEM_START BANK_SLOT_ITEM_END
        <|> w.findCell me (·.isProto itemid) cnt BANK_SLOT_BAG_START BANK_SLOT_BAG_END
    else none
  w.findTop me (·.isEntry itemid) cnt INVENTORY_SLOT_ITEM_START INVENTORY_SLOT_ITEM_END
    <|> w.findCell me (·.isProto itemid) cnt INVENTORY_SLOT_BAG_START INVENTORY_SLOT_BAG_END
    <|> inBank

/-- `CanReceiveItem`, for a prototype that exists. -/
def canReceiveItem (proto : ItemPrototype) (amount : UInt32) : UInt8 :=
  if proto.unique ≠ 0 then
    let count := w.getItemCount me proto.itemId true
    if count = proto.unique ∨ count + amount > proto.unique then INV_ERR_CANT_CARRY_MORE_OF_THIS
    else 0
  else 0

end

variable {w : ItemWorld} {me : PlayerGuid} {g : Guid} {id cnt : UInt32} {test : Item → Bool}
  {a b : Nat}

/-- An item of the player's, of the entry, with room for `cnt` more. -/
structure LessMax (w : ItemWorld) (me : PlayerGuid) (id cnt : UInt32) (g : Guid) : Prop where
  held : ∃ p, w.PlaceOf me p ∧ w.slots p = some g
  entry : (w.item g).isEntry id = true
  room : w.stackCount g + cnt ≤ (w.item g).proto.maxCount

theorem findTop_slot (h : w.findTop me test cnt a b = some g) :
    ∃ i, a ≤ i ∧ i < b ∧ w.slots (.top me i) = some g ∧ test (w.item g) = true ∧
      w.stackHasRoom g cnt = true := by
  obtain ⟨i, ha, hb, hi⟩ := findSome_slotRange h
  split at hi
  · cases hi
  · rename_i x hx
    split at hi
    · rename_i hboth
      cases hi
      rw [Bool.and_eq_true] at hboth
      obtain ⟨-, hslot⟩ := getInventoryItem_eq_some hx
      exact ⟨i, ha, hb, hslot, hboth⟩
    · cases hi

theorem findCell_slot (h : w.findCell me test cnt a b = some g) :
    ∃ i bag j, w.slots (.top me i) = some bag ∧ w.isContainer bag = true ∧
      j < w.containerSlots bag ∧ w.slots (.cell bag j) = some g ∧ test (w.item g) = true ∧
      w.stackHasRoom g cnt = true := by
  obtain ⟨i, -, -, hi⟩ := findSome_slotRange h
  split at hi
  · cases hi
  · rename_i bag hbag
    split at hi
    · rename_i hcont
      obtain ⟨j, -, hj, hcell⟩ := findSome_slotRange hi
      split at hcell
      · cases hcell
      · rename_i x hx
        split at hcell
        · rename_i hboth
          cases hcell
          rw [Bool.and_eq_true] at hboth
          obtain ⟨-, hslot⟩ := getInventoryItem_eq_some hbag
          rw [getItem_of_lt hj] at hx
          exact ⟨i, bag, j, hslot, hcont, hj, hx, hboth⟩
        · cases hcell
    · cases hi

theorem findTop_spec (hw : w.Orderly) (htest : ∀ it : Item, test it = it.isEntry id)
    (h : w.findTop me test cnt a b = some g) : w.LessMax me id cnt g := by
  obtain ⟨i, -, -, hslot, hentry, hroom⟩ := findTop_slot h
  rw [htest] at hentry
  exact ⟨⟨_, .top i (hw.topRange me i g hslot), hslot⟩, hentry, of_decide_eq_true hroom⟩

theorem findCell_spec (htest : ∀ it : Item, test it = it.isEntry id)
    (h : w.findCell me test cnt a b = some g) : w.LessMax me id cnt g := by
  obtain ⟨i, bag, j, htop, hcont, hj, hslot, hentry, hroom⟩ := findCell_slot h
  rw [htest] at hentry
  exact ⟨⟨_, .cell i bag j htop hcont hj, hslot⟩, hentry, of_decide_eq_true hroom⟩

/-- The stack that is found without the bank is in the backpack or in a
bag. -/
theorem findItemLessMax_cases (h : w.findItemLessMax me id cnt false = some g) :
    w.findTop me (·.isEntry id) cnt INVENTORY_SLOT_ITEM_START INVENTORY_SLOT_ITEM_END = some g ∨
      w.findCell me (·.isProto id) cnt INVENTORY_SLOT_BAG_START INVENTORY_SLOT_BAG_END =
        some g := by
  unfold findItemLessMax at h
  rw [if_neg Bool.false_ne_true] at h
  simp only [Option.orElse_eq_orElse, Option.orElse_eq_or, Option.or_eq_some_iff] at h
  rcases h with htop | ⟨-, hcell | ⟨-, hbank⟩⟩
  · exact Or.inl htop
  · exact Or.inr hcell
  · cases hbank

/-- What `FindItemLessMax` finds. -/
theorem findItemLessMax_spec (hw : w.Orderly)
    (h : w.findItemLessMax me id cnt false = some g) : w.LessMax me id cnt g := by
  rcases findItemLessMax_cases h with htop | hcell
  · exact findTop_spec hw (fun _ => rfl) htop
  · exact findCell_spec (Item.isProto_eq id) hcell

end ItemWorld

end HearthStone
