/-
HearthStone.Item.FreeSlot — when `AddItemToFreeSlot` finds a place.

`HasRoom` says it of the player's places alone: a free slot of the
keyring or a free cell of a bag of the item's family, a free slot of the
backpack, a free cell of an ordinary bag. For an item that is nowhere
the insertion succeeds exactly then (`addItemToFreeSlot_iff`): an empty
place that a search proposes is never refused.
-/
import HearthStone.Item.SwapTheorems

namespace HearthStone

open Lib

namespace ItemWorld

variable {w w' : ItemWorld} {me : PlayerGuid} {g b : Guid}

/-- A slot of the range is empty. -/
def TopRoom (w : ItemWorld) (me : PlayerGuid) (a c : Nat) : Prop :=
  ∃ s, a ≤ s ∧ s < c ∧ w.slots (.top me s) = none

/-- A bag in the slots for bags that passes the test has an empty cell. -/
def CellRoom (w : ItemWorld) (me : PlayerGuid) (family : UInt32 → Bool) : Prop :=
  ∃ i b j, INVENTORY_SLOT_BAG_START ≤ i ∧ i < INVENTORY_SLOT_BAG_END ∧
    w.bagAt me i family = some b ∧ j < w.containerSlots b ∧ w.slots (.cell b j) = none

/-- Some place of the player takes the item. -/
def HasRoom (w : ItemWorld) (me : PlayerGuid) (g : Guid) : Prop :=
  ((w.item g).proto.bagFamily ≠ 0 ∧
    if (w.item g).proto.bagFamily &&& ITEM_TYPE_KEYRING ≠ 0
    then w.TopRoom me INVENTORY_KEYRING_START INVENTORY_KEYRING_END
    else w.CellRoom me (· = (w.item g).proto.bagFamily)) ∨
  w.TopRoom me INVENTORY_SLOT_ITEM_START INVENTORY_SLOT_ITEM_END ∨ w.CellRoom me (· = 0)

/-! ## An empty place takes an item that is nowhere -/

theorem tryAddItem_top_eq {s : Nat} (hs : s < MAX_INVENTORY_SLOT)
    (hempty : w.slots (.top me s) = none) (hg : ¬ Placed w.slots g) :
    w.tryAddItem me g INVENTORY_SLOT_NOT_SET s = some (w.intoTop me s g) := by
  have hitem : w.getInventoryItem me s = none := by
    rw [getInventoryItem_of hs, hempty]
  unfold tryAddItem m_AddItem
  rw [if_neg (by omega), if_neg (by unfold INVENTORY_SLOT_NOT_SET; omega)]
  rw [if_neg (by omega)]
  dsimp only
  rw [inInventory_of_not_placed hg, if_neg (by simp)]
  unfold addItemAt
  rw [if_pos rfl, usedSlot_of_empty hitem]
  dsimp only
  rw [hitem]
  rfl

theorem tryAddItem_top {s : Nat} (hs : s < MAX_INVENTORY_SLOT)
    (hempty : w.slots (.top me s) = none) (hg : ¬ Placed w.slots g) :
    (w.tryAddItem me g INVENTORY_SLOT_NOT_SET s).isSome = true := by
  rw [tryAddItem_top_eq hs hempty hg]
  rfl

theorem containerAddItem_some {s i : Nat} (hw : w.Orderly) (htop : w.slots (.top me s) = some b)
    (hi : i < w.containerSlots b) (hempty : w.slots (.cell b i) = none) :
    ∃ u, w.containerAddItem b i g = some u := by
  unfold containerAddItem
  rw [if_neg (by omega), Int.toNat_natCast, hempty, if_neg (by simp),
    hw.topOwner me s b htop, if_neg (by simp)]
  exact ⟨_, rfl⟩

theorem tryAddItem_cell_eq {s i : Nat} (hw : w.Orderly) (htop : w.slots (.top me s) = some b)
    (hcont : w.isContainer b = true) (hi : i < w.containerSlots b) (hg : ¬ Placed w.slots g)
    (hadd : w.containerAddItem b i g = some w') : w.tryAddItem me g s i = some w' := by
  unfold tryAddItem
  rw [m_AddItem_cell (hw.topRange me s b htop) htop hcont hi hg hadd]

theorem tryAddItem_cell {s i : Nat} (hw : w.Orderly) (htop : w.slots (.top me s) = some b)
    (hcont : w.isContainer b = true) (hi : i < w.containerSlots b)
    (hempty : w.slots (.cell b i) = none) (hg : ¬ Placed w.slots g) :
    (w.tryAddItem me g s i).isSome = true := by
  obtain ⟨u, hadd⟩ := containerAddItem_some (g := g) hw htop hi hempty
  rw [tryAddItem_cell_eq hw htop hcont hi hg hadd]
  rfl

theorem containerAddItemToFreeSlot_isSome {j : Nat} (hj : j < w.containerSlots b)
    (hempty : w.slots (.cell b j) = none) :
    (w.containerAddItemToFreeSlot b g).isSome = true := by
  unfold containerAddItemToFreeSlot
  split
  · rename_i hnone
    have hno := List.find?_eq_none.1 hnone j (mem_slotRange.2 ⟨by omega, hj⟩)
    simp [hempty] at hno
  · rfl

/-! ## The search and the room -/

/-- A first success exists when some index of the range gives one. -/
theorem findSome_slotRange_isSome {α : Type} {a c i : Nat} {f : Nat → Option α} (ha : a ≤ i)
    (hc : i < c) (hi : (f i).isSome = true) : ((slotRange a c).findSome? f).isSome = true := by
  rw [List.findSome?_isSome_iff]
  exact ⟨i, mem_slotRange.2 ⟨ha, hc⟩, hi⟩

theorem addInto_iff {a c : Nat} (hc : c ≤ MAX_INVENTORY_SLOT) (hg : ¬ Placed w.slots g) :
    ((slotRange a c).findSome? fun (i : Nat) =>
        if (w.slots (.top me i)).isNone then w.tryAddItem me g INVENTORY_SLOT_NOT_SET i
        else none).isSome = true ↔ w.TopRoom me a c := by
  constructor
  · intro h
    obtain ⟨v, hv⟩ := Option.isSome_iff_exists.1 h
    obtain ⟨i, ha, hlt, hi⟩ := findSome_slotRange hv
    split at hi
    · rename_i hempty
      exact ⟨i, ha, hlt, Option.isNone_iff_eq_none.1 hempty⟩
    · cases hi
  · rintro ⟨s, ha, hlt, hempty⟩
    refine findSome_slotRange_isSome ha hlt ?_
    rw [if_pos (by simp [hempty])]
    exact tryAddItem_top (by omega) hempty hg

theorem specialBags_iff (hw : w.Orderly) {family : UInt32 → Bool} :
    ((slotRange INVENTORY_SLOT_BAG_START INVENTORY_SLOT_BAG_END).findSome? fun i =>
        match w.bagAt me i family with
        | none => none
        | some b => (w.containerAddItemToFreeSlot b g).map Prod.snd).isSome = true ↔
      w.CellRoom me family := by
  constructor
  · intro h
    obtain ⟨v, hv⟩ := Option.isSome_iff_exists.1 h
    obtain ⟨i, ha, hlt, hi⟩ := findSome_slotRange hv
    split at hi
    · cases hi
    · rename_i b hb
      obtain ⟨htop, hcont, -⟩ := bagAt_spec hb
      obtain ⟨r, hr, rfl⟩ := Option.map_eq_some_iff.1 hi
      have hadds := containerAddItemToFreeSlot_spec hw htop hcont hr
      cases hadds.place with
      | cell _ _ _ _ _ hj => exact ⟨i, b, r.1, ha, hlt, hb, hj, hadds.empty⟩
  · rintro ⟨i, b, j, ha, hlt, hb, hj, hempty⟩
    refine findSome_slotRange_isSome ha hlt ?_
    rw [hb]
    rw [Option.isSome_map]
    exact containerAddItemToFreeSlot_isSome hj hempty

theorem ordinaryBags_iff (hw : w.Orderly) (hg : ¬ Placed w.slots g) :
    ((slotRange INVENTORY_SLOT_BAG_START INVENTORY_SLOT_BAG_END).findSome? fun (i : Nat) =>
        match w.bagAt me i (· = 0) with
        | none => none
        | some b => (slotRange 0 (w.containerSlots b)).findSome? fun (j : Nat) =>
            if (w.getItem b j).isNone then w.tryAddItem me g i j else none).isSome = true ↔
      w.CellRoom me (· = 0) := by
  constructor
  · intro h
    obtain ⟨v, hv⟩ := Option.isSome_iff_exists.1 h
    obtain ⟨i, ha, hlt, hi⟩ := findSome_slotRange hv
    split at hi
    · cases hi
    · rename_i b hb
      obtain ⟨j, -, hj, hadd⟩ := findSome_slotRange hi
      split at hadd
      · rename_i hempty
        rw [getItem_of_lt hj] at hempty
        exact ⟨i, b, j, ha, hlt, hb, hj, Option.isNone_iff_eq_none.1 hempty⟩
      · cases hadd
  · rintro ⟨i, b, j, ha, hlt, hb, hj, hempty⟩
    obtain ⟨htop, hcont, -⟩ := bagAt_spec hb
    refine findSome_slotRange_isSome ha hlt ?_
    rw [hb]
    refine findSome_slotRange_isSome (Nat.zero_le j) hj ?_
    rw [getItem_of_lt hj, if_pos (by simp [hempty])]
    exact tryAddItem_cell hw htop hcont hj hempty hg

/-- The insertion of an item that is nowhere succeeds exactly when the
player has room. -/
theorem addItemToFreeSlot_iff (hw : w.Orderly) (hg : ¬ Placed w.slots g) :
    (w.addItemToFreeSlot me g).isSome = true ↔ w.HasRoom me g := by
  unfold addItemToFreeSlot HasRoom
  simp only [Option.orElse_eq_orElse, Option.orElse_eq_or, Option.isSome_or, Bool.or_eq_true]
  refine or_congr ?_ (or_congr (addInto_iff (by decide) hg) (ordinaryBags_iff hw hg))
  by_cases hfamily : (w.item g).proto.bagFamily = 0
  · simp [hfamily]
  · rw [if_neg hfamily, and_iff_right hfamily]
    split
    · exact addInto_iff (by decide) hg
    · exact specialBags_iff hw

/-! ## Room is a matter of the player's own places -/

/-- The slots of the player and the cells of the bags in them. -/
structure SameRoom (w w' : ItemWorld) (me : PlayerGuid) : Prop where
  tops : ∀ s, w'.slots (.top me s) = w.slots (.top me s)
  cells : ∀ s b, w.slots (.top me s) = some b → ∀ j, w'.slots (.cell b j) = w.slots (.cell b j)
  kind : ∀ x, (w'.item x).SameKind (w.item x)

theorem SameRoom.bagAt (h : w.SameRoom w' me) (i : Nat) (family : UInt32 → Bool) :
    w'.bagAt me i family = w.bagAt me i family := by
  unfold ItemWorld.bagAt
  rw [h.tops]
  cases w.slots (.top me i) with
  | none => rfl
  | some b =>
    dsimp only
    unfold isContainer
    rw [(h.kind b).isContainer, (h.kind b).proto]

theorem SameRoom.cellRoom (h : w.SameRoom w' me) (family : UInt32 → Bool) :
    w'.CellRoom me family ↔ w.CellRoom me family := by
  unfold CellRoom
  simp only [h.bagAt]
  refine exists_congr fun i => exists_congr fun b => exists_congr fun j => ?_
  refine and_congr_right fun _ => and_congr_right fun _ => and_congr_right fun hb => ?_
  obtain ⟨htop, -⟩ := bagAt_spec hb
  unfold containerSlots
  rw [(h.kind b).proto, h.cells i b htop]

theorem SameRoom.hasRoom (h : w.SameRoom w' me) : w'.HasRoom me g ↔ w.HasRoom me g := by
  have htop : ∀ a c, w'.TopRoom me a c ↔ w.TopRoom me a c := by
    intro a c
    unfold TopRoom
    simp only [h.tops]
  unfold HasRoom
  simp only [(h.kind g).proto, htop, h.cellRoom]

theorem SameRoom.modify_owner {x : Guid} {o : Option PlayerGuid} (h : w.SameRoom w' me) :
    w.SameRoom (w'.modify x fun it => { it with owner := o }) me where
  tops := h.tops
  cells := h.cells
  kind := by
    intro y
    refine Item.SameKind.trans ?_ (h.kind y)
    by_cases hy : y = x
    · rw [hy, modify_item_self]
      exact ⟨rfl, rfl, rfl, rfl, rfl⟩
    · rw [modify_item_of_ne hy]
      exact Item.SameKind.refl _

/-! ## Room at a place the client names -/

/-- The place of a player that a container slot and a slot name. -/
inductive Target (w : ItemWorld) (me : PlayerGuid) : Int → Int → Place → Prop
  | top (s : Nat) : s < MAX_INVENTORY_SLOT → Target w me INVENTORY_SLOT_NOT_SET s (.top me s)
  | cell (c : Nat) (b : Guid) (i : Nat) : w.slots (.top me c) = some b →
      w.isContainer b = true → i < w.containerSlots b → Target w me c i (.cell b i)

theorem cellRoom_of_freeInBags {family : UInt32 → Bool} {r : SlotResult}
    (h : w.freeInBags me family = some r) : w.CellRoom me family := by
  obtain ⟨i, ha, hc, hr⟩ := findSome_slotRange h
  split at hr
  · cases hr
  · rename_i b hb
    dsimp only at hr
    split at hr
    · rename_i hfree
      obtain ⟨j, -, hj, hempty⟩ := findFreeSlot_spec hfree
      exact ⟨i, b, j, ha, hc, hb, hj, hempty⟩
    · cases hr

theorem topRoom_of_freeTop {a c i : Nat} (h : w.freeTop me a c = some i) : w.TopRoom me a c := by
  obtain ⟨ha, hc, hempty⟩ := freeTop_spec h
  exact ⟨i, ha, hc, hempty⟩

end ItemWorld

end HearthStone
