/-
HearthStone.Item.FreeSlotCount — how often `AddItemToFreeSlot` succeeds,
and what `CalculateFreeSlots` makes of it.

* `eligible` — the places its three searches look at for a bag family.
* `freeCount` — how many of them are empty.
* `addItemToFreeSlot_takes` — an item that is nowhere goes to an empty
  one of them.
* `addNewTimes_iff` — new items can be added exactly that often.
* `calculateFreeSlots_agrees` — `CalculateFreeSlots` is positive exactly
  when an item can be added, and the number of times exactly when no bag
  of the item's family has two free cells: such a bag is counted once.
-/
import HearthStone.Item.NewItem

namespace HearthStone

open Lib

namespace ItemWorld

section

variable (w : ItemWorld) (me : PlayerGuid)

/-- The slots of a range. -/
def topPlaces (a c : Nat) : List Place := (slotRange a c).map fun i => .top me i

/-- The cells of the bag in a slot, when it passes the test. -/
def cellPlaces (family : UInt32 → Bool) (i : Nat) : List Place :=
  match w.bagAt me i family with
  | none => []
  | some b => (slotRange 0 (w.containerSlots b)).map fun j => .cell b j

/-- The cells of the player's bags that pass the test. -/
def bagPlaces (family : UInt32 → Bool) : List Place :=
  (slotRange INVENTORY_SLOT_BAG_START INVENTORY_SLOT_BAG_END).flatMap (w.cellPlaces me family)

/-- The places for items of a bag family. -/
def specialPlaces (family : UInt32) : List Place :=
  if family = 0 then []
  else if family &&& ITEM_TYPE_KEYRING ≠ 0 then
    topPlaces me INVENTORY_KEYRING_START INVENTORY_KEYRING_END
  else w.bagPlaces me (· = family)

/-- The places an item of a bag family may go to. -/
def eligible (family : UInt32) : List Place :=
  w.specialPlaces me family ++
    (topPlaces me INVENTORY_SLOT_ITEM_START INVENTORY_SLOT_ITEM_END ++ w.bagPlaces me (· = 0))

/-- The empty ones of some places. -/
def free (l : List Place) : Nat := l.countP fun p => (w.slots p).isNone

def freeCount (family : UInt32) : Nat := w.free (w.eligible me family)

/-- A new item is made and added. -/
def addNew (proto : ItemPrototype) : Option ItemWorld :=
  (w.createItem me proto 1).addItemToFreeSlot me w.nextGuid

/-- Several, one after the other. -/
def addNewTimes (proto : ItemPrototype) : Nat → ItemWorld → Option ItemWorld
  | 0, w => some w
  | n + 1, w => (w.addNew me proto).bind (addNewTimes proto n)

/-- No bag of the family has two free cells. -/
def OneFreeCell (family : UInt32) : Prop :=
  family = 0 ∨ family &&& ITEM_TYPE_KEYRING ≠ 0 ∨
    ∀ i ∈ slotRange INVENTORY_SLOT_BAG_START INVENTORY_SLOT_BAG_END,
      w.free (w.cellPlaces me (· = family) i) ≤ 1

/-- GUIDs are handed out in order. -/
def Numbered : Prop := ∀ g, Placed w.slots g → g < w.nextGuid

end

variable {w w' : ItemWorld} {me : PlayerGuid} {g b : Guid} {p : Place} {a c : Nat}
  {family : UInt32 → Bool} {proto : ItemPrototype}

/-! ## The places -/

theorem mem_topPlaces : p ∈ topPlaces me a c ↔ ∃ s, a ≤ s ∧ s < c ∧ p = .top me s := by
  unfold topPlaces
  rw [List.mem_map]
  constructor
  · rintro ⟨s, hs, rfl⟩
    obtain ⟨ha, hc⟩ := mem_slotRange.1 hs
    exact ⟨s, ha, hc, rfl⟩
  · rintro ⟨s, ha, hc, rfl⟩
    exact ⟨s, mem_slotRange.2 ⟨ha, hc⟩, rfl⟩

theorem mem_cellPlaces {i : Nat} : p ∈ w.cellPlaces me family i ↔
    ∃ b j, w.bagAt me i family = some b ∧ j < w.containerSlots b ∧ p = .cell b j := by
  unfold cellPlaces
  cases hbag : w.bagAt me i family with
  | none => simp
  | some b =>
    rw [List.mem_map]
    constructor
    · rintro ⟨j, hj, rfl⟩
      exact ⟨b, j, rfl, (mem_slotRange.1 hj).2, rfl⟩
    · rintro ⟨b', j, hb, hj, rfl⟩
      cases hb
      exact ⟨j, mem_slotRange.2 ⟨Nat.zero_le j, hj⟩, rfl⟩

theorem mem_bagPlaces : p ∈ w.bagPlaces me family ↔ ∃ i b j, INVENTORY_SLOT_BAG_START ≤ i ∧
    i < INVENTORY_SLOT_BAG_END ∧ w.bagAt me i family = some b ∧ j < w.containerSlots b ∧
    p = .cell b j := by
  unfold bagPlaces
  rw [List.mem_flatMap]
  constructor
  · rintro ⟨i, hi, hp⟩
    obtain ⟨ha, hc⟩ := mem_slotRange.1 hi
    obtain ⟨b, j, hb, hj, rfl⟩ := mem_cellPlaces.1 hp
    exact ⟨i, b, j, ha, hc, hb, hj, rfl⟩
  · rintro ⟨i, b, j, ha, hc, hb, hj, rfl⟩
    exact ⟨i, mem_slotRange.2 ⟨ha, hc⟩, mem_cellPlaces.2 ⟨b, j, hb, hj, rfl⟩⟩

theorem free_pos {l : List Place} : 0 < w.free l ↔ ∃ p ∈ l, w.slots p = none := by
  unfold free
  rw [List.countP_pos_iff]
  simp only [Option.isNone_iff_eq_none]

theorem free_append (l l' : List Place) : w.free (l ++ l') = w.free l + w.free l' :=
  List.countP_append

theorem topRoom_iff : w.TopRoom me a c ↔ 0 < w.free (topPlaces me a c) := by
  rw [free_pos]
  constructor
  · rintro ⟨s, ha, hc, hempty⟩
    exact ⟨_, mem_topPlaces.2 ⟨s, ha, hc, rfl⟩, hempty⟩
  · rintro ⟨p, hp, hempty⟩
    obtain ⟨s, ha, hc, rfl⟩ := mem_topPlaces.1 hp
    exact ⟨s, ha, hc, hempty⟩

theorem cellRoom_iff : w.CellRoom me family ↔ 0 < w.free (w.bagPlaces me family) := by
  rw [free_pos]
  constructor
  · rintro ⟨i, b, j, ha, hc, hb, hj, hempty⟩
    exact ⟨_, mem_bagPlaces.2 ⟨i, b, j, ha, hc, hb, hj, rfl⟩, hempty⟩
  · rintro ⟨p, hp, hempty⟩
    obtain ⟨i, b, j, ha, hc, hb, hj, rfl⟩ := mem_bagPlaces.1 hp
    exact ⟨i, b, j, ha, hc, hb, hj, hempty⟩

/-- There is room exactly when an eligible place is empty. -/
theorem hasRoom_iff : w.HasRoom me g ↔ 0 < w.freeCount me (w.item g).proto.bagFamily := by
  unfold HasRoom freeCount eligible
  rw [free_append, free_append, Nat.add_pos_iff_pos_or_pos, Nat.add_pos_iff_pos_or_pos,
    ← topRoom_iff, ← cellRoom_iff]
  refine or_congr_left ?_
  unfold specialPlaces
  by_cases hfamily : (w.item g).proto.bagFamily = 0
  · rw [if_pos hfamily]
    simp [hfamily, free]
  · rw [if_neg hfamily, and_iff_right hfamily]
    split
    · exact topRoom_iff
    · exact cellRoom_iff

/-! ### No place twice -/

theorem nodup_topPlaces : (topPlaces me a c).Nodup := by
  refine List.Nodup.map ?_ List.nodup_range'
  intro s t h
  cases h
  rfl

theorem nodup_cells (hw : w.Orderly) :
    ((slotRange a c).flatMap (w.cellPlaces me family)).Nodup := by
  refine List.nodup_flatMap.2 ⟨?_, ?_⟩
  · intro i _
    unfold cellPlaces
    split
    · exact List.nodup_nil
    · refine List.Nodup.map ?_ List.nodup_range'
      intro s t h
      cases h
      rfl
  · refine (List.nodup_range' (s := _) (n := _)).imp ?_
    intro i k hne p hi hk
    obtain ⟨b, j, hb, -, rfl⟩ := mem_cellPlaces.1 hi
    obtain ⟨b', j', hb', -, heq⟩ := mem_cellPlaces.1 hk
    cases heq
    have hsame := hw.once _ _ _ (bagAt_spec hb).1 (bagAt_spec hb').1
    cases hsame
    exact hne rfl

theorem nodup_bagPlaces (hw : w.Orderly) : (w.bagPlaces me family).Nodup := nodup_cells hw

theorem nodup_eligible (hw : w.Orderly) (family : UInt32) : (w.eligible me family).Nodup := by
  unfold eligible
  have hrest : (topPlaces me INVENTORY_SLOT_ITEM_START INVENTORY_SLOT_ITEM_END ++
      w.bagPlaces me (· = 0)).Nodup := by
    refine List.nodup_append'.2 ⟨nodup_topPlaces, nodup_bagPlaces hw, ?_⟩
    intro p htop hbag
    obtain ⟨s, -, -, rfl⟩ := mem_topPlaces.1 htop
    obtain ⟨i, b, j, -, -, -, -, heq⟩ := mem_bagPlaces.1 hbag
    cases heq
  unfold specialPlaces
  split
  · exact hrest
  rename_i hfamily
  split
  · refine List.nodup_append'.2 ⟨nodup_topPlaces, hrest, ?_⟩
    intro p hkey hp
    obtain ⟨s, hs, -, rfl⟩ := mem_topPlaces.1 hkey
    rcases List.mem_append.1 hp with htop | hbag
    · obtain ⟨t, -, ht, heq⟩ := mem_topPlaces.1 htop
      cases heq
      unfold INVENTORY_KEYRING_START at hs
      unfold INVENTORY_SLOT_ITEM_END at ht
      omega
    · obtain ⟨i, b, j, -, -, -, -, heq⟩ := mem_bagPlaces.1 hbag
      cases heq
  · refine List.nodup_append'.2 ⟨nodup_bagPlaces hw, hrest, ?_⟩
    intro p hspecial hp
    obtain ⟨i, b, j, -, -, hb, -, rfl⟩ := mem_bagPlaces.1 hspecial
    rcases List.mem_append.1 hp with htop | hbag
    · obtain ⟨t, -, -, heq⟩ := mem_topPlaces.1 htop
      cases heq
    · obtain ⟨i', b', j', -, -, hb', -, heq⟩ := mem_bagPlaces.1 hbag
      cases heq
      have hzero := of_decide_eq_true (bagAt_spec hb').2.2
      have hspecial := of_decide_eq_true (bagAt_spec hb).2.2
      exact hfamily (hspecial.symm.trans hzero)

/-! ## An addition -/

/-- An addition into a range of slots. -/
theorem addInto_takes (hc : c ≤ MAX_INVENTORY_SLOT) (hg : ¬ Placed w.slots g)
    (h : ((slotRange a c).findSome? fun (i : Nat) =>
      if (w.slots (.top me i)).isNone then w.tryAddItem me g INVENTORY_SLOT_NOT_SET i
      else none) = some w') :
    ∃ p ∈ topPlaces me a c, w.AddsAt me g p w' := by
  obtain ⟨i, ha, hlt, hi⟩ := findSome_slotRange h
  split at hi
  · rename_i hempty
    have hnone := Option.isNone_iff_eq_none.1 hempty
    rw [tryAddItem_top_eq (by omega) hnone hg] at hi
    cases hi
    exact ⟨_, mem_topPlaces.2 ⟨i, ha, hlt, rfl⟩, addsAt_intoTop (by omega) hnone⟩
  · cases hi

theorem specialBags_takes (hw : w.Orderly)
    (h : ((slotRange INVENTORY_SLOT_BAG_START INVENTORY_SLOT_BAG_END).findSome? fun i =>
      match w.bagAt me i family with
      | none => none
      | some b => (w.containerAddItemToFreeSlot b g).map Prod.snd) = some w') :
    ∃ p ∈ w.bagPlaces me family, w.AddsAt me g p w' := by
  obtain ⟨i, ha, hlt, hi⟩ := findSome_slotRange h
  split at hi
  · cases hi
  · rename_i b hb
    obtain ⟨htop, hcont, -⟩ := bagAt_spec hb
    obtain ⟨r, hr, rfl⟩ := Option.map_eq_some_iff.1 hi
    have hadds := containerAddItemToFreeSlot_spec hw htop hcont hr
    cases hadds.place with
    | cell _ _ _ _ _ hj =>
      exact ⟨_, mem_bagPlaces.2 ⟨i, b, r.1, ha, hlt, hb, hj, rfl⟩, hadds⟩

theorem ordinaryBags_takes (hw : w.Orderly) (hg : ¬ Placed w.slots g)
    (h : ((slotRange INVENTORY_SLOT_BAG_START INVENTORY_SLOT_BAG_END).findSome? fun (i : Nat) =>
      match w.bagAt me i family with
      | none => none
      | some b => (slotRange 0 (w.containerSlots b)).findSome? fun (j : Nat) =>
          if (w.getItem b j).isNone then w.tryAddItem me g i j else none) = some w') :
    ∃ p ∈ w.bagPlaces me family, w.AddsAt me g p w' := by
  obtain ⟨i, ha, hlt, hi⟩ := findSome_slotRange h
  split at hi
  · cases hi
  · rename_i b hb
    obtain ⟨htop, hcont, -⟩ := bagAt_spec hb
    obtain ⟨j, -, hj, hadd⟩ := findSome_slotRange hi
    split at hadd
    · rename_i hempty
      rw [getItem_of_lt hj] at hempty
      obtain ⟨u, hu⟩ := containerAddItem_some hw htop hj (Option.isNone_iff_eq_none.1 hempty)
      rw [tryAddItem_cell_eq hw htop hcont hj hg hu] at hadd
      cases hadd
      obtain ⟨j', hjj', hadds⟩ := containerAddItem_spec hw htop hcont hu
      have hsame : j = j' := by omega
      subst hsame
      exact ⟨_, mem_bagPlaces.2 ⟨i, b, j, ha, hlt, hb, hj, rfl⟩, hadds⟩
    · cases hadd

/-- An item that is nowhere goes to an eligible place that was empty. -/
theorem addItemToFreeSlot_takes (hw : w.Orderly) (hg : ¬ Placed w.slots g)
    (h : w.addItemToFreeSlot me g = some w') :
    ∃ p ∈ w.eligible me (w.item g).proto.bagFamily, w.AddsAt me g p w' := by
  unfold addItemToFreeSlot at h
  simp only [Option.orElse_eq_orElse, Option.orElse_eq_or, Option.or_eq_some_iff] at h
  unfold eligible
  simp only [List.mem_append]
  rcases h with hspecial | ⟨-, hbackpack | ⟨-, hbags⟩⟩
  · unfold specialPlaces
    split at hspecial
    · cases hspecial
    rename_i hfamily
    rw [if_neg hfamily]
    split at hspecial
    · rename_i hkey
      rw [if_pos hkey]
      obtain ⟨p, hp, hadds⟩ := addInto_takes (by decide) hg hspecial
      exact ⟨p, .inl hp, hadds⟩
    · rename_i hkey
      rw [if_neg hkey]
      obtain ⟨p, hp, hadds⟩ := specialBags_takes hw hspecial
      exact ⟨p, .inl hp, hadds⟩
  · obtain ⟨p, hp, hadds⟩ := addInto_takes (by decide) hg hbackpack
    exact ⟨p, .inr (.inl hp), hadds⟩
  · obtain ⟨p, hp, hadds⟩ := ordinaryBags_takes hw hg hbags
    exact ⟨p, .inr (.inr hp), hadds⟩

/-! ### What it leaves -/

/-- The eligible places are a matter of the bags in the slots for bags. -/
theorem eligible_congr (hbags : ∀ i ∈ slotRange INVENTORY_SLOT_BAG_START INVENTORY_SLOT_BAG_END,
      ∀ family, w'.bagAt me i family = w.bagAt me i family)
    (hslots : ∀ i family b, w.bagAt me i family = some b →
      w'.containerSlots b = w.containerSlots b) (family : UInt32) :
    w'.eligible me family = w.eligible me family := by
  have hplaces : ∀ test, w'.bagPlaces me test = w.bagPlaces me test := by
    intro test
    refine List.flatMap_congr fun i hi => ?_
    unfold cellPlaces
    rw [hbags i hi test]
    cases hb : w.bagAt me i test with
    | none => rfl
    | some b =>
      dsimp only
      rw [hslots i test b hb]
  unfold eligible specialPlaces
  rw [hplaces, hplaces]

/-- No eligible place is a slot for a bag. -/
theorem not_bag_of_eligible {s : Nat} {family : UInt32} (h : .top me s ∈ w.eligible me family) :
    ¬ (INVENTORY_SLOT_BAG_START ≤ s ∧ s < INVENTORY_SLOT_BAG_END) := by
  have hbag : ∀ test, .top me s ∉ w.bagPlaces me test := by
    intro test hp
    obtain ⟨i, b, j, -, -, -, -, heq⟩ := mem_bagPlaces.1 hp
    cases heq
  have htop : ∀ a c, INVENTORY_SLOT_BAG_END ≤ a → .top me s ∈ topPlaces me a c →
      ¬ (INVENTORY_SLOT_BAG_START ≤ s ∧ s < INVENTORY_SLOT_BAG_END) := by
    intro a c ha hp
    obtain ⟨t, hat, -, heq⟩ := mem_topPlaces.1 hp
    cases heq
    omega
  unfold eligible specialPlaces at h
  rcases List.mem_append.1 h with hspecial | hrest
  · split at hspecial
    · cases hspecial
    · split at hspecial
      · exact htop _ _ (by decide) hspecial
      · exact absurd hspecial (hbag _)
  · rcases List.mem_append.1 hrest with hbackpack | hbags
    · exact htop _ _ (by decide) hbackpack
    · exact absurd hbags (hbag _)

theorem AddsAt.eligible {family : UInt32} (h : w.AddsAt me g p w')
    (hp : p ∈ w.eligible me family) (family' : UInt32) :
    w'.eligible me family' = w.eligible me family' := by
  refine eligible_congr ?_ (fun i test b _ => h.containerSlots b) family'
  intro i hi test
  have hne : p ≠ .top me i := by
    rintro rfl
    exact not_bag_of_eligible hp (mem_slotRange.1 hi)
  unfold bagAt
  rw [h.slots, Function.update_of_ne hne.symm]
  cases w.slots (.top me i) with
  | none => rfl
  | some b =>
    dsimp only
    rw [h.isContainer, (h.kinds b).proto]

/-- One empty place less. -/
theorem AddsAt.free {l : List Place} (h : w.AddsAt me g p w') (hl : l.Nodup) (hp : p ∈ l) :
    w'.free l + 1 = w.free l := by
  have hperm := List.perm_cons_erase hp
  unfold ItemWorld.free
  rw [hperm.countP_eq, hperm.countP_eq, List.countP_cons_of_neg, List.countP_cons_of_pos]
  · congr 1
    refine List.countP_congr fun q hq => ?_
    have hqp : q ≠ p := (hl.mem_erase_iff.1 hq).1
    rw [h.slots, Function.update_of_ne hqp]
  · rw [h.empty]
    rfl
  · rw [h.at]
    simp

/-! ## Several additions -/

theorem createItem_eligible (hnew : ¬ Placed w.slots w.nextGuid) (n : UInt32) (family : UInt32) :
    (w.createItem me proto n).eligible me family = w.eligible me family := by
  have hitem : ∀ i b, w.slots (.top me i) = some b →
      (w.createItem me proto n).item b = w.item b := by
    intro i b hb
    refine createItem_item_of_ne ?_
    rintro rfl
    exact hnew ⟨_, hb⟩
  refine eligible_congr ?_ ?_ family
  · intro i _ test
    unfold bagAt
    rw [show (w.createItem me proto n).slots = w.slots from rfl]
    cases hb : w.slots (.top me i) with
    | none => rfl
    | some b =>
      dsimp only
      unfold isContainer
      rw [hitem i b hb]
  · intro i test b hb
    unfold containerSlots
    rw [hitem i b (bagAt_spec hb).1]

theorem Numbered.not_placed (h : w.Numbered) : ¬ Placed w.slots w.nextGuid :=
  fun hplaced => lt_irrefl _ (h _ hplaced)

theorem freeCount_createItem (proto : ItemPrototype) (hnew : w.Numbered) (family : UInt32) :
    (w.createItem me proto 1).freeCount me family = w.freeCount me family := by
  unfold freeCount
  rw [createItem_eligible hnew.not_placed]
  rfl

theorem createItem_proto : ((w.createItem me proto 1).item w.nextGuid).proto = proto := by
  change (Function.update w.item w.nextGuid _ w.nextGuid).proto = proto
  rw [Function.update_self]
  rfl

/-- A new item is added exactly when an eligible place is empty. -/
theorem addNew_isSome (me : PlayerGuid) (proto : ItemPrototype) (hw : w.Orderly)
    (hnew : w.Numbered) :
    (w.addNew me proto).isSome = true ↔ 0 < w.freeCount me proto.bagFamily := by
  unfold addNew
  rw [addItemToFreeSlot_iff (createItem_orderly hw hnew.not_placed) hnew.not_placed, hasRoom_iff,
    createItem_proto, freeCount_createItem proto hnew]

/-- Then there is one empty place less. -/
theorem addNew_spec (hw : w.Orderly) (hnew : w.Numbered) (h : w.addNew me proto = some w') :
    w'.Orderly ∧ w'.Numbered ∧
      w'.freeCount me proto.bagFamily + 1 = w.freeCount me proto.bagFamily := by
  have hcreated : (w.createItem me proto 1).Orderly := createItem_orderly hw hnew.not_placed
  obtain ⟨p, hp, hadds⟩ := addItemToFreeSlot_takes hcreated hnew.not_placed h
  rw [createItem_proto] at hp
  refine ⟨hadds.orderly hcreated hnew.not_placed, ?_, ?_⟩
  · intro x hx
    rw [hadds.nextGuid]
    rcases hadds.placed.1 hx with rfl | hold
    · exact Nat.lt_succ_self _
    · exact Nat.lt_succ_of_lt (hnew x hold)
  · rw [← freeCount_createItem proto hnew]
    unfold freeCount
    rw [hadds.eligible hp]
    exact hadds.free (nodup_eligible hcreated _) hp

/-- New items can be added exactly as often as eligible places are empty. -/
theorem addNewTimes_iff (n : Nat) (hw : w.Orderly) (hnew : w.Numbered) :
    (addNewTimes me proto n w).isSome = true ↔ n ≤ w.freeCount me proto.bagFamily := by
  induction n generalizing w with
  | zero => exact ⟨fun _ => Nat.zero_le _, fun _ => rfl⟩
  | succ n ih =>
    have hfirst := addNew_isSome me proto hw hnew
    unfold addNewTimes
    cases hadd : w.addNew me proto with
    | none =>
      rw [hadd] at hfirst
      simp at hfirst ⊢
      omega
    | some w' =>
      obtain ⟨hw', hnew', hless⟩ := addNew_spec hw hnew hadd
      rw [Option.bind_some, ih hw' hnew']
      omega

/-! ## `CalculateFreeSlots` and `FindFreeInventorySlot` -/

/-- Counting what is not zero counts at most the sum, and the sum itself
exactly when nothing is above one. -/
theorem countP_pos_le_sum {α : Type} (l : List α) (f : α → Nat) :
    (l.countP fun i => decide (0 < f i)) ≤ (l.map f).sum ∧
      ((l.countP fun i => decide (0 < f i)) = (l.map f).sum ↔ ∀ i ∈ l, f i ≤ 1) := by
  induction l with
  | nil => simp
  | cons i l ih =>
    obtain ⟨hle, hiff⟩ := ih
    rw [List.countP_cons, List.map_cons, List.sum_cons, List.forall_mem_cons, ← hiff]
    by_cases hi : 0 < f i
    · rw [if_pos (decide_eq_true hi)]
      omega
    · rw [if_neg (by simpa using hi)]
      omega

theorem free_topPlaces : w.free (topPlaces me a c) =
    (slotRange a c).countP fun i => (w.slots (.top me i)).isNone := by
  unfold free topPlaces
  rw [List.countP_map]
  rfl

theorem free_cellPlaces {i : Nat} (h : w.bagAt me i family = some b) :
    w.free (w.cellPlaces me family i) =
      (slotRange 0 (w.containerSlots b)).countP fun (j : Nat) => (w.getItem b j).isNone := by
  unfold free cellPlaces
  rw [h]
  rw [List.countP_map]
  refine List.countP_congr fun j hj => ?_
  rw [getItem_of_lt (mem_slotRange.1 hj).2]
  rfl

theorem free_cellPlaces_none {i : Nat} (h : w.bagAt me i family = none) :
    w.free (w.cellPlaces me family i) = 0 := by
  unfold free cellPlaces
  rw [h]
  rfl

theorem free_bagPlaces : w.free (w.bagPlaces me family) =
    ((slotRange INVENTORY_SLOT_BAG_START INVENTORY_SLOT_BAG_END).map fun i =>
      w.free (w.cellPlaces me family i)).sum := List.countP_flatMap

/-- `FindFreeSlot` of a bag finds one exactly when a cell is empty. -/
theorem findFreeSlot_iff {i : Nat} (h : w.bagAt me i family = some b) :
    w.findFreeSlot b ≠ INVENTORY_SLOT_NOT_SET ↔ 0 < w.free (w.cellPlaces me family i) := by
  rw [free_pos]
  constructor
  · intro hfree
    obtain ⟨j, -, hj, hempty⟩ := findFreeSlot_spec hfree
    exact ⟨_, mem_cellPlaces.2 ⟨b, j, h, hj, rfl⟩, hempty⟩
  · rintro ⟨p, hp, hempty⟩
    obtain ⟨b', j, hb, hj, rfl⟩ := mem_cellPlaces.1 hp
    cases h.symm.trans hb
    unfold findFreeSlot
    split
    · unfold INVENTORY_SLOT_NOT_SET
      omega
    · rename_i hnone
      have hno := List.find?_eq_none.1 hnone j (mem_slotRange.2 ⟨Nat.zero_le j, hj⟩)
      simp [hempty] at hno

/-- What `CalculateFreeSlots` counts for the item's own family. -/
def specialCount (w : ItemWorld) (me : PlayerGuid) (family : UInt32) : Nat :=
  if family = 0 then 0
  else if family &&& ITEM_TYPE_KEYRING ≠ 0 then
    w.free (topPlaces me INVENTORY_KEYRING_START INVENTORY_KEYRING_END)
  else
    (slotRange INVENTORY_SLOT_BAG_START INVENTORY_SLOT_BAG_END).countP
      fun i => decide (0 < w.free (w.cellPlaces me (· = family) i))

theorem calculateFreeSlots_eq : w.calculateFreeSlots me (some proto) =
    w.specialCount me proto.bagFamily +
      (w.free (topPlaces me INVENTORY_SLOT_ITEM_START INVENTORY_SLOT_ITEM_END) +
        w.free (w.bagPlaces me (· = 0))) := by
  unfold calculateFreeSlots specialCount
  rw [Nat.add_assoc, free_topPlaces, free_topPlaces, free_bagPlaces]
  congr 1
  · dsimp only
    split
    · rfl
    split
    · rfl
    refine List.countP_congr fun i _ => ?_
    cases hb : w.bagAt me i (· = proto.bagFamily) with
    | none =>
      rw [free_cellPlaces_none hb]
      simp
    | some b =>
      rw [decide_eq_true_iff, decide_eq_true_iff]
      exact findFreeSlot_iff hb
  · congr 2
    refine List.map_congr_left fun i _ => ?_
    cases hb : w.bagAt me i (· = 0) with
    | none => exact (free_cellPlaces_none hb).symm
    | some b => exact (free_cellPlaces hb).symm

theorem specialCount_le (family : UInt32) :
    w.specialCount me family ≤ w.free (w.specialPlaces me family) ∧
      (w.specialCount me family = w.free (w.specialPlaces me family) ↔
        w.OneFreeCell me family) := by
  unfold specialCount specialPlaces OneFreeCell
  split
  · rename_i hfamily
    exact ⟨Nat.zero_le _, fun _ => .inl hfamily, fun _ => rfl⟩
  rename_i hfamily
  split
  · rename_i hkey
    exact ⟨le_refl _, fun _ => .inr (.inl hkey), fun _ => rfl⟩
  rename_i hkey
  rw [free_bagPlaces, or_iff_right hfamily, or_iff_right hkey]
  exact countP_pos_le_sum _ _

theorem specialCount_pos (family : UInt32) :
    0 < w.specialCount me family ↔ 0 < w.free (w.specialPlaces me family) := by
  constructor
  · intro h
    exact Nat.lt_of_lt_of_le h (specialCount_le family).1
  · intro h
    unfold specialCount
    unfold specialPlaces at h
    split
    · rename_i hfamily
      rw [if_pos hfamily] at h
      exact h
    rename_i hfamily
    rw [if_neg hfamily] at h
    split
    · rename_i hkey
      rwa [if_pos hkey] at h
    rename_i hkey
    rw [if_neg hkey] at h
    obtain ⟨p, hp, hempty⟩ := free_pos.1 h
    obtain ⟨i, hi, hcell⟩ := List.mem_flatMap.1 hp
    exact List.countP_pos_iff.2 ⟨i, hi, decide_eq_true (free_pos.2 ⟨p, hcell, hempty⟩)⟩

theorem freeCount_eq (family : UInt32) : w.freeCount me family =
    w.free (w.specialPlaces me family) +
      (w.free (topPlaces me INVENTORY_SLOT_ITEM_START INVENTORY_SLOT_ITEM_END) +
        w.free (w.bagPlaces me (· = 0))) := by
  unfold freeCount eligible
  rw [free_append, free_append]

theorem calculateFreeSlots_pos :
    0 < w.calculateFreeSlots me (some proto) ↔ 0 < w.freeCount me proto.bagFamily := by
  rw [calculateFreeSlots_eq, freeCount_eq]
  simp only [Nat.add_pos_iff_pos_or_pos, specialCount_pos]

theorem freeTop_iff : (w.freeTop me a c).isSome = true ↔ w.TopRoom me a c := by
  constructor
  · intro h
    obtain ⟨i, hi⟩ := Option.isSome_iff_exists.1 h
    exact topRoom_of_freeTop hi
  · rintro ⟨s, ha, hc, hempty⟩
    unfold freeTop
    rw [List.find?_isSome]
    exact ⟨s, mem_slotRange.2 ⟨ha, hc⟩, by rw [hempty]; rfl⟩

theorem freeInBags_iff : (w.freeInBags me family).isSome = true ↔ w.CellRoom me family := by
  constructor
  · intro h
    obtain ⟨r, hr⟩ := Option.isSome_iff_exists.1 h
    exact cellRoom_of_freeInBags hr
  · rintro ⟨i, b, j, ha, hc, hb, hj, hempty⟩
    refine findSome_slotRange_isSome ha hc ?_
    have hfree := (findFreeSlot_iff hb).2
      (free_pos.2 ⟨_, mem_cellPlaces.2 ⟨b, j, hb, hj, rfl⟩, hempty⟩)
    rw [hb]
    dsimp only
    rw [if_pos hfree]
    rfl

/-- The search succeeds exactly when an eligible place is empty. -/
theorem findFreeInventorySlot_iff : (w.findFreeInventorySlot me proto).isSome = true ↔
    0 < w.freeCount me proto.bagFamily := by
  unfold findFreeInventorySlot
  simp only [Option.orElse_eq_orElse, Option.orElse_eq_or, Option.isSome_or, Bool.or_eq_true,
    Option.isSome_map]
  rw [freeCount_eq, Nat.add_pos_iff_pos_or_pos, Nat.add_pos_iff_pos_or_pos, ← topRoom_iff,
    ← cellRoom_iff, freeTop_iff, freeInBags_iff]
  refine or_congr_left ?_
  unfold specialPlaces
  split
  · simp [free]
  split
  · rw [Option.isSome_map, freeTop_iff, topRoom_iff]
  · rw [freeInBags_iff, cellRoom_iff]

/-- `CalculateFreeSlots` is positive exactly when the search finds a
place, and that is exactly when an item that is nowhere is added. It is
the number of times new items can be added exactly when no bag of the
family has two free cells. -/
theorem calculateFreeSlots_agrees (hw : w.Orderly) (hnew : w.Numbered) (me : PlayerGuid)
    (proto : ItemPrototype) :
    (∀ g, ¬ Placed w.slots g → (w.item g).proto = proto →
      (0 < w.calculateFreeSlots me (some proto) ↔
        (w.findFreeInventorySlot me proto).isSome = true) ∧
      ((w.findFreeInventorySlot me proto).isSome = true ↔
        (w.addItemToFreeSlot me g).isSome = true)) ∧
    ((∀ n, (addNewTimes me proto n w).isSome = true ↔
        n ≤ w.calculateFreeSlots me (some proto)) ↔
      w.OneFreeCell me proto.bagFamily) := by
  constructor
  · rintro g hg rfl
    rw [calculateFreeSlots_pos, findFreeInventorySlot_iff, addItemToFreeSlot_iff hw hg, hasRoom_iff]
    exact ⟨Iff.rfl, Iff.rfl⟩
  · rw [← (specialCount_le proto.bagFamily).2]
    simp only [addNewTimes_iff _ hw hnew]
    constructor
    · intro h
      have hfree := (h _).1 (le_refl _)
      have hcount := (h _).2 (le_refl _)
      rw [calculateFreeSlots_eq, freeCount_eq] at hfree hcount
      omega
    · intro h n
      rw [calculateFreeSlots_eq, freeCount_eq, h]

/-! ### A quiver with eight free cells -/

def packer : PlayerGuid := ⟨33, by decide⟩

def quiver : ItemPrototype :=
  { ItemPrototype.plain 101 with
    containerSlots := 8, bagFamily := 1, inventoryType := INVTYPE_BAG
    containerSlots_le := by decide }

def arrows : ItemPrototype := { ItemPrototype.plain 102 with bagFamily := 1 }

def packed : ItemWorld :=
  .ofPlaces (fun g => { newItem (if g = 1 then quiver else arrows) (g = 1) with
    owner := some packer }) [(.top packer 19, 1)] 2

/-- Arrows are counted for seventeen places and fill more. -/
theorem quiver_counted_once :
    ¬ ∀ n, (addNewTimes packer arrows n packed).isSome = true ↔
      n ≤ packed.calculateFreeSlots packer (some arrows) := by
  intro hall
  have hmore := (hall 18).1 (by decide +kernel)
  revert hmore
  decide +kernel

/-- An ordinary item is counted for the sixteen places it can fill. -/
theorem calculateFreeSlots_agrees_plain :
    (addNewTimes packer (.plain 103) 16 packed).isSome = true := by
  have hw : packed.Orderly := orderly_ofPlaces packer (by decide) (by decide)
  have hnew : packed.Numbered := numbered_ofPlaces (by decide)
  exact ((calculateFreeSlots_agrees hw hnew packer (.plain 103)).2.2 (.inl rfl) 16).2
    (by decide +kernel)

end ItemWorld

end HearthStone
