/-
HearthStone.Item.ItemInterfaceTheorems — what each inventory operation
does to a well-formed world.

One lemma an operation, in terms of `AddsAt`, `RemovesAt` and
`Exchanges`: it fails and changes nothing, or it is that step at some
place. The branches that unlink an item without clearing its field are
never taken, because owners agree.

* searches: `findFreeInventorySlot_spec`, `bagAt_spec`.
* additions: `containerAddItem_spec`, `m_AddItem_spec`,
  `addItemToFreeSlot_spec`, `addItemToFreeBankSlot_spec`.
* removals: `containerSafeRemove_spec`, `safeRemoveFromSlot_spec`,
  `safeRemoveByGuid_spec` and their destroying counterparts.
-/
import HearthStone.Item.Inventory

namespace HearthStone

open Lib

namespace ItemWorld

variable {w w' : ItemWorld} {me : PlayerGuid} {g b : Guid} {slot containerSlot : Int}

/-! ## Reading -/

theorem getInventoryItem_eq_some (h : w.getInventoryItem me slot = some g) :
    0 ≤ slot ∧ w.slots (.top me slot.toNat) = some g := by
  unfold getInventoryItem at h
  split at h
  · cases h
  · rename_i hslot
    exact ⟨by omega, h⟩

theorem getInventoryItem_eq_none (h : w.getInventoryItem me slot = none) (h0 : 0 ≤ slot)
    (hlt : slot < MAX_INVENTORY_SLOT) : w.slots (.top me slot.toNat) = none := by
  unfold getInventoryItem at h
  rw [if_neg (by omega)] at h
  exact h

theorem getItem_of_lt {i : Nat} (hi : i < w.containerSlots b) :
    w.getItem b i = w.slots (.cell b i) := by
  unfold getItem
  rw [if_pos (by omega)]
  rfl

theorem getItem_eq_some {j : Int} (h : w.getItem b j = some g) :
    0 ≤ j ∧ j.toNat < w.containerSlots b ∧ w.slots (.cell b j.toNat) = some g := by
  unfold getItem at h
  split at h
  · rename_i hj
    exact ⟨hj.1, by omega, h⟩
  · cases h

theorem bagAt_spec {i : Nat} {family : UInt32 → Bool} (h : w.bagAt me i family = some b) :
    w.slots (.top me i) = some b ∧ w.isContainer b = true ∧
      family (w.item b).proto.bagFamily = true := by
  unfold bagAt at h
  split at h
  · rename_i b' hb'
    split at h
    · rename_i hfam
      rw [Bool.and_eq_true] at hfam
      obtain rfl := Option.some.inj h
      exact ⟨hb', hfam⟩
    · cases h
  · cases h

/-- A search through a range stops at an index in it. -/
theorem find_slotRange {a c i : Nat} {f : Nat → Bool} (h : (slotRange a c).find? f = some i) :
    a ≤ i ∧ i < c ∧ f i = true := by
  obtain ⟨ha, hc⟩ := mem_slotRange.1 (List.mem_of_find?_eq_some h)
  exact ⟨ha, hc, List.find?_some h⟩

theorem findSome_slotRange {α : Type} {a c : Nat} {f : Nat → Option α} {r : α}
    (h : (slotRange a c).findSome? f = some r) : ∃ i, a ≤ i ∧ i < c ∧ f i = some r := by
  obtain ⟨i, hmem, hi⟩ := List.exists_of_findSome?_eq_some h
  obtain ⟨ha, hc⟩ := mem_slotRange.1 hmem
  exact ⟨i, ha, hc, hi⟩

theorem freeTop_spec {a c i : Nat} (h : w.freeTop me a c = some i) :
    a ≤ i ∧ i < c ∧ w.slots (.top me i) = none := by
  obtain ⟨ha, hc, hnone⟩ := find_slotRange h
  exact ⟨ha, hc, Option.isNone_iff_eq_none.1 hnone⟩

theorem findFreeSlot_spec (h : w.findFreeSlot b ≠ INVENTORY_SLOT_NOT_SET) :
    ∃ i : Nat, w.findFreeSlot b = i ∧ i < w.containerSlots b ∧ w.slots (.cell b i) = none := by
  unfold findFreeSlot at h ⊢
  split at h
  · rename_i i hi
    obtain ⟨-, hlt, hnone⟩ := find_slotRange hi
    exact ⟨i, rfl, hlt, Option.isNone_iff_eq_none.1 hnone⟩
  · exact absurd rfl h

/-- A free place of `m_pItems` outside the slots for bags, or a free cell
of an equipped bag. -/
inductive FreePlace (w : ItemWorld) (me : PlayerGuid) : SlotResult → Prop
  | top (s : Nat) : s < MAX_INVENTORY_SLOT → ¬ IsBagSlot s → w.slots (.top me s) = none →
      FreePlace w me ⟨INVENTORY_SLOT_NOT_SET, s⟩
  | cell (c : Nat) (b : Guid) (i : Nat) : IsBagSlot c → w.slots (.top me c) = some b →
      w.isContainer b = true → i < w.containerSlots b → w.slots (.cell b i) = none →
      FreePlace w me ⟨c, i⟩

theorem isBagSlot_iff {s : Nat} : IsBagSlot s ↔ (19 ≤ s ∧ s < 23) ∨ (67 ≤ s ∧ s < 74) := by
  unfold IsBagSlot isBagSlot INVENTORY_SLOT_BAG_START INVENTORY_SLOT_BAG_END
    BANK_SLOT_BAG_START BANK_SLOT_BAG_END
  rw [decide_eq_true_eq]
  omega

theorem not_isBagSlot_backpack {s : Nat} (ha : INVENTORY_SLOT_ITEM_START ≤ s)
    (hc : s < INVENTORY_SLOT_ITEM_END) : s < MAX_INVENTORY_SLOT ∧ ¬ IsBagSlot s := by
  rw [isBagSlot_iff]
  unfold INVENTORY_SLOT_ITEM_START at ha
  unfold INVENTORY_SLOT_ITEM_END at hc
  unfold MAX_INVENTORY_SLOT
  omega

theorem not_isBagSlot_keyring {s : Nat} (ha : INVENTORY_KEYRING_START ≤ s)
    (hc : s < INVENTORY_KEYRING_END) : s < MAX_INVENTORY_SLOT ∧ ¬ IsBagSlot s := by
  rw [isBagSlot_iff]
  unfold INVENTORY_KEYRING_START at ha
  unfold INVENTORY_KEYRING_END at hc
  unfold MAX_INVENTORY_SLOT
  omega

theorem not_isBagSlot_bank {s : Nat} (ha : BANK_SLOT_ITEM_START ≤ s)
    (hc : s < BANK_SLOT_ITEM_END) : s < MAX_INVENTORY_SLOT ∧ ¬ IsBagSlot s := by
  rw [isBagSlot_iff]
  unfold BANK_SLOT_ITEM_START at ha
  unfold BANK_SLOT_ITEM_END at hc
  unfold MAX_INVENTORY_SLOT
  omega

theorem isBagSlot_bags {s : Nat} (ha : INVENTORY_SLOT_BAG_START ≤ s)
    (hc : s < INVENTORY_SLOT_BAG_END) : IsBagSlot s := by
  rw [isBagSlot_iff]
  unfold INVENTORY_SLOT_BAG_START at ha
  unfold INVENTORY_SLOT_BAG_END at hc
  omega

theorem freeInBags_spec {family : UInt32 → Bool} {r : SlotResult}
    (h : w.freeInBags me family = some r) : w.FreePlace me r := by
  obtain ⟨c, ha, hc, hr⟩ := findSome_slotRange h
  split at hr
  · cases hr
  · rename_i b hb
    obtain ⟨htop, hcont, -⟩ := bagAt_spec hb
    dsimp only at hr
    split at hr
    · rename_i hfree
      obtain ⟨i, hi, hlt, hnone⟩ := findFreeSlot_spec hfree
      rw [hi] at hr
      rw [← Option.some.inj hr]
      exact .cell c b i (isBagSlot_bags ha hc) htop hcont hlt hnone
    · cases hr

theorem findFreeInventorySlot_spec {proto : ItemPrototype} {r : SlotResult}
    (h : w.findFreeInventorySlot me proto = some r) : w.FreePlace me r := by
  have htop : ∀ a c, (∀ s, a ≤ s → s < c → s < MAX_INVENTORY_SLOT ∧ ¬ IsBagSlot s) →
      (w.freeTop me a c).map (fun i : Nat => (⟨INVENTORY_SLOT_NOT_SET, i⟩ : SlotResult)) = some r →
      w.FreePlace me r := by
    intro a c hrange hr
    obtain ⟨i, hi, rfl⟩ := Option.map_eq_some_iff.1 hr
    obtain ⟨ha, hc, hnone⟩ := freeTop_spec hi
    obtain ⟨hlt, hbag⟩ := hrange i ha hc
    exact .top i hlt hbag hnone
  unfold findFreeInventorySlot at h
  simp only [Option.orElse_eq_orElse, Option.orElse_eq_or, Option.or_eq_some_iff] at h
  rcases h with hspecial | ⟨-, hbackpack | ⟨-, hbags⟩⟩
  · split at hspecial
    · cases hspecial
    split at hspecial
    · exact htop _ _ (fun s => not_isBagSlot_keyring) hspecial
    · exact freeInBags_spec hspecial
  · exact htop _ _ (fun s => not_isBagSlot_backpack) hbackpack
  · exact freeInBags_spec hbags

/-! ## Adding -/

/-- The writes of every addition: the item, which is nowhere, is changed
and put at a place of the player. -/
theorem addsAt_put {p : Place} {f : Item → Item} (hplace : w.PlaceOf me p)
    (hempty : w.slots p = none) (hkind : (f (w.item g)).SameKind (w.item g))
    (howner : (f (w.item g)).owner = some me) :
    w.AddsAt me g p ((w.modify g f).put p g) where
  place := hplace
  empty := hempty
  slots := rfl
  fields := rfl
  nextGuid := rfl
  others := fun x hx => modify_item_of_ne hx
  kind := by
    rw [put_item, modify_item_self]
    exact hkind
  owner := by
    rw [put_item, modify_item_self]
    exact howner

theorem modify_modify {f f' : Item → Item} :
    (w.modify g f).modify g f' = w.modify g fun it => f' (f it) := by
  unfold modify
  simp

/-- A bag a player has belongs to the player. -/
theorem addsAt_intoBag {s i : Nat} {f : Item → Item} (hw : w.Orderly)
    (htop : w.slots (.top me s) = some b) (hcont : w.isContainer b = true)
    (hi : i < w.containerSlots b) (hempty : w.slots (.cell b i) = none)
    (hkind : ∀ it, (f it).SameKind it) (howner : ∀ it, (f it).owner = it.owner) :
    w.AddsAt me g (.cell b i) (((w.intoBag b g).modify g f).put (.cell b i) g) := by
  unfold intoBag
  rw [modify_modify]
  refine addsAt_put (.cell s b i htop hcont hi) hempty ?_ ?_
  · exact (hkind _).trans ⟨rfl, rfl, rfl, rfl, rfl⟩
  · rw [howner]
    exact hw.topOwner me s b htop

theorem containerAddItem_spec {s : Nat} (hw : w.Orderly)
    (htop : w.slots (.top me s) = some b) (hcont : w.isContainer b = true)
    (h : w.containerAddItem b slot g = some w') :
    ∃ i : Nat, slot = i ∧ w.AddsAt me g (.cell b i) w' := by
  unfold containerAddItem at h
  split at h
  · cases h
  rename_i hslot
  split at h
  · cases h
  rename_i hempty
  split at h
  · cases h
  rw [← Option.some.inj h]
  refine ⟨slot.toNat, by omega, addsAt_intoBag hw htop hcont (by omega) ?_ ?_ ?_⟩
  · exact Option.not_isSome_iff_eq_none.1 hempty
  · exact Item.sameKind_bindOnPickup
  · exact Item.owner_bindOnPickup

theorem modify_id : w.modify g id = w := by
  unfold modify
  simp

theorem containerAddItemToFreeSlot_spec {s : Nat} {r : Nat × ItemWorld} (hw : w.Orderly)
    (htop : w.slots (.top me s) = some b) (hcont : w.isContainer b = true)
    (h : w.containerAddItemToFreeSlot b g = some r) :
    w.AddsAt me g (.cell b r.1) r.2 := by
  unfold containerAddItemToFreeSlot at h
  split at h
  · cases h
  · rename_i i hi
    obtain ⟨-, hlt, hnone⟩ := find_slotRange hi
    rw [← Option.some.inj h]
    have hadds : w.AddsAt me g (.cell b i) (((w.intoBag b g).modify g id).put (.cell b i) g) :=
      addsAt_intoBag hw htop hcont hlt (Option.isNone_iff_eq_none.1 hnone) Item.SameKind.refl
        fun _ => rfl
    rw [modify_id] at hadds
    exact hadds

/-- The double check finds every item of the player. -/
theorem inInventory_iff (hw : w.Orderly) :
    w.inInventory me g = true ↔ Placed w.slots g ∧ (w.item g).owner = some me := by
  unfold inInventory
  rw [List.any_eq_true]
  constructor
  · rintro ⟨s, hs, h⟩
    cases ht : w.slots (.top me s) with
    | none => simp [ht] at h
    | some t =>
      simp only [ht, Bool.or_eq_true, decide_eq_true_eq, Bool.and_eq_true, List.any_eq_true] at h
      have howner := hw.topOwner me s t ht
      rcases h with rfl | ⟨-, j, -, hj⟩
      · exact ⟨⟨_, ht⟩, howner⟩
      · obtain ⟨-, -, hj⟩ := getItem_eq_some hj
        refine ⟨⟨_, hj⟩, ?_⟩
        rw [hw.cellOwner _ _ _ hj, howner]
  · rintro ⟨⟨p, hp⟩, howner⟩
    cases p with
    | top a s =>
      have ha : a = me := Option.some.inj ((hw.topOwner a s g hp).symm.trans howner)
      subst ha
      refine ⟨s, mem_slotRange.2 ⟨by omega, hw.topRange a s g hp⟩, ?_⟩
      simp [hp]
    | cell b i =>
      obtain ⟨a, s, hs⟩ := hw.atTop b i g hp
      obtain ⟨hcont, hi⟩ := hw.cellRange b i g hp
      have hb : (w.item b).owner = some me := (hw.cellOwner b i g hp).symm.trans howner
      have ha : a = me := Option.some.inj ((hw.topOwner a s b hs).symm.trans hb)
      subst ha
      refine ⟨s, mem_slotRange.2 ⟨by omega, hw.topRange a s b hs⟩, ?_⟩
      simp only [hs, Bool.or_eq_true, decide_eq_true_eq, Bool.and_eq_true, List.any_eq_true]
      exact Or.inr ⟨hcont, i, mem_slotRange.2 ⟨by omega, hi⟩, by rw [getItem_of_lt hi, hp]⟩

/-- The slot number of a search is one of a slot or of a cell. -/
theorem FreePlace.slot_range {r : SlotResult} (h : w.FreePlace me r) :
    0 ≤ r.slot ∧ r.slot < MAX_INVENTORY_SLOT := by
  cases h with
  | top s hs _ _ =>
    dsimp only
    exact ⟨by omega, by exact_mod_cast hs⟩
  | cell c b i _ _ _ hi _ =>
    have hle := (w.item b).proto.containerSlots_le
    unfold containerSlots at hi
    unfold MAX_INVENTORY_SLOT
    dsimp only
    exact ⟨by omega, by omega⟩

theorem addsAt_intoTop {s : Nat} (hs : s < MAX_INVENTORY_SLOT)
    (hempty : w.slots (.top me s) = none) : w.AddsAt me g (.top me s) (w.intoTop me s g) := by
  unfold intoTop
  rw [modify_modify]
  refine addsAt_put (.top s hs) hempty ?_ ?_
  · exact (Item.sameKind_bindOnPickup _).trans ⟨rfl, rfl, rfl, rfl, rfl⟩
  · exact Item.owner_bindOnPickup _

/-- An addition fails and changes nothing, or adds the item at a place;
that is a slot of `m_pItems` only for the container slot -1. -/
theorem addItemAt_spec (hw : w.Orderly)
    (hslot : containerSlot = INVENTORY_SLOT_NOT_SET → 0 ≤ slot ∧ slot < MAX_INVENTORY_SLOT) :
    w.addItemAt me g containerSlot slot = (.error, w) ∨
      ∃ p w', w.addItemAt me g containerSlot slot = (.ok, w') ∧ w.AddsAt me g p w' ∧
        ∀ s, p = .top me s →
          containerSlot = INVENTORY_SLOT_NOT_SET ∧ w.usedSlot me g slot = some (s : Int) := by
  by_cases hc : containerSlot = INVENTORY_SLOT_NOT_SET
  · obtain ⟨h0, hlt⟩ := hslot hc
    unfold addItemAt
    rw [if_pos hc]
    cases hu : w.usedSlot me g slot with
    | none => exact Or.inl rfl
    | some t =>
      have ht : 0 ≤ t ∧ t < MAX_INVENTORY_SLOT := by
        unfold usedSlot at hu
        split at hu
        · obtain ⟨r, hr, rfl⟩ := Option.map_eq_some_iff.1 hu
          exact (findFreeInventorySlot_spec hr).slot_range
        · rw [← Option.some.inj hu]
          exact ⟨h0, hlt⟩
      dsimp only
      by_cases hfree : (w.getInventoryItem me t).isNone = true
      · have hempty := getInventoryItem_eq_none (Option.isNone_iff_eq_none.1 hfree) ht.1 ht.2
        rw [if_pos hfree]
        refine Or.inr ⟨.top me t.toNat, _, rfl, addsAt_intoTop (by omega) hempty, ?_⟩
        intro s hs
        injection hs with _ hs
        exact ⟨hc, by rw [← hs, Int.toNat_of_nonneg ht.1]⟩
      · rw [if_neg hfree]
        exact Or.inl rfl
  · unfold addItemAt
    rw [if_neg hc]
    cases hb : w.getInventoryItem me containerSlot with
    | none => exact Or.inl rfl
    | some b =>
      dsimp only
      split
      · rename_i hcont
        cases hadd : w.containerAddItem b slot g with
        | none => exact Or.inl rfl
        | some w' =>
          obtain ⟨-, htop⟩ := getInventoryItem_eq_some hb
          obtain ⟨i, -, hadds⟩ := containerAddItem_spec hw htop hcont.1 hadd
          refine Or.inr ⟨_, w', rfl, hadds, ?_⟩
          intro s hs
          cases hs
      · exact Or.inl rfl

/-- The item was nowhere and is now at a place of the player; a slot of
`m_pItems` among them meets `ok`. -/
def Added (w : ItemWorld) (me : PlayerGuid) (g : Guid) (ok : Nat → Prop) (w' : ItemWorld) : Prop :=
  ¬ Placed w.slots g ∧ ∃ p, w.AddsAt me g p w' ∧ ∀ s, p = .top me s → ok s

theorem Added.mono {ok ok' : Nat → Prop} (h : w.Added me g ok w') (himp : ∀ s, ok s → ok' s) :
    w.Added me g ok' w' := by
  obtain ⟨hg, p, hadds, hok⟩ := h
  exact ⟨hg, p, hadds, fun s hs => himp s (hok s hs)⟩

theorem Added.wellFormed {ok : Nat → Prop} (h : w.Added me g ok w') (hw : w.WellFormed)
    (hbag : ∀ s, ok s → IsBagSlot s → w.isContainer g = true) : w'.WellFormed := by
  obtain ⟨hg, p, hadds, hok⟩ := h
  exact hadds.wellFormed hw hg fun s hs => hbag s (hok s hs)

/-- The slots `m_AddItem` may put an item in: never one for bags, unless
that is the one it was told to use or fell back on. -/
def AllowedSlot (w : ItemWorld) (me : PlayerGuid) (g : Guid) (containerSlot slot : Int)
    (s : Nat) : Prop :=
  ¬ IsBagSlot s ∨
    (containerSlot = INVENTORY_SLOT_NOT_SET ∧ 0 ≤ slot ∧ w.usedSlot me g slot = some (s : Int))

/-- The item is nowhere, or with this player. -/
def NotElsewhere (w : ItemWorld) (me : PlayerGuid) (g : Guid) : Prop :=
  Placed w.slots g → (w.item g).owner = some me

theorem usedSlot_of_empty (h : w.getInventoryItem me slot = none) :
    w.usedSlot me g slot = some slot := by
  unfold usedSlot
  rw [h]
  rfl

theorem m_AddItem_spec (hw : w.Orderly) (hg : w.NotElsewhere me g) (containerSlot slot : Int) :
    w.m_AddItem me g containerSlot slot = (.error, w) ∨
      (w.m_AddItem me g containerSlot slot = (.duplicated, w) ∧ w.inInventory me g = true) ∨
      ∃ w', w.m_AddItem me g containerSlot slot = (.ok, w') ∧
        w.Added me g (w.AllowedSlot me g containerSlot slot) w' := by
  unfold m_AddItem
  split
  · exact Or.inl rfl
  rename_i hslot
  split
  · exact Or.inl rfl
  cases htarget : (if slot < 0 then w.findFreeInventorySlot me (w.item g).proto
      else some ⟨containerSlot, slot⟩) with
  | none => exact Or.inl rfl
  | some target =>
    dsimp only
    by_cases hdup : w.inInventory me g = true
    · rw [if_pos hdup]
      exact Or.inr (Or.inl ⟨rfl, hdup⟩)
    rw [if_neg hdup]
    have hfree : ¬ Placed w.slots g := fun h => hdup ((inInventory_iff hw).2 ⟨h, hg h⟩)
    -- the target is the given place, or a free one that is no slot for bags
    have hrange : target.containerSlot = INVENTORY_SLOT_NOT_SET →
        0 ≤ target.slot ∧ target.slot < MAX_INVENTORY_SLOT := by
      intro _
      split at htarget
      · exact (findFreeInventorySlot_spec htarget).slot_range
      · rw [← Option.some.inj htarget]
        exact ⟨by dsimp only; omega, by dsimp only; omega⟩
    rcases addItemAt_spec (g := g) hw hrange with herr | ⟨p, w', hok, hadds, hplace⟩
    · exact Or.inl herr
    · refine Or.inr (Or.inr ⟨w', hok, hfree, p, hadds, ?_⟩)
      intro s hs
      obtain ⟨hc, hused⟩ := hplace s hs
      split at htarget
      · left
        have hspec := findFreeInventorySlot_spec htarget
        cases hspec with
        | top t ht hbag hempty =>
          have hnone : w.getInventoryItem me (t : Int) = none := by
            unfold getInventoryItem
            rw [if_neg (by omega), Int.toNat_natCast]
            exact hempty
          rw [usedSlot_of_empty hnone] at hused
          have hts : t = s := Int.ofNat_inj.1 (Option.some.inj hused)
          rw [← hts]
          exact hbag
        | cell c b i _ _ _ _ _ => simp [INVENTORY_SLOT_NOT_SET] at hc
      · right
        obtain rfl := Option.some.inj htarget
        exact ⟨hc, by omega, hused⟩

theorem tryAddItem_spec (hw : w.Orderly) (hg : w.NotElsewhere me g)
    (h : w.tryAddItem me g containerSlot slot = some w') :
    (w' = w ∧ w.inInventory me g = true) ∨
      w.Added me g (w.AllowedSlot me g containerSlot slot) w' := by
  unfold tryAddItem at h
  rcases m_AddItem_spec hw hg containerSlot slot with
    herr | ⟨hdup, hin⟩ | ⟨v, hok, hadded⟩
  · rw [herr] at h
    cases h
  · rw [hdup] at h
    exact Or.inl ⟨(Option.some.inj h).symm, hin⟩
  · rw [hok] at h
    obtain rfl := Option.some.inj h
    exact Or.inr hadded

/-- A bag in the range takes items of the item's family and has room. -/
def BagRoom (w : ItemWorld) (me : PlayerGuid) (g : Guid) (a c : Nat) : Prop :=
  ∃ i b j, a ≤ i ∧ i < c ∧ w.bagAt me i (· = (w.item g).proto.bagFamily) = some b ∧
    j < w.containerSlots b ∧ w.slots (.cell b j) = none

/-- `AddItemToFreeSlot` puts the item into a bag of its family without
looking whether the player has it. -/
def SpecialBagRoom (w : ItemWorld) (me : PlayerGuid) (g : Guid) : Prop :=
  (w.item g).proto.bagFamily ≠ 0 ∧ (w.item g).proto.bagFamily &&& ITEM_TYPE_KEYRING = 0 ∧
    w.BagRoom me g INVENTORY_SLOT_BAG_START INVENTORY_SLOT_BAG_END

/-- A bag of the range takes the item directly. -/
theorem bagRoom_of_direct {a c : Nat} (hw : w.Orderly)
    (h : (slotRange a c).findSome? (fun i =>
        match w.bagAt me i (· = (w.item g).proto.bagFamily) with
        | none => none
        | some b => (w.containerAddItemToFreeSlot b g).map Prod.snd) = some w') :
    w.BagRoom me g a c ∧ ∃ b j, w.AddsAt me g (.cell b j) w' := by
  obtain ⟨i, ha, hc, hi⟩ := findSome_slotRange h
  split at hi
  · cases hi
  · rename_i b hb
    obtain ⟨htop, hcont, -⟩ := bagAt_spec hb
    obtain ⟨r, hr, rfl⟩ := Option.map_eq_some_iff.1 hi
    have hadds := containerAddItemToFreeSlot_spec hw htop hcont hr
    refine ⟨⟨i, b, r.1, ha, hc, hb, ?_, hadds.empty⟩, b, r.1, hadds⟩
    cases hadds.place with
    | cell _ _ _ _ _ hj => exact hj

/-- An empty slot that is not for bags is used as it is. -/
theorem not_isBagSlot_of_allowed {c : Int} {s : Nat} (hlt : s < MAX_INVENTORY_SLOT)
    (hempty : w.slots (.top me s) = none) (hbag : ¬ IsBagSlot s) :
    ∀ t, w.AllowedSlot me g c s t → ¬ IsBagSlot t := by
  rintro t (ht | ⟨-, -, hused⟩)
  · exact ht
  · have hnone : w.getInventoryItem me (s : Int) = none := by
      unfold getInventoryItem
      rw [if_neg (by omega), Int.toNat_natCast]
      exact hempty
    rw [usedSlot_of_empty hnone] at hused
    have hst : s = t := Int.ofNat_inj.1 (Option.some.inj hused)
    rw [← hst]
    exact hbag

theorem addItemToFreeSlot_spec (hw : w.Orderly) (hg : w.NotElsewhere me g)
    (hdup : Placed w.slots g → ¬ w.SpecialBagRoom me g)
    (h : w.addItemToFreeSlot me g = some w') :
    (w' = w ∧ w.inInventory me g = true) ∨ w.Added me g (fun s => ¬ IsBagSlot s) w' := by
  have hinto : ∀ a c, (∀ s, a ≤ s → s < c → s < MAX_INVENTORY_SLOT ∧ ¬ IsBagSlot s) →
      (slotRange a c).findSome? (fun (i : Nat) =>
        if (w.slots (.top me i)).isNone then w.tryAddItem me g INVENTORY_SLOT_NOT_SET i
        else none) = some w' →
      (w' = w ∧ w.inInventory me g = true) ∨ w.Added me g (fun s => ¬ IsBagSlot s) w' := by
    intro a c hrange hadd
    obtain ⟨i, ha, hc, hi⟩ := findSome_slotRange hadd
    split at hi
    · rename_i hempty
      obtain ⟨hlt, hbag⟩ := hrange i ha hc
      exact (tryAddItem_spec hw hg hi).imp id fun hadded =>
        hadded.mono (not_isBagSlot_of_allowed hlt (Option.isNone_iff_eq_none.1 hempty) hbag)
    · cases hi
  unfold addItemToFreeSlot at h
  simp only [Option.orElse_eq_orElse, Option.orElse_eq_or, Option.or_eq_some_iff] at h
  rcases h with hspecial | ⟨-, hbackpack | ⟨-, hbags⟩⟩
  · split at hspecial
    · cases hspecial
    rename_i hfamily
    split at hspecial
    · exact hinto _ _ (fun s => not_isBagSlot_keyring) hspecial
    · rename_i hkey
      right
      obtain ⟨hroom, b, j, hadds⟩ := bagRoom_of_direct hw hspecial
      have hfree : ¬ Placed w.slots g :=
        fun hplaced => hdup hplaced ⟨hfamily, by simpa using hkey, hroom⟩
      refine ⟨hfree, _, hadds, ?_⟩
      intro s hs
      cases hs
  · exact hinto _ _ (fun s => not_isBagSlot_backpack) hbackpack
  · obtain ⟨i, -, -, hi⟩ := findSome_slotRange hbags
    split at hi
    · cases hi
    · obtain ⟨j, -, -, hj⟩ := findSome_slotRange hi
      split at hj
      · refine (tryAddItem_spec hw hg hj).imp id fun hadded => hadded.mono ?_
        rintro s (hs | ⟨hc, -, -⟩)
        · exact hs
        · simp [INVENTORY_SLOT_NOT_SET] at hc
      · cases hj

/-- A property of a search with a default. -/
theorem getD_cases {α : Type} {P : α → Prop} {o : Option α} {d : α} (hd : P d)
    (hs : ∀ r, o = some r → P r) : P (o.getD d) := by
  cases o with
  | none => exact hd
  | some r => exact hs r rfl

theorem addItemToFreeBankSlot_spec (hw : w.Orderly) (hg : w.NotElsewhere me g)
    (hdup : Placed w.slots g → ¬ w.BagRoom me g BANK_SLOT_BAG_START BANK_SLOT_BAG_END) :
    (w.addItemToFreeBankSlot me g).2 = w ∨
      w.Added me g (fun s => ¬ IsBagSlot s) (w.addItemToFreeBankSlot me g).2 := by
  have hadd : ∀ {c s : Int}, (∀ t, w.AllowedSlot me g c s t → ¬ IsBagSlot t) →
      (w.m_AddItem me g c s).2 = w ∨ w.Added me g (fun s => ¬ IsBagSlot s)
        (w.m_AddItem me g c s).2 := by
    intro c s hallowed
    rcases m_AddItem_spec hw hg c s with h | ⟨h, -⟩ | ⟨v, h, hadded⟩
    · exact Or.inl (by rw [h])
    · exact Or.inl (by rw [h])
    · rw [h]
      exact Or.inr (hadded.mono hallowed)
  have hbank : ∀ s : Nat, w.slots (.top me s) = none → BANK_SLOT_ITEM_START ≤ s →
      s < BANK_SLOT_ITEM_END →
      ∀ t, w.AllowedSlot me g INVENTORY_SLOT_NOT_SET s t → ¬ IsBagSlot t := by
    intro s hempty ha hc
    obtain ⟨hlt, hbag⟩ := not_isBagSlot_bank ha hc
    exact not_isBagSlot_of_allowed hlt hempty hbag
  refine getD_cases (P := fun r : AddItemResult × ItemWorld =>
    r.2 = w ∨ w.Added me g (fun s => ¬ IsBagSlot s) r.2) (Or.inl rfl) ?_
  intro r h
  simp only [Option.orElse_eq_orElse, Option.orElse_eq_or, Option.or_eq_some_iff] at h
  rcases h with hspecial | ⟨-, hitems | ⟨-, hbags⟩⟩
  · right
    obtain ⟨i, ha, hc, hi⟩ := findSome_slotRange hspecial
    split at hi
    · cases hi
    · rename_i b hb
      obtain ⟨htop, hcont, -⟩ := bagAt_spec hb
      obtain ⟨v, hv, rfl⟩ := Option.map_eq_some_iff.1 hi
      have hadds := containerAddItemToFreeSlot_spec hw htop hcont hv
      have hroom : w.BagRoom me g BANK_SLOT_BAG_START BANK_SLOT_BAG_END := by
        refine ⟨i, b, v.1, ha, hc, hb, ?_, hadds.empty⟩
        cases hadds.place with
        | cell _ _ _ _ _ hj => exact hj
      refine ⟨fun hplaced => hdup hplaced hroom, _, hadds, ?_⟩
      intro s hs
      cases hs
  · obtain ⟨s, hs, rfl⟩ := Option.map_eq_some_iff.1 hitems
    obtain ⟨ha, hc, hempty⟩ := freeTop_spec hs
    exact hadd (hbank s hempty ha hc)
  · obtain ⟨i, -, -, hi⟩ := findSome_slotRange hbags
    split at hi
    · cases hi
    · obtain ⟨j, -, rfl⟩ := Option.map_eq_some_iff.1 hi
      refine hadd ?_
      rintro t (ht | ⟨hc, -, -⟩)
      · exact ht
      · simp [INVENTORY_SLOT_NOT_SET] at hc

/-! ## Removing -/

theorem slotRange_foldl_id {α : Type} (f : α → Nat → α) (v : α) (h : ∀ i, f v i = v) (l : List Nat) :
    l.foldl f v = v := by
  induction l with
  | nil => rfl
  | cons i l ih => rw [List.foldl_cons, h, ih]

/-- The destruction of an item that holds nothing takes its owner. -/
theorem destructor_of_noItems (h : w.NoItems g) :
    w.destructor g = w.modify g fun it => { it with owner := none } := by
  unfold destructor destructorAux
  split
  · rw [slotRange_foldl_id]
    intro i
    rw [h i]
  · rfl

/-- A bag that does not count as full is empty. -/
theorem noItems_of_not_full (hw : w.Orderly) (h : ¬ w.isFullBag g = true) : w.NoItems g := by
  intro i
  cases hi : w.slots (.cell g i) with
  | none => rfl
  | some x =>
    obtain ⟨hcont, hlt⟩ := hw.cellRange g i x hi
    refine absurd ?_ h
    unfold isFullBag hasItems
    simp only [Bool.and_eq_true, decide_eq_true_eq, List.any_eq_true]
    exact ⟨⟨by omega, hcont⟩, i, mem_slotRange.2 ⟨by omega, hlt⟩, by simp [hi]⟩

/-- Clearing the place of an empty item, with a write to the item. -/
theorem removesAt_clear {p : Place} {f : Item → Item} (hp : w.slots p = some g)
    (hno : w.NoItems g) (hkind : (f (w.item g)).SameKind (w.item g)) :
    w.RemovesAt p g ((w.clear p).modify g f) where
  held := hp
  noItems := hno
  slots := rfl
  fields := rfl
  nextGuid := rfl
  others := fun x hx => by rw [modify_item_of_ne hx, clear_item]
  kind := by
    rw [modify_item_self, clear_item]
    exact hkind

theorem noItems_clear {p : Place} (h : w.NoItems g) : (w.clear p).NoItems g := by
  intro i
  rw [clear_slots]
  by_cases hp : Place.cell g i = p
  · rw [hp, Function.update_self]
  · rw [Function.update_of_ne hp, h i]

/-- Clearing the place of an empty item that is then destroyed. -/
theorem removesAt_destructor {p : Place} {f : Item → Item} (hp : w.slots p = some g)
    (hno : w.NoItems g) (hkind : (f (w.item g)).SameKind (w.item g)) :
    w.RemovesAt p g (((w.clear p).modify g f).destructor g) := by
  have hempty : ((w.clear p).modify g f).NoItems g := noItems_clear hno
  rw [destructor_of_noItems hempty, modify_modify]
  exact removesAt_clear hp hno
    ⟨hkind.proto, hkind.isContainer, hkind.stackCount, hkind.wrappedItemId, hkind.entry⟩

theorem containerSafeRemove_spec (hw : w.Orderly) (b : Guid) (slot : Int) :
    w.containerSafeRemove b slot = (none, w) ∨
      ∃ i g w', slot = (i : Nat) ∧ w.containerSafeRemove b slot = (some g, w') ∧
        w.RemovesAt (.cell b i) g w' := by
  unfold containerSafeRemove
  split
  · exact Or.inl rfl
  rename_i hslot
  dsimp only
  cases hg : w.slots (.cell b slot.toNat) with
  | none => exact Or.inl rfl
  | some g =>
    dsimp only
    split
    · exact Or.inl rfl
    rw [if_pos (hw.cellOwner b _ g hg)]
    exact Or.inr ⟨slot.toNat, g, _, by omega, rfl,
      removesAt_clear hg (hw.noItems_of_cell hg) ⟨rfl, rfl, rfl, rfl, rfl⟩⟩

theorem containerSafeFullRemove_spec (hw : w.Orderly)
    (h : w.containerSafeFullRemove b slot = some w') :
    ∃ i g, slot = (i : Nat) ∧ w.RemovesAt (.cell b i) g w' := by
  unfold containerSafeFullRemove at h
  split at h
  · cases h
  rename_i hslot
  cases hg : w.slots (.cell b slot.toNat) with
  | none => simp [hg] at h
  | some g =>
    simp only [hg] at h
    split at h
    · cases h
    rw [← Option.some.inj h]
    exact ⟨slot.toNat, g, by omega,
      removesAt_destructor hg (hw.noItems_of_cell hg) ⟨rfl, rfl, rfl, rfl, rfl⟩⟩

/-- A removal fails and changes nothing, or empties a place of the player. -/
theorem safeRemoveFromSlot_spec (hw : w.Orderly) (me : PlayerGuid)
    (containerSlot slot : Int) :
    w.safeRemoveFromSlot me containerSlot slot = (none, w) ∨
      ∃ p g w', w.safeRemoveFromSlot me containerSlot slot = (some g, w') ∧ w.PlaceOf me p ∧
        w.RemovesAt p g w' := by
  unfold safeRemoveFromSlot
  split
  · rename_i hc
    have hin : w.getInventoryItemIn me containerSlot slot = w.getInventoryItem me slot := by
      unfold getInventoryItemIn
      rw [hc, if_pos le_rfl]
    rw [hin]
    cases hg : w.getInventoryItem me slot with
    | none => exact Or.inl rfl
    | some g =>
      obtain ⟨-, htop⟩ := getInventoryItem_eq_some hg
      dsimp only
      split
      · exact Or.inl rfl
      rename_i hfull
      rw [if_pos (hw.topOwner me _ g htop)]
      have hremoves := removesAt_clear (f := id) htop (noItems_of_not_full hw hfull)
        (Item.SameKind.refl _)
      rw [modify_id] at hremoves
      exact Or.inr ⟨_, g, _, rfl, .top _ (hw.topRange me _ g htop), hremoves⟩
  · cases hb : w.getInventoryItem me containerSlot with
    | none => exact Or.inl rfl
    | some b =>
      obtain ⟨-, htop⟩ := getInventoryItem_eq_some hb
      dsimp only
      split
      · rename_i hcont
        rcases containerSafeRemove_spec hw b slot with h | ⟨i, g, v, -, h, hrem⟩
        · exact Or.inl h
        · exact Or.inr ⟨_, g, v, h, .cell _ b i htop hcont (hw.cellRange b i g hrem.held).2, hrem⟩
      · exact Or.inl rfl

/-- Nothing, or a place of the player emptied. -/
def Removed (w : ItemWorld) (me : PlayerGuid) (w' : ItemWorld) : Prop :=
  w' = w ∨ ∃ p g, w.PlaceOf me p ∧ w.RemovesAt p g w'

theorem Removed.wellFormed (h : w.Removed me w') (hw : w.WellFormed) : w'.WellFormed := by
  rcases h with rfl | ⟨p, g, -, h⟩
  · exact hw
  · exact h.wellFormed hw

theorem removed_safeRemoveFromSlot (hw : w.Orderly) :
    w.Removed me (w.safeRemoveFromSlot me containerSlot slot).2 := by
  rcases safeRemoveFromSlot_spec hw me containerSlot slot with
    h | ⟨p, g, v, h, hp, hrem⟩
  · rw [h]
    exact Or.inl rfl
  · rw [h]
    exact Or.inr ⟨p, g, hp, hrem⟩

theorem removed_safeFullRemoveFromSlot (hw : w.Orderly) :
    w.Removed me (w.safeFullRemoveFromSlot me containerSlot slot).2 := by
  unfold safeFullRemoveFromSlot
  split
  · cases hg : w.getInventoryItem me slot with
    | none => exact Or.inl rfl
    | some g =>
      obtain ⟨-, htop⟩ := getInventoryItem_eq_some hg
      dsimp only
      split
      · exact Or.inl rfl
      rename_i hfull
      rw [if_pos (hw.topOwner me _ g htop)]
      have hremoves := removesAt_destructor (f := id) htop (noItems_of_not_full hw hfull)
        (Item.SameKind.refl _)
      rw [modify_id] at hremoves
      exact Or.inr ⟨_, g, .top _ (hw.topRange me _ g htop), hremoves⟩
  · cases hb : w.getInventoryItem me containerSlot with
    | none => exact Or.inl rfl
    | some b =>
      obtain ⟨-, htop⟩ := getInventoryItem_eq_some hb
      dsimp only
      split
      · rename_i hcont
        cases hrem : w.containerSafeFullRemove b slot with
        | none => exact Or.inl rfl
        | some v =>
          obtain ⟨i, g, -, h⟩ := containerSafeFullRemove_spec hw hrem
          exact Or.inr ⟨_, g, .cell _ b i htop hcont (hw.cellRange b i g h.held).2, h⟩
      · exact Or.inl rfl

/-! ## By GUID -/

theorem locateTop_spec {a c : Nat} {p : Place} (h : w.locateTop me g a c = some p) :
    ∃ s, a ≤ s ∧ s < c ∧ p = .top me s ∧ w.slots (.top me s) = some g := by
  obtain ⟨s, hs, rfl⟩ := Option.map_eq_some_iff.1 h
  obtain ⟨ha, hc, hg⟩ := find_slotRange hs
  exact ⟨s, ha, hc, rfl, of_decide_eq_true hg⟩

theorem locateInBags_spec {a c : Nat} {p : Place} (h : w.locateInBags me g a c = some p) :
    w.slots p = some g ∧ ((∃ s, p = .top me s) ∨ ∃ s b i, p = .cell b i ∧
      w.slots (.top me s) = some b ∧ w.isContainer b = true ∧ i < w.containerSlots b) := by
  obtain ⟨s, -, -, hs⟩ := findSome_slotRange h
  cases ht : w.slots (.top me s) with
  | none => simp [ht] at hs
  | some t =>
    simp only [ht] at hs
    split at hs
    · rename_i htg
      rw [← Option.some.inj hs]
      exact ⟨by rw [ht, htg], Or.inl ⟨s, rfl⟩⟩
    split at hs
    · rename_i hcont
      obtain ⟨j, hj, rfl⟩ := Option.map_eq_some_iff.1 hs
      obtain ⟨-, hlt, hg⟩ := find_slotRange hj
      have hg := of_decide_eq_true hg
      rw [getItem_of_lt hlt] at hg
      exact ⟨hg, Or.inr ⟨s, t, j, rfl, ht, hcont, hlt⟩⟩
    · cases hs

/-- What the search finds is the item, in a slot or in a cell of a bag. -/
theorem locate_spec {p : Place} (h : w.locate me g = some p) :
    w.slots p = some g ∧ ((∃ s, p = .top me s) ∨ ∃ s b i, p = .cell b i ∧
      w.slots (.top me s) = some b ∧ w.isContainer b = true ∧ i < w.containerSlots b) := by
  have htop : ∀ {a c : Nat}, w.locateTop me g a c = some p →
      w.slots p = some g ∧ ((∃ s, p = .top me s) ∨ ∃ s b i, p = .cell b i ∧
        w.slots (.top me s) = some b ∧ w.isContainer b = true ∧ i < w.containerSlots b) := by
    intro a c hl
    obtain ⟨s, -, -, rfl, hg⟩ := locateTop_spec hl
    exact ⟨hg, Or.inl ⟨s, rfl⟩⟩
  unfold locate at h
  simp only [Option.orElse_eq_orElse, Option.orElse_eq_or, Option.or_eq_some_iff] at h
  rcases h with h | ⟨-, h | ⟨-, h | ⟨-, h | ⟨-, h | ⟨-, h⟩⟩⟩⟩⟩
  · exact htop h
  · exact htop h
  · exact htop h
  · exact locateInBags_spec h
  · exact htop h
  · exact locateInBags_spec h

theorem getInventoryItem_top {s : Nat} (hw : w.Orderly) (h : w.slots (.top me s) = some g) :
    w.getInventoryItem me s = some g := by
  have hlt := hw.topRange me s g h
  unfold getInventoryItem
  rw [if_neg (by omega), Int.toNat_natCast, h]

/-- Taking an item out of its slot: a full bag stays, anything else goes. -/
theorem safeRemoveFromSlot_top {s : Nat} (hw : w.Orderly)
    (h : w.slots (.top me s) = some g) :
    w.safeRemoveFromSlot me INVENTORY_SLOT_NOT_SET s =
      if w.isFullBag g then (none, w) else (some g, w.clear (.top me s)) := by
  unfold safeRemoveFromSlot getInventoryItemIn
  rw [if_pos rfl, if_pos le_rfl, getInventoryItem_top hw h]
  dsimp only
  split
  · rfl
  · rw [if_pos (hw.topOwner me s g h), Int.toNat_natCast]

theorem removesAt_top {s : Nat} (hw : w.Orderly) (h : w.slots (.top me s) = some g)
    (hfull : ¬ w.isFullBag g = true) : w.RemovesAt (.top me s) g (w.clear (.top me s)) := by
  have hremoves := removesAt_clear (f := id) h (noItems_of_not_full hw hfull)
    (Item.SameKind.refl _)
  rw [modify_id] at hremoves
  exact hremoves

/-- Taking an item out of a cell never fails. -/
theorem containerSafeRemove_cell {i : Nat} (hw : w.Orderly)
    (h : w.slots (.cell b i) = some g) :
    ∃ w', w.containerSafeRemove b i = (some g, w') ∧ w.RemovesAt (.cell b i) g w' := by
  obtain ⟨-, hlt⟩ := hw.cellRange b i g h
  obtain ⟨p, s, htop⟩ := hw.atTop b i g h
  have hgb : g ≠ b := by
    rintro rfl
    have heq := hw.once _ _ _ htop h
    cases heq
  unfold containerSafeRemove
  rw [if_neg (by omega), Int.toNat_natCast]
  dsimp only
  rw [h]
  dsimp only
  rw [if_neg hgb, if_pos (hw.cellOwner b i g h)]
  exact ⟨_, rfl, removesAt_clear h (hw.noItems_of_cell h) ⟨rfl, rfl, rfl, rfl, rfl⟩⟩

theorem placeOf_locate {p : Place} (hw : w.Orderly) (h : w.locate me g = some p) :
    w.PlaceOf me p ∧ w.slots p = some g := by
  obtain ⟨hg, ⟨s, rfl⟩ | ⟨s, b, i, rfl, htop, hcont, hi⟩⟩ := locate_spec h
  · exact ⟨.top s (hw.topRange me s g hg), hg⟩
  · exact ⟨.cell s b i htop hcont hi, hg⟩

/-- Taking an item out by its GUID: it is not found, it is a full bag, or
its place is emptied. -/
theorem safeRemoveByGuid_spec (hw : w.Orderly) (me : PlayerGuid) (g : Guid) :
    (w.safeRemoveByGuid me g = (none, w) ∧ (w.locate me g = none ∨ w.isFullBag g = true)) ∨
      ∃ p w', w.safeRemoveByGuid me g = (some g, w') ∧ w.locate me g = some p ∧
        w.PlaceOf me p ∧ w.RemovesAt p g w' := by
  unfold safeRemoveByGuid
  cases hl : w.locate me g with
  | none => exact Or.inl ⟨rfl, Or.inl rfl⟩
  | some p =>
    obtain ⟨hplace, hg⟩ := placeOf_locate hw hl
    cases hplace with
    | top s hs =>
      dsimp only
      rw [safeRemoveFromSlot_top hw hg]
      by_cases hfull : w.isFullBag g = true
      · rw [if_pos hfull]
        exact Or.inl ⟨rfl, Or.inr hfull⟩
      · rw [if_neg hfull]
        exact Or.inr ⟨_, _, rfl, rfl, .top s hs, removesAt_top hw hg hfull⟩
    | cell s b i htop hcont hi =>
      obtain ⟨w', hrem, hremoves⟩ := containerSafeRemove_cell hw hg
      exact Or.inr ⟨_, w', hrem, rfl, .cell s b i htop hcont hi, hremoves⟩

theorem removed_safeRemoveByGuid (hw : w.Orderly) :
    w.Removed me (w.safeRemoveByGuid me g).2 := by
  rcases safeRemoveByGuid_spec hw me g with ⟨h, -⟩ | ⟨p, w', h, -, hp, hrem⟩
  · rw [h]
    exact Or.inl rfl
  · rw [h]
    exact Or.inr ⟨p, g, hp, hrem⟩

theorem removed_safeFullRemoveByGuid (hw : w.Orderly) :
    w.Removed me (w.safeFullRemoveByGuid me g).2 := by
  unfold safeFullRemoveByGuid
  cases hl : w.locate me g with
  | none => exact Or.inl rfl
  | some p =>
    obtain ⟨hplace, -⟩ := placeOf_locate hw hl
    cases hplace with
    | top s hs => exact removed_safeFullRemoveFromSlot hw
    | cell s b i htop hcont hi =>
      dsimp only
      cases hrem : w.containerSafeFullRemove b i with
      | none => exact Or.inl rfl
      | some v =>
        obtain ⟨j, x, hj, h⟩ := containerSafeFullRemove_spec hw hrem
        rw [Int.ofNat_inj] at hj
        subst hj
        exact Or.inr ⟨_, x, .cell s b i htop hcont hi, h⟩

/-! ## Stacks -/

/-- A write to a stack count changes nothing else of an item. -/
theorem setStackCount_field {α : Type} {c : UInt32} (f : Item → α)
    (hf : ∀ it c, f { it with stackCount := c } = f it) (x : Guid) :
    f ((w.setStackCount g c).item x) = f (w.item x) := by
  unfold setStackCount
  by_cases hx : x = g
  · rw [hx, modify_item_self, hf]
  · rw [modify_item_of_ne hx]

theorem setStackCount_orderly {c : UInt32} (hw : w.Orderly) : (w.setStackCount g c).Orderly :=
  hw.congr rfl rfl (fun x _ => setStackCount_field Item.proto (fun _ _ => rfl) x)
    (fun x _ => setStackCount_field Item.isContainer (fun _ _ => rfl) x)
    fun x _ => setStackCount_field Item.owner (fun _ _ => rfl) x

theorem setStackCount_wellFormed {c : UInt32} (hw : w.WellFormed) :
    (w.setStackCount g c).WellFormed :=
  hw.congr rfl rfl (setStackCount_field Item.proto fun _ _ => rfl)
    (setStackCount_field Item.isContainer fun _ _ => rfl)
    fun x _ => setStackCount_field Item.owner (fun _ _ => rfl) x

theorem fillStack_wellFormed {src dst : Guid} (hw : w.WellFormed) :
    (w.fillStack src dst).WellFormed := by
  exact setStackCount_wellFormed (setStackCount_wellFormed hw)

/-! ## Swapping inside a bag -/

/-- The two pointers of a bag change places, and with them the fields. -/
theorem exchanges_exchangeCells {i j : Nat} (hw : w.WellFormed) (hi : i < w.containerSlots b)
    (hj : j < w.containerSlots b) :
    w.Exchanges (.cell b i) (.cell b j) (w.exchangeCells b i j) where
  siblings := .cells b i j hi hj
  slots := update_update_eq_swap w.slots (.cell b i) (.cell b j)
  fields := by
    have hslots := update_update_eq_swap w.slots (.cell b i) (.cell b j)
    unfold exchangeCells
    dsimp only
    rw [hslots, Function.comp_apply, Function.comp_apply, Equiv.swap_apply_left,
      Equiv.swap_apply_right, ← hw.fields, ← hw.fields, Equiv.swap_comm]
    exact update_update_eq_swap w.fields (.cell b j) (.cell b i)
  nextGuid := rfl
  kind := fun _ => Item.SameKind.refl _
  owner := fun _ => rfl

theorem exchangeCells_wellFormed {i j : Nat} (hw : w.WellFormed) (hi : i < w.containerSlots b)
    (hj : j < w.containerSlots b) : (w.exchangeCells b i j).WellFormed := by
  refine (exchanges_exchangeCells hw hi hj).wellFormed hw ?_ ?_
  · intro a s x h
    cases h
  · intro a s x h
    cases h

theorem containerSwapItems_wellFormed {srcSlot dstSlot : Int} (hw : w.WellFormed) :
    (w.containerSwapItems b srcSlot dstSlot).WellFormed := by
  unfold containerSwapItems
  split
  · exact hw
  split
  · exact hw
  rename_i hsrc hdst
  have hexchanged : (w.exchangeCells b srcSlot.toNat dstSlot.toNat).WellFormed :=
    exchangeCells_wellFormed hw (by omega) (by omega)
  dsimp only
  split
  · split
    · split
      · -- the source stack is added to the destination and destroyed
        rename_i src dst _ _ _ _
        have hadded : (w.setStackCount dst (credit (w.stackCount dst) (w.stackCount src))).WellFormed :=
          setStackCount_wellFormed hw
        refine getD_cases (P := WellFormed) hadded ?_
        intro v hv
        obtain ⟨i, x, -, hrem⟩ := containerSafeFullRemove_spec hadded.orderly hv
        exact hrem.wellFormed hadded
      split
      · exact hexchanged
      · exact fillStack_wellFormed hw
    · exact hexchanged
  · exact hexchanged

end ItemWorld

end HearthStone
