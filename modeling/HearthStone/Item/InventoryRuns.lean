/-
HearthStone.Item.InventoryRuns — every run of inventory operations from
an empty inventory.

`InventoryOp` is an operation of `ItemInterface` on the player's slots or
of `Container` on a bag in one of them, in any order and with any
arguments. The representation holds after a run whose operations meet
`Ok`, which excludes four things the code does not look at:

* `SafeAddItem` takes an item that is no bag into a slot for bags, also
  by falling back on a cell number as a slot number;
* the searches for a bag of the item's family, and `Container::AddItem`
  itself, take an item the player already has;
* `SwapItemSlots` exchanges an item that is no bag into a slot for bags;
* in robes it adds an item again without removing it.
-/
import HearthStone.Lib.Run
import HearthStone.Item.SwapTheorems

namespace HearthStone

open Lib

/-- An operation on the inventory of one player. -/
inductive InventoryOp
  | addItem (g : Guid) (containerSlot slot : Int)
  | addItemToFreeSlot (g : Guid)
  | addItemToFreeBankSlot (g : Guid)
  | safeRemoveFromSlot (containerSlot slot : Int)
  | safeRemoveByGuid (g : Guid)
  | safeFullRemoveFromSlot (containerSlot slot : Int)
  | safeFullRemoveByGuid (g : Guid)
  | swapItemSlots (gmRobes : Bool) (srcslot dstslot : Int)
  /-- the bag in slot `c` -/
  | containerAddItem (c : Nat) (slot : Int) (g : Guid)
  | containerAddItemToFreeSlot (c : Nat) (g : Guid)
  | containerSwapItems (c : Nat) (srcSlot dstSlot : Int)
  | containerSafeRemove (c : Nat) (slot : Int)
  | containerSafeFullRemove (c : Nat) (slot : Int)

namespace ItemWorld

variable {w w' : ItemWorld} {me : PlayerGuid} {g b : Guid} {p q : Place}

/-- The bag in a slot of the player. -/
def bagIn (w : ItemWorld) (me : PlayerGuid) (c : Nat) : Option Guid :=
  (w.slots (.top me c)).filter fun b => w.isContainer b

/-- One operation; on the bag of a slot that has none it is undefined. -/
def inventoryStep (me : PlayerGuid) (w : ItemWorld) : InventoryOp → Option ItemWorld
  | .addItem g containerSlot slot => some (w.m_AddItem me g containerSlot slot).2
  | .addItemToFreeSlot g => some ((w.addItemToFreeSlot me g).getD w)
  | .addItemToFreeBankSlot g => some (w.addItemToFreeBankSlot me g).2
  | .safeRemoveFromSlot containerSlot slot => some (w.safeRemoveFromSlot me containerSlot slot).2
  | .safeRemoveByGuid g => some (w.safeRemoveByGuid me g).2
  | .safeFullRemoveFromSlot containerSlot slot =>
      some (w.safeFullRemoveFromSlot me containerSlot slot).2
  | .safeFullRemoveByGuid g => some (w.safeFullRemoveByGuid me g).2
  | .swapItemSlots gmRobes srcslot dstslot => w.swapItemSlots me gmRobes srcslot dstslot
  | .containerAddItem c slot g => (w.bagIn me c).map fun b => (w.containerAddItem b slot g).getD w
  | .containerAddItemToFreeSlot c g =>
      (w.bagIn me c).map fun b => ((w.containerAddItemToFreeSlot b g).map Prod.snd).getD w
  | .containerSwapItems c srcSlot dstSlot =>
      (w.bagIn me c).map fun b => w.containerSwapItems b srcSlot dstSlot
  | .containerSafeRemove c slot => (w.bagIn me c).map fun b => (w.containerSafeRemove b slot).2
  | .containerSafeFullRemove c slot =>
      (w.bagIn me c).map fun b => (w.containerSafeFullRemove b slot).getD w

/-! ## When an operation is safe -/

/-- The slot an insertion would use is free, is for bags, and the item is
none. -/
def StrayAdd (w : ItemWorld) (me : PlayerGuid) (g : Guid) (containerSlot slot : Int) : Prop :=
  containerSlot = INVENTORY_SLOT_NOT_SET ∧ 0 ≤ slot ∧ w.inInventory me g = false ∧
    ∃ s : Nat, w.usedSlot me g slot = some (s : Int) ∧ w.slots (.top me s) = none ∧
      IsBagSlot s ∧ w.isContainer g = false

/-- The request exchanges the two slots: the other is empty, the stacks do
not merge, or the destination is full. -/
def SwapExchanges (w : ItemWorld) (me : PlayerGuid) (src : Guid) (dstslot : Int) : Prop :=
  ∀ dst, w.getInventoryItem me dstslot = some dst →
    ¬ ((w.item src).entry = (w.item dst).entry ∧ (w.item src).proto.maxCount > 1 ∧
        (w.item src).wrappedItemId = 0 ∧ (w.item dst).wrappedItemId = 0) ∨
      (¬ w.stackCount src + w.stackCount dst ≤ (w.item dst).proto.maxCount ∧
        w.stackCount dst = (w.item dst).proto.maxCount)

/-- The condition on `SwapItemSlots`. -/
def SwapOk (w : ItemWorld) (me : PlayerGuid) (gmRobes : Bool) (srcslot dstslot : Int) : Prop :=
  ∀ src, w.getInventoryItem me srcslot = some src →
    if gmRobes ∧ dstslot < INVENTORY_SLOT_BAG_END ∧ w.isRobe src = false
    then ¬ w.SpecialBagRoom me src
    else w.SwapExchanges me src dstslot → w.BagsStay me srcslot.toNat dstslot.toNat

/-- The condition on an operation, on the state before it. -/
def InventoryOk (me : PlayerGuid) (w : ItemWorld) : InventoryOp → Prop
  | .addItem g containerSlot slot => ¬ w.StrayAdd me g containerSlot slot
  | .addItemToFreeSlot g => w.inInventory me g = true → ¬ w.SpecialBagRoom me g
  | .addItemToFreeBankSlot g =>
      w.inInventory me g = true → ¬ w.BagRoom me g BANK_SLOT_BAG_START BANK_SLOT_BAG_END
  | .swapItemSlots gmRobes srcslot dstslot =>
      0 ≤ srcslot ∧ srcslot < MAX_INVENTORY_SLOT ∧ 0 ≤ dstslot ∧ dstslot < MAX_INVENTORY_SLOT →
        w.SwapOk me gmRobes srcslot dstslot
  | .containerAddItem c slot g => w.inInventory me g = true →
      ∀ b, w.bagIn me c = some b → ∀ j : Nat, slot = j → j < w.containerSlots b →
        w.slots (.cell b j) ≠ none
  | .containerAddItemToFreeSlot c g => w.inInventory me g = true →
      ∀ b, w.bagIn me c = some b → ∀ j, j < w.containerSlots b → w.slots (.cell b j) ≠ none
  | _ => True

/-! ## One player only -/

/-- Nobody else holds anything. -/
def Sole (w : ItemWorld) (me : PlayerGuid) : Prop :=
  ∀ a s g, w.slots (.top a s) = some g → a = me

theorem Sole.notElsewhere (h : w.Sole me) (hw : w.WellFormed) : w.NotElsewhere me g := by
  rintro ⟨p, hp⟩
  cases p with
  | top a s =>
    rw [hw.topOwner a s g hp, h a s g hp]
  | cell b i =>
    obtain ⟨a, s, hs, hb⟩ := hw.bagOwner hp
    rw [hw.cellOwner b i g hp, hb, h a s b hs]

/-- The invariant of a run. -/
structure InventoryInv (me : PlayerGuid) (w : ItemWorld) : Prop where
  wellFormed : w.WellFormed
  sole : w.Sole me

theorem AddsAt.sole (h : w.AddsAt me g p w') (hs : w.Sole me) : w'.Sole me := by
  intro a s x hx
  rcases h.cases hx with ⟨hp, -⟩ | ⟨-, hold⟩
  · have hplace := h.place
    rw [← hp] at hplace
    cases hplace with
    | top _ _ => rfl
  · exact hs a s x hold

theorem Added.inventoryInv {ok : Nat → Prop} (h : w.Added me g ok w') (hi : w.InventoryInv me)
    (hbag : ∀ s, ok s → IsBagSlot s → w.isContainer g = true) : w'.InventoryInv me := by
  refine ⟨h.wellFormed hi.wellFormed hbag, ?_⟩
  obtain ⟨-, p, hadds, -⟩ := h
  exact hadds.sole hi.sole

theorem Removed.inventoryInv (h : w.Removed me w') (hi : w.InventoryInv me) :
    w'.InventoryInv me := by
  refine ⟨h.wellFormed hi.wellFormed, ?_⟩
  rcases h with rfl | ⟨p, g, -, h⟩
  · exact hi.sole
  · exact fun a s x hx => hi.sole a s x (h.of hx).2

theorem inventoryInv_of_slots (hw : w'.WellFormed) (hi : w.InventoryInv me)
    (hslots : ∀ a s g, w'.slots (.top a s) = some g → ∃ t, w.slots (.top a t) = some g) :
    w'.InventoryInv me := by
  refine ⟨hw, ?_⟩
  intro a s g hg
  obtain ⟨t, ht⟩ := hslots a s g hg
  exact hi.sole a t g ht

/-! ## The operations -/

theorem inventoryInv_addItem {c s : Int} (hi : w.InventoryInv me)
    (hok : ¬ w.StrayAdd me g c s) : (w.m_AddItem me g c s).2.InventoryInv me := by
  have hg := hi.sole.notElsewhere (g := g) hi.wellFormed
  rcases m_AddItem_spec hi.wellFormed.orderly hg c s with
    h | ⟨h, -⟩ | ⟨w', h, hadded⟩
  · rw [h]
    exact hi
  · rw [h]
    exact hi
  · rw [h]
    obtain ⟨hfree, p, hadds, hplace⟩ := hadded
    have hin : w.inInventory me g = false := inInventory_of_not_placed hfree
    refine ⟨hadds.wellFormed hi.wellFormed hfree ?_, hadds.sole hi.sole⟩
    intro t ht hbag
    rcases hplace t ht with hnot | ⟨hc, h0, hused⟩
    · exact absurd hbag hnot
    · by_cases hcont : w.isContainer g = true
      · exact hcont
      · refine absurd ⟨hc, h0, hin, t, hused, ?_, hbag, by simpa using hcont⟩ hok
        rw [← ht]
        exact hadds.empty

/-- An addition that succeeded outside the slots for bags. -/
theorem inventoryInv_of_added (hi : w.InventoryInv me)
    (h : w' = w ∨ w.Added me g (fun s => ¬ IsBagSlot s) w') : w'.InventoryInv me := by
  rcases h with rfl | hadded
  · exact hi
  · exact hadded.inventoryInv hi fun s hs hbag => absurd hbag hs

theorem inventoryInv_addItemToFreeSlot (hi : w.InventoryInv me)
    (hok : w.inInventory me g = true → ¬ w.SpecialBagRoom me g) :
    ((w.addItemToFreeSlot me g).getD w).InventoryInv me := by
  have hg := hi.sole.notElsewhere (g := g) hi.wellFormed
  refine getD_cases (P := InventoryInv me) hi ?_
  intro v hv
  have hspec := addItemToFreeSlot_spec hi.wellFormed.orderly hg
    (fun hp => hok ((inInventory_iff hi.wellFormed.orderly).2 ⟨hp, hg hp⟩)) hv
  exact inventoryInv_of_added hi (hspec.imp And.left id)

theorem inventoryInv_addItemToFreeBankSlot (hi : w.InventoryInv me)
    (hok : w.inInventory me g = true → ¬ w.BagRoom me g BANK_SLOT_BAG_START BANK_SLOT_BAG_END) :
    (w.addItemToFreeBankSlot me g).2.InventoryInv me := by
  have hg := hi.sole.notElsewhere (g := g) hi.wellFormed
  exact inventoryInv_of_added hi (addItemToFreeBankSlot_spec hi.wellFormed.orderly hg
    fun hp => hok ((inInventory_iff hi.wellFormed.orderly).2 ⟨hp, hg hp⟩))

theorem bagIn_eq_some {c : Nat} (h : w.bagIn me c = some b) :
    w.slots (.top me c) = some b ∧ w.isContainer b = true := by
  exact Option.filter_eq_some_iff.1 h

theorem inventoryInv_containerAddItem {c : Nat} {slot : Int} (hi : w.InventoryInv me)
    (hb : w.bagIn me c = some b)
    (hok : w.inInventory me g = true → ∀ j : Nat, slot = j → j < w.containerSlots b →
      w.slots (.cell b j) ≠ none) : ((w.containerAddItem b slot g).getD w).InventoryInv me := by
  obtain ⟨htop, hcont⟩ := bagIn_eq_some hb
  have hg := hi.sole.notElsewhere (g := g) hi.wellFormed
  refine getD_cases (P := InventoryInv me) hi ?_
  intro v hv
  obtain ⟨j, hj, hadds⟩ := containerAddItem_spec hi.wellFormed.orderly htop hcont hv
  have hlt : j < w.containerSlots b := by
    cases hadds.place with
    | cell _ _ _ _ _ hlt => exact hlt
  have hfree : ¬ Placed w.slots g := by
    intro hp
    exact hok ((inInventory_iff hi.wellFormed.orderly).2 ⟨hp, hg hp⟩) j hj hlt hadds.empty
  refine ⟨hadds.wellFormed hi.wellFormed hfree ?_, hadds.sole hi.sole⟩
  intro s hs
  cases hs

theorem inventoryInv_containerAddItemToFreeSlot {c : Nat} (hi : w.InventoryInv me)
    (hb : w.bagIn me c = some b)
    (hok : w.inInventory me g = true → ∀ j, j < w.containerSlots b →
      w.slots (.cell b j) ≠ none) :
    (((w.containerAddItemToFreeSlot b g).map Prod.snd).getD w).InventoryInv me := by
  obtain ⟨htop, hcont⟩ := bagIn_eq_some hb
  have hg := hi.sole.notElsewhere (g := g) hi.wellFormed
  refine getD_cases (P := InventoryInv me) hi ?_
  intro v hv
  obtain ⟨r, hr, rfl⟩ := Option.map_eq_some_iff.1 hv
  have hadds := containerAddItemToFreeSlot_spec hi.wellFormed.orderly htop hcont hr
  have hlt : r.1 < w.containerSlots b := by
    cases hadds.place with
    | cell _ _ _ _ _ hlt => exact hlt
  have hfree : ¬ Placed w.slots g := by
    intro hp
    exact hok ((inInventory_iff hi.wellFormed.orderly).2 ⟨hp, hg hp⟩) r.1 hlt hadds.empty
  refine ⟨hadds.wellFormed hi.wellFormed hfree ?_, hadds.sole hi.sole⟩
  intro s hs
  cases hs

theorem setStackCount_inventoryInv {c : UInt32} (hi : w.InventoryInv me) :
    (w.setStackCount g c).InventoryInv me :=
  ⟨setStackCount_wellFormed hi.wellFormed, hi.sole⟩

theorem inventoryInv_containerSwapItems {srcSlot dstSlot : Int} (hi : w.InventoryInv me) :
    (w.containerSwapItems b srcSlot dstSlot).InventoryInv me := by
  refine inventoryInv_of_slots (containerSwapItems_wellFormed hi.wellFormed) hi ?_
  intro a s g hg
  refine ⟨s, ?_⟩
  -- no branch writes a slot of a player
  have hcells : ∀ i j, (w.exchangeCells b i j).slots (.top a s) = w.slots (.top a s) := by
    intro i j
    unfold exchangeCells
    dsimp only
    rw [Function.update_of_ne (by simp), Function.update_of_ne (by simp)]
  unfold containerSwapItems at hg
  split at hg
  · exact hg
  split at hg
  · exact hg
  dsimp only at hg
  split at hg
  · rename_i src dst _ _
    split at hg
    · split at hg
      · have hmerged : (w.setStackCount dst
            (credit (w.stackCount dst) (w.stackCount src))).WellFormed :=
          setStackCount_wellFormed hi.wellFormed
        cases hrem : (w.setStackCount dst
            (credit (w.stackCount dst) (w.stackCount src))).containerSafeFullRemove b srcSlot with
        | none =>
          rw [hrem] at hg
          exact hg
        | some v =>
          rw [hrem] at hg
          obtain ⟨i, x, -, hremoves⟩ := containerSafeFullRemove_spec hmerged.orderly hrem
          exact (hremoves.of hg).2
      split at hg
      · rw [hcells] at hg
        exact hg
      · exact hg
    · rw [hcells] at hg
      exact hg
  · rw [hcells] at hg
    exact hg

theorem inventoryInv_exchangeTops {src : Guid} {dst : Option Guid} {s d : Nat}
    (hi : w.InventoryInv me) (hs : s < MAX_INVENTORY_SLOT) (hd : d < MAX_INVENTORY_SLOT)
    (hsrc : w.slots (.top me s) = some src) (hdst : w.slots (.top me d) = dst)
    (hbags : w.BagsStay me s d) : (w.exchangeTops me src dst s d).InventoryInv me := by
  refine inventoryInv_of_slots (exchangeTops_wellFormed hi.wellFormed hs hd hsrc hdst hbags) hi ?_
  intro a t g hg
  have hex := exchangeTops_exchanges hi.wellFormed hs hd hsrc hdst
  obtain ⟨t', ht', -⟩ := hex.siblings.swap_top a t
  rw [hex.at, ht'] at hg
  exact ⟨t', hg⟩

theorem inventoryInv_swapItemSlots {gmRobes : Bool} {srcslot dstslot : Int}
    (hi : w.InventoryInv me)
    (hok : 0 ≤ srcslot ∧ srcslot < MAX_INVENTORY_SLOT ∧ 0 ≤ dstslot ∧
      dstslot < MAX_INVENTORY_SLOT → w.SwapOk me gmRobes srcslot dstslot)
    (hstep : w.swapItemSlots me gmRobes srcslot dstslot = some w') : w'.InventoryInv me := by
  unfold swapItemSlots at hstep
  split at hstep
  · exact Option.some.inj hstep ▸ hi
  rename_i hsrcRange
  split at hstep
  · exact Option.some.inj hstep ▸ hi
  rename_i hdstRange
  rw [not_or] at hsrcRange hdstRange
  have hok := hok ⟨by omega, by omega, by omega, by omega⟩
  cases hsrc : w.getInventoryItem me srcslot with
  | none => simp [hsrc] at hstep
  | some src =>
    simp only [hsrc] at hstep
    have hok := hok src hsrc
    obtain ⟨hs0, htop⟩ := getInventoryItem_eq_some hsrc
    by_cases hrobes : gmRobes ∧ dstslot < INVENTORY_SLOT_BAG_END ∧ w.isRobe src = false
    · rw [if_pos hrobes] at hstep hok
      rw [← Option.some.inj hstep]
      exact inventoryInv_addItemToFreeSlot hi fun _ => hok
    · rw [if_neg hrobes] at hstep hok
      have hdst : w.slots (.top me dstslot.toNat) = w.getInventoryItem me dstslot := by
        unfold getInventoryItem
        rw [if_neg (by omega)]
      have hexchanged : w.SwapExchanges me src dstslot →
          (w.exchangeTops me src (w.getInventoryItem me dstslot) srcslot.toNat
            dstslot.toNat).InventoryInv me :=
        fun h => inventoryInv_exchangeTops hi (by omega) (by omega) htop hdst (hok h)
      cases hd : w.getInventoryItem me dstslot with
      | none =>
        simp only [hd] at hstep
        rw [← Option.some.inj hstep, ← hd]
        refine hexchanged ?_
        intro dst hdst'
        rw [hd] at hdst'
        cases hdst'
      | some dst =>
        simp only [hd] at hstep
        split at hstep
        · rename_i hmerge
          split at hstep
          · rw [← Option.some.inj hstep]
            have hadded : (w.setStackCount dst
                (credit (w.stackCount dst) (w.stackCount src))).InventoryInv me :=
              setStackCount_inventoryInv hi
            exact (removed_safeFullRemoveFromSlot hadded.wellFormed.orderly).inventoryInv hadded
          rename_i htotal
          split at hstep
          · rename_i hfull
            rw [← Option.some.inj hstep, ← hd]
            refine hexchanged ?_
            intro dst' hdst'
            obtain rfl := Option.some.inj (hd.symm.trans hdst')
            exact Or.inr ⟨htotal, hfull⟩
          · rw [← Option.some.inj hstep]
            exact setStackCount_inventoryInv (setStackCount_inventoryInv hi)
        · rename_i hmerge
          rw [← Option.some.inj hstep, ← hd]
          refine hexchanged ?_
          intro dst' hdst'
          obtain rfl := Option.some.inj (hd.symm.trans hdst')
          exact Or.inl hmerge

/-! ## Steps and runs -/

theorem InventoryInv.step (hi : w.InventoryInv me) {op : InventoryOp}
    (hok : InventoryOk me w op) (hstep : inventoryStep me w op = some w') :
    w'.InventoryInv me := by
  cases op with
  | addItem g c s => exact Option.some.inj hstep ▸ inventoryInv_addItem hi hok
  | addItemToFreeSlot g => exact Option.some.inj hstep ▸ inventoryInv_addItemToFreeSlot hi hok
  | addItemToFreeBankSlot g =>
    exact Option.some.inj hstep ▸ inventoryInv_addItemToFreeBankSlot hi hok
  | safeRemoveFromSlot c s =>
    exact Option.some.inj hstep ▸ (removed_safeRemoveFromSlot hi.wellFormed.orderly).inventoryInv hi
  | safeRemoveByGuid g =>
    exact Option.some.inj hstep ▸ (removed_safeRemoveByGuid hi.wellFormed.orderly).inventoryInv hi
  | safeFullRemoveFromSlot c s =>
    exact Option.some.inj hstep ▸ (removed_safeFullRemoveFromSlot hi.wellFormed.orderly).inventoryInv hi
  | safeFullRemoveByGuid g =>
    exact Option.some.inj hstep ▸ (removed_safeFullRemoveByGuid hi.wellFormed.orderly).inventoryInv hi
  | swapItemSlots gmRobes s d => exact inventoryInv_swapItemSlots hi hok hstep
  | containerAddItem c s g =>
    obtain ⟨b, hb, rfl⟩ := Option.map_eq_some_iff.1 hstep
    exact inventoryInv_containerAddItem hi hb fun hin => hok hin b hb
  | containerAddItemToFreeSlot c g =>
    obtain ⟨b, hb, rfl⟩ := Option.map_eq_some_iff.1 hstep
    exact inventoryInv_containerAddItemToFreeSlot hi hb fun hin => hok hin b hb
  | containerSwapItems c s d =>
    obtain ⟨b, hb, rfl⟩ := Option.map_eq_some_iff.1 hstep
    exact inventoryInv_containerSwapItems hi
  | containerSafeRemove c s =>
    obtain ⟨b, hb, rfl⟩ := Option.map_eq_some_iff.1 hstep
    obtain ⟨htop, hcont⟩ := bagIn_eq_some hb
    rcases containerSafeRemove_spec hi.wellFormed.orderly b s with h | ⟨i, g, v, -, h, hrem⟩
    · rw [h]
      exact hi
    · rw [h]
      exact Removed.inventoryInv (Or.inr ⟨_, g,
        .cell c b i htop hcont (hi.wellFormed.cellRange b i g hrem.held).2, hrem⟩) hi
  | containerSafeFullRemove c s =>
    obtain ⟨b, hb, rfl⟩ := Option.map_eq_some_iff.1 hstep
    obtain ⟨htop, hcont⟩ := bagIn_eq_some hb
    refine getD_cases (P := InventoryInv me) hi ?_
    intro v hv
    obtain ⟨i, g, -, hrem⟩ := containerSafeFullRemove_spec hi.wellFormed.orderly hv
    exact Removed.inventoryInv (Or.inr ⟨_, g,
      .cell c b i htop hcont (hi.wellFormed.cellRange b i g hrem.held).2, hrem⟩) hi

/-- An inventory in which nothing has been put, over any items. -/
def Fresh (w : ItemWorld) : Prop := (∀ p, w.slots p = none) ∧ ∀ p, w.fields p = 0

theorem Fresh.inventoryInv (h : w.Fresh) : w.InventoryInv me := by
  obtain ⟨item, slots, fields, n⟩ := w
  obtain ⟨hslots, hfields⟩ := h
  have hs : slots = fun _ => none := funext hslots
  have hf : fields = fun _ => 0 := funext hfields
  subst hs hf
  refine ⟨wellFormed_empty item n, ?_⟩
  intro a s g hg
  cases hg

/-- In every run of operations from an empty inventory that meet the
condition, an item is at one place at most, every field is the GUID of
the item at its place or zero, and the slots for bags hold bags. -/
theorem inventory_represented {w₀ w : ItemWorld} {ops : List InventoryOp} (h₀ : w₀.Fresh)
    (hrun : Run (Guarded (InventoryOk me) (PartialStep (inventoryStep me))) w₀ ops w) :
    (∀ p q g, w.slots p = some g → w.slots q = some g → p = q) ∧
      (∀ p, w.fields p = (w.slots p).getD 0) ∧
      ∀ s g, w.slots (.top me s) = some g → IsBagSlot s → w.isContainer g = true := by
  have hi : w.InventoryInv me :=
    hrun.invariant (fun v => v.InventoryInv me) (fun _ _ _ hi hs => hi.step hs.1 hs.2)
      h₀.inventoryInv
  exact ⟨hi.wellFormed.once, hi.wellFormed.fields, fun s g => hi.wellFormed.bags me s g⟩

/-! ### A quiver and arrows -/

def keeper : PlayerGuid := ⟨21, by decide⟩

/-- Item 1 is a quiver with four cells, item 2 arrows, the rest is plain. -/
def quiverWorld : ItemWorld :=
  { empty with
    item := fun g =>
      if g = 1 then
        newItem { ItemPrototype.plain 101 with
          containerSlots := 4, bagFamily := 1, containerSlots_le := by decide } true
      else if g = 2 then newItem { ItemPrototype.plain 102 with bagFamily := 1 } false
      else newItem (.plain 103) false }

theorem quiverWorld_fresh : quiverWorld.Fresh := ⟨fun _ => rfl, fun _ => rfl⟩

/-- The quiver is in the first slot for bags, the arrows in the backpack. -/
def equippedQuiver : ItemWorld :=
  ((quiverWorld.m_AddItem keeper 1 (-1) 19).2.m_AddItem keeper 2 (-1) 23).2

theorem arrows_swapped : (equippedQuiver.swapItemSlots keeper true 23 0).isSome = true := by
  decide +kernel

/-- Swapping arrows onto an equipment slot in robes puts them into the
quiver and leaves them where they were; and a plain item can be added to
a slot for bags. -/
theorem arrows_at_two_places :
    (¬ ∀ (w₀ w : ItemWorld) (ops : List InventoryOp), w₀.Fresh →
      Run (PartialStep (inventoryStep keeper)) w₀ ops w →
        ∀ p q g, w.slots p = some g → w.slots q = some g → p = q) ∧
    ¬ ∀ (w₀ w : ItemWorld) (ops : List InventoryOp), w₀.Fresh →
      Run (PartialStep (inventoryStep keeper)) w₀ ops w →
        ∀ s g, w.slots (.top keeper s) = some g → IsBagSlot s → w.isContainer g = true := by
  constructor
  · intro hall
    have honce := hall quiverWorld ((equippedQuiver.swapItemSlots keeper true 23 0).get arrows_swapped)
      [.addItem 1 (-1) 19, .addItem 2 (-1) 23, .swapItemSlots true 23 0] quiverWorld_fresh
      (.cons rfl (.cons rfl (.cons (Option.some_get arrows_swapped).symm (.nil _))))
    have heq := honce (.top keeper 23) (.cell 1 0) 2 (by decide +kernel) (by decide +kernel)
    cases heq
  · intro hall
    have hbags := hall quiverWorld _ [.addItem 3 (-1) 19] quiverWorld_fresh
      (.cons rfl (.nil _)) 19 3 (by decide +kernel) (by decide)
    exact absurd hbags (by decide +kernel)

/-- The quiver is equipped and a plain item is in the backpack. -/
def equippedPlain : ItemWorld :=
  ((quiverWorld.m_AddItem keeper 1 (-1) 19).2.m_AddItem keeper 3 (-1) 23).2

/-- The quiver is equipped, a plain item added and moved by one slot. -/
theorem inventory_represented_moved :
    ∃ w, Run (Guarded (InventoryOk keeper) (PartialStep (inventoryStep keeper))) quiverWorld
      [.addItem 1 (-1) 19, .addItem 3 (-1) 23, .swapItemSlots false 23 24] w ∧
      ∀ p, w.fields p = (w.slots p).getD 0 := by
  have hrun : ∃ w, Run (Guarded (InventoryOk keeper) (PartialStep (inventoryStep keeper)))
      quiverWorld [.addItem 1 (-1) 19, .addItem 3 (-1) 23, .swapItemSlots false 23 24] w := by
    refine ⟨(equippedPlain.swapItemSlots keeper false 23 24).get (by decide +kernel),
      .cons ⟨?_, rfl⟩ (.cons ⟨?_, rfl⟩ (.cons ⟨?_, (Option.some_get _).symm⟩ (.nil _)))⟩
    · rintro ⟨-, -, -, s, -, -, -, hplain⟩
      exact absurd hplain (by decide +kernel)
    · rintro ⟨-, -, -, s, hused, -, hbag, -⟩
      have hs : (23 : Int) = s := Option.some.inj hused
      rw [isBagSlot_iff] at hbag
      omega
    · intro _ src _
      rw [if_neg (by simp)]
      intro _
      refine ⟨fun hbag => ?_, fun hbag => ?_⟩
      · exact absurd hbag (by decide)
      · exact absurd hbag (by decide)
  obtain ⟨w, hrun⟩ := hrun
  exact ⟨w, hrun, (inventory_represented quiverWorld_fresh hrun).2.1⟩

/-- In every such run an item in a bag holds nothing, and belongs to the
player who has the bag. -/
theorem no_nested_bags {w₀ w : ItemWorld} {ops : List InventoryOp} (h₀ : w₀.Fresh)
    (hrun : Run (Guarded (InventoryOk me) (PartialStep (inventoryStep me))) w₀ ops w)
    {b g : Guid} {i : Nat} (hg : w.slots (.cell b i) = some g) : w.NoItems g ∧
      ∃ p s, w.slots (.top p s) = some b ∧ (w.item g).owner = some p := by
  have hi : w.InventoryInv me :=
    hrun.invariant (fun v => v.InventoryInv me) (fun _ _ _ hi hs => hi.step hs.1 hs.2)
      h₀.inventoryInv
  obtain ⟨p, s, hb, howner⟩ := hi.wellFormed.bagOwner hg
  exact ⟨hi.wellFormed.orderly.noItems_of_cell hg, p, s, hb,
    (hi.wellFormed.cellOwner b i g hg).trans howner⟩

/-- Arrows are put into the quiver. -/
theorem no_nested_bags_arrows :
    ∃ w, inventoryStep keeper (quiverWorld.m_AddItem keeper 1 (-1) 19).2
      (.containerAddItem 19 0 2) = some w ∧ w.NoItems 2 := by
  have hsome : (inventoryStep keeper (quiverWorld.m_AddItem keeper 1 (-1) 19).2
      (.containerAddItem 19 0 2)).any (fun w => w.slots (.cell 1 0) = some 2) = true := by
    decide +kernel
  obtain ⟨w, hw, hcell⟩ := (Option.any_eq_true _ _).mp hsome
  have hrun : Run (Guarded (InventoryOk keeper) (PartialStep (inventoryStep keeper))) quiverWorld
      [.addItem 1 (-1) 19, .containerAddItem 19 0 2] w := by
    refine .cons ⟨?_, rfl⟩ (.cons ⟨fun hin => absurd hin (by decide +kernel), hw⟩ (.nil _))
    rintro ⟨-, -, -, s, -, -, -, hplain⟩
    exact absurd hplain (by decide +kernel)
  exact ⟨w, hw, (no_nested_bags quiverWorld_fresh hrun (of_decide_eq_true hcell)).1⟩

end ItemWorld

end HearthStone
