/-
HearthStone.Vendor.BuyItemOpcodeTheorems — when what is paid for is
delivered.

The item is in the inventory before `BuyItem` is called, so what goes
wrong is how many units there are: a click cuts the new stack to
`MaxCount`, a dragged item is held against `Unique` by the times it is
bought and not by its units, the products are of 32 bits, and a bag in
the backpack is filled although nothing in it counts.

* `Purchase.Fair` — the units have come where `BuyItem` was called, and
  where it was not nothing has changed.
* `ClickFits`, `DragFits` — the units fit where they go.
* `buy_fair_iff` — both handlers are fair exactly then.
-/
import HearthStone.Vendor.Delivery

namespace HearthStone

open Lib

/-! ## The two handlers -/

/-- The units that `BuyItem` was called for have come; where it was not
called, nothing is charged and the inventory is the same. -/
def Purchase.Fair (r : Purchase) (s : Customer) (me : PlayerGuid) (unit : Seller)
    (itemid : UInt32) : Prop :=
  match r.call with
  | some call =>
    r.customer = { s with world := call.world }.buyItem me call.it call.amount.toUInt32
        (some unit.prices) call.ci.extended_cost ∧
      call.it.itemId = itemid ∧
      s.world.Receives call.world me call.it (call.ci.amount.toNat * call.amount.toNat)
  | none => ∃ d, r.customer = { s with world := d } ∧ s.world.SameInventory d

namespace Customer

section

variable (s : Customer) (me : PlayerGuid) (storage : ItemPrototypes) (unit : Seller)
  (itemid : UInt32) (amount : UInt8)

/-- Of a request with a slot that the checks let through, and whose slots
take the units: they fit there. -/
def DragFits (bag : Option Guid) (slot : Int32) : Prop :=
  ∀ ci it bagslot slot',
    s.buyInSlotChecks me storage unit itemid (atLeastOne amount) bag slot =
      .ok (ci, it, bagslot, slot') →
    ∀ p, s.world.TakesAt me it (ci.amount * (atLeastOne amount).toUInt32) bagslot slot' p →
      s.world.Fits me it (ci.amount.toNat * (atLeastOne amount).toNat) p

/-- Of a click that the checks let through, and for which there is a
place: the units fit there. -/
def ClickFits : Prop :=
  ∀ item it, s.buyChecks me storage unit itemid (atLeastOne amount) = .ok (item, it) →
    ∀ p, s.world.StowsAt me it itemid ((atLeastOne amount).toUInt32 * item.amount) p →
      s.world.Fits me it (item.amount.toNat * (atLeastOne amount).toNat) p

end

variable {s : Customer} {me : PlayerGuid} {storage : ItemPrototypes} {unit : Seller}
  {itemid : UInt32} {amount : UInt8} {ci : CreatureItem} {it : ItemPrototype}

theorem atLeastOne_pos (amount : UInt8) : 0 < (atLeastOne amount).toNat := by
  unfold atLeastOne
  split
  · decide
  · rename_i h
    have hle := UInt8.le_iff_toNat_le.1 (UInt8.not_lt.1 h)
    exact hle

theorem fair_refuse (answer : BuyAnswer) {d : ItemWorld} (h : s.world.SameInventory d) :
    ({ s with world := d }.refuse unit answer).Fair s me unit itemid := ⟨d, rfl, h⟩

theorem fair_settle {call : BuyCall} (answer : BuyAnswer) (limited : Bool)
    (hid : call.it.itemId = itemid) :
    (s.settle me unit call answer limited).Fair s me unit itemid ↔
      s.world.Receives call.world me call.it (call.ci.amount.toNat * call.amount.toNat) :=
  ⟨fun h => h.2.2, fun h => ⟨rfl, hid, h⟩⟩

theorem toNat_units (n : UInt32) (amount : UInt8) :
    (n * amount.toUInt32).toNat = n.toNat * amount.toNat % 2 ^ 32 := by
  rw [UInt32.toNat_mul, UInt8.toNat_toUInt32]

/-- What the checks of a request with a slot have found. -/
theorem buyInSlotChecks_ok {bag : Option Guid} {slot : Int32} {bagslot slot' : Int}
    (h : s.buyInSlotChecks me storage unit itemid amount bag slot = .ok (ci, it, bagslot, slot')) :
    it.itemId = itemid ∧ ItemWorld.Dragged bagslot slot' := by
  unfold buyInSlotChecks at h
  dsimp only at h
  split at h
  · cases h
  · split at h
    · cases h
    · split at h
      · cases h
      · rename_i it' hlookup
        split at h
        · cases h
        · split at h
          · cases h
          · rename_i bagslot slot hdrag
            split at h
            · cases h
            · split at h
              · cases h
              · split at h
                · cases h
                · rename_i hset
                  cases h
                  exact ⟨storage.itemId_eq _ _ hlookup, ItemWorld.dragTarget_spec hdrag hset⟩

/-- What the checks of a click have found. -/
theorem buyChecks_ok (h : s.buyChecks me storage unit itemid amount = .ok (ci, it)) :
    it.itemId = itemid ∧ amount.toUInt32 ≤ it.maxCount := by
  unfold buyChecks at h
  dsimp only at h
  split at h
  · cases h
  · split at h
    · cases h
    · split at h
      · cases h
      · split at h
        · cases h
        · rename_i it' hlookup
          split at h
          · cases h
          · rename_i hstack
            split at h
            · cases h
            · split at h
              · cases h
              · cases h
                exact ⟨storage.itemId_eq _ _ hlookup, UInt32.not_lt.1 hstack⟩

/-- Dragging is fair exactly when the units fit. -/
theorem drag_fair_iff (hw : s.world.Orderly) (hnew : ¬ Placed s.world.slots s.world.nextGuid)
    (bag : Option Guid) (slot : Int32) :
    (s.handleBuyItemInSlotOpcode me storage unit itemid bag amount slot).Fair s me unit itemid ↔
      s.DragFits me storage unit itemid amount bag slot := by
  unfold handleBuyItemInSlotOpcode DragFits
  dsimp only
  cases hchecks : s.buyInSlotChecks me storage unit itemid (atLeastOne amount) bag slot with
  | error answer =>
    exact iff_of_true (fair_refuse answer (.refl _)) fun ci it bagslot slot' h => by cases h
  | ok r =>
    obtain ⟨ci, it, bagslot, slot'⟩ := r
    obtain ⟨hid, hd⟩ := buyInSlotChecks_ok hchecks
    have hunits := toNat_units ci.amount (atLeastOne amount)
    dsimp only
    rcases ItemWorld.dropInSlot_cases hw hnew hd it (ci.amount * (atLeastOne amount).toUInt32) with
      ⟨p, d, hdrop, htakes, hwritten⟩ | ⟨answer, d, hdrop, hsame, hnone⟩
    · rw [hdrop]
      rw [fair_settle _ _ hid]
      have hmax := it.maxCount_lt
      rw [ItemWorld.receives_iff hw hnew (htakes.1.not_bag hd) hwritten
        (fun _ hle => by rw [hunits]; omega)
        (fun _ hzero => by
          have hmod := congrArg UInt32.toNat hzero
          rw [hunits] at hmod
          intro hone
          rw [hone] at hmod
          cases hmod)
        fun _ => hunits]
      constructor
      · intro hfits ci' it' bagslot' slot'' h q hq
        cases h
        rw [hq.1.unique htakes.1]
        exact hfits
      · exact fun h => h ci it bagslot slot' rfl p htakes
    · rw [hdrop]
      refine iff_of_true (fair_refuse answer hsame) fun ci' it' bagslot' slot'' h q hq => ?_
      cases h
      exact absurd hq (hnone q)

/-- The place of a click is one. -/
theorem stowsAt_unique {w : ItemWorld} {t : UInt32} {p q : Place} (hw : w.Orderly)
    (hp : w.StowsAt me it itemid t p) (hq : w.StowsAt me it itemid t q) : q = p := by
  unfold ItemWorld.StowsAt at hp hq
  split at hp
  · rename_i g hfind
    rw [hfind] at hq
    exact hw.once _ _ _ hq hp
  · rename_i hfind
    rw [hfind] at hq
    obtain ⟨r, hr, hp⟩ := hp
    obtain ⟨r', hr', hq⟩ := hq
    obtain rfl := Option.some.inj (hr.symm.trans hr')
    exact hq.unique hp

/-- Clicking is fair exactly when the units fit. -/
theorem click_fair_iff (hw : s.world.Orderly) (hnew : ¬ Placed s.world.slots s.world.nextGuid) :
    (s.handleBuyItemOpcode me storage unit itemid amount).Fair s me unit itemid ↔
      s.ClickFits me storage unit itemid amount := by
  unfold handleBuyItemOpcode ClickFits
  dsimp only
  cases hchecks : s.buyChecks me storage unit itemid (atLeastOne amount) with
  | error answer =>
    exact iff_of_true (fair_refuse answer (.refl _)) fun item it h => by cases h
  | ok r =>
    obtain ⟨item, it⟩ := r
    obtain ⟨hid, hstack⟩ := buyChecks_ok hchecks
    have hunits := toNat_units item.amount (atLeastOne amount)
    rw [UInt32.mul_comm] at hunits
    dsimp only
    rcases ItemWorld.stow_cases hw hnew hid ((atLeastOne amount).toUInt32 * item.amount) with
      ⟨p, d, u, hstow, hstows, hbag, hwritten, hu⟩ | ⟨hstow, hnone⟩
    · rw [hstow]
      rw [fair_settle _ _ hid]
      dsimp only
      have hmax := it.maxCount_lt
      have hle := UInt32.le_iff_toNat_le.1 hstack
      rw [UInt8.toNat_toUInt32] at hle
      have hpos := atLeastOne_pos amount
      rw [ItemWorld.receives_iff hw hnew hbag hwritten
        (fun hempty hfits => by
          have hlt : (atLeastOne amount).toUInt32 * item.amount ≤ it.maxCount := by
            rw [UInt32.le_iff_toNat_le, hunits]
            omega
          rw [hu, if_pos (Or.inr hlt), hunits]
          omega)
        (fun hempty hzero hone => by
          rw [hempty] at hu
          split at hu
          · have hmod := congrArg UInt32.toNat (hu.symm.trans hzero)
            rw [hunits, hone] at hmod
            cases hmod
          · have hmod := congrArg UInt32.toNat (hu.symm.trans hzero)
            change it.maxCount.toNat = 0 at hmod
            omega)
        fun hslot => by
          rw [hu, if_pos (Or.inl (Option.isSome_iff_ne_none.2 hslot)), hunits]]
      constructor
      · intro hfits item' it' h q hq
        cases h
        rw [stowsAt_unique hw hstows hq]
        exact hfits
      · exact fun h => h item it rfl p hstows
    · rw [hstow]
      refine iff_of_true (fair_refuse _ (.refl _)) fun item' it' h q hq => ?_
      cases h
      exact absurd hq (hnone q)

/-- What is paid for is delivered, and nothing else is paid for, exactly
when the units fit. -/
theorem buy_fair_iff (hw : s.world.Orderly) (hnew : ¬ Placed s.world.slots s.world.nextGuid)
    (me : PlayerGuid) (storage : ItemPrototypes) (unit : Seller) (itemid : UInt32)
    (amount : UInt8) :
    ((s.handleBuyItemOpcode me storage unit itemid amount).Fair s me unit itemid ↔
        s.ClickFits me storage unit itemid amount) ∧
      ∀ bag slot,
        (s.handleBuyItemInSlotOpcode me storage unit itemid bag amount slot).Fair s me unit
            itemid ↔
          s.DragFits me storage unit itemid amount bag slot :=
  ⟨click_fair_iff hw hnew, fun bag slot => drag_fair_iff hw hnew bag slot⟩

/-! ### Four potions at a time -/

def drinker : PlayerGuid := ⟨71, by decide⟩

/-- Five of them make a stack. -/
def potion : ItemPrototype :=
  { ItemPrototype.plain 171 with buyPrice := 10, maxCount := 5, maxCount_lt := by decide }

def potions : ItemPrototypes where
  lookupEntry id := if id = 171 then some potion else none
  itemId_eq := by
    intro id it h
    split at h
    · rename_i hid
      cases h
      exact hid.symm
    · cases h

/-- They are sold by fours. -/
def potionOffer : CreatureItem := ⟨171, 4, 0, 0, none⟩

def alchemist : Seller := ⟨[potionOffer], ⟨fun price => price.toInt32⟩⟩

def thirsty : Customer :=
  { world := .empty, list := ⟨fun _ => none, fun _ => 0, fun _ => 0, []⟩, coinage := 500 }

theorem orderly_thirsty : thirsty.world.Orderly := (ItemWorld.wellFormed_empty _ _).orderly

theorem fresh_thirsty : ¬ Placed thirsty.world.slots thirsty.world.nextGuid := by
  rintro ⟨p, hp⟩
  cases hp

/-- Bought once, they are there. -/
theorem buy_fair_iff_once :
    (thirsty.handleBuyItemOpcode drinker potions alchemist 171 1).Fair thirsty drinker
      alchemist 171 := by
  refine (buy_fair_iff orderly_thirsty fresh_thirsty drinker potions alchemist 171 1).1.2 ?_
  intro item it hchecks p hp
  have hok : thirsty.buyChecks drinker potions alchemist 171 (atLeastOne 1) =
      .ok (potionOffer, potion) := by rfl
  rw [hok] at hchecks
  cases hchecks
  have hfind : thirsty.world.findItemLessMax drinker 171
      ((atLeastOne 1).toUInt32 * potionOffer.amount) false = none := by decide +kernel
  have hfree : thirsty.world.findFreeInventorySlot drinker potion =
      some ⟨INVENTORY_SLOT_NOT_SET, 23⟩ := by decide +kernel
  unfold ItemWorld.StowsAt at hp
  rw [hfind] at hp
  obtain ⟨r, hr, htarget⟩ := hp
  obtain rfl := Option.some.inj (hfree.symm.trans hr)
  rw [htarget.unique (.top 23 (by decide))]
  have hcounted : thirsty.world.Counted drinker (.top drinker 23) := by decide +kernel
  refine ⟨?_, fun h => absurd rfl h⟩
  change if thirsty.world.Counted drinker (.top drinker 23) then _ else _
  rw [if_pos hcounted]
  decide

/-- Bought twice, eight are paid for and the stack is one of five. -/
theorem twice_not_fair : ¬ ∀ (s : Customer) (me : PlayerGuid) (storage : ItemPrototypes)
    (unit : Seller) (itemid : UInt32) (amount : UInt8), s.world.Orderly →
    ¬ Placed s.world.slots s.world.nextGuid →
      (s.handleBuyItemOpcode me storage unit itemid amount).Fair s me unit itemid := by
  intro hall
  have hfair := hall thirsty drinker potions alchemist 171 2 orderly_thirsty fresh_thirsty
  have hcall : (thirsty.handleBuyItemOpcode drinker potions alchemist 171 2).call.map
      (fun call => (call.world.owned drinker 171, call.ci.amount.toNat * call.amount.toNat)) =
        some (5, 8) := by decide +kernel
  have hnone : thirsty.world.owned drinker 171 = 0 := by decide +kernel
  obtain ⟨call, hsome, hpair⟩ := Option.map_eq_some_iff.1 hcall
  injection hpair with howned hunits
  unfold Purchase.Fair at hfair
  rw [hsome] at hfair
  obtain ⟨-, hid, hreceives⟩ := hfair
  have hcount := hreceives.count
  rw [hid, howned, hunits, hnone] at hcount
  omega

end Customer

end HearthStone
