/-
HearthStone.Vendor.Purchase — what a purchase costs, whether it can be
afforded and what is charged (`Item.cpp`, `ItemInterface.cpp`).

* `Customer` — the fields of a player that buying and selling change.
* `getBuyPriceForItem` — the price of some of an item at a vendor.
* `canAffordItem`, `buyItem` — `CanAffordItem` and `BuyItem`, which work
  the charges out apart from each other.

All products are of 32-bit numbers. What a vendor makes of the price of
one is a `float` rounded up; the rounding is the vendor's here.
-/
import HearthStone.Item.BuyBack
import HearthStone.Item.ReceiveItem
import HearthStone.Item.RemovalAccount

namespace HearthStone

/-- A player with items, money and things to buy back. -/
structure Customer where
  world : ItemWorld
  list : BuyBack
  /-- `PLAYER_FIELD_COINAGE` -/
  coinage : UInt32
  /-- `PLAYER_FIELD_HONOR_CURRENCY` -/
  honorCurrency : UInt32 := 0
  /-- `PLAYER_FIELD_ARENA_CURRENCY` -/
  arenaCurrency : UInt32 := 0
  m_honorPoints : UInt32 := 0
  m_arenaPoints : UInt32 := 0
  /-- `GetMaxPersonalRating()` -/
  maxPersonalRating : UInt32 := 0
  /-- the reputation rank with a faction that has one -/
  reputationRank : UInt32 → Option Int32 := fun _ => none

/-- `struct ItemExtendedCostEntry`. -/
structure ItemExtendedCostEntry where
  honor : UInt32
  arena : UInt32
  item : Fin 5 → UInt32
  count : Fin 5 → UInt32
  personalrating : UInt32

/-- A vendor, by the price he makes of a prototype's: with a discount
`float2int32(ceilf(float(BuyPrice) * pricemod[standing]))`. -/
structure Vendor where
  cost : UInt32 → Int32

/-- `GetBuyPriceForItem`. -/
def getBuyPriceForItem (proto : ItemPrototype) (count : UInt32) (vendor : Option Vendor) :
    UInt32 :=
  let cost :=
    match vendor with
    | none => proto.buyPrice.toInt32
    | some vendor => vendor.cost proto.buyPrice
  cost.toUInt32 * count

def CAN_AFFORD_ITEM_ERROR_OK : UInt8 := 0
def CAN_AFFORD_ITEM_ERROR_DONT_HAVE_ENOUGH_MONEY : UInt8 := 2
def CAN_AFFORD_ITEM_ERROR_NOT_REQUIRED_RANK : UInt8 := 11
def CAN_AFFORD_ITEM_ERROR_REPUTATION : UInt8 := 12

namespace Customer

variable (s : Customer) (me : PlayerGuid)

/-- The part of `CanAffordItem` on the extended cost; `none` goes on. -/
def canAffordCost (ec : ItemExtendedCostEntry) (amount : UInt32) : Option UInt8 :=
  if (List.finRange 5).any fun i =>
      ec.item i ≠ 0 && s.world.getItemCount me (ec.item i) false < ec.count i * amount
  then some CAN_AFFORD_ITEM_ERROR_DONT_HAVE_ENOUGH_MONEY
  else if s.honorCurrency < ec.honor * amount then
    some CAN_AFFORD_ITEM_ERROR_DONT_HAVE_ENOUGH_MONEY
  else if s.arenaCurrency < ec.arena * amount then
    some CAN_AFFORD_ITEM_ERROR_DONT_HAVE_ENOUGH_MONEY
  else if s.maxPersonalRating < ec.personalrating then
    some CAN_AFFORD_ITEM_ERROR_NOT_REQUIRED_RANK
  else none

/-- The part on the price of the prototype. -/
def canAffordPrice (proto : ItemPrototype) (amount : UInt32) (vendor : Option Vendor) :
    Option UInt8 :=
  if proto.buyPrice ≠ 0 then
    let price := (getBuyPriceForItem proto amount vendor * amount).toInt32
    if s.coinage.toInt32 < price then some CAN_AFFORD_ITEM_ERROR_DONT_HAVE_ENOUGH_MONEY
    else none
  else none

/-- The part on the reputation. -/
def canAffordFaction (proto : ItemPrototype) : UInt8 :=
  if proto.requiredFaction ≠ 0 then
    match s.reputationRank proto.requiredFaction with
    | none => CAN_AFFORD_ITEM_ERROR_OK
    | some rank =>
      if rank < proto.requiredFactionStanding.toInt32 then CAN_AFFORD_ITEM_ERROR_REPUTATION
      else CAN_AFFORD_ITEM_ERROR_OK
  else CAN_AFFORD_ITEM_ERROR_OK

/-- `CanAffordItem`: the first part that has an error returns it. -/
def canAffordItem (proto : ItemPrototype) (amount : UInt32) (vendor : Option Vendor)
    (ec : Option ItemExtendedCostEntry) : UInt8 :=
  let cost := ec.bind fun ec => s.canAffordCost me ec amount
  (cost <|> s.canAffordPrice proto amount vendor).getD (s.canAffordFaction proto)

/-- The loop of `BuyItem` over the items of the cost. -/
def payItems (ec : ItemExtendedCostEntry) (amount : UInt32) (rows : List (Fin 5)) (w : ItemWorld) :
    ItemWorld :=
  rows.foldl (fun w i =>
    if ec.item i ≠ 0 then (w.removeItemAmt me (ec.item i) (amount * ec.count i)).2 else w) w

/-- The part of `BuyItem` on the price of the prototype. -/
def payPrice (proto : ItemPrototype) (amount : UInt32) (vendor : Option Vendor) : Customer :=
  if proto.buyPrice ≠ 0 then
    let itemprice := getBuyPriceForItem proto amount vendor
    if itemprice > s.coinage then { s with coinage := 0 }
    else { s with coinage := debit s.coinage itemprice }
  else s

/-- The part on the extended cost. -/
def payCost (ec : ItemExtendedCostEntry) (amount : UInt32) : Customer :=
  let s := { s with world := payItems me ec amount (List.finRange 5) s.world }
  let val := ec.honor * amount
  let s :=
    if s.honorCurrency ≥ val then
      { s with
        honorCurrency := debit s.honorCurrency val, m_honorPoints := s.m_honorPoints - val }
    else s
  let val := ec.arena * amount
  if s.arenaCurrency ≥ val then
    { s with arenaCurrency := debit s.arenaCurrency val, m_arenaPoints := s.m_arenaPoints - val }
  else s

/-- `BuyItem`. -/
def buyItem (proto : ItemPrototype) (amount : UInt32) (vendor : Option Vendor)
    (ec : Option ItemExtendedCostEntry) : Customer :=
  let s := s.payPrice proto amount vendor
  match ec with
  | none => s
  | some ec => s.payCost me ec amount

end Customer

end HearthStone

/-! ## Theorems

When what can be afforded is what is charged.

`GetBuyPriceForItem` has multiplied by the amount already, and
`CanAffordItem` multiplies once more; the other products agree with those
of `BuyItem`, but both are of 32 bits, and an item that is listed twice
is looked at twice and taken twice. What is taken of the items is what
`RemoveItemAmt` takes.

* `Eligible` — the rank and the reputation, which are not charged.
* `Holds` — the customer has what is charged, as exact numbers.
* `Charged` — every balance has dropped by exactly its charge.
* `purchase_agrees` — when `CanAffordItem` accepts exactly who holds the
  charge, and who is accepted is charged exactly.
-/

namespace HearthStone

open Lib

namespace ItemExtendedCostEntry

/-- What a row charges, as an exact number. -/
def rowCharge (e : ItemExtendedCostEntry) (amount : UInt32) (i : Fin 5) : Nat :=
  (e.count i).toNat * amount.toNat

/-- What some rows charge of an item. -/
def itemCharge (e : ItemExtendedCostEntry) (amount : UInt32) (rows : List (Fin 5)) (id : UInt32) :
    Nat :=
  (rows.map fun i => if e.item i = id then e.rowCharge amount i else 0).sum

end ItemExtendedCostEntry

namespace Customer

/-! ## The charge -/

section

variable (s : Customer) (me : PlayerGuid) (proto : ItemPrototype) (amount : UInt32)
  (vendor : Option Vendor) (ec : Option ItemExtendedCostEntry)

/-- The price of one, as often as asked for. -/
def goldCharge : Nat :=
  if proto.buyPrice = 0 then 0 else (getBuyPriceForItem proto 1 vendor).toNat * amount.toNat

/-- What a request needs besides what it charges. -/
def Eligible : Prop :=
  (∀ e ∈ ec, ¬ s.maxPersonalRating < e.personalrating) ∧
    s.canAffordFaction proto = CAN_AFFORD_ITEM_ERROR_OK

/-- The customer has what the extended cost charges. -/
structure HoldsCost (e : ItemExtendedCostEntry) : Prop where
  items : ∀ id, id ≠ 0 → e.itemCharge amount (List.finRange 5) id ≤
    (s.world.getItemCount me id false).toNat
  honor : e.honor.toNat * amount.toNat ≤ s.honorCurrency.toNat
  arena : e.arena.toNat * amount.toNat ≤ s.arenaCurrency.toNat

/-- The customer has at least what is charged. -/
def Holds : Prop :=
  goldCharge proto amount vendor ≤ s.coinage.toNat ∧ ∀ e ∈ ec, s.HoldsCost me amount e

/-- The rows are taken one after the other, each exactly. -/
def ItemsTaken (e : ItemExtendedCostEntry) : List (Fin 5) → ItemWorld → Prop
  | [], _ => True
  | i :: rows, w =>
    if e.item i ≠ 0 then
      w.Exact (w.removeItemAmt me (e.item i) (amount * e.count i)).2 me (e.item i)
          (e.rowCharge amount i) ∧
        ItemsTaken e rows (w.removeItemAmt me (e.item i) (amount * e.count i)).2
    else ItemsTaken e rows w

/-- The balances of `s'` are those of `s` less the charge. -/
structure Charged (s' : Customer) : Prop where
  gold : s'.coinage.toNat + goldCharge proto amount vendor = s.coinage.toNat
  honor : ∀ e ∈ ec, s'.honorCurrency.toNat + e.honor.toNat * amount.toNat = s.honorCurrency.toNat
  arena : ∀ e ∈ ec, s'.arenaCurrency.toNat + e.arena.toNat * amount.toNat = s.arenaCurrency.toNat
  items : ∀ e ∈ ec, ItemsTaken me amount e (List.finRange 5) s.world

/-- `CanAffordItem` accepts exactly who holds the charge, and who is
accepted is charged exactly. -/
def Agrees : Prop :=
  (s.Eligible proto ec →
    (s.canAffordItem me proto amount vendor ec = CAN_AFFORD_ITEM_ERROR_OK ↔
      s.Holds me proto amount vendor ec)) ∧
  (s.canAffordItem me proto amount vendor ec = CAN_AFFORD_ITEM_ERROR_OK →
    s.Charged me proto amount vendor ec (s.buyItem me proto amount vendor ec))

/-! ## The condition -/

/-- The price times the amount, once more times the amount and read as a
signed number, is not above the coinage, read so too. -/
def PriceCovered : Prop :=
  proto.buyPrice ≠ 0 →
    ¬ s.coinage.toInt32 < (getBuyPriceForItem proto 1 vendor * amount * amount).toInt32

instance : Decidable (s.PriceCovered proto amount vendor) := inferInstanceAs (Decidable (_ → _))

/-- The 32-bit products of the cost are covered, each by itself. -/
structure CostCovered (e : ItemExtendedCostEntry) : Prop where
  items : ∀ i, e.item i ≠ 0 → e.count i * amount ≤ s.world.getItemCount me (e.item i) false
  honor : e.honor * amount ≤ s.honorCurrency
  arena : e.arena * amount ≤ s.arenaCurrency

/-- A balance from 2^31 on is not cut to zero by the debit. -/
def Spends (balance : UInt32) (charge : Nat) : Prop := charge = 0 ∨ balance.toNat < charge + 2 ^ 31

/-- The stacks of the rows yield what is asked for, one row after the
other. -/
def RowsYield (e : ItemExtendedCostEntry) : List (Fin 5) → ItemWorld → Prop
  | [], _ => True
  | i :: rows, w =>
    if e.item i ≠ 0 then
      w.Yields me (e.item i) (amount * e.count i) ∧
        RowsYield e rows (w.removeItemAmt me (e.item i) (amount * e.count i)).2
    else RowsYield e rows w

instance (me : PlayerGuid) (amount : UInt32) (e : ItemExtendedCostEntry) :
    ∀ rows w, Decidable (RowsYield me amount e rows w)
  | [], _ => inferInstanceAs (Decidable True)
  | i :: rows, w =>
    have := instDecidableRowsYield me amount e rows
      (w.removeItemAmt me (e.item i) (amount * e.count i)).2
    have := instDecidableRowsYield me amount e rows w
    inferInstanceAs (Decidable (if e.item i ≠ 0 then
      w.Yields me (e.item i) (amount * e.count i) ∧
        RowsYield me amount e rows (w.removeItemAmt me (e.item i) (amount * e.count i)).2
    else RowsYield me amount e rows w))

structure CostSpends (e : ItemExtendedCostEntry) : Prop where
  honor : Spends s.honorCurrency (e.honor.toNat * amount.toNat)
  arena : Spends s.arenaCurrency (e.arena.toNat * amount.toNat)
  items : RowsYield me amount e (List.finRange 5) s.world

/-- Of an eligible request: the customer holds the charge, the price is
covered with the amount twice, no debit cuts a balance, and the stacks
yield; or he does not hold it, and one of the 32-bit products is not
covered either. -/
def Settles : Prop :=
  s.Eligible proto ec →
    (s.Holds me proto amount vendor ec ∧ s.PriceCovered proto amount vendor ∧
      Spends s.coinage (goldCharge proto amount vendor) ∧ ∀ e ∈ ec, s.CostSpends me amount e) ∨
    (¬ s.Holds me proto amount vendor ec ∧
      ¬ ((∀ e ∈ ec, s.CostCovered me amount e) ∧ s.PriceCovered proto amount vendor))

end

variable {s : Customer} {me : PlayerGuid} {proto : ItemPrototype} {amount : UInt32}
  {vendor : Option Vendor} {ec : Option ItemExtendedCostEntry} {e : ItemExtendedCostEntry}

/-! ## `CanAffordItem` -/

theorem getBuyPriceForItem_eq (proto : ItemPrototype) (amount : UInt32) (vendor : Option Vendor) :
    getBuyPriceForItem proto amount vendor = getBuyPriceForItem proto 1 vendor * amount := by
  unfold getBuyPriceForItem
  rw [UInt32.mul_one]

theorem canAffordPrice_iff :
    s.canAffordPrice proto amount vendor = none ↔ s.PriceCovered proto amount vendor := by
  unfold canAffordPrice PriceCovered
  rw [getBuyPriceForItem_eq proto amount vendor]
  dsimp only
  split
  · rename_i hprice
    split
    · rename_i hlt
      exact iff_of_false (by simp) fun h => h hprice hlt
    · rename_i hlt
      exact iff_of_true rfl fun _ => hlt
  · rename_i hprice
    exact iff_of_true rfl fun h => absurd h hprice

theorem canAffordPrice_error {error : UInt8}
    (h : s.canAffordPrice proto amount vendor = some error) : error ≠ CAN_AFFORD_ITEM_ERROR_OK := by
  unfold canAffordPrice at h
  dsimp only at h
  split at h
  · split at h
    · cases h
      decide
    · cases h
  · cases h

theorem canAffordCost_iff :
    s.canAffordCost me e amount = none ↔
      s.CostCovered me amount e ∧ ¬ s.maxPersonalRating < e.personalrating := by
  unfold canAffordCost
  split
  · rename_i hany
    refine iff_of_false (by simp) fun h => ?_
    obtain ⟨i, -, hi⟩ := List.any_eq_true.1 hany
    rw [Bool.and_eq_true, decide_eq_true_eq, decide_eq_true_eq] at hi
    exact absurd hi.2 (UInt32.not_lt.2 (h.1.items i hi.1))
  · rename_i hany
    split
    · rename_i hhonor
      exact iff_of_false (by simp) fun h => absurd hhonor (UInt32.not_lt.2 h.1.honor)
    · rename_i hhonor
      split
      · rename_i harena
        exact iff_of_false (by simp) fun h => absurd harena (UInt32.not_lt.2 h.1.arena)
      · rename_i harena
        split
        · rename_i hrank
          exact iff_of_false (by simp) fun h => h.2 hrank
        · rename_i hrank
          refine iff_of_true rfl ⟨⟨fun i hi => ?_, UInt32.not_lt.1 hhonor, UInt32.not_lt.1 harena⟩,
            hrank⟩
          rw [← UInt32.not_lt]
          intro hlt
          exact hany (List.any_eq_true.2 ⟨i, List.mem_finRange i, by simp [hi, hlt]⟩)

theorem canAffordCost_error {error : UInt8} (h : s.canAffordCost me e amount = some error) :
    error ≠ CAN_AFFORD_ITEM_ERROR_OK := by
  unfold canAffordCost at h
  split at h
  · cases h
    decide
  · split at h
    · cases h
      decide
    · split at h
      · cases h
        decide
      · split at h
        · cases h
          decide
        · cases h

/-- `CanAffordItem` accepts who is eligible and covers the products. -/
theorem canAffordItem_iff :
    s.canAffordItem me proto amount vendor ec = CAN_AFFORD_ITEM_ERROR_OK ↔
      s.Eligible proto ec ∧ (∀ e ∈ ec, s.CostCovered me amount e) ∧
        s.PriceCovered proto amount vendor := by
  have hprice : (s.canAffordPrice proto amount vendor).getD (s.canAffordFaction proto) =
        CAN_AFFORD_ITEM_ERROR_OK ↔
      s.canAffordFaction proto = CAN_AFFORD_ITEM_ERROR_OK ∧
        s.PriceCovered proto amount vendor := by
    rw [← canAffordPrice_iff]
    cases h : s.canAffordPrice proto amount vendor with
    | some error => exact iff_of_false (canAffordPrice_error h) (by simp)
    | none => simp
  unfold canAffordItem Eligible
  cases ec with
  | none => simp [hprice]
  | some e =>
    simp only [Option.bind_some, Option.mem_some_iff, forall_eq']
    cases h : s.canAffordCost me e amount with
    | some error =>
      refine iff_of_false (canAffordCost_error h) fun hall => ?_
      have hnone := canAffordCost_iff.2 ⟨hall.2.1, hall.1.1⟩
      rw [h] at hnone
      cases hnone
    | none =>
      obtain ⟨hcost, hrank⟩ := canAffordCost_iff.1 h
      simp [hprice, hcost, hrank]

/-! ## The products -/

theorem toNat_mul_of_le {a b c : UInt32} (h : a.toNat * b.toNat ≤ c.toNat) :
    (a * b).toNat = a.toNat * b.toNat := by
  rw [UInt32.toNat_mul]
  exact Nat.mod_eq_of_lt (h.trans_lt c.toNat_lt)

/-- Who holds the charge of a cost covers its products. -/
theorem HoldsCost.covered (h : s.HoldsCost me amount e) : s.CostCovered me amount e where
  items := by
    intro i hi
    have hrow : e.rowCharge amount i ≤ e.itemCharge amount (List.finRange 5) (e.item i) := by
      unfold ItemExtendedCostEntry.itemCharge
      refine List.single_le_sum (by simp) _ (List.mem_map.2 ⟨i, List.mem_finRange i, ?_⟩)
      rw [if_pos rfl]
    have hle := hrow.trans (h.items (e.item i) hi)
    unfold ItemExtendedCostEntry.rowCharge at hle
    rw [UInt32.le_iff_toNat_le, toNat_mul_of_le hle]
    exact hle
  honor := by
    rw [UInt32.le_iff_toNat_le, toNat_mul_of_le h.honor]
    exact h.honor
  arena := by
    rw [UInt32.le_iff_toNat_le, toNat_mul_of_le h.arena]
    exact h.arena

/-- A debit of a charge that is held. -/
theorem debit_iff {balance charge : UInt32} (h : charge ≤ balance) :
    (debit balance charge).toNat + charge.toNat = balance.toNat ↔
      Spends balance charge.toNat := by
  rw [debit_exact_iff]
  unfold Spends
  refine or_congr ⟨fun hz => by rw [hz]; rfl, fun hz => UInt32.toNat.inj hz⟩ ?_
  rw [and_iff_right (UInt32.le_iff_toNat_le.1 h)]

/-! ## The balances after `BuyItem` -/

theorem payCost_coinage : (s.payCost me e amount).coinage = s.coinage := by
  unfold payCost
  dsimp only
  split <;> split <;> rfl

theorem payCost_honorCurrency (h : e.honor * amount ≤ s.honorCurrency) :
    (s.payCost me e amount).honorCurrency = debit s.honorCurrency (e.honor * amount) := by
  unfold payCost
  dsimp only
  rw [if_pos h]
  split <;> rfl

theorem payCost_arenaCurrency (h : e.arena * amount ≤ s.arenaCurrency) :
    (s.payCost me e amount).arenaCurrency = debit s.arenaCurrency (e.arena * amount) := by
  unfold payCost
  dsimp only
  by_cases hhonor : s.honorCurrency ≥ e.honor * amount
  · rw [if_pos hhonor]
    exact congrArg Customer.arenaCurrency (if_pos h)
  · rw [if_neg hhonor]
    exact congrArg Customer.arenaCurrency (if_pos h)

theorem payPrice_iff (h : goldCharge proto amount vendor ≤ s.coinage.toNat) :
    (s.payPrice proto amount vendor).coinage.toNat + goldCharge proto amount vendor =
        s.coinage.toNat ↔
      Spends s.coinage (goldCharge proto amount vendor) := by
  unfold payPrice
  by_cases hprice : proto.buyPrice = 0
  · have hcharge : goldCharge proto amount vendor = 0 := if_pos hprice
    rw [if_neg (not_not.2 hprice), hcharge]
    exact iff_of_true rfl (Or.inl rfl)
  · have hcharge : goldCharge proto amount vendor =
        (getBuyPriceForItem proto 1 vendor).toNat * amount.toNat := if_neg hprice
    rw [hcharge] at h ⊢
    rw [if_pos hprice, getBuyPriceForItem_eq]
    dsimp only
    have hnat := toNat_mul_of_le h
    have hle : getBuyPriceForItem proto 1 vendor * amount ≤ s.coinage := by
      rw [UInt32.le_iff_toNat_le, hnat]
      exact h
    rw [if_neg (UInt32.not_lt.2 hle), ← hnat]
    exact debit_iff hle

/-! ## The items -/

theorem itemCharge_cons (i : Fin 5) (rows : List (Fin 5)) (id : UInt32) :
    e.itemCharge amount (i :: rows) id =
      (if e.item i = id then e.rowCharge amount i else 0) + e.itemCharge amount rows id := by
  unfold ItemExtendedCostEntry.itemCharge
  rw [List.map_cons, List.sum_cons]

/-- The rows are taken exactly when the stacks yield: where all rows
before were taken, there is as much left as is still charged. -/
theorem itemsTaken_iff (rows : List (Fin 5)) {w : ItemWorld} (hw : w.Orderly)
    (hcount : ∀ id, id ≠ 0 → e.itemCharge amount rows id ≤ (w.getItemCount me id false).toNat) :
    ItemsTaken me amount e rows w ↔ RowsYield me amount e rows w := by
  induction rows generalizing w with
  | nil => rfl
  | cons i rows ih =>
    unfold ItemsTaken RowsYield
    by_cases hi : e.item i ≠ 0
    · rw [if_pos hi, if_pos hi]
      have hall := hcount (e.item i) hi
      rw [itemCharge_cons, if_pos rfl] at hall
      have hrow : e.rowCharge amount i ≤ (w.getItemCount me (e.item i) false).toNat := by omega
      have hnat : (amount * e.count i).toNat = e.rowCharge amount i := by
        unfold ItemExtendedCostEntry.rowCharge at hrow ⊢
        rw [UInt32.mul_comm]
        exact toNat_mul_of_le hrow
      have hle : amount * e.count i ≤ w.getItemCount me (e.item i) false := by
        rw [UInt32.le_iff_toNat_le, hnat]
        exact hrow
      have htakes := ItemWorld.removeItemAmt_takes hw hle
      rw [hnat] at htakes
      rw [htakes]
      refine and_congr_right fun hyields => ?_
      have hexact := htakes.2 hyields
      have hdrained := ItemWorld.removeItemAmt_drained hw me (e.item i) (amount * e.count i)
      refine ih hdrained.orderly fun id hid => ?_
      by_cases heq : e.item i = id
      · subst heq
        have hleft := hexact.getItemCount hw hdrained hrow
        omega
      · have hrest := hcount id hid
        rw [itemCharge_cons, if_neg heq, Nat.zero_add] at hrest
        rw [hexact.getItemCount_of_ne hw hdrained (Ne.symm heq)]
        exact hrest
    · rw [if_neg hi, if_neg hi]
      refine ih hw fun id hid => ?_
      have hrest := hcount id hid
      have hne : e.item i ≠ id := by
        rintro rfl
        exact hi hid
      rwa [itemCharge_cons, if_neg hne, Nat.zero_add] at hrest

/-- Who holds the charge is charged exactly when no debit cuts a balance
and the stacks yield. -/
theorem charged_iff_of_holds (hw : s.world.Orderly) (h : s.Holds me proto amount vendor ec) :
    s.Charged me proto amount vendor ec (s.buyItem me proto amount vendor ec) ↔
      Spends s.coinage (goldCharge proto amount vendor) ∧ ∀ e ∈ ec, s.CostSpends me amount e := by
  rw [← payPrice_iff h.1]
  cases ec with
  | none =>
    unfold buyItem
    constructor
    · exact fun hcharged => ⟨hcharged.gold, by simp⟩
    · exact fun hgold => ⟨hgold.1, by simp, by simp, by simp⟩
  | some e =>
    have hcost := h.2 e rfl
    have hcovered := hcost.covered
    have hhonor := toNat_mul_of_le hcost.honor
    have harena := toNat_mul_of_le hcost.arena
    have hpaid : (s.payPrice proto amount vendor).honorCurrency = s.honorCurrency ∧
        (s.payPrice proto amount vendor).arenaCurrency = s.arenaCurrency := by
      unfold payPrice
      dsimp only
      split
      · split
        · exact ⟨rfl, rfl⟩
        · exact ⟨rfl, rfl⟩
      · exact ⟨rfl, rfl⟩
    have hcoinage : (s.buyItem me proto amount vendor (some e)).coinage =
        (s.payPrice proto amount vendor).coinage := payCost_coinage
    have hhonor' : (s.buyItem me proto amount vendor (some e)).honorCurrency =
        debit s.honorCurrency (e.honor * amount) := by
      have hpay : (s.buyItem me proto amount vendor (some e)).honorCurrency =
          debit (s.payPrice proto amount vendor).honorCurrency (e.honor * amount) :=
        payCost_honorCurrency (by rw [hpaid.1]; exact hcovered.honor)
      rwa [hpaid.1] at hpay
    have harena' : (s.buyItem me proto amount vendor (some e)).arenaCurrency =
        debit s.arenaCurrency (e.arena * amount) := by
      have hpay : (s.buyItem me proto amount vendor (some e)).arenaCurrency =
          debit (s.payPrice proto amount vendor).arenaCurrency (e.arena * amount) :=
        payCost_arenaCurrency (by rw [hpaid.2]; exact hcovered.arena)
      rwa [hpaid.2] at hpay
    have hspendHonor := debit_iff hcovered.honor
    have hspendArena := debit_iff hcovered.arena
    rw [hhonor] at hspendHonor
    rw [harena] at hspendArena
    have hitems := itemsTaken_iff (List.finRange 5) hw hcost.items
    constructor
    · intro hcharged
      refine ⟨hcoinage ▸ hcharged.gold, ?_⟩
      intro e' he'
      obtain rfl : e = e' := Option.some.inj he'
      exact ⟨hspendHonor.1 (hhonor' ▸ hcharged.honor e rfl),
        hspendArena.1 (harena' ▸ hcharged.arena e rfl), hitems.1 (hcharged.items e rfl)⟩
    · rintro ⟨hgold, hspends⟩
      have hspend := hspends e rfl
      refine ⟨by rw [hcoinage]; exact hgold, ?_, ?_, ?_⟩
      · intro e' he'
        obtain rfl : e = e' := Option.some.inj he'
        rw [hhonor']
        exact hspendHonor.2 hspend.honor
      · intro e' he'
        obtain rfl : e = e' := Option.some.inj he'
        rw [harena']
        exact hspendArena.2 hspend.arena
      · intro e' he'
        obtain rfl : e = e' := Option.some.inj he'
        exact hitems.2 hspend.items

/-- What can be afforded is what is charged exactly when the request
settles. -/
theorem purchase_agrees (hw : s.world.Orderly) (me : PlayerGuid) (proto : ItemPrototype)
    (amount : UInt32) (vendor : Option Vendor) (ec : Option ItemExtendedCostEntry) :
    s.Agrees me proto amount vendor ec ↔ s.Settles me proto amount vendor ec := by
  unfold Agrees Settles
  rw [canAffordItem_iff]
  by_cases heligible : s.Eligible proto ec
  · simp only [heligible, true_and, true_imp_iff]
    by_cases hholds : s.Holds me proto amount vendor ec
    · have hcovered : ∀ e ∈ ec, s.CostCovered me amount e := fun e he => (hholds.2 e he).covered
      rw [charged_iff_of_holds hw hholds]
      simp only [hholds, not_true, false_and, or_false, true_and, iff_true]
      constructor
      · rintro ⟨⟨hcost, hprice⟩, hcharged⟩
        exact ⟨hprice, hcharged ⟨hcost, hprice⟩⟩
      · rintro ⟨hprice, hcharged⟩
        exact ⟨⟨hcovered, hprice⟩, fun _ => hcharged⟩
    · simp only [hholds, not_false_eq_true, false_and, false_or, true_and, iff_false]
      constructor
      · exact fun h => h.1
      · exact fun h => ⟨h, fun hboth => absurd hboth h⟩
  · simp [heligible]

/-! ## One and five of a thing -/

/-- Somebody with five tokens. -/
def shopper : PlayerGuid := ⟨67, by decide⟩

def tokens : ItemWorld :=
  .ofPlaces (fun _ => { ItemWorld.newItem
      { ItemPrototype.plain 152 with maxCount := 26, maxCount_lt := by decide } false with
      owner := some shopper, stackCount := 5 })
    [(.top shopper 23, 1)] 2

def shopping : Customer :=
  { world := tokens, list := ⟨fun _ => none, fun _ => 0, fun _ => 0, []⟩, coinage := 50,
    honorCurrency := 30 }

/-- A thing for ten coppers. -/
def trinket : ItemPrototype := { ItemPrototype.plain 151 with buyPrice := 10 }

/-- It costs twenty honor and three tokens as well. -/
def trinketCost : ItemExtendedCostEntry where
  honor := 20
  arena := 0
  item := ![152, 0, 0, 0, 0]
  count := ![3, 0, 0, 0, 0]
  personalrating := 0

theorem orderly_tokens : tokens.Orderly :=
  ItemWorld.orderly_ofPlaces shopper (by decide) (by decide)

theorem holds_trinket : shopping.Holds shopper trinket 1 none (some trinketCost) := by
  refine ⟨by decide, fun e he => ?_⟩
  obtain rfl := Option.some.inj he
  refine ⟨fun id _ => ?_, by decide, by decide⟩
  by_cases hid : id = 152
  · subst hid
    decide +kernel
  · have hzero : trinketCost.itemCharge 1 (List.finRange 5) id = 0 := by
      have hrows : ∀ i, trinketCost.item i = 152 ∨ trinketCost.rowCharge 1 i = 0 := by decide
      refine List.sum_eq_zero fun n hn => ?_
      obtain ⟨i, -, rfl⟩ := List.mem_map.1 hn
      rcases hrows i with hi | hi
      · exact if_neg fun heq => hid (heq.symm.trans hi)
      · rw [hi, ite_self]
    rw [hzero]
    exact Nat.zero_le _

/-- One can be afforded, and is charged. -/
theorem purchase_agrees_one :
    shopping.Agrees shopper trinket 1 none (some trinketCost) := by
  refine (purchase_agrees orderly_tokens shopper trinket 1 none (some trinketCost)).2 fun _ =>
    Or.inl ⟨holds_trinket, by decide, Or.inr (by decide), fun e he => ?_⟩
  obtain rfl := Option.some.inj he
  exact ⟨Or.inr (by decide), Or.inl (by decide), by decide +kernel⟩

/-- Five cost what the customer has, and he is refused. -/
theorem five_not_agree : ¬ ∀ s : Customer, s.world.Orderly → ∀ me proto amount vendor ec,
    s.Agrees me proto amount vendor ec := by
  intro hall
  have hagrees := hall shopping orderly_tokens shopper trinket 5 none none
  have heligible : shopping.Eligible trinket none := ⟨by simp, by decide⟩
  have hholds : shopping.Holds shopper trinket 5 none none := ⟨by decide, by simp⟩
  exact absurd ((hagrees.1 heligible).2 hholds) (by decide)

end Customer

end HearthStone
