/-
HearthStone.Vendor.BuyBackOpcode — buying back what was sold
(`WorldSession::HandleBuyBackOpcode`, `ItemHandler.cpp`).

The item is looked up and the checks are made; then the price is taken,
the entry leaves the list, and the item is put into a free slot or onto
a stack (`takeBack`).

The packet's slot is a signed 32-bit number from which 74 is taken.
Saving to the database is left out.
-/
import HearthStone.Item.BuyBackTheorems
import HearthStone.Vendor.Purchase

namespace HearthStone

/-- The answer to a request. -/
inductive BuyBackAnswer
  | nothing
  | inventoryError (error : UInt8)
  /-- `SMSG_BUY_FAILED` -/
  | buyFailed (itemid : UInt32) (error : UInt8)
  /-- `SMSG_BUY_ITEM` -/
  | bought (itemid amount : UInt32)
  deriving DecidableEq

namespace Customer

/-- The part of the handler behind its checks. -/
def takeBack (s : Customer) (me : PlayerGuid) (stuff : Nat) (it : Guid) (add : Option Guid) :
    Customer :=
  let amount := s.world.stackCount it
  let cost := (s.list.price stuff).toInt32
  let s := { s with coinage := modUnsigned32Value s.coinage (-cost) }
  let s := { s with list := s.list.removeBuyBackItem stuff }
  match add with
  | none =>
    match s.world.addItemToFreeSlot me it with
    | some world => { s with world }
    | none => { s with world := s.world.destructor it }
  | some add =>
    { s with
      world := (s.world.setStackCount add (s.world.stackCount add + amount)).destructor it }

/-- `HandleBuyBackOpcode`. -/
def handleBuyBackOpcode (s : Customer) (me : PlayerGuid) (slot : Int32) :
    BuyBackAnswer × Customer :=
  let stuff := (slot - 74).toInt
  if stuff > MAX_BUYBACK_SLOT then (.nothing, s)
  else
    let (it, list) := s.list.getBuyBack stuff
    let s := { s with list }
    match it with
    | none => (.nothing, s)
    | some it =>
      let proto := (s.world.item it).proto
      let amount := s.world.stackCount it
      let itemid := (s.world.item it).entry
      let add := s.world.findItemLessMax me itemid amount false
      let freeSlots := s.world.calculateFreeSlots me (some proto)
      if freeSlots = 0 ∧ add = none then (.inventoryError INV_ERR_INVENTORY_FULL, s)
      else
        let cost := (s.list.price stuff.toNat).toInt32
        if s.coinage.toInt32 < cost then (.buyFailed itemid 2, s)
        else
          let error := s.world.canReceiveItem me proto amount
          if error ≠ 0 then (.inventoryError error, s)
          else (.bought itemid amount, s.takeBack me stuff.toNat it add)

end Customer

end HearthStone

/-! ## Theorems

When buying back is all or nothing.

The checks of the handler keep what follows from failing half-way: where
`CalculateFreeSlots` counts a slot or `FindItemLessMax` finds a stack,
the item has somewhere to go. What is left to go wrong is arithmetic and
the list: prices are compared as signed numbers, sums of stacks have 32
bits, and an entry that leaves a list of eleven or more draws in what
lies behind the arrays.

* `Delivered` — the stack is at a place of its own, or on another stack.
* `Keeps` — what holds of a customer between requests.
* `Atomic` — the request is carried out, or nothing has changed.
* `buyBack_atomic` — it is so but for these three.
-/

namespace HearthStone

open Lib

namespace ItemWorld

variable {w w' : ItemWorld} {me : PlayerGuid} {g x add : Guid} {p : Place}

/-! ## Delivery -/

/-- The stack of `g` is now on that of `add`, and `g` is nobody's. -/
structure MergesInto (w : ItemWorld) (me : PlayerGuid) (g add : Guid) (w' : ItemWorld) : Prop where
  held : ∃ p, w.PlaceOf me p ∧ w.slots p = some add
  entry : (w.item add).isEntry (w.item g).entry = true
  plain : (w.item g).wrappedItemId = 0
  slots : w'.slots = w.slots
  fields : w'.fields = w.fields
  count : (w'.stackCount add).toNat = (w.stackCount add).toNat + (w.stackCount g).toNat
  kind : w'.item add = { w.item add with stackCount := w'.stackCount add }
  others : ∀ x, x ≠ add → x ≠ g → w'.item x = w.item x

/-- The stack of `g` has come into the inventory, and nothing else has
changed. -/
def Delivered (w : ItemWorld) (me : PlayerGuid) (g : Guid) (w' : ItemWorld) : Prop :=
  (∃ p, w.AddsAt me g p w') ∨ ∃ add, w.MergesInto me g add w'

/-- What has been sold: it is nowhere, and no gift. -/
structure Sold (w : ItemWorld) (g : Guid) : Prop where
  nowhere : ¬ Placed w.slots g
  plain : (w.item g).wrappedItemId = 0

/-- The writes of the second path of `HandleBuyBackOpcode`. -/
def mergeStack (w : ItemWorld) (add g : Guid) : ItemWorld :=
  (w.setStackCount add (w.stackCount add + w.stackCount g)).destructor g

theorem mergeStack_eq (hw : w.Orderly) (hg : ¬ Placed w.slots g) :
    w.mergeStack add g = (w.setStackCount add (w.stackCount add + w.stackCount g)).modify g
      fun it => { it with owner := none } :=
  destructor_of_noItems fun i => hw.noItems_of_not_placed hg i

theorem mergeStack_item (hw : w.Orderly) (hg : ¬ Placed w.slots g) (hx : x ≠ g) :
    (w.mergeStack add g).item x =
      (w.setStackCount add (w.stackCount add + w.stackCount g)).item x := by
  rw [mergeStack_eq hw hg, modify_item_of_ne hx]

/-- The stacks are merged exactly when the sum fits into 32 bits. -/
theorem delivered_mergeStack (hw : w.Orderly) (hg : w.Sold g)
    (hadd : w.LessMax me (w.item g).entry (w.stackCount g) add) :
    w.Delivered me g (w.mergeStack add g) ↔
      (w.stackCount add).toNat + (w.stackCount g).toNat < 2 ^ 32 := by
  have hslots : (w.mergeStack add g).slots = w.slots := by
    rw [mergeStack_eq hw hg.nowhere]
    rfl
  have hne : add ≠ g := by
    rintro rfl
    obtain ⟨p, -, hp⟩ := hadd.held
    exact hg.nowhere ⟨p, hp⟩
  have hitem : (w.mergeStack add g).item add =
      { w.item add with stackCount := w.stackCount add + w.stackCount g } := by
    rw [mergeStack_item hw hg.nowhere hne]
    unfold setStackCount
    rw [modify_item_self]
  have hcount : (w.mergeStack add g).stackCount add = w.stackCount add + w.stackCount g :=
    congrArg Item.stackCount hitem
  have hsum := UInt32.toNat_add (w.stackCount add) (w.stackCount g)
  constructor
  · rintro (⟨p, hadds⟩ | ⟨a, hmerges⟩)
    · refine absurd ⟨p, ?_⟩ hg.nowhere
      rw [← hslots, hadds.slots, Function.update_self]
    · by_cases ha : add = a
      · subst ha
        have h := hmerges.count
        rw [hcount, hsum] at h
        omega
      · -- the stack has not changed, so nothing was added
        have h := congrArg Item.stackCount (hmerges.others add ha hne)
        rw [hitem] at h
        have hnat := congrArg UInt32.toNat h
        rw [hsum] at hnat
        have hlt := (w.stackCount g).toNat_lt
        change _ = (w.stackCount add).toNat at hnat
        omega
  · intro hlt
    refine Or.inr ⟨add, ?_⟩
    exact {
      held := hadd.held
      entry := hadd.entry
      plain := hg.plain
      slots := hslots
      fields := by
        rw [mergeStack_eq hw hg.nowhere]
        rfl
      count := by
        rw [hcount, hsum, Nat.mod_eq_of_lt hlt]
      kind := by rw [hcount, hitem]
      others := by
        intro x hxadd hxg
        rw [mergeStack_item hw hg.nowhere hxg]
        exact modify_item_of_ne hxadd }

end ItemWorld

namespace Customer

variable {s : Customer} {me : PlayerGuid} {l : List Sale} {sale : Sale} {k : Nat} {slot : Int32}

/-! ## Requests -/

/-- What holds of a customer between requests: the list has what he has
sold and not bought back. -/
structure Keeps (s : Customer) (l : List Sale) : Prop where
  orderly : s.world.Orderly
  describes : s.list.Describes l
  inside : s.list.Inside
  sold : ∀ sale ∈ l, s.world.Sold sale.item

/-- The index a packet asks for. -/
def stuff (slot : Int32) : Int := (slot - 74).toInt

/-- The stack an item may go onto. -/
def stackFor (s : Customer) (me : PlayerGuid) (it : Guid) : Option Guid :=
  s.world.findItemLessMax me (s.world.item it).entry (s.world.stackCount it) false

/-- The checks let the request through. -/
def Accepts (s : Customer) (me : PlayerGuid) (it : Guid) (price : UInt32) : Prop :=
  ¬ (s.world.calculateFreeSlots me (some (s.world.item it).proto) = 0 ∧
      s.stackFor me it = none) ∧
    ¬ s.coinage.toInt32 < price.toInt32 ∧
    s.world.canReceiveItem me (s.world.item it).proto (s.world.stackCount it) = 0

instance (s : Customer) (me : PlayerGuid) (it : Guid) (price : UInt32) :
    Decidable (s.Accepts me it price) :=
  inferInstanceAs (Decidable (¬ _ ∧ ¬ _ ∧ _))

/-- The price is charged, the entry is off the list, and the stack has
come. -/
def Bought (s : Customer) (me : PlayerGuid) (l : List Sale) (k : Nat) (s' : Customer) : Prop :=
  ∃ sale, l[k]? = some sale ∧ s'.coinage.toNat + sale.price.toNat = s.coinage.toNat ∧
    s'.list.Describes (l.eraseIdx k) ∧ s.world.Delivered me sale.item s'.world

def Untouched (s : Customer) (l : List Sale) (s' : Customer) : Prop :=
  s'.coinage = s.coinage ∧ s'.list.Describes l ∧ s'.world = s.world

/-- Either the one or the other, and nothing behind the list's arrays is
read or written. -/
def Atomic (s : Customer) (me : PlayerGuid) (l : List Sale) (slot : Int32) : Prop :=
  let s' := (s.handleBuyBackOpcode me slot).2
  s'.list.Inside ∧ ((∃ k : Nat, stuff slot = k ∧ s.Bought me l k s') ∨ s.Untouched l s')

/-- The index is not the one behind the list; and of a request that the
checks let through, the price is covered as an unsigned number, the list
has ten entries at most, and a stack that takes the item has a sum of
less than 2^32. -/
def Sound (s : Customer) (me : PlayerGuid) (l : List Sale) (slot : Int32) : Prop :=
  stuff slot ≠ 12 ∧ ∀ (k : Nat) (sale : Sale), stuff slot = k → l[k]? = some sale →
    s.Accepts me sale.item sale.price → sale.price ≤ s.coinage ∧ l.length ≤ 10 ∧
      ∀ add ∈ s.stackFor me sale.item,
        (s.world.stackCount add).toNat + (s.world.stackCount sale.item).toNat < 2 ^ 32

/-! ### What the handler does -/

theorem handle_out (h : stuff slot < 0 ∨ 12 < stuff slot) :
    (s.handleBuyBackOpcode me slot).2 = s := by
  unfold handleBuyBackOpcode
  by_cases hmax : (slot - 74).toInt > (MAX_BUYBACK_SLOT : Int)
  · rw [if_pos hmax]
  · have hget : s.list.getBuyBack (slot - 74).toInt = (none, s.list) := by
      refine if_neg ?_
      unfold stuff at h
      rw [MAX_BUYBACK_SLOT] at hmax
      omega
    rw [if_neg hmax, hget]

theorem handle_none (h : stuff slot = k) (hk : k ≤ 12) (hempty : s.list.m_pBuyBack k = none) :
    (s.handleBuyBackOpcode me slot).2 = { s with list := s.list.touch [k] } := by
  have hget : s.list.getBuyBack (slot - 74).toInt = (none, s.list.touch [k]) := by
    unfold stuff at h
    rw [h]
    unfold BuyBack.getBuyBack
    rw [if_pos (by omega), Int.toNat_natCast, hempty]
  have hmax : ¬ (slot - 74).toInt > (MAX_BUYBACK_SLOT : Int) := by
    unfold stuff at h
    rw [h, MAX_BUYBACK_SLOT]
    omega
  unfold handleBuyBackOpcode
  rw [if_neg hmax, hget]

/-- With an item at the index: the checks decide. -/
theorem handle_some (h : stuff slot = k) (hk : k ≤ 12) {it : Guid} {price : UInt32}
    (hheld : s.list.m_pBuyBack k = some it) (hprice : s.list.price k = price) :
    (s.handleBuyBackOpcode me slot).2 =
      if s.Accepts me it price then ({ s with list := s.list.touch [k] } : Customer).takeBack me k it (s.stackFor me it)
      else { s with list := s.list.touch [k] } := by
  have hget : s.list.getBuyBack (slot - 74).toInt = (some it, s.list.touch [k]) := by
    unfold stuff at h
    rw [h]
    unfold BuyBack.getBuyBack
    rw [if_pos (by omega), Int.toNat_natCast, hheld]
  have hmax : ¬ (slot - 74).toInt > (MAX_BUYBACK_SLOT : Int) := by
    unfold stuff at h
    rw [h, MAX_BUYBACK_SLOT]
    omega
  have hnat : (slot - 74).toInt.toNat = k := by
    unfold stuff at h
    rw [h, Int.toNat_natCast]
  have hsame : (s.list.touch [k]).price k = price := hprice
  unfold handleBuyBackOpcode
  rw [if_neg hmax, hget]
  dsimp only
  rw [hnat, hsame]
  split
  · rename_i hfull
    exact (if_neg fun hall : s.Accepts me it price => hall.1 hfull).symm
  · rename_i hfull
    split
    · rename_i hgold
      exact (if_neg fun hall : s.Accepts me it price => hall.2.1 hgold).symm
    · rename_i hgold
      split
      · rename_i herror
        exact (if_neg fun hall : s.Accepts me it price => herror hall.2.2).symm
      · rename_i herror
        exact (if_pos (show s.Accepts me it price from ⟨hfull, hgold, not_not.1 herror⟩)).symm

/-! ### A request that is let through -/

theorem takeBack_list {it : Guid} {add : Option Guid} :
    (s.takeBack me k it add).list = s.list.removeBuyBackItem k := by
  unfold takeBack
  cases add with
  | none =>
    dsimp only
    split
    · rfl
    · rfl
  | some add => rfl

theorem takeBack_coinage {it : Guid} {add : Option Guid} :
    (s.takeBack me k it add).coinage = debit s.coinage (s.list.price k) := by
  unfold takeBack
  cases add with
  | none =>
    dsimp only
    split
    · rfl
    · rfl
  | some add => rfl

/-- The price is charged exactly when it is covered as an unsigned number. -/
theorem charged_iff {coinage price : UInt32} (h : ¬ coinage.toInt32 < price.toInt32) :
    (debit coinage price).toNat + price.toNat = coinage.toNat ↔ price ≤ coinage := by
  rw [Int32.lt_iff_toInt_lt, toInt_toInt32, toInt_toInt32] at h
  rw [debit_exact_iff, UInt32.le_iff_toNat_le]
  have hlt := coinage.toNat_lt
  constructor
  · rintro (hz | ⟨hle, -⟩)
    · rw [hz]
      exact Nat.zero_le _
    · exact hle
  · intro hle
    refine Or.inr ⟨hle, ?_⟩
    split at h
    · omega
    · split at h
      · omega
      · omega

/-- The stack comes: where the checks find room for it there is some. -/
theorem delivered_takeBack {it : Guid} (hw : s.world.Orderly) (hsold : s.world.Sold it)
    (hroom : ¬ (s.world.calculateFreeSlots me (some (s.world.item it).proto) = 0 ∧
      s.stackFor me it = none)) :
    s.world.Delivered me it (s.takeBack me k it (s.stackFor me it)).world ↔
      ∀ add ∈ s.stackFor me it,
        (s.world.stackCount add).toNat + (s.world.stackCount it).toNat < 2 ^ 32 := by
  cases hadd : s.stackFor me it with
  | none =>
    have hfree : 0 < s.world.calculateFreeSlots me (some (s.world.item it).proto) :=
      Nat.pos_of_ne_zero fun hz => hroom ⟨hz, hadd⟩
    rw [ItemWorld.calculateFreeSlots_pos, ← ItemWorld.hasRoom_iff,
      ← ItemWorld.addItemToFreeSlot_iff hw hsold.nowhere] at hfree
    obtain ⟨world, hworld⟩ := Option.isSome_iff_exists.1 hfree
    obtain ⟨p, -, hadds⟩ := ItemWorld.addItemToFreeSlot_takes hw hsold.nowhere hworld
    unfold takeBack
    dsimp only
    rw [hworld]
    exact iff_of_true (Or.inl ⟨p, hadds⟩) (by simp)
  | some add =>
    have hmerge := ItemWorld.delivered_mergeStack hw hsold
      (ItemWorld.findItemLessMax_spec hw hadd)
    simp only [Option.mem_some_iff, forall_eq']
    exact hmerge

/-- A list is not the same list with an entry less. -/
theorem not_describes_both {list : BuyBack} (h : list.Describes l) (hk : k < l.length)
    (h' : list.Describes (l.eraseIdx k)) : False := by
  have hlen := List.length_eraseIdx_of_lt hk
  have hmax : l.length ≤ 12 := h.1
  have hlast : l.length - 1 < 12 := by omega
  have hheld := (h.held hlast).2 (by omega)
  have hlt := (h'.held hlast).1 hheld
  omega

theorem atomic_of_accepts (hs : s.Keeps l) (hk : stuff slot = k) (hsale : l[k]? = some sale)
    (hacc : s.Accepts me sale.item sale.price) :
    s.Atomic me l slot ↔ sale.price ≤ s.coinage ∧ l.length ≤ 10 ∧
      ∀ add ∈ s.stackFor me sale.item,
        (s.world.stackCount add).toNat + (s.world.stackCount sale.item).toNat < 2 ^ 32 := by
  obtain ⟨hlen, hget⟩ := List.getElem?_eq_some_iff.1 hsale
  have hmax : l.length ≤ 12 := hs.describes.1
  have hshows := hs.describes.2 k (lt_of_lt_of_le hlen hmax)
  rw [hsale] at hshows
  have hitem : s.list.m_pBuyBack k = some sale.item := hshows.item
  have hprice : s.list.price k = sale.price := hshows.price
  have hlist : s.list.buyBackItem (k : Int) true = _ :=
    BuyBack.buyBackItem_eq true (by omega) (by omega)
  rw [Int.toNat_natCast, hitem, if_pos ⟨rfl, rfl⟩] at hlist
  have hsold := hs.sold sale (List.mem_of_getElem? hsale)
  have hdelivered := delivered_takeBack (s := { s with list := s.list.touch [k] }) (k := k)
    hs.orderly hsold hacc.1
  have hcharged := charged_iff hacc.2.1
  unfold Atomic
  dsimp only
  rw [handle_some hk (by omega) hitem hprice, if_pos hacc, takeBack_list, ← hlist]
  by_cases hten : l.length ≤ 10
  · have hok : s.list.Ok (.buyBackItem k true) := by
      refine ⟨by omega, fun _ _ _ _ => ?_⟩
      rw [(hs.describes.2 10 (by decide)).item, List.getElem?_eq_none_iff.2 hten]
      rfl
    obtain ⟨hdescribes, hinside⟩ := BuyBack.buyBackItem_spec hs.describes hs.inside hok
    have hstep : Sales.step l (.buyBackItem k true) = l.eraseIdx k := by
      rw [Sales.step, if_pos ⟨by omega, rfl⟩, Int.toNat_natCast]
    rw [hstep] at hdescribes
    constructor
    · rintro ⟨-, ⟨k', hk', sale', hsale', hcoin, -, hcome⟩ | ⟨-, hsame, -⟩⟩
      · obtain rfl : k = k' := by
          rw [hk] at hk'
          exact Int.ofNat.inj hk'
        obtain rfl := Option.some.inj (hsale.symm.trans hsale')
        rw [takeBack_coinage] at hcoin
        exact ⟨hcharged.1 (hprice ▸ hcoin), hten, hdelivered.1 hcome⟩
      · rw [takeBack_list, ← hlist] at hsame
        exact absurd hdescribes (not_describes_both hsame hlen)
    · rintro ⟨hle, -, hsum⟩
      refine ⟨hinside, Or.inl ⟨k, hk, sale, hsale, ?_, ?_, hdelivered.2 hsum⟩⟩
      · rw [takeBack_coinage]
        exact hprice.symm ▸ hcharged.2 hle
      · rw [takeBack_list, ← hlist]
        exact hdescribes
  · have hnot : ¬ s.list.Ok (.buyBackItem k true) := by
      intro hok
      have hnone := hok.2 rfl (by omega) (by omega) (by rw [Int.toNat_natCast, hitem]; rfl)
      have hheld := (hs.describes.held (by decide : 10 < 12)).2 (by omega)
      rw [hnone] at hheld
      cases hheld
    refine iff_of_false (fun h => ?_) fun h => hten h.2.1
    exact lt_irrefl 12 (h.1 12 (BuyBack.buyBackItem_outside hs.describes hnot))

/-! ### Requests that are not -/

theorem atomic_of_refused (hs : s.Keeps l) (hk : k < 12)
    (h : (s.handleBuyBackOpcode me slot).2 = { s with list := s.list.touch [k] }) :
    s.Atomic me l slot := by
  unfold Atomic
  rw [h]
  refine ⟨hs.inside.touch (by simpa using hk), Or.inr ⟨rfl, ?_, rfl⟩⟩
  exact ⟨hs.describes.1, fun j hj => (hs.describes.2 j hj).touch _⟩

theorem handle_refused_none (hs : s.Keeps l) (hk : stuff slot = k) (hlt : k < 12)
    (hnone : l[k]? = none) :
    (s.handleBuyBackOpcode me slot).2 = { s with list := s.list.touch [k] } := by
  have hshows := hs.describes.2 k hlt
  rw [hnone] at hshows
  exact handle_none hk (by omega) hshows.item

/-- The index behind the list is read. -/
theorem not_atomic_last (hs : s.Keeps l) (me : PlayerGuid) (h : stuff slot = 12) :
    ¬ s.Atomic me l slot := by
  have htouched : 12 ∈ (s.handleBuyBackOpcode me slot).2.list.touched := by
    have hmem : 12 ∈ (s.list.touch [12]).touched := List.mem_cons_self
    cases hheld : s.list.m_pBuyBack 12 with
    | none =>
      rw [handle_none (k := 12) h le_rfl hheld]
      exact hmem
    | some it =>
      rw [handle_some (k := 12) h le_rfl hheld rfl]
      split
      · have hnot : ¬ s.list.Ok (.buyBackItem 12 true) := fun hok => hok.1 rfl
        have hlist : s.list.buyBackItem 12 true = _ :=
          BuyBack.buyBackItem_eq true (by decide) le_rfl
        rw [show (12 : Int).toNat = 12 from rfl, hheld, if_pos ⟨rfl, rfl⟩] at hlist
        rw [takeBack_list, ← hlist]
        exact BuyBack.buyBackItem_outside hs.describes hnot
      · exact hmem
  exact fun hatomic => lt_irrefl 12 (hatomic.1 12 htouched)

/-- Buying back is all or nothing exactly when the request is sound. -/
theorem buyBack_atomic (hs : s.Keeps l) (me : PlayerGuid) (slot : Int32) :
    s.Atomic me l slot ↔ s.Sound me l slot := by
  have hmax : l.length ≤ 12 := hs.describes.1
  unfold Sound
  by_cases hin : 0 ≤ stuff slot ∧ stuff slot ≤ 12
  · obtain ⟨k, hk⟩ := Int.eq_ofNat_of_zero_le hin.1
    by_cases hlast : stuff slot = 12
    · exact iff_of_false (not_atomic_last hs me hlast) fun h => h.1 hlast
    · have hlt : k < 12 := by omega
      have hsound : (∀ (k' : Nat) (sale : Sale), stuff slot = k' → l[k']? = some sale →
          s.Accepts me sale.item sale.price → sale.price ≤ s.coinage ∧ l.length ≤ 10 ∧
            ∀ add ∈ s.stackFor me sale.item, (s.world.stackCount add).toNat +
              (s.world.stackCount sale.item).toNat < 2 ^ 32) ↔
          ∀ sale, l[k]? = some sale → s.Accepts me sale.item sale.price →
            sale.price ≤ s.coinage ∧ l.length ≤ 10 ∧
              ∀ add ∈ s.stackFor me sale.item, (s.world.stackCount add).toNat +
                (s.world.stackCount sale.item).toNat < 2 ^ 32 := by
        constructor
        · exact fun h sale => h k sale hk
        · intro h k' sale hk'
          obtain rfl : k = k' := Int.ofNat.inj (hk.symm.trans hk')
          exact h sale
      rw [and_iff_right hlast, hsound]
      cases hsale : l[k]? with
      | none =>
        exact iff_of_true (atomic_of_refused hs hlt (handle_refused_none hs hk hlt hsale))
          (by simp)
      | some sale =>
        simp only [Option.some.injEq, forall_eq']
        by_cases hacc : s.Accepts me sale.item sale.price
        · rw [atomic_of_accepts hs hk hsale hacc]
          simp [hacc]
        · have hshows := hs.describes.2 k hlt
          rw [hsale] at hshows
          have hprice : s.list.price k = sale.price := hshows.price
          have hrefused : (s.handleBuyBackOpcode me slot).2 = _ :=
            handle_some hk (by omega) hshows.item hprice
          rw [if_neg hacc] at hrefused
          exact iff_of_true (atomic_of_refused hs hlt hrefused) fun h => absurd h hacc
  · have hnone : ∀ (k : Nat) (sale : Sale), stuff slot = k → l[k]? = some sale → False := by
      intro k sale hk hsale
      obtain ⟨hlen, -⟩ := List.getElem?_eq_some_iff.1 hsale
      omega
    unfold Atomic
    dsimp only
    rw [handle_out (by omega)]
    refine iff_of_true ⟨hs.inside, Or.inr ⟨rfl, hs.describes, rfl⟩⟩ ⟨by omega, ?_⟩
    intro k sale hk hsale
    exact absurd hsale fun h => hnone k sale hk h

/-! ### Eleven things sold -/

/-- Selling keeps the list. -/
theorem describes_sells (sales : List Sale) {list : BuyBack} (h : list.Describes l)
    (hin : list.Inside) :
    (sales.foldl BuyBack.addBuyBackItem list).Describes (sales.foldl Sales.sell l) ∧
      (sales.foldl BuyBack.addBuyBackItem list).Inside := by
  induction sales generalizing list l with
  | nil => exact ⟨h, hin⟩
  | cons sale sales ih =>
    obtain ⟨hnext, hinside⟩ := BuyBack.addBuyBackItem_spec h hin
    exact ih hnext hinside

/-- Somebody who has sold the items from 1 to `n`. -/
def hawkerSales (n : Nat) (hn : n < 2 ^ 32 - 1) : List Sale :=
  (List.finRange n).map fun i => ⟨i.val + 1, 100, 7, by
    rw [Nat.mod_eq_of_lt (by omega)]
    exact Nat.succ_ne_zero _⟩

def hawkerList (sales : List Sale) : BuyBack := sales.foldl BuyBack.addBuyBackItem BuyBack.new

def hawker (sales : List Sale) : Customer :=
  { world := .empty, list := hawkerList sales, coinage := 500 }

theorem keeps_hawker (sales : List Sale) :
    (hawker sales).Keeps (sales.foldl Sales.sell []) where
  orderly := (ItemWorld.wellFormed_empty _ _).orderly
  describes := (describes_sells sales BuyBack.describes_new BuyBack.inside_new).1
  inside := (describes_sells sales BuyBack.describes_new BuyBack.inside_new).2
  sold := by
    intro sale _
    refine ⟨?_, rfl⟩
    rintro ⟨p, hp⟩
    cases hp

def hawkerGuid : PlayerGuid := ⟨65, by decide⟩

/-- With two things sold the second can be bought back. -/
theorem buyBack_atomic_second :
    (hawker (hawkerSales 2 (by decide))).Atomic hawkerGuid (hawkerSales 2 (by decide)) 75 := by
  have hkeeps := keeps_hawker (hawkerSales 2 (by decide))
  have hlist : (hawkerSales 2 (by decide)).foldl Sales.sell [] = hawkerSales 2 (by decide) := rfl
  rw [hlist] at hkeeps
  refine (buyBack_atomic hkeeps hawkerGuid 75).2 ⟨by decide, ?_⟩
  intro k sale hk hsale _
  have hindex : stuff 75 = (1 : Nat) := by decide
  obtain rfl : 1 = k := Int.ofNat.inj (hindex.symm.trans hk)
  have hsecond : (hawkerSales 2 (by decide))[1]? = some ⟨2, 100, 7, by decide⟩ := rfl
  obtain rfl := Option.some.inj (hsecond.symm.trans hsale)
  have hnone : (hawker (hawkerSales 2 (by decide))).stackFor hawkerGuid 2 = none := by
    decide +kernel
  refine ⟨by decide, by decide, ?_⟩
  rw [hnone]
  simp

/-- With eleven, buying one back reaches behind the list. -/
theorem eleven_not_atomic : ¬ ∀ (s : Customer) (l : List Sale), s.Keeps l → ∀ me slot,
    s.Atomic me l slot := by
  intro hall
  have hatomic := hall _ _ (keeps_hawker (hawkerSales 11 (by decide))) hawkerGuid 74
  exact lt_irrefl 12 (hatomic.1 12 (by decide +kernel))

end Customer

end HearthStone
