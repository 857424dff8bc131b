/-
HearthStone.Auction.Ledger — the gold of an auction: what its bidders
lost against what was mailed on its behalf.

Three sums over the log, for an auction and a player:

* `taken` — the gold that left the player's coinage for accepted bids;
* `refunded` — the gold mailed to the player, the seller's share apart;
* `proceeds` — the seller's share mailed to the player.

`Balanced` is the ledger. While an auction is live its holder is the
highest bidder: what a player lost is what came back plus what is held.
Once it is settled the held gold is the final bid of a won auction, and
nothing otherwise. `LedgerInv` adds the one fact about flags the ledger
needs: an auction queued as expired holds nobody's gold.
-/
import HearthStone.Auction.SettlementTheorems
import Mathlib.Algebra.BigOperators.Group.List.Basic

namespace HearthStone.Auctions

open Lib

/-! ## Sums over the log -/

def LogEntry.takenFrom (p : AuctionPtr) (g : PlayerGuid) : LogEntry → Nat
  | bid q bidder taken => if q = p ∧ bidder = g.val then taken else 0
  | _ => 0

def LogEntry.refundTo (p : AuctionPtr) (g : PlayerGuid) : LogEntry → Nat
  | mail q kind m => if q = p ∧ kind ≠ .sold ∧ m.receiver = g.val then m.money.toNat else 0
  | _ => 0

def LogEntry.proceedsTo (p : AuctionPtr) (g : PlayerGuid) : LogEntry → Nat
  | mail q kind m => if q = p ∧ kind = .sold ∧ m.receiver = g.val then m.money.toNat else 0
  | _ => 0

/-- The gold of `g` that an auction holds. -/
def Auction.heldBy (a : Auction) (g : PlayerGuid) : Nat :=
  if a.highestBidder = g.val then a.highestBid.toNat else 0

/-- The final bid minus the cut plus the deposit. -/
def Auction.proceeds (a : Auction) (auctionCut : UInt32 → UInt32) : Int :=
  (a.highestBid.toNat : Int) - (auctionCut a.highestBid).toNat + a.depositAmount.toNat

namespace AuctionHouse

def sumLog (h : AuctionHouse) (f : LogEntry → Nat) : Nat := (h.log.map f).sum

def taken (h : AuctionHouse) (p : AuctionPtr) (g : PlayerGuid) : Nat := h.sumLog (·.takenFrom p g)
def refunded (h : AuctionHouse) (p : AuctionPtr) (g : PlayerGuid) : Nat := h.sumLog (·.refundTo p g)
def proceeds (h : AuctionHouse) (p : AuctionPtr) (g : PlayerGuid) : Nat :=
  h.sumLog (·.proceedsTo p g)

/-- The gold of `g` that the auction under `p` holds. -/
def held (h : AuctionHouse) (p : AuctionPtr) (g : PlayerGuid) : Nat :=
  match h.objs p with
  | none => 0
  | some a => a.heldBy g

/-- The ledger of every auction, in a house reached from `h₀`. -/
structure Balanced (h₀ h : AuctionHouse) : Prop where
  live : ∀ p a, h.objs p = some a → ∀ g,
    h.taken p g + h₀.held p g = h.refunded p g + a.heldBy g ∧ h.proceeds p g = 0
  settled : ∀ p a, .settled p a ∈ h.log → ∀ g,
    h.taken p g + h₀.held p g =
        h.refunded p g + (if a.deletedReason = .won then a.heldBy g else 0) ∧
      (h.proceeds p g : Int) =
        if a.deletedReason = .won ∧ a.owner = g.val then a.proceeds h₀.auctionCut else 0

/-- The ledger with what carries it through a step. -/
structure LedgerInv (h₀ h : AuctionHouse) : Prop where
  queue : h.QueueInv
  balanced : h₀.Balanced h
  unused : ∀ p, h.nextPtr ≤ p → ∀ g,
    h.taken p g = 0 ∧ h₀.held p g = 0 ∧ h.refunded p g = 0 ∧ h.proceeds p g = 0
  expiredFree : ∀ p a, h.objs p = some a → a.deleted = true → a.deletedReason = .expired →
    a.highestBidder = 0
  cut : h.auctionCut = h₀.auctionCut

/-! ## The step condition -/

/-- The seller's share is a positive `int32`. -/
def ProceedsFit (h : AuctionHouse) (a : Auction) : Prop :=
  0 ≤ a.proceeds h.auctionCut ∧ a.proceeds h.auctionCut < 2 ^ 31

/-- A bid is not accepted on an auction queued as expired, and leaves its
bidder's coinage in the lower half; no queued auction is queued again;
the seller's share of a won auction fits. -/
def MoneyFits (h : AuctionHouse) : AuctionEvent → Prop
  | .placeBid player id price =>
      ∀ p a, h.bidTarget player id price = some (p, a) →
        ¬ (a.deleted = true ∧ a.deletedReason = .expired) ∧
          (h.coinage player.val).toNat < price.toNat + 2 ^ 31
  | .updateAuctions t => h.UpdateFresh (.updateAuctions t)
  | .updateDeletionQueue =>
      ∀ p ∈ h.removalList, ∀ a, h.objs p = some a → a.deletedReason = .won → h.ProceedsFit a
  | _ => True

instance (h : AuctionHouse) (a : Auction) : Decidable (h.ProceedsFit a) :=
  inferInstanceAs (Decidable (_ ∧ _))

instance (h : AuctionHouse) (e : AuctionEvent) : Decidable (h.MoneyFits e) :=
  match e with
  | .placeBid player id price => decidable_of_iff
      (∀ x ∈ h.bidTarget player id price, ¬ (x.2.deleted = true ∧ x.2.deletedReason = .expired) ∧
        (h.coinage player.val).toNat < price.toNat + 2 ^ 31)
      ⟨fun hall p a hb => hall (p, a) hb, fun hall x hx => hall x.1 x.2 hx⟩
  | .updateAuctions t => inferInstanceAs (Decidable (h.UpdateFresh (.updateAuctions t)))
  | .updateDeletionQueue => inferInstanceAs (Decidable
      (∀ p ∈ h.removalList, ∀ a ∈ h.objs p, a.deletedReason = .won → h.ProceedsFit a))
  | .cancelAuction _ | .sellItem .. => .isTrue trivial

/-! ## The sums, write by write -/

variable {h₀ h : AuctionHouse} {p q : AuctionPtr} {a : Auction} {g : PlayerGuid}

@[simp] theorem sumLog_record (f : LogEntry → Nat) (es : List LogEntry) :
    (h.record es).sumLog f = h.sumLog f + (es.map f).sum := by
  simp [sumLog, record]

/-- What leaves the three sums, the live auctions' holdings and the
settled entries alone. -/
theorem LedgerInv.frame {h' : AuctionHouse} (hi : h₀.LedgerInv h) (hq : h'.QueueInv)
    (hobjs : h'.objs = h.objs) (hptr : h'.nextPtr = h.nextPtr) (hlog : h'.log = h.log)
    (hcut : h'.auctionCut = h.auctionCut) : h₀.LedgerInv h' where
  queue := hq
  balanced := by
    constructor
    · intro p a ha g
      unfold taken refunded proceeds sumLog
      rw [hlog]
      exact hi.balanced.live p a (hobjs ▸ ha) g
    · intro p a ha g
      unfold taken refunded proceeds sumLog
      rw [hlog]
      exact hi.balanced.settled p a (hlog ▸ ha) g
  unused := by
    intro p hp g
    unfold taken refunded proceeds sumLog
    rw [hlog]
    exact hi.unused p (hptr ▸ hp) g
  expiredFree := by rw [hobjs]; exact hi.expiredFree
  cut := hcut.trans hi.cut

theorem LedgerInv.setCoinage (hi : h₀.LedgerInv h) (g c : UInt32) :
    h₀.LedgerInv (h.setCoinage g c) :=
  hi.frame (hi.queue.setCoinage g c) rfl rfl rfl rfl

/-- A settled auction is gone. -/
theorem QueueInv.objs_of_settled (hi : h.QueueInv) {b : Auction}
    (hs : .settled p b ∈ h.log) : h.objs p = none := by
  cases ha : h.objs p with
  | none => rfl
  | some a =>
    have hzero := (hi.unsettled p a ha).1
    unfold timesSettled at hzero
    rw [List.countP_eq_zero] at hzero
    exact absurd (by simp [LogEntry.isSettled]) (hzero _ hs)

/-- Queueing an auction moves no gold. -/
theorem LedgerInv.pushRemoval (hi : h₀.LedgerInv h) (ha : h.objs p = some a)
    (hdel : a.deleted = false) (reason : AuctionRemoveType)
    (hfree : reason = .expired → a.highestBidder = 0) :
    h₀.LedgerInv (h.pushRemoval p a reason) := by
  have hsum : ∀ f : LogEntry → Nat, f (.queued p) = 0 →
      (h.pushRemoval p a reason).sumLog f = h.sumLog f := by
    intro f hf
    show (h.record [.queued p]).sumLog f = _
    rw [sumLog_record]
    simp [hf]
  have htaken : ∀ q g, (h.pushRemoval p a reason).taken q g = h.taken q g :=
    fun q g => hsum _ rfl
  have hrefunded : ∀ q g, (h.pushRemoval p a reason).refunded q g = h.refunded q g :=
    fun q g => hsum _ rfl
  have hproceeds : ∀ q g, (h.pushRemoval p a reason).proceeds q g = h.proceeds q g :=
    fun q g => hsum _ rfl
  have hobjs : ∀ q b, (h.pushRemoval p a reason).objs q = some b →
      (q = p ∧ b = { a with deleted := true, deletedReason := reason }) ∨ h.objs q = some b := by
    intro q b hb
    by_cases hqp : q = p
    · left
      simp only [AuctionHouse.pushRemoval, AuctionHouse.record, AuctionHouse.setAuction, hqp,
        Function.update_self, Option.some.injEq] at hb
      exact ⟨hqp, hb.symm⟩
    · right
      simpa [AuctionHouse.pushRemoval, AuctionHouse.record, AuctionHouse.setAuction, hqp] using hb
  refine ⟨hi.queue.pushRemoval ha hdel reason, ⟨?_, ?_⟩, ?_, ?_, hi.cut⟩
  · intro q b hb g
    rw [htaken, hrefunded, hproceeds]
    rcases hobjs q b hb with ⟨rfl, rfl⟩ | hb
    · exact hi.balanced.live q a ha g
    · exact hi.balanced.live q b hb g
  · intro q b hb g
    rw [htaken, hrefunded, hproceeds]
    have hb' : LogEntry.settled q b ∈ h.log := by
      have hmem : LogEntry.settled q b ∈ h.log ++ [.queued p] := hb
      simpa using hmem
    exact hi.balanced.settled q b hb' g
  · intro q hq g
    rw [htaken, hrefunded, hproceeds]
    exact hi.unused q hq g
  · intro q b hb hbdel hbr
    rcases hobjs q b hb with ⟨rfl, rfl⟩ | hb
    · exact hfree hbr
    · exact hi.expiredFree q b hb hbdel hbr

theorem LedgerInv.queueDeletion (hi : h₀.LedgerInv h) (ha : h.objs p = some a)
    (reason : AuctionRemoveType) (hfree : reason = .expired → a.highestBidder = 0) :
    h₀.LedgerInv (h.queueDeletion p a reason) := by
  unfold AuctionHouse.queueDeletion
  split
  · exact hi
  · rename_i hdel
    exact hi.pushRemoval ha (by simpa using hdel) reason hfree

/-! ## A bid -/

theorem sumLog_takeBid (f : LogEntry → Nat) (player : PlayerGuid) (price : UInt32) :
    (h.takeBid player p a price).sumLog f = h.sumLog f +
      (f (.bid p player.val
        ((h.coinage player.val).toNat - (debit (h.coinage player.val) price).toNat)) +
        if a.highestBidder ≠ 0 then f (.mail p .outbid (outbidMail a)) else 0) := by
  unfold AuctionHouse.takeBid
  split
  · rw [sumLog_record, sumLog_record, List.map_singleton, List.map_singleton,
      List.sum_singleton, List.sum_singleton, Nat.add_assoc]
    rfl
  · rw [sumLog_record, List.map_singleton, List.sum_singleton, Nat.add_zero]
    rfl

theorem taken_takeBid (player : PlayerGuid) {price : UInt32}
    (hexact : (debit (h.coinage player.val) price).toNat + price.toNat =
      (h.coinage player.val).toNat) :
    (h.takeBid player p a price).taken q g =
      h.taken q g + if p = q ∧ player = g then price.toNat else 0 := by
  have hpaid : (h.coinage player.val).toNat - (debit (h.coinage player.val) price).toNat =
      price.toNat := by omega
  unfold taken
  rw [sumLog_takeBid, hpaid]
  simp [LogEntry.takenFrom, Subtype.ext_iff]

theorem refunded_takeBid (player : PlayerGuid) (price : UInt32) :
    (h.takeBid player p a price).refunded q g =
      h.refunded q g + if p = q then a.heldBy g else 0 := by
  have hg : g.val ≠ 0 := g.property
  unfold refunded
  rw [sumLog_takeBid]
  by_cases hb : a.highestBidder = g.val
  · simp [LogEntry.refundTo, Auction.heldBy, outbidMail, hb, hg]
  · simp [LogEntry.refundTo, Auction.heldBy, outbidMail, hb]

theorem proceeds_takeBid (player : PlayerGuid) (price : UInt32) :
    (h.takeBid player p a price).proceeds q g = h.proceeds q g := by
  unfold proceeds
  rw [sumLog_takeBid]
  simp [LogEntry.proceedsTo]

/-- The bidder pays, the last one is refunded, and the auction holds the
new bid. -/
theorem LedgerInv.setBid (hi : h₀.LedgerInv h) (ha : h.objs p = some a)
    (hlate : ¬ (a.deleted = true ∧ a.deletedReason = .expired)) (player : PlayerGuid)
    {price : UInt32}
    (hexact : (debit (h.coinage player.val) price).toNat + price.toNat =
      (h.coinage player.val).toNat) :
    h₀.LedgerInv ((h.takeBid player p a price).setAuction p
      (some { a with highestBidder := player.val, highestBid := price })) := by
  have hobj : (h.takeBid player p a price).objs p = some a := by rw [takeBid_objs]; exact ha
  have hlt : p < h.nextPtr := hi.queue.bounded p a ha
  have hframe : (h.takeBid player p a price).nextPtr = h.nextPtr ∧
      (h.takeBid player p a price).auctionCut = h.auctionCut := by
    unfold AuctionHouse.takeBid
    split <;> exact ⟨rfl, rfl⟩
  have hsettled : ∀ q b, .settled q b ∈ (h.takeBid player p a price).log →
      q ≠ p ∧ .settled q b ∈ h.log := by
    intro q b hb
    have hmem : .settled q b ∈ h.log := by
      unfold AuctionHouse.takeBid AuctionHouse.record at hb
      split at hb <;> simpa [AuctionHouse.setCoinage] using hb
    refine ⟨?_, hmem⟩
    intro hqp
    have hgone := hi.queue.objs_of_settled hmem
    rw [hqp, ha] at hgone
    simp at hgone
  refine ⟨(hi.queue.takeBid player price).setAuction hobj rfl rfl, ⟨?_, ?_⟩, ?_, ?_,
    hframe.2.trans hi.cut⟩
  · intro q b hb g
    change (h.takeBid player p a price).taken q g + _ =
      (h.takeBid player p a price).refunded q g + _ ∧
        (h.takeBid player p a price).proceeds q g = 0
    rw [taken_takeBid player hexact, refunded_takeBid, proceeds_takeBid]
    by_cases hqp : q = p
    · subst hqp
      have hab : { a with highestBidder := player.val, highestBid := price } = b := by
        simpa [AuctionHouse.setAuction] using hb
      obtain ⟨hbal, hzero⟩ := hi.balanced.live q a ha g
      refine ⟨?_, hzero⟩
      rw [← hab]
      by_cases hpg : player = g
      · simp [Auction.heldBy, hpg] at hbal ⊢
        omega
      · have hpg' : player.val ≠ g.val := fun heq => hpg (Subtype.ext heq)
        simp [Auction.heldBy, hpg, hpg'] at hbal ⊢
        omega
    · have hb' : h.objs q = some b := by
        simpa [AuctionHouse.setAuction, hqp, takeBid_objs] using hb
      simpa [Ne.symm hqp] using hi.balanced.live q b hb' g
  · intro q b hb g
    obtain ⟨hqp, hb'⟩ := hsettled q b hb
    change (h.takeBid player p a price).taken q g + _ =
      (h.takeBid player p a price).refunded q g + _ ∧
        ((h.takeBid player p a price).proceeds q g : Int) = _
    rw [taken_takeBid player hexact, refunded_takeBid, proceeds_takeBid]
    simpa [Ne.symm hqp] using hi.balanced.settled q b hb' g
  · intro q hq g
    have hq' : h.nextPtr ≤ q := hframe.1 ▸ hq
    have hqp : p ≠ q := Nat.ne_of_lt (Nat.lt_of_lt_of_le hlt hq')
    change (h.takeBid player p a price).taken q g = 0 ∧ _ ∧
      (h.takeBid player p a price).refunded q g = 0 ∧
        (h.takeBid player p a price).proceeds q g = 0
    rw [taken_takeBid player hexact, refunded_takeBid, proceeds_takeBid]
    simpa [hqp] using hi.unused q hq' g
  · intro q b hb hbdel hbr
    by_cases hqp : q = p
    · subst hqp
      have hab : { a with highestBidder := player.val, highestBid := price } = b := by
        simpa [AuctionHouse.setAuction] using hb
      rw [← hab] at hbdel hbr
      exact absurd ⟨hbdel, hbr⟩ hlate
    · have hb' : h.objs q = some b := by
        simpa [AuctionHouse.setAuction, hqp, takeBid_objs] using hb
      exact hi.expiredFree q b hb' hbdel hbr

/-- The bidder has the price. -/
theorem bidTarget_covered {player : PlayerGuid} {id price : UInt32}
    (hb : h.bidTarget player id price = some (p, a)) :
    price.toNat ≤ (h.coinage player.val).toNat := by
  unfold bidTarget at hb
  split at hb
  · simp at hb
  · split at hb
    · simp at hb
    · split at hb
      · simp at hb
      · split at hb
        · simp at hb
        · split at hb
          · simp at hb
          · split at hb
            · simp at hb
            · rename_i hlt
              exact UInt32.le_iff_toNat_le.1 (UInt32.not_lt.1 hlt)

theorem LedgerInv.placeBid (hi : h₀.LedgerInv h) (player : PlayerGuid) (id price : UInt32)
    (hok : h.MoneyFits (.placeBid player id price)) :
    h₀.LedgerInv (h.placeBid player id price) := by
  unfold AuctionHouse.placeBid
  split
  · exact hi
  · rename_i p a hb
    obtain ⟨hlate, hcoin⟩ := hok p a hb
    have hexact := (debit_exact_iff (h.coinage player.val) price).2
      (Or.inr ⟨bidTarget_covered hb, hcoin⟩)
    have hset := hi.setBid (bidTarget_objs hb) hlate player hexact
    unfold AuctionHouse.acceptBid
    split
    · exact hset.queueDeletion (by simp [AuctionHouse.setAuction]) .won nofun
    · exact hset

theorem LedgerInv.cancelAuction (hi : h₀.LedgerInv h) (id : UInt32) :
    h₀.LedgerInv (h.cancelAuction id) := by
  unfold AuctionHouse.cancelAuction
  split
  · exact hi
  · split
    · exact hi
    · rename_i hobj
      exact hi.queueDeletion hobj .cancelled nofun

/-! ## A new auction -/

theorem LedgerInv.alloc (hi : h₀.LedgerInv h) (id : UInt32) (hdel : a.deleted = false)
    (hbidder : a.highestBidder = 0) :
    h₀.LedgerInv
      ({ h with nextPtr := h.nextPtr + 1, maxId := id }.setAuction h.nextPtr (some a)) := by
  have hobjs : ∀ q b,
      ({ h with nextPtr := h.nextPtr + 1, maxId := id }.setAuction h.nextPtr (some a)).objs q =
        some b → (q = h.nextPtr ∧ b = a) ∨ h.objs q = some b := by
    intro q b hb
    by_cases hq : q = h.nextPtr
    · left
      simp only [AuctionHouse.setAuction, hq, Function.update_self, Option.some.injEq] at hb
      exact ⟨hq, hb.symm⟩
    · right
      simpa [AuctionHouse.setAuction, hq] using hb
  refine ⟨hi.queue.alloc id hdel, ⟨?_, hi.balanced.settled⟩, ?_, ?_, hi.cut⟩
  · intro q b hb g
    rcases hobjs q b hb with ⟨rfl, rfl⟩ | hb
    · obtain ⟨h₁, h₂, h₃, h₄⟩ := hi.unused h.nextPtr (Nat.le_refl _) g
      have hheld : b.heldBy g = 0 := by
        unfold Auction.heldBy
        rw [hbidder, if_neg (Ne.symm g.property)]
      refine ⟨?_, h₄⟩
      show h.taken h.nextPtr g + h₀.held h.nextPtr g = h.refunded h.nextPtr g + b.heldBy g
      omega
    · exact hi.balanced.live q b hb g
  · intro q hq g
    exact hi.unused q (Nat.le_of_succ_le hq) g
  · intro q b hb hbdel hbr
    rcases hobjs q b hb with ⟨rfl, rfl⟩ | hb
    · exact hbidder
    · exact hi.expiredFree q b hb hbdel hbr

theorem LedgerInv.sellItem (hi : h₀.LedgerInv h) (seller : PlayerGuid) (item : AuctionItem)
    (bid buyout etime itemDeposit now : UInt32) :
    h₀.LedgerInv (h.sellItem seller item bid buyout etime itemDeposit now) := by
  have hq := hi.queue.sellItem seller item bid buyout etime itemDeposit now
  unfold AuctionHouse.sellItem at hq ⊢
  split
  · exact hi
  · rename_i hcoin
    rw [if_neg hcoin] at hq
    dsimp only at hq ⊢
    have hnew := (hi.alloc (h.maxId + 1) (a := ⟨h.maxId + 1, seller.val, 0, bid, buyout,
      itemDeposit, now + etime * 60, item, false, .expired⟩) rfl rfl).setCoinage seller.val
        (debit (h.coinage seller.val) itemDeposit)
    refine hnew.frame hq ?_ ?_ ?_ ?_ <;> (unfold AuctionHouse.addAuction; split <;> rfl)

/-! ## The two updates -/

theorem LedgerInv.updateAuctions (hi : h₀.LedgerInv h) {t : UInt32}
    (hok : h.UpdateFresh (.updateAuctions t)) :
    ∃ h', h.updateAuctions t = some h' ∧ h₀.LedgerInv h' := by
  refine updateAuctions_keeps hi.queue hok hi fun h q a hi ha hfresh => hi.pushRemoval ha hfresh _ ?_
  intro hreason
  by_contra hbidder
  rw [if_neg hbidder] at hreason
  cases hreason

/-- The seller's mail carries the seller's share when it fits. -/
theorem sellerAmount_eq (hfit : h.ProceedsFit a) :
    ((h.sellerAmount a).toNat : Int) = a.proceeds h.auctionCut := by
  obtain ⟨hnonneg, hlt⟩ := hfit
  unfold Auction.proceeds at hnonneg hlt ⊢
  have hcut := (h.auctionCut a.highestBid).toNat_lt
  have hamount : (a.highestBid - h.auctionCut a.highestBid + a.depositAmount).toNat =
      (2 ^ 32 - (h.auctionCut a.highestBid).toNat + a.highestBid.toNat + a.depositAmount.toNat) %
        2 ^ 32 := by
    rw [UInt32.toNat_add, UInt32.toNat_sub]
    omega
  have hpos : ¬ (a.highestBid - h.auctionCut a.highestBid + a.depositAmount).toInt32 < 0 := by
    rw [toInt32_neg_iff, hamount]
    omega
  unfold sellerAmount
  rw [if_neg hpos, hamount]
  omega

theorem sumLog_settle (f : LogEntry → Nat) (hf : ∀ b, f (.settled p b) = 0) :
    (h.settle p a).sumLog f = h.sumLog f + ((h.settlementMails p a).map f).sum := by
  obtain ⟨c, hc⟩ := settle_frame h p a
  rw [hc]
  show (h.record _).sumLog f = _
  rw [sumLog_record, List.map_append, List.sum_append]
  simp [hf]

theorem taken_settle : (h.settle p a).taken q g = h.taken q g := by
  unfold taken
  rw [sumLog_settle _ fun _ => rfl]
  have hzero : ((h.settlementMails p a).map (·.takenFrom q g)).sum = 0 := by
    refine List.sum_eq_zero ?_
    intro x hx
    obtain ⟨e, he, rfl⟩ := List.mem_map.1 hx
    obtain ⟨kind, m, rfl⟩ := settlementMails_mail he
    rfl
  rw [hzero]
  rfl

/-- The bidder of a cancelled auction is refunded, and nobody else. -/
theorem refunded_settle :
    (h.settle p a).refunded q g =
      h.refunded q g + if p = q ∧ a.deletedReason = .cancelled then a.heldBy g else 0 := by
  have hg : g.val ≠ 0 := g.property
  unfold refunded
  rw [sumLog_settle _ fun _ => rfl]
  unfold settlementMails
  cases a.deletedReason with
  | expired => simp [LogEntry.refundTo, itemMail]
  | won => simp [LogEntry.refundTo, itemMail]
  | cancelled =>
    by_cases hb : a.highestBidder = g.val
    · simp [LogEntry.refundTo, itemMail, refundMail, Auction.heldBy, hb, hg]
    · by_cases hzero : a.highestBidder = 0
      · simp [LogEntry.refundTo, itemMail, Auction.heldBy, hzero, Ne.symm hg]
      · simp [LogEntry.refundTo, itemMail, refundMail, Auction.heldBy, hb, hzero]

/-- The owner of a won auction is sent the share, and nobody else. -/
theorem proceeds_settle :
    (h.settle p a).proceeds q g =
      h.proceeds q g + if p = q ∧ a.deletedReason = .won ∧ a.owner = g.val
        then (h.sellerAmount a).toNat else 0 := by
  unfold proceeds
  rw [sumLog_settle _ fun _ => rfl]
  unfold settlementMails
  cases a.deletedReason with
  | expired => simp [LogEntry.proceedsTo]
  | won => simp [LogEntry.proceedsTo, soldMail]
  | cancelled => simp only []; split <;> simp [LogEntry.proceedsTo]

theorem LedgerInv.settle {ps : List AuctionPtr}
    (hi : h₀.LedgerInv { h with removalList := p :: ps }) (ha : h.objs p = some a)
    (hdel : a.deleted = true) (hfit : a.deletedReason = .won → h.ProceedsFit a) :
    h₀.LedgerInv { h.settle p a with removalList := ps } := by
  obtain ⟨c, hc⟩ := settle_frame h p a
  have hobjs : ∀ q b, (h.settle p a).objs q = some b → q ≠ p ∧ h.objs q = some b := by
    intro q b hb
    rw [hc] at hb
    by_cases hqp : q = p
    · simp [hqp] at hb
    · exact ⟨hqp, by simpa [hqp] using hb⟩
  have hptr : (h.settle p a).nextPtr = h.nextPtr := by rw [hc]; rfl
  have hsettled : ∀ q b, .settled q b ∈ (h.settle p a).log →
      (q = p ∧ b = a) ∨ (q ≠ p ∧ .settled q b ∈ h.log) := by
    intro q b hb
    rw [hc] at hb
    have hmem : .settled q b ∈ h.log ++ (h.settlementMails p a ++ [.settled p a]) := hb
    rw [List.mem_append, List.mem_append, List.mem_singleton] at hmem
    rcases hmem with hmem | hmem | hmem
    · refine Or.inr ⟨?_, hmem⟩
      intro hqp
      have hgone : h.objs q = none := hi.queue.objs_of_settled hmem
      rw [hqp, ha] at hgone
      simp at hgone
    · obtain ⟨kind, m, hm⟩ := settlementMails_mail hmem
      cases hm
    · injection hmem with hqp hba
      exact Or.inl ⟨hqp, hba⟩
  have hcut : (h.settle p a).auctionCut = h₀.auctionCut := by rw [hc]; exact hi.cut
  have hcut₀ : h.auctionCut = h₀.auctionCut := hi.cut
  have hlive : ∀ q b, h.objs q = some b → ∀ g,
      h.taken q g + h₀.held q g = h.refunded q g + b.heldBy g ∧ h.proceeds q g = 0 :=
    hi.balanced.live
  have hlt : p < h.nextPtr := hi.queue.bounded p a ha
  refine ⟨hi.queue.settle ha, ⟨?_, ?_⟩, ?_, ?_, hcut⟩
  · intro q b hb g
    obtain ⟨hqp, hb'⟩ := hobjs q b hb
    change (h.settle p a).taken q g + _ = (h.settle p a).refunded q g + _ ∧
      (h.settle p a).proceeds q g = 0
    rw [taken_settle, refunded_settle, proceeds_settle]
    simpa [Ne.symm hqp] using hlive q b hb' g
  · intro q b hb g
    change (h.settle p a).taken q g + _ = (h.settle p a).refunded q g + _ ∧
      ((h.settle p a).proceeds q g : Int) = _
    rw [taken_settle, refunded_settle, proceeds_settle]
    rcases hsettled q b hb with ⟨rfl, rfl⟩ | ⟨hqp, hb'⟩
    · obtain ⟨hbal, hzero⟩ := hlive q b ha g
      rw [hzero, hbal]
      cases hr : b.deletedReason with
      | expired =>
        -- nobody's gold is held by an auction queued as expired
        have hbidder : b.highestBidder = 0 := hi.expiredFree q b ha hdel hr
        have hheld : b.heldBy g = 0 := by
          unfold Auction.heldBy
          rw [hbidder, if_neg (Ne.symm g.property)]
        simp [hheld]
      | won =>
        have hamount := sellerAmount_eq (hfit hr)
        rw [hcut₀] at hamount
        by_cases hown : b.owner = g.val
        · simpa [hown] using hamount
        · simp [hown]
      | cancelled => simp
    · have hold : h.taken q g + h₀.held q g = h.refunded q g +
          (if b.deletedReason = .won then b.heldBy g else 0) ∧
          (h.proceeds q g : Int) = if b.deletedReason = .won ∧ b.owner = g.val
            then b.proceeds h₀.auctionCut else 0 := hi.balanced.settled q b hb' g
      simpa [Ne.symm hqp] using hold
  · intro q hq g
    have hq' : h.nextPtr ≤ q := hptr ▸ hq
    have hqp : p ≠ q := Nat.ne_of_lt (Nat.lt_of_lt_of_le hlt hq')
    have hold : h.taken q g = 0 ∧ h₀.held q g = 0 ∧ h.refunded q g = 0 ∧ h.proceeds q g = 0 :=
      hi.unused q hq' g
    change (h.settle p a).taken q g = 0 ∧ _ ∧ (h.settle p a).refunded q g = 0 ∧
      (h.settle p a).proceeds q g = 0
    rw [taken_settle, refunded_settle, proceeds_settle]
    simpa [hqp] using hold
  · intro q b hb hbdel hbr
    exact hi.expiredFree q b (hobjs q b hb).2 hbdel hbr

theorem removeAll_ledgerInv (ps : List AuctionPtr) :
    ∀ h : AuctionHouse, h₀.LedgerInv { h with removalList := ps } →
      (∀ p ∈ ps, ∀ a, h.objs p = some a → a.deletedReason = .won → h.ProceedsFit a) →
      ∃ h', removeAll h ps = some h' ∧ h₀.LedgerInv { h' with removalList := [] } := by
  induction ps with
  | nil => intro h hi _; exact ⟨h, rfl, hi⟩
  | cons p ps ih =>
    intro h hi hfit
    obtain ⟨a, hobj, hdel⟩ := hi.queue.pending p List.mem_cons_self
    have ha : h.objs p = some a := hobj
    unfold removeAll
    simp only [removeAuction, ha, hdel, if_true]
    refine ih _ (hi.settle ha hdel (hfit p List.mem_cons_self a ha)) ?_
    intro q hq b hb hwon
    obtain ⟨c, hc⟩ := settle_frame h p a
    rw [hc] at hb ⊢
    have hqp : q ≠ p := by
      intro hqp
      simp [hqp] at hb
    exact hfit q (List.mem_cons_of_mem p hq) b (by simpa [hqp] using hb) hwon

theorem LedgerInv.updateDeletionQueue (hi : h₀.LedgerInv h)
    (hok : h.MoneyFits .updateDeletionQueue) :
    ∃ h', h.updateDeletionQueue = some h' ∧ h₀.LedgerInv h' := by
  obtain ⟨h', hr, hi'⟩ := removeAll_ledgerInv h.removalList h hi hok
  exact ⟨_, by unfold AuctionHouse.updateDeletionQueue; rw [hr]; rfl, hi'⟩

/-! ## The ledger along a run -/

theorem LedgerInv.step (hi : h₀.LedgerInv h) {e : AuctionEvent} (hok : h.MoneyFits e) :
    ∃ h', e.step h = some h' ∧ h₀.LedgerInv h' := by
  cases e with
  | placeBid player id price => exact ⟨_, rfl, hi.placeBid player id price hok⟩
  | cancelAuction id => exact ⟨_, rfl, hi.cancelAuction id⟩
  | sellItem seller item bid buyout etime deposit now =>
    exact ⟨_, rfl, hi.sellItem seller item bid buyout etime deposit now⟩
  | updateAuctions t => exact hi.updateAuctions hok
  | updateDeletionQueue => exact hi.updateDeletionQueue hok

theorem Loaded.ledgerInv (hl : h.Loaded) : h.LedgerInv h := by
  have htaken : ∀ p g, h.taken p g = 0 := by intro p g; simp [taken, sumLog, hl.noLog]
  have hrefunded : ∀ p g, h.refunded p g = 0 := by intro p g; simp [refunded, sumLog, hl.noLog]
  have hproceeds : ∀ p g, h.proceeds p g = 0 := by intro p g; simp [proceeds, sumLog, hl.noLog]
  refine ⟨hl.queueInv, ⟨?_, ?_⟩, ?_, ?_, rfl⟩
  · intro p a ha g
    simp [htaken, hrefunded, hproceeds, held, ha]
  · intro p a ha
    rw [hl.noLog] at ha
    exact absurd ha List.not_mem_nil
  · intro p hp g
    have hnone : h.objs p = none := by
      cases ha : h.objs p with
      | none => rfl
      | some a => exact absurd (hl.bounded p a ha) (Nat.not_lt.2 hp)
    exact ⟨htaken p g, by simp [held, hnone], hrefunded p g, hproceeds p g⟩
  · intro p a ha hdel
    rw [hl.notDeleted p a ha] at hdel
    exact absurd hdel Bool.false_ne_true

/-- In every run whose steps meet the condition the ledger of every
auction is balanced, and a step that meets it is defined. -/
theorem auction_gold_balanced {h₀ h : AuctionHouse} {es : List AuctionEvent} (hl : h₀.Loaded)
    (hrun : Run (Guarded MoneyFits (PartialStep fun h e => e.step h)) h₀ es h) :
    h₀.Balanced h ∧ ∀ e : AuctionEvent, h.MoneyFits e → (e.step h).isSome := by
  have hinv : h₀.LedgerInv h := by
    refine hrun.invariant (fun s => h₀.LedgerInv s) ?_ hl.ledgerInv
    intro s e s' hi hstep
    obtain ⟨hok, hr⟩ := hstep
    obtain ⟨s₁, hr₁, hi'⟩ := hi.step hok
    exact Option.some.inj (hr₁.symm.trans hr) ▸ hi'
  refine ⟨hinv.balanced, ?_⟩
  intro e hok
  obtain ⟨h', hr, -⟩ := hinv.step hok
  rw [hr]
  rfl

/-! ### The ledger does break -/

/-- A bid accepted between the expiry and the settlement is taken and
never given back. -/
theorem late_bid_not_refunded :
    ¬ ∀ (h₀ h : AuctionHouse) (es : List AuctionEvent), h₀.Loaded →
      Run (PartialStep fun h e => e.step h) h₀ es h → h₀.Balanced h := by
  intro hall
  have hb := hall oneAuctionHouse _
    [.updateDeletionQueue, .updateAuctions 100, .placeBid bidder 1 20, .updateDeletionQueue]
    oneAuctionHouse_loaded (.cons rfl (.cons rfl (.cons rfl (.cons rfl (.nil _)))))
  have hentry := (hb.settled 0
    ⟨1, 5, 7, 20, 50, 3, 100, ⟨77, 25⟩, true, .expired⟩ (by decide) bidder).1
  exact absurd hentry (by decide)

/-- A bid of 20 that wins: the bidder's 20 are the final bid, the seller
is sent 20 - 1 + 3. -/
theorem auction_gold_balanced_won :
    ∃ h, Run (Guarded MoneyFits (PartialStep fun h e => e.step h)) oneAuctionHouse
      [.placeBid bidder 1 20, .updateDeletionQueue, .updateAuctions 100, .updateDeletionQueue] h ∧
      oneAuctionHouse.Balanced h ∧ h.taken 0 bidder = 20 ∧ h.proceeds 0 ⟨5, by decide⟩ = 22 := by
  have hrun : Run (Guarded MoneyFits (PartialStep fun h e => e.step h)) oneAuctionHouse
      [.placeBid bidder 1 20, .updateDeletionQueue, .updateAuctions 100, .updateDeletionQueue] _ :=
    .cons ⟨by decide, rfl⟩ (.cons ⟨by decide, rfl⟩ (.cons ⟨by decide, rfl⟩
      (.cons ⟨by decide, rfl⟩ (.nil _))))
  exact ⟨_, hrun, (auction_gold_balanced oneAuctionHouse_loaded hrun).1, by decide, by decide⟩

end AuctionHouse

end HearthStone.Auctions
