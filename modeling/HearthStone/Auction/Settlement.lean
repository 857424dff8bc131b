/-
HearthStone.Auction.Settlement — every auction is queued and settled at
most once, on the runs where that is so.

The removal list is drained on a later tick than the one that expires
auctions, so an auction stays in the map, and stays biddable, after it
has been queued. `QueueDeletion` looks at `Deleted` before it pushes;
`UpdateAuctions` and the bid handler do not. The two step conditions are
exactly those two checks:

* `UpdateFresh` — no auction that `UpdateAuctions` finds expired is
  already `Deleted`.
* `BidFresh` — the auction a bid is accepted on is not `Deleted`.

`QueueInv` is the invariant that `UpdateFresh` alone keeps; the ledger
of `HearthStone.Auction.Ledger` stands on it too.
-/
import HearthStone.Auction.AuctionHouse
import HearthStone.Lib.Run
import Mathlib.Data.List.Nodup

namespace HearthStone.Auctions

open Lib

/-! ## Reading the log -/

def LogEntry.isQueued (p : AuctionPtr) : LogEntry → Bool
  | queued q => q = p
  | _ => false

def LogEntry.isSettled (p : AuctionPtr) : LogEntry → Bool
  | settled q _ => q = p
  | _ => false

/-- A mail that carries the auctioned item. -/
def LogEntry.isItemMail (p : AuctionPtr) : LogEntry → Bool
  | mail q _ m => q = p && m.item.isSome
  | _ => false

def LogEntry.isBid (p : AuctionPtr) : LogEntry → Bool
  | bid q _ _ => q = p
  | _ => false

namespace AuctionHouse

def timesQueued (h : AuctionHouse) (p : AuctionPtr) : Nat := h.log.countP (·.isQueued p)
def timesSettled (h : AuctionHouse) (p : AuctionPtr) : Nat := h.log.countP (·.isSettled p)
def itemsMailed (h : AuctionHouse) (p : AuctionPtr) : Nat := h.log.countP (·.isItemMail p)

/-- No bid on `p` was accepted after `p` was queued. -/
def NoLateBid (h : AuctionHouse) (p : AuctionPtr) : Prop :=
  h.log.Pairwise fun earlier later => earlier.isQueued p = true → later.isBid p = false

/-- What the settlement of every auction is meant to be. -/
structure SettledOnce (h : AuctionHouse) : Prop where
  queued : ∀ p, h.timesQueued p ≤ 1
  settled : ∀ p, h.timesSettled p ≤ 1
  oneRecipient : ∀ p, h.itemsMailed p = h.timesSettled p
  noLateBid : ∀ p, h.NoLateBid p

/-- The map, the live auctions and the removal list agree. -/
structure QueueInv (h : AuctionHouse) : Prop where
  live : ∀ e ∈ h.auctions, ∃ a, h.objs e.2 = some a ∧ a.id = e.1
  ptrs : (h.auctions.map Prod.snd).Nodup
  bounded : ∀ p a, h.objs p = some a → p < h.nextPtr
  pending : ∀ p ∈ h.removalList, ∃ a, h.objs p = some a ∧ a.deleted = true
  pendingOnce : h.removalList.Nodup
  tracked : ∀ p a, h.objs p = some a → a.deleted = true → p ∈ h.removalList
  fresh : ∀ p, h.nextPtr ≤ p → h.timesQueued p = 0 ∧ h.timesSettled p = 0 ∧ h.itemsMailed p = 0
  flagged : ∀ p a, h.objs p = some a → h.timesQueued p = if a.deleted then 1 else 0
  unsettled : ∀ p a, h.objs p = some a → h.timesSettled p = 0 ∧ h.itemsMailed p = 0
  queuedOnce : ∀ p, h.timesQueued p ≤ 1
  settledOnce : ∀ p, h.timesSettled p ≤ 1
  oneItem : ∀ p, h.itemsMailed p = h.timesSettled p

/-- A house as it is loaded: nothing queued, nothing seen yet. -/
structure Loaded (h : AuctionHouse) : Prop where
  live : ∀ e ∈ h.auctions, ∃ a, h.objs e.2 = some a ∧ a.id = e.1
  ptrs : (h.auctions.map Prod.snd).Nodup
  bounded : ∀ p a, h.objs p = some a → p < h.nextPtr
  notDeleted : ∀ p a, h.objs p = some a → a.deleted = false
  noRemovals : h.removalList = []
  noLog : h.log = []

theorem Loaded.queueInv {h : AuctionHouse} (hl : h.Loaded) : h.QueueInv where
  live := hl.live
  ptrs := hl.ptrs
  bounded := hl.bounded
  pending := by simp [hl.noRemovals]
  pendingOnce := by simp [hl.noRemovals]
  tracked := by
    intro p a ha hdel
    rw [hl.notDeleted p a ha] at hdel
    exact absurd hdel Bool.false_ne_true
  fresh := by simp [timesQueued, timesSettled, itemsMailed, hl.noLog]
  flagged := by
    intro p a ha
    simp [timesQueued, hl.noLog, hl.notDeleted p a ha]
  unsettled := by simp [timesSettled, itemsMailed, hl.noLog]
  queuedOnce := by simp [timesQueued, hl.noLog]
  settledOnce := by simp [timesSettled, hl.noLog]
  oneItem := by simp [timesSettled, itemsMailed, hl.noLog]

/-! ## The step conditions -/

/-- No auction that this update finds expired is already queued. -/
def UpdateFresh (h : AuctionHouse) : AuctionEvent → Prop
  | .updateAuctions t =>
      ∀ e ∈ h.auctions, ∀ a, h.objs e.2 = some a → t ≥ a.expiryTime → a.deleted = false
  | _ => True

/-- The auction this bid is accepted on is not queued yet. -/
def BidFresh (h : AuctionHouse) : AuctionEvent → Prop
  | .placeBid player id price =>
      ∀ p a, h.bidTarget player id price = some (p, a) → a.deleted = false
  | _ => True

instance (h : AuctionHouse) (e : AuctionEvent) : Decidable (h.UpdateFresh e) :=
  match e with
  | .updateAuctions t => inferInstanceAs (Decidable
      (∀ e ∈ h.auctions, ∀ a ∈ h.objs e.2, t ≥ a.expiryTime → a.deleted = false))
  | .placeBid .. | .cancelAuction _ | .sellItem .. | .updateDeletionQueue => .isTrue trivial

instance (h : AuctionHouse) (e : AuctionEvent) : Decidable (h.BidFresh e) :=
  match e with
  | .placeBid player id price => decidable_of_iff
      (∀ x ∈ h.bidTarget player id price, x.2.deleted = false)
      ⟨fun hall p a hb => hall (p, a) hb, fun hall x hx => hall x.1 x.2 hx⟩
  | .cancelAuction _ | .sellItem .. | .updateAuctions _ | .updateDeletionQueue => .isTrue trivial

/-! ## The counters -/

variable {h : AuctionHouse} {p q : AuctionPtr} {a : Auction}

@[simp] theorem timesQueued_record (es : List LogEntry) :
    (h.record es).timesQueued p = h.timesQueued p + es.countP (·.isQueued p) := by
  simp [timesQueued, record]

@[simp] theorem timesSettled_record (es : List LogEntry) :
    (h.record es).timesSettled p = h.timesSettled p + es.countP (·.isSettled p) := by
  simp [timesSettled, record]

@[simp] theorem itemsMailed_record (es : List LogEntry) :
    (h.record es).itemsMailed p = h.itemsMailed p + es.countP (·.isItemMail p) := by
  simp [itemsMailed, record]

@[simp] theorem timesQueued_setAuction (o : Option Auction) :
    (h.setAuction q o).timesQueued p = h.timesQueued p := rfl

theorem timesQueued_pushRemoval (reason : AuctionRemoveType) :
    (h.pushRemoval q a reason).timesQueued p = h.timesQueued p + if q = p then 1 else 0 := by
  by_cases hqp : q = p <;> simp [pushRemoval, timesQueued, record, setAuction,
    LogEntry.isQueued, hqp]

/-! ## One lemma for each write -/

/-- What leaves the map, the records and the counters alone. -/
theorem QueueInv.frame {h' : AuctionHouse} (hi : h.QueueInv) (hobjs : h'.objs = h.objs)
    (hptr : h'.nextPtr = h.nextPtr) (hauc : h'.auctions = h.auctions)
    (hrem : h'.removalList = h.removalList)
    (hq : ∀ p, h'.timesQueued p = h.timesQueued p)
    (hs : ∀ p, h'.timesSettled p = h.timesSettled p)
    (hm : ∀ p, h'.itemsMailed p = h.itemsMailed p) : h'.QueueInv where
  live := by rw [hauc, hobjs]; exact hi.live
  ptrs := by rw [hauc]; exact hi.ptrs
  bounded := by rw [hobjs, hptr]; exact hi.bounded
  pending := by rw [hrem, hobjs]; exact hi.pending
  pendingOnce := by rw [hrem]; exact hi.pendingOnce
  tracked := by rw [hrem, hobjs]; exact hi.tracked
  fresh := by intro p hp; rw [hq, hs, hm]; exact hi.fresh p (hptr ▸ hp)
  flagged := by intro p a ha; rw [hq]; exact hi.flagged p a (hobjs ▸ ha)
  unsettled := by intro p a ha; rw [hs, hm]; exact hi.unsettled p a (hobjs ▸ ha)
  queuedOnce := by intro p; rw [hq]; exact hi.queuedOnce p
  settledOnce := by intro p; rw [hs]; exact hi.settledOnce p
  oneItem := by intro p; rw [hm, hs]; exact hi.oneItem p

theorem QueueInv.setCoinage (hi : h.QueueInv) (g c : UInt32) : (h.setCoinage g c).QueueInv :=
  hi.frame rfl rfl rfl rfl (fun _ => rfl) (fun _ => rfl) (fun _ => rfl)

/-- Entries the counters do not count: bids, and mails without an item. -/
theorem QueueInv.record (hi : h.QueueInv) (es : List LogEntry)
    (hes : ∀ e ∈ es, ∀ p, e.isQueued p = false ∧ e.isSettled p = false ∧
      e.isItemMail p = false) : (h.record es).QueueInv := by
  refine hi.frame rfl rfl rfl rfl ?_ ?_ ?_
  · intro p
    rw [timesQueued_record, List.countP_eq_zero.2]
    · rfl
    · intro e he
      simp [(hes e he p).1]
  · intro p
    rw [timesSettled_record, List.countP_eq_zero.2]
    · rfl
    · intro e he
      simp [(hes e he p).2.1]
  · intro p
    rw [itemsMailed_record, List.countP_eq_zero.2]
    · rfl
    · intro e he
      simp [(hes e he p).2.2]

/-- A record rewritten in place, its identity and its flag kept. -/
theorem QueueInv.setAuction (hi : h.QueueInv) (ha : h.objs p = some a) {a' : Auction}
    (hid : a'.id = a.id) (hdel : a'.deleted = a.deleted) :
    (h.setAuction p (some a')).QueueInv where
  live := by
    intro e he
    obtain ⟨b, hb, hbid⟩ := hi.live e he
    by_cases hep : e.2 = p
    · refine ⟨a', by simp [AuctionHouse.setAuction, hep], ?_⟩
      rw [hid, ← hbid]
      rw [hep, ha] at hb
      injection hb with hb
      rw [hb]
    · exact ⟨b, by simp [AuctionHouse.setAuction, hep, hb], hbid⟩
  ptrs := hi.ptrs
  bounded := by
    intro q b hb
    by_cases hqp : q = p
    · rw [hqp]; exact hi.bounded p a ha
    · exact hi.bounded q b (by simpa [AuctionHouse.setAuction, hqp] using hb)
  pending := by
    intro q hq
    obtain ⟨b, hb, hbdel⟩ := hi.pending q hq
    by_cases hqp : q = p
    · refine ⟨a', by simp [AuctionHouse.setAuction, hqp], ?_⟩
      rw [hqp, ha] at hb
      injection hb with hb
      rw [hdel, hb, hbdel]
    · exact ⟨b, by simp [AuctionHouse.setAuction, hqp, hb], hbdel⟩
  pendingOnce := hi.pendingOnce
  tracked := by
    intro q b hb hbdel
    by_cases hqp : q = p
    · subst hqp
      have hab : a' = b := by simpa [AuctionHouse.setAuction] using hb
      exact hi.tracked q a ha (by rw [← hdel, hab, hbdel])
    · exact hi.tracked q b (by simpa [AuctionHouse.setAuction, hqp] using hb) hbdel
  fresh := hi.fresh
  flagged := by
    intro q b hb
    by_cases hqp : q = p
    · subst hqp
      have hab : a' = b := by simpa [AuctionHouse.setAuction] using hb
      rw [timesQueued_setAuction, ← hab, hdel]
      exact hi.flagged q a ha
    · exact hi.flagged q b (by simpa [AuctionHouse.setAuction, hqp] using hb)
  unsettled := by
    intro q b hb
    by_cases hqp : q = p
    · rw [hqp]; exact hi.unsettled p a ha
    · exact hi.unsettled q b (by simpa [AuctionHouse.setAuction, hqp] using hb)
  queuedOnce := hi.queuedOnce
  settledOnce := hi.settledOnce
  oneItem := hi.oneItem

/-- Queueing an auction that is not queued yet. -/
theorem QueueInv.pushRemoval (hi : h.QueueInv) (ha : h.objs p = some a)
    (hdel : a.deleted = false) (reason : AuctionRemoveType) :
    (h.pushRemoval p a reason).QueueInv := by
  have hzero : h.timesQueued p = 0 := by rw [hi.flagged p a ha, hdel]; rfl
  have hother : ∀ q, q ≠ p → (h.pushRemoval p a reason).objs q = h.objs q := by
    intro q hqp
    simp [AuctionHouse.pushRemoval, AuctionHouse.record, AuctionHouse.setAuction, hqp]
  have hself : (h.pushRemoval p a reason).objs p =
      some { a with deleted := true, deletedReason := reason } := by
    simp [AuctionHouse.pushRemoval, AuctionHouse.record, AuctionHouse.setAuction]
  have hqueued := fun q => timesQueued_pushRemoval (h := h) (p := q) (q := p) (a := a) reason
  have hsettled : ∀ q, (h.pushRemoval p a reason).timesSettled q = h.timesSettled q := by
    intro q
    simp [AuctionHouse.pushRemoval, timesSettled, AuctionHouse.record, AuctionHouse.setAuction,
      LogEntry.isSettled]
  have hmailed : ∀ q, (h.pushRemoval p a reason).itemsMailed q = h.itemsMailed q := by
    intro q
    simp [AuctionHouse.pushRemoval, itemsMailed, AuctionHouse.record, AuctionHouse.setAuction,
      LogEntry.isItemMail]
  have hnot : p ∉ h.removalList := by
    intro hp
    obtain ⟨b, hb, hbdel⟩ := hi.pending p hp
    rw [ha] at hb
    injection hb with hb
    rw [← hb, hdel] at hbdel
    exact Bool.false_ne_true hbdel
  constructor
  case live =>
    intro e he
    obtain ⟨b, hb, hbid⟩ := hi.live e he
    by_cases hep : e.2 = p
    · refine ⟨_, by rw [hep]; exact hself, ?_⟩
      rw [hep, ha] at hb
      injection hb with hb
      rw [← hbid, ← hb]
    · exact ⟨b, by rw [hother _ hep, hb], hbid⟩
  case ptrs => exact hi.ptrs
  case bounded =>
    intro q b hb
    by_cases hqp : q = p
    · rw [hqp]; exact hi.bounded p a ha
    · exact hi.bounded q b (hother q hqp ▸ hb)
  case pending =>
    intro q hq
    by_cases hqp : q = p
    · exact ⟨_, by rw [hqp]; exact hself, rfl⟩
    · have hq' : q ∈ h.removalList := by
        have : q ∈ h.removalList ++ [p] := hq
        simpa [hqp] using this
      obtain ⟨b, hb, hbdel⟩ := hi.pending q hq'
      exact ⟨b, by rw [hother q hqp, hb], hbdel⟩
  case pendingOnce =>
    show (h.removalList ++ [p]).Nodup
    rw [List.nodup_append]
    refine ⟨hi.pendingOnce, by simp, ?_⟩
    intro x hx y hy hxy
    rw [List.mem_singleton] at hy
    exact hnot (hy ▸ hxy ▸ hx)
  case tracked =>
    intro q b hb hbdel
    show q ∈ h.removalList ++ [p]
    by_cases hqp : q = p
    · simp [hqp]
    · exact List.mem_append_left _ (hi.tracked q b (hother q hqp ▸ hb) hbdel)
  case fresh =>
    intro q hq
    have hqp : p ≠ q := fun hpq => absurd (hi.bounded p a ha) (Nat.not_lt.2 (hpq ▸ hq))
    rw [hqueued, hsettled, hmailed, if_neg hqp]
    exact hi.fresh q hq
  case flagged =>
    intro q b hb
    rw [hqueued]
    by_cases hqp : q = p
    · subst hqp
      rw [hself] at hb
      injection hb with hb
      rw [← hb, hzero]
      simp
    · rw [if_neg (Ne.symm hqp), hi.flagged q b (hother q hqp ▸ hb)]
      rfl
  case unsettled =>
    intro q b hb
    rw [hsettled, hmailed]
    by_cases hqp : q = p
    · rw [hqp]; exact hi.unsettled p a ha
    · exact hi.unsettled q b (hother q hqp ▸ hb)
  case queuedOnce =>
    intro q
    rw [hqueued]
    by_cases hqp : p = q
    · rw [if_pos hqp, ← hqp, hzero]
    · rw [if_neg hqp]; exact hi.queuedOnce q
  case settledOnce => intro q; rw [hsettled]; exact hi.settledOnce q
  case oneItem => intro q; rw [hmailed, hsettled]; exact hi.oneItem q

theorem QueueInv.queueDeletion (hi : h.QueueInv) (ha : h.objs p = some a)
    (reason : AuctionRemoveType) : (h.queueDeletion p a reason).QueueInv := by
  unfold AuctionHouse.queueDeletion
  split
  · exact hi
  · rename_i hdel
    exact hi.pushRemoval ha (by simpa using hdel) reason

/-! ## The client's requests -/

theorem bidTarget_objs {player : PlayerGuid} {id price : UInt32}
    (hb : h.bidTarget player id price = some (p, a)) : h.objs p = some a := by
  unfold bidTarget at hb
  split at hb
  · simp at hb
  · split at hb
    · simp at hb
    · split at hb
      · simp at hb
      · rename_i hobj
        split at hb
        · simp at hb
        · split at hb
          · simp at hb
          · split at hb
            · simp at hb
            · injection hb with hb
              injection hb with hp ha
              rw [← hp, hobj, ha]

/-- The writes of a bid that the counters do not see. -/
theorem QueueInv.takeBid (hi : h.QueueInv) (player : PlayerGuid) (price : UInt32) :
    (h.takeBid player p a price).QueueInv := by
  unfold AuctionHouse.takeBid
  have hbid := (hi.setCoinage player.val (debit (h.coinage player.val) price)).record
    [.bid p player.val
      ((h.coinage player.val).toNat - (debit (h.coinage player.val) price).toNat)]
    (by simp [LogEntry.isQueued, LogEntry.isSettled, LogEntry.isItemMail])
  split
  · exact hbid.record _ (by simp [LogEntry.isQueued, LogEntry.isSettled, LogEntry.isItemMail,
      outbidMail])
  · exact hbid

theorem takeBid_objs (player : PlayerGuid) (price : UInt32) :
    (h.takeBid player p a price).objs = h.objs := by
  unfold AuctionHouse.takeBid
  split <;> rfl

theorem QueueInv.acceptBid (hi : h.QueueInv) (ha : h.objs p = some a) (player : PlayerGuid)
    (price : UInt32) : (h.acceptBid player p a price).QueueInv := by
  have hset : ((h.takeBid player p a price).setAuction p
      (some { a with highestBidder := player.val, highestBid := price })).QueueInv :=
    (hi.takeBid player price).setAuction (a := a) (by rw [takeBid_objs]; exact ha) rfl rfl
  unfold AuctionHouse.acceptBid
  split
  · exact hset.queueDeletion (by simp [AuctionHouse.setAuction]) .won
  · exact hset

theorem QueueInv.placeBid (hi : h.QueueInv) (player : PlayerGuid) (id price : UInt32) :
    (h.placeBid player id price).QueueInv := by
  unfold AuctionHouse.placeBid
  split
  · exact hi
  · rename_i hb
    exact hi.acceptBid (bidTarget_objs hb) player price

theorem QueueInv.cancelAuction (hi : h.QueueInv) (id : UInt32) :
    (h.cancelAuction id).QueueInv := by
  unfold AuctionHouse.cancelAuction
  split
  · exact hi
  · split
    · exact hi
    · rename_i hobj
      exact hi.queueDeletion hobj .cancelled

/-- A new auction record under a pointer never used before. -/
theorem QueueInv.alloc (hi : h.QueueInv) (id : UInt32)
    (hdel : a.deleted = false) :
    ({ h with nextPtr := h.nextPtr + 1, maxId := id }.setAuction h.nextPtr (some a)).QueueInv := by
  have hother : ∀ q, q ≠ h.nextPtr →
      ({ h with nextPtr := h.nextPtr + 1, maxId := id }.setAuction h.nextPtr (some a)).objs q =
        h.objs q := by
    intro q hq
    simp [AuctionHouse.setAuction, hq]
  have hold : ∀ q b, h.objs q = some b → q ≠ h.nextPtr := by
    intro q b hb
    exact Nat.ne_of_lt (hi.bounded q b hb)
  have hnew := hi.fresh h.nextPtr (Nat.le_refl _)
  constructor
  case live =>
    intro e he
    obtain ⟨b, hb, hbid⟩ := hi.live e he
    exact ⟨b, by rw [hother _ (hold _ b hb), hb], hbid⟩
  case ptrs => exact hi.ptrs
  case bounded =>
    intro q b hb
    by_cases hq : q = h.nextPtr
    · rw [hq]; exact Nat.lt_succ_self _
    · exact Nat.lt_succ_of_lt (hi.bounded q b (hother q hq ▸ hb))
  case pending =>
    intro q hq
    obtain ⟨b, hb, hbdel⟩ := hi.pending q hq
    exact ⟨b, by rw [hother _ (hold _ b hb), hb], hbdel⟩
  case pendingOnce => exact hi.pendingOnce
  case tracked =>
    intro q b hb hbdel
    by_cases hq : q = h.nextPtr
    · subst hq
      have hab : a = b := by simpa [AuctionHouse.setAuction] using hb
      rw [← hab, hdel] at hbdel
      exact absurd hbdel Bool.false_ne_true
    · exact hi.tracked q b (hother q hq ▸ hb) hbdel
  case fresh => intro q hq; exact hi.fresh q (Nat.le_of_succ_le hq)
  case flagged =>
    intro q b hb
    by_cases hq : q = h.nextPtr
    · subst hq
      have hab : a = b := by simpa [AuctionHouse.setAuction] using hb
      rw [← hab, hdel]
      exact hnew.1
    · exact hi.flagged q b (hother q hq ▸ hb)
  case unsettled =>
    intro q b hb
    by_cases hq : q = h.nextPtr
    · rw [hq]; exact hnew.2
    · exact hi.unsettled q b (hother q hq ▸ hb)
  case queuedOnce => exact hi.queuedOnce
  case settledOnce => exact hi.settledOnce
  case oneItem => exact hi.oneItem

theorem QueueInv.addAuction (hi : h.QueueInv) (ha : h.objs p = some a)
    (hnew : ∀ e ∈ h.auctions, e.2 ≠ p) : (h.addAuction p a).QueueInv := by
  unfold AuctionHouse.addAuction
  split
  · exact hi
  constructor
  case live =>
    intro e he
    have he' : e ∈ h.auctions ∨ e = (a.id, p) := by simpa using he
    rcases he' with he' | he'
    · exact hi.live e he'
    · exact ⟨a, by rw [he']; exact ha, by rw [he']⟩
  case ptrs =>
    show ((h.auctions ++ [(a.id, p)]).map Prod.snd).Nodup
    rw [List.map_append, List.nodup_append]
    refine ⟨hi.ptrs, by simp, ?_⟩
    intro x hx y hy hxy
    obtain ⟨e, he, hex⟩ := List.mem_map.1 hx
    have hyp : y = p := by simpa using hy
    exact hnew e he (by rw [hex, hxy, hyp])
  case bounded => exact hi.bounded
  case pending => exact hi.pending
  case pendingOnce => exact hi.pendingOnce
  case tracked => exact hi.tracked
  case fresh => exact hi.fresh
  case flagged => exact hi.flagged
  case unsettled => exact hi.unsettled
  case queuedOnce => exact hi.queuedOnce
  case settledOnce => exact hi.settledOnce
  case oneItem => exact hi.oneItem

theorem QueueInv.sellItem (hi : h.QueueInv) (seller : PlayerGuid) (item : AuctionItem)
    (bid buyout etime itemDeposit now : UInt32) :
    (h.sellItem seller item bid buyout etime itemDeposit now).QueueInv := by
  unfold AuctionHouse.sellItem
  split
  · exact hi
  · dsimp only
    refine ((hi.alloc (h.maxId + 1) rfl).setCoinage seller.val _).addAuction ?_ ?_
    · simp [AuctionHouse.setAuction, AuctionHouse.setCoinage]
    · intro e he
      obtain ⟨b, hb, -⟩ := hi.live e he
      exact Nat.ne_of_lt (hi.bounded _ b hb)

/-! ## The two updates -/

/-- What queueing an auction that is not queued yet keeps, the loop keeps. -/
theorem expireAll_keeps {I : AuctionHouse → Prop} (t : UInt32)
    (hpush : ∀ h q a, I h → h.objs q = some a → a.deleted = false →
      I (h.pushRemoval q a (if a.highestBidder = 0 then .expired else .won))) (ps : List AuctionPtr) :
    ∀ h : AuctionHouse, I h → ps.Nodup →
      (∀ q ∈ ps, ∃ a, h.objs q = some a ∧ (t ≥ a.expiryTime → a.deleted = false)) →
      ∃ h', expireAll t h ps = some h' ∧ I h' := by
  induction ps with
  | nil => intro h hi _ _; exact ⟨h, rfl, hi⟩
  | cons q qs ih =>
    intro h hi hnd hall
    obtain ⟨a, ha, hfresh⟩ := hall q List.mem_cons_self
    obtain ⟨hq, hnd'⟩ := List.nodup_cons.1 hnd
    have hrest := fun r (hr : r ∈ qs) => hall r (List.mem_cons_of_mem q hr)
    unfold expireAll
    simp only [ha]
    split
    · rename_i ht
      refine ih _ (hpush h q a hi ha (hfresh ht)) hnd' ?_
      intro r hr
      obtain ⟨b, hb, hbf⟩ := hrest r hr
      have hrq : r ≠ q := fun hrq => hq (hrq ▸ hr)
      refine ⟨b, ?_, hbf⟩
      simp [AuctionHouse.pushRemoval, AuctionHouse.record, AuctionHouse.setAuction, hrq, hb]
    · exact ih h hi hnd' hrest

theorem updateAuctions_keeps {I : AuctionHouse → Prop} (hi : h.QueueInv) {t : UInt32}
    (hok : h.UpdateFresh (.updateAuctions t)) (hI : I h)
    (hpush : ∀ h q a, I h → h.objs q = some a → a.deleted = false →
      I (h.pushRemoval q a (if a.highestBidder = 0 then .expired else .won))) :
    ∃ h', h.updateAuctions t = some h' ∧ I h' := by
  refine expireAll_keeps t hpush _ h hI hi.ptrs ?_
  intro q hq
  obtain ⟨e, he, hep⟩ := List.mem_map.1 hq
  obtain ⟨a, ha, -⟩ := hi.live e he
  rw [← hep]
  exact ⟨a, ha, hok e he a ha⟩

theorem QueueInv.updateAuctions (hi : h.QueueInv) {t : UInt32}
    (hok : h.UpdateFresh (.updateAuctions t)) :
    ∃ h', h.updateAuctions t = some h' ∧ h'.QueueInv :=
  updateAuctions_keeps hi hok hi fun _ _ _ hi ha hfresh => hi.pushRemoval ha hfresh _

/-- Whatever the reason, one mail carries the item. -/
theorem settlementMails_items (h : AuctionHouse) (p q : AuctionPtr) (a : Auction) :
    (h.settlementMails p a).countP (·.isItemMail q) = if p = q then 1 else 0 := by
  unfold settlementMails
  cases a.deletedReason with
  | expired => simp [LogEntry.isItemMail, itemMail, List.countP_cons]
  | won => simp [LogEntry.isItemMail, itemMail, soldMail, List.countP_cons]
  | cancelled =>
    simp only []
    split <;> simp [LogEntry.isItemMail, itemMail, refundMail, List.countP_cons]

theorem settlementMails_mail {h : AuctionHouse} {e : LogEntry}
    (he : e ∈ h.settlementMails p a) : ∃ kind m, e = .mail p kind m := by
  unfold settlementMails at he
  cases hr : a.deletedReason with
  | expired => simp only [hr, List.mem_singleton] at he; exact ⟨_, _, he⟩
  | won =>
    simp only [hr, List.mem_cons, List.not_mem_nil, or_false] at he
    rcases he with he | he <;> exact ⟨_, _, he⟩
  | cancelled =>
    simp only [hr, List.mem_cons] at he
    rcases he with he | he
    · exact ⟨_, _, he⟩
    · split at he
      · exact ⟨_, _, List.mem_singleton.1 he⟩
      · exact absurd he List.not_mem_nil

theorem settlementMails_queued (h : AuctionHouse) (p q : AuctionPtr) (a : Auction) :
    (h.settlementMails p a).countP (·.isQueued q) = 0 := by
  rw [List.countP_eq_zero]
  intro e he
  obtain ⟨kind, m, rfl⟩ := settlementMails_mail he
  simp [LogEntry.isQueued]

theorem settlementMails_settled (h : AuctionHouse) (p q : AuctionPtr) (a : Auction) :
    (h.settlementMails p a).countP (·.isSettled q) = 0 := by
  rw [List.countP_eq_zero]
  intro e he
  obtain ⟨kind, m, rfl⟩ := settlementMails_mail he
  simp [LogEntry.isSettled]

theorem chargePenalty_frame (h : AuctionHouse) (a : Auction) :
    ∃ c, h.chargePenalty a = { h with coinage := c } := by
  unfold chargePenalty
  dsimp only
  split
  · exact ⟨_, rfl⟩
  · exact ⟨h.coinage, rfl⟩

theorem settle_frame (h : AuctionHouse) (p : AuctionPtr) (a : Auction) :
    ∃ c, h.settle p a =
      { (h.record (h.settlementMails p a ++ [.settled p a])) with
        objs := Function.update h.objs p none
        auctions := h.auctions.filter fun e => e.1 ≠ a.id
        coinage := c } := by
  obtain ⟨c, hc⟩ := chargePenalty_frame h a
  exact ⟨c, by unfold settle; rw [hc]; rfl⟩

@[simp] theorem timesQueued_settle : (h.settle p a).timesQueued q = h.timesQueued q := by
  obtain ⟨c, hc⟩ := settle_frame h p a
  rw [hc]
  show (h.record _).timesQueued q = _
  rw [timesQueued_record, List.countP_append, settlementMails_queued]
  rfl

@[simp] theorem timesSettled_settle :
    (h.settle p a).timesSettled q = h.timesSettled q + if p = q then 1 else 0 := by
  obtain ⟨c, hc⟩ := settle_frame h p a
  rw [hc]
  show (h.record _).timesSettled q = _
  rw [timesSettled_record, List.countP_append, settlementMails_settled, Nat.zero_add]
  simp [LogEntry.isSettled, List.countP_cons]

@[simp] theorem itemsMailed_settle :
    (h.settle p a).itemsMailed q = h.itemsMailed q + if p = q then 1 else 0 := by
  obtain ⟨c, hc⟩ := settle_frame h p a
  rw [hc]
  show (h.record _).itemsMailed q = _
  rw [itemsMailed_record, List.countP_append, settlementMails_items]
  rfl

/-- One turn of the drain loop: the head of the removal list is settled
and leaves the map, the rest of the list is still pending. -/
theorem QueueInv.settle {ps : List AuctionPtr}
    (hi : QueueInv { h with removalList := p :: ps }) (ha : h.objs p = some a) :
    QueueInv { h.settle p a with removalList := ps } := by
  obtain ⟨c, hc⟩ := settle_frame h p a
  have hobjs : (h.settle p a).objs = Function.update h.objs p none := by rw [hc]
  have hptr : (h.settle p a).nextPtr = h.nextPtr := by rw [hc]; rfl
  have hauc : (h.settle p a).auctions = h.auctions.filter fun e => e.1 ≠ a.id := by rw [hc]
  have hgone : ∀ q b, (h.settle p a).objs q = some b → q ≠ p ∧ h.objs q = some b := by
    intro q b hb
    rw [hobjs] at hb
    by_cases hqp : q = p
    · simp [hqp] at hb
    · exact ⟨hqp, by simpa [hqp] using hb⟩
  have hkept : ∀ q, q ≠ p → (h.settle p a).objs q = h.objs q := by
    intro q hqp
    simp [hobjs, hqp]
  have hp0 := hi.unsettled p a ha
  constructor
  case live =>
    intro e he
    change e ∈ (h.settle p a).auctions at he
    rw [hauc, List.mem_filter] at he
    obtain ⟨b, hb, hbid⟩ := hi.live e he.1
    have hep : e.2 ≠ p := by
      intro hep
      have hab : a = b := by
        have hb' : h.objs p = some b := hep ▸ hb
        rw [ha] at hb'
        injection hb'
      exact absurd (hab ▸ hbid).symm (by simpa using he.2)
    exact ⟨b, (hkept _ hep).trans hb, hbid⟩
  case ptrs =>
    show ((h.settle p a).auctions.map Prod.snd).Nodup
    rw [hauc]
    exact hi.ptrs.sublist (List.filter_sublist.map _)
  case bounded =>
    intro q b hb
    exact Nat.lt_of_lt_of_eq (hi.bounded q b (hgone q b hb).2) hptr.symm
  case pending =>
    intro q hq
    obtain ⟨b, hb, hbdel⟩ := hi.pending q (List.mem_cons_of_mem p hq)
    have hqp : q ≠ p := fun hqp => (List.nodup_cons.1 hi.pendingOnce).1 (hqp ▸ hq)
    exact ⟨b, (hkept q hqp).trans hb, hbdel⟩
  case pendingOnce => exact (List.nodup_cons.1 hi.pendingOnce).2
  case tracked =>
    intro q b hb hbdel
    obtain ⟨hqp, hb'⟩ := hgone q b hb
    exact (List.mem_cons.1 (hi.tracked q b hb' hbdel)).resolve_left hqp
  case fresh =>
    intro q hq
    have hq' : h.nextPtr ≤ q := hptr ▸ hq
    have hpq : p ≠ q := fun hpq => absurd (hi.bounded p a ha) (Nat.not_lt.2 (hpq ▸ hq'))
    have hold := hi.fresh q hq'
    refine ⟨timesQueued_settle.trans hold.1, ?_, ?_⟩
    · exact timesSettled_settle.trans (by rw [if_neg hpq]; exact hold.2.1)
    · exact itemsMailed_settle.trans (by rw [if_neg hpq]; exact hold.2.2)
  case flagged =>
    intro q b hb
    exact timesQueued_settle.trans (hi.flagged q b (hgone q b hb).2)
  case unsettled =>
    intro q b hb
    obtain ⟨hqp, hb'⟩ := hgone q b hb
    have hold := hi.unsettled q b hb'
    refine ⟨timesSettled_settle.trans ?_, itemsMailed_settle.trans ?_⟩
    · rw [if_neg (Ne.symm hqp)]; exact hold.1
    · rw [if_neg (Ne.symm hqp)]; exact hold.2
  case queuedOnce =>
    intro q
    exact timesQueued_settle.trans_le (hi.queuedOnce q)
  case settledOnce =>
    intro q
    refine timesSettled_settle.trans_le ?_
    by_cases hpq : p = q
    · have hzero : h.timesSettled q = 0 := hpq ▸ hp0.1
      rw [if_pos hpq, hzero]
    · rw [if_neg hpq]; exact hi.settledOnce q
  case oneItem =>
    intro q
    have hold : h.itemsMailed q = h.timesSettled q := hi.oneItem q
    refine itemsMailed_settle.trans (Eq.trans ?_ timesSettled_settle.symm)
    rw [hold]

theorem removeAll_queueInv (ps : List AuctionPtr) :
    ∀ h : AuctionHouse, QueueInv { h with removalList := ps } →
      ∃ h', removeAll h ps = some h' ∧ QueueInv { h' with removalList := [] } := by
  induction ps with
  | nil => intro h hi; exact ⟨h, rfl, hi⟩
  | cons p ps ih =>
    intro h hi
    obtain ⟨a, hobj, hdel⟩ := hi.pending p List.mem_cons_self
    have ha : h.objs p = some a := hobj
    unfold removeAll
    simp only [removeAuction, ha, hdel, if_true]
    exact ih _ (hi.settle ha)

theorem QueueInv.updateDeletionQueue (hi : h.QueueInv) :
    ∃ h', h.updateDeletionQueue = some h' ∧ h'.QueueInv ∧ h'.removalList = [] := by
  obtain ⟨h', hr, hi'⟩ := removeAll_queueInv h.removalList h hi
  exact ⟨_, by unfold AuctionHouse.updateDeletionQueue; rw [hr]; rfl, hi', rfl⟩

/-- Every event that meets `UpdateFresh` is defined and keeps the
invariant. -/
theorem QueueInv.step (hi : h.QueueInv) {e : AuctionEvent} (hok : h.UpdateFresh e) :
    ∃ h', e.step h = some h' ∧ h'.QueueInv := by
  cases e with
  | placeBid player id price => exact ⟨_, rfl, hi.placeBid player id price⟩
  | cancelAuction id => exact ⟨_, rfl, hi.cancelAuction id⟩
  | sellItem seller item bid buyout etime deposit now =>
    exact ⟨_, rfl, hi.sellItem seller item bid buyout etime deposit now⟩
  | updateAuctions t => exact hi.updateAuctions hok
  | updateDeletionQueue =>
    obtain ⟨h', hr, hi', -⟩ := hi.updateDeletionQueue
    exact ⟨h', hr, hi'⟩

end AuctionHouse

end HearthStone.Auctions
