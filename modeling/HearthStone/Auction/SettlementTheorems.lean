/-
HearthStone.Auction.SettlementTheorems — bids against queueing, and the
run theorem of the settlement.

`QueueInv` says how often an auction is queued and settled; it says
nothing about when a bid is accepted. Every event but a bid is `Quiet`:
it logs no bid. A bid is late exactly when it is accepted on an auction
that is queued, so along a run `SettledOnce` is decided step by step by
`UpdateFresh` and `BidFresh`.
-/
import HearthStone.Auction.Settlement

namespace HearthStone.Auctions

open Lib

namespace AuctionHouse

variable {h : AuctionHouse} {p q : AuctionPtr} {a : Auction}

/-! ## Bids against queueing -/

/-- `h'` has what `h` logged, and after it no bid. -/
def Quiet (h h' : AuctionHouse) : Prop :=
  ∃ es, h'.log = h.log ++ es ∧ ∀ e ∈ es, ∀ p, e.isBid p = false

theorem Quiet.refl (h : AuctionHouse) : h.Quiet h := ⟨[], by simp, by simp⟩

theorem Quiet.of_log_eq {h' : AuctionHouse} (hlog : h'.log = h.log) : h.Quiet h' :=
  ⟨[], by simp [hlog], by simp⟩

theorem Quiet.trans {h' h'' : AuctionHouse} (h₁ : h.Quiet h') (h₂ : h'.Quiet h'') :
    h.Quiet h'' := by
  obtain ⟨es, hes, hbid⟩ := h₁
  obtain ⟨fs, hfs, hbid'⟩ := h₂
  refine ⟨es ++ fs, by rw [hfs, hes, List.append_assoc], ?_⟩
  intro e he
  exact (List.mem_append.1 he).elim (hbid e) (hbid' e)

theorem Quiet.noLateBid {h' : AuctionHouse} (hq : h.Quiet h') (hn : h.NoLateBid p) :
    h'.NoLateBid p := by
  obtain ⟨es, hes, hbid⟩ := hq
  unfold NoLateBid
  rw [hes, List.pairwise_append]
  refine ⟨hn, ?_, fun _ _ e he _ => hbid e he p⟩
  exact List.pairwise_of_forall_mem_list fun _ _ e he _ => hbid e he p

theorem Quiet.timesQueued_le {h' : AuctionHouse} (hq : h.Quiet h') :
    h.timesQueued p ≤ h'.timesQueued p := by
  obtain ⟨es, hes, -⟩ := hq
  unfold timesQueued
  rw [hes, List.countP_append]
  exact Nat.le_add_right _ _

theorem quiet_pushRemoval (reason : AuctionRemoveType) : h.Quiet (h.pushRemoval p a reason) :=
  ⟨[.queued p], rfl, by simp [LogEntry.isBid]⟩

theorem quiet_queueDeletion (reason : AuctionRemoveType) :
    h.Quiet (h.queueDeletion p a reason) := by
  unfold queueDeletion
  split
  · exact Quiet.refl h
  · exact quiet_pushRemoval reason

theorem quiet_cancelAuction (id : UInt32) : h.Quiet (h.cancelAuction id) := by
  unfold cancelAuction
  split
  · exact Quiet.refl h
  · split
    · exact Quiet.refl h
    · exact quiet_queueDeletion .cancelled

theorem quiet_sellItem (seller : PlayerGuid) (item : AuctionItem)
    (bid buyout etime itemDeposit now : UInt32) :
    h.Quiet (h.sellItem seller item bid buyout etime itemDeposit now) := by
  unfold sellItem addAuction
  split
  · exact Quiet.refl h
  · dsimp only
    split <;> exact Quiet.of_log_eq rfl

theorem quiet_expireAll (t : UInt32) (ps : List AuctionPtr) :
    ∀ h h' : AuctionHouse, expireAll t h ps = some h' → h.Quiet h' := by
  induction ps with
  | nil =>
    intro h h' hr
    injection hr with hr
    exact hr ▸ Quiet.refl h
  | cons q qs ih =>
    intro h h' hr
    unfold expireAll at hr
    split at hr
    · simp at hr
    · split at hr
      · exact (quiet_pushRemoval _).trans (ih _ _ hr)
      · exact ih _ _ hr

theorem quiet_settle : h.Quiet (h.settle p a) := by
  obtain ⟨c, hc⟩ := settle_frame h p a
  refine ⟨_, by rw [hc]; rfl, ?_⟩
  intro e he q
  rcases List.mem_append.1 he with he | he
  · obtain ⟨kind, m, rfl⟩ := settlementMails_mail he
    rfl
  · rw [List.mem_singleton.1 he]
    rfl

theorem quiet_removeAll (ps : List AuctionPtr) :
    ∀ h h' : AuctionHouse, removeAll h ps = some h' → h.Quiet h' := by
  induction ps with
  | nil =>
    intro h h' hr
    injection hr with hr
    exact hr ▸ Quiet.refl h
  | cons q qs ih =>
    intro h h' hr
    unfold removeAll removeAuction at hr
    cases ha : h.objs q with
    | none => simp [ha] at hr
    | some a =>
      cases hdel : a.deleted with
      | false => simp [ha, hdel] at hr
      | true =>
        simp only [ha, hdel, if_true] at hr
        exact quiet_settle.trans (ih _ _ hr)

theorem quiet_updateDeletionQueue {h' : AuctionHouse} (hr : h.updateDeletionQueue = some h') :
    h.Quiet h' := by
  obtain ⟨h₁, hr₁, rfl⟩ := Option.map_eq_some_iff.1 hr
  exact (quiet_removeAll _ _ _ hr₁).trans (Quiet.of_log_eq rfl)

/-- An accepted bid leaves the bid in the log, and after it no other. -/
theorem acceptBid_log (player : PlayerGuid) (price : UInt32) :
    ∃ taken, (h.record [.bid p player.val taken]).Quiet (h.acceptBid player p a price) := by
  refine ⟨(h.coinage player.val).toNat - (debit (h.coinage player.val) price).toNat, ?_⟩
  have htake : (h.record [.bid p player.val
      ((h.coinage player.val).toNat - (debit (h.coinage player.val) price).toNat)]).Quiet
        (h.takeBid player p a price) := by
    unfold takeBid
    split
    · exact ⟨[.mail p .outbid (outbidMail a)], rfl, by simp [LogEntry.isBid]⟩
    · exact Quiet.of_log_eq rfl
  refine htake.trans ?_
  unfold acceptBid
  split
  · exact (Quiet.of_log_eq rfl).trans (quiet_queueDeletion .won)
  · exact Quiet.of_log_eq rfl

/-- A bid on an auction is not late exactly when it is not queued. -/
theorem noLateBid_bid_iff (hn : h.NoLateBid p) (player : UInt32) (taken : Nat) :
    (h.record [.bid p player taken]).NoLateBid p ↔ h.timesQueued p = 0 := by
  unfold NoLateBid record timesQueued
  rw [List.pairwise_append, List.countP_eq_zero]
  simp only [List.pairwise_singleton, List.mem_singleton, forall_eq, true_and]
  constructor
  · intro hall e he hq
    exact absurd (hall.2 e he hq) (by simp [LogEntry.isBid])
  · intro hall
    exact ⟨hn, fun e he hq => absurd hq (hall e he)⟩

/-- Whatever a bid does, it is late for no auction but its own. -/
theorem noLateBid_acceptBid (hn : h.NoLateBid q) (hfresh : p = q → h.timesQueued q = 0)
    (player : PlayerGuid) (price : UInt32) : (h.acceptBid player p a price).NoLateBid q := by
  obtain ⟨taken, hquiet⟩ := acceptBid_log (h := h) (p := p) (a := a) player price
  refine hquiet.noLateBid ?_
  by_cases hpq : p = q
  · subst hpq
    exact (noLateBid_bid_iff hn player.val taken).2 (hfresh rfl)
  · unfold NoLateBid record
    rw [List.pairwise_append]
    refine ⟨hn, List.pairwise_singleton _ _, ?_⟩
    intro e _ b hb _
    rw [List.mem_singleton.1 hb]
    simp [LogEntry.isBid, hpq]

/-- A bid accepted on a queued auction is late. -/
theorem not_noLateBid_acceptBid (hqueued : h.timesQueued p ≠ 0) (player : PlayerGuid)
    (price : UInt32) : ¬ (h.acceptBid player p a price).NoLateBid p := by
  intro hn
  obtain ⟨taken, es, hes, -⟩ := acceptBid_log (h := h) (p := p) (a := a) player price
  have hprefix : (h.record [.bid p player.val taken]).NoLateBid p := by
    unfold NoLateBid at hn ⊢
    rw [hes, List.pairwise_append] at hn
    exact hn.1
  have hn₀ : h.NoLateBid p := by
    unfold NoLateBid record at hprefix
    rw [List.pairwise_append] at hprefix
    exact hprefix.1
  exact hqueued ((noLateBid_bid_iff hn₀ player.val taken).1 hprefix)

/-- An expired auction is pushed by `UpdateAuctions`, queued or not. -/
theorem timesQueued_expireAll_lt (t : UInt32) (ps : List AuctionPtr) :
    ∀ h h' : AuctionHouse, expireAll t h ps = some h' → p ∈ ps → h.objs p = some a →
      t ≥ a.expiryTime → h.timesQueued p < h'.timesQueued p := by
  induction ps with
  | nil => intro h h' _ hp; exact absurd hp List.not_mem_nil
  | cons q qs ih =>
    intro h h' hr hp ha ht
    unfold expireAll at hr
    cases hobj : h.objs q with
    | none => simp [hobj] at hr
    | some b =>
      simp only [hobj] at hr
      by_cases hqp : q = p
      · subst hqp
        have hab : a = b := Option.some.inj (ha.symm.trans hobj)
        rw [if_pos (hab ▸ ht)] at hr
        have hpush := timesQueued_pushRemoval (h := h) (p := q) (q := q) (a := b)
          (if b.highestBidder = 0 then .expired else .won)
        rw [if_pos rfl] at hpush
        exact Nat.lt_of_lt_of_le (by omega) (quiet_expireAll t qs _ _ hr).timesQueued_le
      · have hp' : p ∈ qs := (List.mem_cons.1 hp).resolve_left (Ne.symm hqp)
        split at hr
        · have hpush := timesQueued_pushRemoval (h := h) (p := p) (q := q) (a := b)
            (if b.highestBidder = 0 then .expired else .won)
          rw [if_neg hqp] at hpush
          have ha' : (h.pushRemoval q b (if b.highestBidder = 0 then .expired else .won)).objs p =
              some a := by
            simp [pushRemoval, record, setAuction, Ne.symm hqp, ha]
          exact Nat.lt_of_le_of_lt (by omega) (ih _ _ hr hp' ha' ht)
        · exact ih _ _ hr hp' ha ht

/-! ## The settlement along a run -/

/-- One step keeps the settlement as it should be exactly when it meets
the two conditions. -/
theorem settledOnce_step_iff {h' : AuctionHouse} (hi : h.QueueInv) (hs : h.SettledOnce)
    {e : AuctionEvent} (hstep : e.step h = some h') :
    h'.SettledOnce ↔ h.UpdateFresh e ∧ h.BidFresh e := by
  constructor
  · intro hs'
    constructor
    · cases e with
      | updateAuctions t =>
        intro x hx a ha ht
        cases hdel : a.deleted with
        | false => rfl
        | true =>
          have hone : h.timesQueued x.2 = 1 := by rw [hi.flagged x.2 a ha, hdel]; rfl
          have hlt := timesQueued_expireAll_lt t _ h h' hstep (List.mem_map_of_mem hx) ha ht
          have hle := hs'.queued x.2
          omega
      | _ => exact trivial
    · cases e with
      | placeBid player id price =>
        intro p a hb
        cases hdel : a.deleted with
        | false => rfl
        | true =>
          have hone : h.timesQueued p = 1 := by
            rw [hi.flagged p a (bidTarget_objs hb), hdel]; rfl
          have hh' : h' = h.acceptBid player p a price := by
            have hplace : h.placeBid player id price = h.acceptBid player p a price := by
              unfold placeBid
              rw [hb]
            exact (Option.some.inj hstep).symm.trans hplace
          refine absurd (hs'.noLateBid p) ?_
          rw [hh']
          exact not_noLateBid_acceptBid (by omega) player price
      | _ => exact trivial
  · intro hok
    obtain ⟨h₁, hr, hi'⟩ := hi.step hok.1
    have hh' : h' = h₁ := Option.some.inj (hstep.symm.trans hr)
    subst hh'
    refine ⟨hi'.queuedOnce, hi'.settledOnce, hi'.oneItem, ?_⟩
    intro p
    have hn := hs.noLateBid p
    cases e with
    | placeBid player id price =>
      have hplace : h.placeBid player id price = h' := Option.some.inj hstep
      rw [← hplace]
      unfold placeBid
      cases hb : h.bidTarget player id price with
      | none => exact hn
      | some x =>
        refine noLateBid_acceptBid hn ?_ player price
        intro hpq
        have hobj := bidTarget_objs hb
        rw [← hpq, hi.flagged x.1 x.2 hobj, hok.2 x.1 x.2 hb]
        rfl
    | cancelAuction id =>
      exact (Option.some.inj hstep ▸ quiet_cancelAuction id : h.Quiet h').noLateBid hn
    | sellItem seller item bid buyout etime deposit now =>
      exact (Option.some.inj hstep ▸ quiet_sellItem seller item bid buyout etime deposit now :
        h.Quiet h').noLateBid hn
    | updateAuctions t => exact (quiet_expireAll t _ _ _ hstep).noLateBid hn
    | updateDeletionQueue => exact (quiet_updateDeletionQueue hstep).noLateBid hn

theorem Loaded.settledOnce (hl : h.Loaded) : h.SettledOnce where
  queued := hl.queueInv.queuedOnce
  settled := hl.queueInv.settledOnce
  oneRecipient := hl.queueInv.oneItem
  noLateBid := by
    intro p
    unfold NoLateBid
    rw [hl.noLog]
    exact List.Pairwise.nil

/-- The steps that meet both conditions. -/
abbrev FreshStep : AuctionHouse → AuctionEvent → AuctionHouse → Prop :=
  Guarded (fun h e => h.UpdateFresh e ∧ h.BidFresh e) (PartialStep fun h e => e.step h)

/-- In every run whose steps meet the conditions each auction is queued
and settled at most once, its item leaves with each settlement exactly
once and no bid is late. The next step is defined, and keeps it so
exactly when it meets the conditions too. -/
theorem auctions_settled_once {h h' : AuctionHouse} {es : List AuctionEvent} (hl : h.Loaded)
    (hrun : Run FreshStep h es h') :
    h'.SettledOnce ∧ ∀ e : AuctionEvent,
      (h'.UpdateFresh e → (e.step h').isSome) ∧
      ∀ h'', e.step h' = some h'' → (h''.SettledOnce ↔ h'.UpdateFresh e ∧ h'.BidFresh e) := by
  have hinv : h'.QueueInv ∧ h'.SettledOnce := by
    refine hrun.invariant (fun s => s.QueueInv ∧ s.SettledOnce) ?_ ⟨hl.queueInv, hl.settledOnce⟩
    intro s e s' hs hstep
    obtain ⟨hok, hr⟩ := hstep
    obtain ⟨s₁, hr₁, hi'⟩ := hs.1.step hok.1
    have hs₁ : s₁ = s' := Option.some.inj (hr₁.symm.trans hr)
    exact ⟨hs₁ ▸ hi', (settledOnce_step_iff hs.1 hs.2 hr).2 hok⟩
  refine ⟨hinv.2, fun e => ⟨?_, fun h'' hr => settledOnce_step_iff hinv.1 hinv.2 hr⟩⟩
  intro hok
  obtain ⟨h'', hr, -⟩ := hinv.1.step hok
  rw [hr]
  rfl

/-! ### The race is there -/

/-- A house with one auction, up until `t = 100`, and two players with
1000 copper each: the seller 5 and the bidder 7. -/
def oneAuctionHouse : AuctionHouse :=
  { objs := fun p => if p = 0 then some ⟨1, 5, 0, 10, 50, 3, 100, ⟨77, 25⟩, false, .expired⟩ else none
    nextPtr := 1, auctions := [(1, 0)], removalList := [], maxId := 1
    coinage := fun _ => 1000, online := fun _ => true
    auctionCut := fun bid => bid / 20, cancelCut := fun bid => bid / 20, log := [] }

theorem oneAuctionHouse_loaded : oneAuctionHouse.Loaded where
  live := by decide
  ptrs := by decide
  bounded := by
    intro p a ha
    by_cases hp : p = 0
    · rw [hp]; exact Nat.zero_lt_one
    · simp [oneAuctionHouse, hp] at ha
  notDeleted := by
    intro p a ha
    by_cases hp : p = 0
    · subst hp
      exact Option.some.inj ha ▸ rfl
    · simp [oneAuctionHouse, hp] at ha
  noRemovals := rfl
  noLog := rfl

def bidder : PlayerGuid := ⟨7, by decide⟩

/-- One tick of the manager expires the auction, and before the next one
drains the removal list a bid on it is accepted. A cancellation between
the two calls of the tick instead has it settled twice, through a freed
record. -/
theorem late_bid_accepted :
    (¬ ∀ (h h' : AuctionHouse) (es : List AuctionEvent), h.Loaded →
      Run (PartialStep fun h e => e.step h) h es h' → h'.SettledOnce) ∧
    ((((AuctionEvent.step oneAuctionHouse .updateDeletionQueue).bind fun h =>
      (AuctionEvent.cancelAuction 1).step h).bind fun h =>
        (AuctionEvent.updateAuctions 100).step h).bind fun h =>
          AuctionEvent.updateDeletionQueue.step h).isNone = true := by
  constructor
  · intro hall
    have hs := hall oneAuctionHouse _ [.updateDeletionQueue, .updateAuctions 100, .placeBid bidder 1 20]
      oneAuctionHouse_loaded (.cons rfl (.cons rfl (.cons rfl (.nil _))))
    exact absurd (hs.noLateBid 0) (by unfold NoLateBid; decide)
  · decide

/-- A bid in time, the expiry, and the settlement. -/
theorem auctions_settled_once_in_time :
    ∃ h', Run FreshStep oneAuctionHouse
      [.placeBid bidder 1 20, .updateDeletionQueue, .updateAuctions 100, .updateDeletionQueue] h' ∧
      h'.SettledOnce ∧ h'.timesSettled 0 = 1 := by
  have hrun : Run FreshStep oneAuctionHouse
      [.placeBid bidder 1 20, .updateDeletionQueue, .updateAuctions 100, .updateDeletionQueue] _ :=
    .cons ⟨by decide, rfl⟩ (.cons ⟨by decide, rfl⟩ (.cons ⟨by decide, rfl⟩
      (.cons ⟨by decide, rfl⟩ (.nil _))))
  exact ⟨_, hrun, (auctions_settled_once oneAuctionHouse_loaded hrun).1, by decide⟩

end AuctionHouse

end HearthStone.Auctions
