/-
HearthStone.Trade.TradeSession — who trades with whom: the partner
relation over any number of players and any order of opcodes.

* `Symmetric` — if a player's partner is in the world, the partner's
  partner is the player.
* `SessionInv` — what carries it: partners are mutual and share a map.
* `KeepsPartner` — the steps that keep it. A reset of one side only
  (`initiateTrade`, an aborted `beginTrade`, `declineTrade`) is harmless
  for a player without a partner and breaks the relation for any other.
-/
import HearthStone.Trade.TradeHandler
import HearthStone.Lib.Run

namespace HearthStone

open Lib

namespace World

variable {w w' : World} {p q r x : PlayerGuid}

/-! ## What the writes do to the three session fields -/

@[simp] theorem players_setTrader_self (f : Trader → Trader) :
    (w.setTrader p f).players p = f (w.players p) := by
  simp [setTrader]

theorem players_setTrader_of_ne (f : Trader → Trader) (h : x ≠ p) :
    (w.setTrader p f).players x = w.players x := by
  simp [setTrader, h]

@[simp] theorem players_record (es : List TradeEntry) : (w.record es).players = w.players := rfl

/-- A write that leaves a field alone leaves it alone everywhere. -/
theorem field_setTrader {α : Type} (field : Trader → α) {f : Trader → Trader}
    (hf : ∀ t, field (f t) = field t := by intro t; rfl) :
    field ((w.setTrader p f).players x) = field (w.players x) := by
  by_cases h : x = p
  · rw [h, players_setTrader_self, hf]
  · rw [players_setTrader_of_ne f h]

@[simp] theorem target_reset :
    ((w.resetTradeVariables p).players x).mTradeTarget =
      if x = p then none else (w.players x).mTradeTarget := by
  unfold resetTradeVariables
  by_cases h : x = p
  · simp [h]
  · simp [h, players_setTrader_of_ne]

@[simp] theorem mapMgr_reset :
    ((w.resetTradeVariables p).players x).mapMgr = (w.players x).mapMgr := by
  unfold resetTradeVariables
  rw [players_record]
  exact field_setTrader Trader.mapMgr

@[simp] theorem status_reset :
    ((w.resetTradeVariables p).players x).mTradeStatus =
      if x = p then .playerBusy else (w.players x).mTradeStatus := by
  unfold resetTradeVariables
  by_cases h : x = p
  · simp [h]
  · simp [h, players_setTrader_of_ne]

@[simp] theorem target_setStatus (s : TradeStatus) :
    ((w.setStatus p s).players x).mTradeTarget = (w.players x).mTradeTarget := by
  unfold setStatus
  rw [players_record]
  exact field_setTrader Trader.mTradeTarget

@[simp] theorem mapMgr_setStatus (s : TradeStatus) :
    ((w.setStatus p s).players x).mapMgr = (w.players x).mapMgr := by
  unfold setStatus
  rw [players_record]
  exact field_setTrader Trader.mapMgr

@[simp] theorem status_setStatus (s : TradeStatus) :
    ((w.setStatus p s).players x).mTradeStatus =
      if x = p then s else (w.players x).mTradeStatus := by
  unfold setStatus
  by_cases h : x = p
  · simp [h]
  · simp [h, players_setTrader_of_ne]

/-! ## The relation and its invariant -/

/-- If a player's trade target is in the world, its target is the player. -/
def Symmetric (w : World) : Prop :=
  ∀ a b, (w.players a).mTradeTarget = some b → w.isInWorld b = true →
    (w.players b).mTradeTarget = some a

/-- Partners are mutual and on one map. -/
structure SessionInv (w : World) : Prop where
  paired : ∀ a b, (w.players a).mTradeTarget = some b → (w.players b).mTradeTarget = some a
  sameMap : ∀ a b, (w.players a).mTradeTarget = some b →
    w.isInWorld a = true ∧ (w.players b).mapMgr = (w.players a).mapMgr
  notComplete : ∀ a, (w.players a).mTradeStatus ≠ .complete

/-- Nobody trades yet. -/
def NoTrades (w : World) : Prop :=
  ∀ a, (w.players a).mTradeTarget = none ∧ (w.players a).mTradeStatus ≠ .complete

/-- The player has no partner, or is its own. -/
def Alone (w : World) (p : PlayerGuid) : Prop :=
  (w.players p).mTradeTarget = none ∨ (w.players p).mTradeTarget = some p

/-- The steps that leave no partner behind. -/
def KeepsPartner (w : World) : TradeEvent → Prop
  | .initiate p _ _ => w.isInWorld p = true → w.Alone p
  | .begin p tooFar => tooFar = true → w.Alone p
  | .busy p => w.Alone p
  | .ignore p => w.Alone p
  | _ => True

theorem NoTrades.sessionInv (h : w.NoTrades) : w.SessionInv where
  paired := by
    intro a b hab
    rw [(h a).1] at hab
    exact absurd hab (by simp)
  sameMap := by
    intro a b hab
    rw [(h a).1] at hab
    exact absurd hab (by simp)
  notComplete := fun a => (h a).2

theorem SessionInv.symmetric (h : w.SessionInv) : w.Symmetric :=
  fun a b hab _ => h.paired a b hab

/-- The partner of a player in a session is found. -/
theorem SessionInv.getTradeTarget (h : w.SessionInv) :
    w.getTradeTarget p = (w.players p).mTradeTarget := by
  unfold World.getTradeTarget getPlayer
  cases ht : (w.players p).mTradeTarget with
  | none => rfl
  | some q =>
    obtain ⟨hin, hmap⟩ := h.sameMap p q ht
    simp [hin, hmap]

theorem SessionInv.inWorld (h : w.SessionInv) (hpq : (w.players p).mTradeTarget = some q) :
    w.isInWorld p = true ∧ w.isInWorld q = true := by
  obtain ⟨hin, hmap⟩ := h.sameMap p q hpq
  exact ⟨hin, by unfold isInWorld at hin ⊢; rw [hmap]; exact hin⟩

/-- Writes that leave targets and maps alone. -/
theorem SessionInv.frame (h : w.SessionInv)
    (ht : ∀ x, (w'.players x).mTradeTarget = (w.players x).mTradeTarget)
    (hm : ∀ x, (w'.players x).mapMgr = (w.players x).mapMgr)
    (hs : ∀ x, (w'.players x).mTradeStatus ≠ .complete) : w'.SessionInv where
  paired := by
    intro a b hab
    rw [ht] at hab ⊢
    exact h.paired a b hab
  sameMap := by
    intro a b hab
    rw [ht] at hab
    obtain ⟨hin, hmap⟩ := h.sameMap a b hab
    exact ⟨by unfold isInWorld at hin ⊢; rw [hm]; exact hin, by rw [hm, hm]; exact hmap⟩
  notComplete := hs

/-! ## One lemma for each write -/

theorem SessionInv.setStatus (h : w.SessionInv) {s : TradeStatus} (hs : s ≠ .complete) :
    (w.setStatus p s).SessionInv := by
  refine h.frame (fun x => target_setStatus s) (fun x => mapMgr_setStatus s) ?_
  intro x
  rw [status_setStatus]
  split
  · exact hs
  · exact h.notComplete x

/-- A player without a partner is reset. -/
theorem SessionInv.resetAlone (h : w.SessionInv) (hp : w.Alone p) :
    (w.resetTradeVariables p).SessionInv where
  paired := by
    intro a b hab
    simp only [target_reset] at hab ⊢
    split at hab
    · exact absurd hab (by simp)
    · rename_i hap
      have hba := h.paired a b hab
      split
      · rename_i hbp
        rw [hbp] at hba
        rcases hp with hp | hp
        · rw [hp] at hba
          exact absurd hba (by simp)
        · rw [hp] at hba
          injection hba with hba
          exact absurd hba.symm hap
      · exact hba
  sameMap := by
    intro a b hab
    simp only [target_reset] at hab
    split at hab
    · exact absurd hab (by simp)
    · obtain ⟨hin, hmap⟩ := h.sameMap a b hab
      exact ⟨by unfold isInWorld at hin ⊢; simpa using hin, by simpa using hmap⟩
  notComplete := by
    intro a
    simp only [status_reset]
    split
    · simp
    · exact h.notComplete a

/-- Two partners are reset together. -/
theorem SessionInv.resetPair (h : w.SessionInv) (hpq : (w.players p).mTradeTarget = some q) :
    ((w.resetTradeVariables q).resetTradeVariables p).SessionInv where
  paired := by
    intro a b hab
    simp only [target_reset] at hab ⊢
    split at hab
    · exact absurd hab (by simp)
    · rename_i hap
      split at hab
      · exact absurd hab (by simp)
      · rename_i haq
        have hba := h.paired a b hab
        have hbp : b ≠ p := by
          intro hbp
          rw [hbp, hpq] at hba
          injection hba with hba
          exact haq hba.symm
        have hbq : b ≠ q := by
          intro hbq
          rw [hbq, h.paired p q hpq] at hba
          injection hba with hba
          exact hap hba.symm
        rw [if_neg hbp, if_neg hbq]
        exact hba
  sameMap := by
    intro a b hab
    simp only [target_reset] at hab
    split at hab
    · exact absurd hab (by simp)
    · split at hab
      · exact absurd hab (by simp)
      · obtain ⟨hin, hmap⟩ := h.sameMap a b hab
        exact ⟨by unfold isInWorld at hin ⊢; simpa using hin, by simpa using hmap⟩
  notComplete := by
    intro a
    simp only [status_reset]
    split
    · simp
    · split
      · simp
      · exact h.notComplete a

theorem resetPair_comm (hpq : (w.players p).mTradeTarget = some q) (h : w.SessionInv) :
    ((w.resetTradeVariables p).resetTradeVariables q).SessionInv :=
  h.resetPair (h.paired p q hpq)

theorem target_openTrade :
    ((w.openTrade p q).players x).mTradeTarget =
      if x = p then some q else if x = q then some p else (w.players x).mTradeTarget := by
  unfold openTrade
  simp only [target_setStatus]
  by_cases hxp : x = p
  · simp [hxp]
  · rw [players_setTrader_of_ne _ hxp]
    by_cases hxq : x = q
    · simp [hxq]
      intro h
      exact absurd (hxq.trans h) hxp
    · rw [players_setTrader_of_ne _ hxq]
      simp [hxp, hxq]

theorem mapMgr_openTrade : ((w.openTrade p q).players x).mapMgr = (w.players x).mapMgr := by
  unfold openTrade
  simp only [mapMgr_setStatus]
  rw [field_setTrader Trader.mapMgr, field_setTrader Trader.mapMgr]
  simp only [mapMgr_reset]

theorem status_openTrade (h : ∀ x, (w.players x).mTradeStatus ≠ .complete) :
    ((w.openTrade p q).players x).mTradeStatus ≠ .complete := by
  unfold openTrade
  simp only [status_setStatus]
  split
  · simp
  · split
    · simp
    · rw [field_setTrader Trader.mTradeStatus,
        field_setTrader Trader.mTradeStatus]
      simp only [status_reset]
      split
      · simp
      · exact h x

/-- Two players without partners, on one map, become partners. -/
theorem SessionInv.openTrade (h : w.SessionInv) (hp : w.Alone p)
    (hq : (w.players q).mTradeTarget = none) (hin : w.isInWorld p = true)
    (hmap : (w.players q).mapMgr = (w.players p).mapMgr) : (w.openTrade p q).SessionInv where
  paired := by
    intro a b hab
    rw [target_openTrade] at hab ⊢
    split at hab
    · rename_i hap
      injection hab with hab
      rw [← hab, hap]
      by_cases hqp : q = p
      · rw [if_pos hqp, hqp]
      · rw [if_neg hqp, if_pos rfl]
    · rename_i hap
      split at hab
      · rename_i haq
        injection hab with hab
        rw [← hab, if_pos rfl, haq]
      · rename_i haq
        have hba := h.paired a b hab
        have hbp : b ≠ p := by
          intro hbp
          rw [hbp] at hba
          rcases hp with hp | hp
          · rw [hp] at hba
            exact absurd hba (by simp)
          · rw [hp] at hba
            injection hba with hba
            exact hap hba.symm
        have hbq : b ≠ q := by
          intro hbq
          rw [hbq, hq] at hba
          exact absurd hba (by simp)
        rw [if_neg hbp, if_neg hbq]
        exact hba
  sameMap := by
    intro a b hab
    unfold isInWorld at hin ⊢
    simp only [mapMgr_openTrade]
    rw [target_openTrade] at hab
    split at hab
    · rename_i hap
      injection hab with hab
      rw [← hab, hap]
      exact ⟨hin, hmap⟩
    · split at hab
      · rename_i haq
        injection hab with hab
        rw [← hab, haq, hmap]
        exact ⟨hin, rfl⟩
      · exact h.sameMap a b hab
  notComplete := fun _ => status_openTrade h.notComplete

/-! ## The exchange moves no partner -/

theorem field_moveGold {α : Type} (field : Trader → α)
    (hf : ∀ t c, field { t with coinage := c } = field t) :
    field ((w.moveGold p q).players x) = field (w.players x) := by
  unfold moveGold
  dsimp only
  have hcoin : ∀ (v : World) (y : PlayerGuid) (c : Trader → UInt32),
      field ((v.setTrader y fun t => { t with coinage := c t }).players x) =
        field (v.players x) := fun v y c => field_setTrader field fun t => hf t (c t)
  split <;> split <;> simp only [hcoin]

theorem field_exchange {α : Type} (field : Trader → α)
    (hf : ∀ t c, field { t with coinage := c } = field t) :
    field ((w.exchange p q).players x) = field (w.players x) := by
  unfold exchange
  rw [players_record, field_moveGold field hf]

theorem SessionInv.exchange (h : w.SessionInv) : (w.exchange p q).SessionInv := by
  refine h.frame (fun x => field_exchange _ fun _ _ => rfl)
    (fun x => field_exchange _ fun _ _ => rfl) ?_
  intro x
  rw [field_exchange Trader.mTradeStatus fun _ _ => rfl]
  exact h.notComplete x

@[simp] theorem target_setAccepted :
    ((w.setAccepted p).players x).mTradeTarget = (w.players x).mTradeTarget := by
  unfold World.setAccepted
  rw [players_record]
  exact field_setTrader Trader.mTradeTarget

theorem mapMgr_setAccepted :
    ((w.setAccepted p).players x).mapMgr = (w.players x).mapMgr := by
  unfold World.setAccepted
  rw [players_record]
  exact field_setTrader Trader.mapMgr

theorem SessionInv.setAccepted (h : w.SessionInv) : (w.setAccepted p).SessionInv := by
  refine h.frame (fun x => target_setAccepted) (fun x => mapMgr_setAccepted) ?_
  intro x
  unfold World.setAccepted
  rw [players_record]
  by_cases hxp : x = p
  · rw [hxp, players_setTrader_self]
    simp
  · rw [players_setTrader_of_ne _ hxp]
    exact h.notComplete x

/-- A partner is always found, so an accept is defined. -/
theorem SessionInv.acceptTrade (h : w.SessionInv) :
    ∃ w', w.acceptTrade p = some w' ∧ w'.SessionInv := by
  unfold World.acceptTrade
  split
  · exact ⟨w, rfl, h⟩
  · rename_i hin
    rw [not_or] at hin
    rw [h.getTradeTarget]
    cases hpq : (w.players p).mTradeTarget with
    | none => exact absurd hpq hin.2
    | some q =>
      dsimp only
      have hacc : (w.setAccepted p).SessionInv := h.setAccepted
      have hpq' : ((w.setAccepted p).players p).mTradeTarget = some q :=
        target_setAccepted.trans hpq
      split
      · split
        · refine ⟨_, rfl, resetPair_comm ?_ hacc.exchange⟩
          exact (field_exchange Trader.mTradeTarget fun _ _ => rfl).trans hpq'
        · exact ⟨_, rfl, resetPair_comm hpq' hacc⟩
      · exact ⟨_, rfl, hacc⟩

/-! ## The other opcodes -/

/-- `getPlayer` finds players of the same map only. -/
theorem getPlayer_eq_some {guid : Option PlayerGuid} (h : w.getPlayer p guid = some q) :
    guid = some q ∧ w.isInWorld p = true ∧ (w.players q).mapMgr = (w.players p).mapMgr := by
  unfold getPlayer at h
  rw [Option.filter_eq_some_iff] at h
  simpa using h

/-- A proposed trade is with a player who has no partner. -/
theorem target_of_proposed {tooFar : Bool}
    (h : w.initiateStatus p (some q) tooFar = .proposed) : (w.players q).mTradeTarget = none := by
  unfold initiateStatus at h
  dsimp only at h
  split at h
  · simp at h
  · split at h
    · simp at h
    · rename_i hq
      simpa using hq

theorem SessionInv.initiateTrade (h : w.SessionInv) {guid : Option PlayerGuid} {tooFar : Bool}
    (hok : w.isInWorld p = true → w.Alone p) : (w.initiateTrade p guid tooFar).SessionInv := by
  unfold World.initiateTrade
  split
  · exact h
  · rename_i hin
    have halone := hok (by simpa using hin)
    dsimp only
    split
    · exact h.resetAlone halone
    · rename_i q hq
      split
      · exact h.resetAlone halone
      · rename_i hstatus
        obtain ⟨-, hinp, hmap⟩ := getPlayer_eq_some hq
        rw [hq] at hstatus
        exact h.openTrade halone (target_of_proposed (by simpa using hstatus)) hinp hmap

theorem SessionInv.beginTrade (h : w.SessionInv) {tooFar : Bool}
    (hok : tooFar = true → w.Alone p) : (w.beginTrade p tooFar).SessionInv := by
  unfold World.beginTrade
  rw [h.getTradeTarget]
  cases hpq : (w.players p).mTradeTarget with
  | none => exact h.resetAlone (Or.inl hpq)
  | some q =>
    dsimp only
    split
    · rename_i hfar
      exact h.resetAlone (hok hfar)
    · exact (h.setStatus (by simp)).setStatus (by simp)

theorem SessionInv.declineTrade (h : w.SessionInv) (hok : w.Alone p) :
    (w.declineTrade p).SessionInv := by
  unfold World.declineTrade
  split
  · exact h
  · exact h.resetAlone hok

theorem SessionInv.cancelTrade (h : w.SessionInv) : (w.cancelTrade p).SessionInv := by
  unfold World.cancelTrade
  split
  · exact h
  · rename_i hin
    rw [not_or] at hin
    split
    · rename_i hcomplete
      exact absurd hcomplete (h.notComplete p)
    · rw [h.getTradeTarget]
      cases hpq : (w.players p).mTradeTarget with
      | none => exact absurd hpq hin.2
      | some q => exact h.resetPair hpq

theorem SessionInv.unacceptTrade (h : w.SessionInv) : (w.unacceptTrade p).SessionInv := by
  unfold World.unacceptTrade
  split
  · exact h
  · rename_i hin
    rw [not_or] at hin
    rw [h.getTradeTarget]
    cases hpq : (w.players p).mTradeTarget with
    | none => exact absurd hpq hin.2
    | some q => exact (h.setStatus (by simp)).setStatus (by simp)

theorem SessionInv.removeFromWorld (h : w.SessionInv) : (w.removeFromWorld p).SessionInv := by
  -- after the cancellation the player has no partner
  have hleft : ∀ v : World, v.SessionInv → (v.players p).mTradeTarget = none →
      (v.setTrader p fun t => { t with mapMgr := none }).SessionInv := by
    intro v hv hnone
    have htarget : ∀ x, ((v.setTrader p fun t => { t with mapMgr := none }).players x).mTradeTarget =
        (v.players x).mTradeTarget := fun x => field_setTrader Trader.mTradeTarget
    refine ⟨?_, ?_, ?_⟩
    · intro a b hab
      rw [htarget] at hab ⊢
      exact hv.paired a b hab
    · intro a b hab
      rw [htarget] at hab
      have hap : a ≠ p := by
        intro hap
        rw [hap, hnone] at hab
        exact absurd hab (by simp)
      have hbp : b ≠ p := by
        intro hbp
        have hba := hv.paired a b hab
        rw [hbp, hnone] at hba
        exact absurd hba (by simp)
      unfold isInWorld
      rw [players_setTrader_of_ne _ hap, players_setTrader_of_ne _ hbp]
      exact hv.sameMap a b hab
    · intro a
      rw [field_setTrader Trader.mTradeStatus]
      exact hv.notComplete a
  unfold World.removeFromWorld
  split
  · rename_i hnone
    exact hleft w h hnone
  · rename_i hsome
    rw [h.getTradeTarget]
    cases hpq : (w.players p).mTradeTarget with
    | none => exact absurd hpq hsome
    | some q => exact hleft _ (h.resetPair hpq) (by simp)

/-- A write to an offer. -/
theorem SessionInv.write (h : w.SessionInv) {f : Trader → Trader} (es : List TradeEntry)
    (ht : ∀ t, (f t).mTradeTarget = t.mTradeTarget) (hm : ∀ t, (f t).mapMgr = t.mapMgr)
    (hs : ∀ t, (f t).mTradeStatus = t.mTradeStatus) :
    ((w.setTrader p f).record es).SessionInv := by
  refine h.frame (fun x => field_setTrader Trader.mTradeTarget ht)
    (fun x => field_setTrader Trader.mapMgr hm) ?_
  intro x
  rw [players_record, field_setTrader Trader.mTradeStatus hs]
  exact h.notComplete x

theorem SessionInv.setTradeItem (h : w.SessionInv) {tradeSlot : UInt8} {bag slot : Int} :
    (w.setTradeItem p tradeSlot bag slot).SessionInv := by
  unfold World.setTradeItem
  split
  · exact h
  split
  · exact h
  split
  · split
    · exact h
    split
    · exact h
    split
    · exact h
    exact h.write _ (fun _ => rfl) (fun _ => rfl) fun _ => rfl
  · exact h

theorem SessionInv.setTradeGold (h : w.SessionInv) {gold : UInt32} :
    (w.setTradeGold p gold).SessionInv := by
  unfold World.setTradeGold
  split
  · exact h
  split
  · exact h
  exact h.write _ (fun _ => rfl) (fun _ => rfl) fun _ => rfl

theorem SessionInv.clearTradeItem (h : w.SessionInv) {tradeSlot : UInt8} :
    (w.clearTradeItem p tradeSlot).SessionInv := by
  unfold World.clearTradeItem
  split
  · exact h
  split
  · exact h.write _ (fun _ => rfl) (fun _ => rfl) fun _ => rfl
  · exact h

theorem SessionInv.enterWorld (h : w.SessionInv) {map : Nat} (hout : w.isInWorld p = false) :
    (w.setTrader p fun t => { t with mapMgr := some map }).SessionInv := by
  have htarget : ∀ x,
      ((w.setTrader p fun t => { t with mapMgr := some map }).players x).mTradeTarget =
        (w.players x).mTradeTarget := fun x => field_setTrader Trader.mTradeTarget
  refine ⟨?_, ?_, ?_⟩
  · intro a b hab
    rw [htarget] at hab ⊢
    exact h.paired a b hab
  · intro a b hab
    rw [htarget] at hab
    -- neither side of a session is the player who was out of the world
    have hin := h.inWorld hab
    have hap : a ≠ p := by
      intro hap
      rw [hap, hout] at hin
      exact absurd hin.1 (by simp)
    have hbp : b ≠ p := by
      intro hbp
      rw [hbp, hout] at hin
      exact absurd hin.2 (by simp)
    unfold isInWorld
    rw [players_setTrader_of_ne _ hap, players_setTrader_of_ne _ hbp]
    exact h.sameMap a b hab
  · intro a
    rw [field_setTrader Trader.mTradeStatus]
    exact h.notComplete a

theorem SessionInv.other (h : w.SessionInv) {coinage : UInt32} {isDead : Bool}
    {items : ItemWorld} :
    ({ (w.setTrader p fun t => { t with coinage, isDead }) with items } : World).SessionInv := by
  have hwrite : ((w.setTrader p fun t => { t with coinage, isDead }).record []).SessionInv :=
    h.write [] (fun _ => rfl) (fun _ => rfl) fun _ => rfl
  exact hwrite.frame (fun _ => rfl) (fun _ => rfl) hwrite.notComplete

/-! ## Steps and runs -/

/-- A step that leaves no partner behind keeps the invariant, and is
defined. -/
theorem SessionInv.step (h : w.SessionInv) {e : TradeEvent} (hok : w.KeepsPartner e) :
    ∃ w', e.step w = some w' ∧ w'.SessionInv := by
  cases e with
  | initiate p guid tooFar => exact ⟨_, rfl, h.initiateTrade hok⟩
  | begin p tooFar => exact ⟨_, rfl, h.beginTrade hok⟩
  | busy p => exact ⟨_, rfl, h.declineTrade hok⟩
  | ignore p => exact ⟨_, rfl, h.declineTrade hok⟩
  | cancel p => exact ⟨_, rfl, h.cancelTrade⟩
  | unaccept p => exact ⟨_, rfl, h.unacceptTrade⟩
  | setItem p tradeSlot bag slot => exact ⟨_, rfl, h.setTradeItem⟩
  | setGold p gold => exact ⟨_, rfl, h.setTradeGold⟩
  | clearItem p tradeSlot => exact ⟨_, rfl, h.clearTradeItem⟩
  | accept p => exact h.acceptTrade
  | leaveWorld p => exact ⟨_, rfl, h.removeFromWorld⟩
  | enterWorld p map =>
    refine ⟨_, rfl, ?_⟩
    split
    · exact h
    · rename_i hout
      exact h.enterWorld (by simpa using hout)
  | other p coinage isDead items => exact ⟨_, rfl, h.other⟩

/-- A one-sided reset of a player with a partner breaks the relation. -/
theorem not_symmetric_of_left (h : w.SessionInv) (hpq : (w.players p).mTradeTarget = some q)
    (hq : (w'.players q).mTradeTarget = some p)
    (hp : (w'.players p).mTradeTarget ≠ some q)
    (hmap : (w'.players p).mapMgr = (w.players p).mapMgr) : ¬ w'.Symmetric := by
  intro hsym
  refine hp (hsym q p hq ?_)
  have hin := (h.inWorld hpq).1
  unfold isInWorld at hin ⊢
  rw [hmap]
  exact hin

/-- The partner of a player who is not alone. -/
theorem partner_of_not_alone (hp : ¬ w.Alone p) :
    ∃ q, (w.players p).mTradeTarget = some q ∧ q ≠ p := by
  unfold Alone at hp
  rw [not_or] at hp
  cases hpq : (w.players p).mTradeTarget with
  | none => exact absurd hpq hp.1
  | some q => exact ⟨q, rfl, fun hqp => hp.2 (by rw [hpq, hqp])⟩

theorem not_symmetric_reset (h : w.SessionInv) (hp : ¬ w.Alone p) :
    ¬ (w.resetTradeVariables p).Symmetric := by
  obtain ⟨q, hpq, hqp⟩ := partner_of_not_alone hp
  refine not_symmetric_of_left h hpq ?_ (by simp) mapMgr_reset
  simpa [hqp] using h.paired p q hpq

theorem not_symmetric_initiate (h : w.SessionInv) {guid : Option PlayerGuid} {tooFar : Bool}
    (hin : w.isInWorld p = true) (hp : ¬ w.Alone p) :
    ¬ (w.initiateTrade p guid tooFar).Symmetric := by
  unfold initiateTrade
  rw [if_neg (by simp [hin])]
  dsimp only
  split
  · exact not_symmetric_reset h hp
  · rename_i q hq
    split
    · exact not_symmetric_reset h hp
    · rename_i hstatus
      rw [hq] at hstatus
      have hnone := target_of_proposed (by simpa using hstatus)
      obtain ⟨r, hpr, hrp⟩ := partner_of_not_alone hp
      have hrq : r ≠ q := by
        intro hrq
        have hback := h.paired p r hpr
        rw [hrq, hnone] at hback
        exact absurd hback (by simp)
      refine not_symmetric_of_left h hpr ?_ ?_ mapMgr_openTrade
      · rw [target_openTrade, if_neg hrp, if_neg hrq]
        exact h.paired p r hpr
      · rw [target_openTrade, if_pos rfl]
        simpa using Ne.symm hrq

/-- From a state with mutual partners, a step keeps the relation exactly
when it leaves no partner behind. -/
theorem symmetric_step_iff (h : w.SessionInv) {e : TradeEvent} (hstep : e.step w = some w') :
    w'.Symmetric ↔ w.KeepsPartner e := by
  constructor
  · intro hsym
    cases e with
    | initiate p guid tooFar =>
      intro hin
      by_contra hp
      have heq : w.initiateTrade p guid tooFar = w' := Option.some.inj hstep
      exact not_symmetric_initiate h hin hp (heq ▸ hsym)
    | begin p tooFar =>
      intro hfar
      by_contra hp
      have heq : w.beginTrade p tooFar = w' := Option.some.inj hstep
      have hreset : w.beginTrade p tooFar = w.resetTradeVariables p := by
        unfold beginTrade
        rw [hfar]
        split <;> rfl
      exact not_symmetric_reset h hp (hreset ▸ heq ▸ hsym)
    | busy p | ignore p =>
      show w.Alone p
      by_contra hp
      obtain ⟨q, hpq, -⟩ := partner_of_not_alone hp
      have heq : w.declineTrade p = w' := Option.some.inj hstep
      have hreset : w.declineTrade p = w.resetTradeVariables p := by
        unfold declineTrade
        rw [if_neg (by simp [hpq, (h.inWorld hpq).1])]
      exact not_symmetric_reset h hp (hreset ▸ heq ▸ hsym)
    | _ => exact trivial
  · intro hok
    obtain ⟨w₁, hr, hi⟩ := h.step hok
    exact (Option.some.inj (hr.symm.trans hstep)) ▸ hi.symmetric

/-- An accept that exchanges does so with the player's target. -/
theorem target_of_exchangesWith (h : w.exchangesWith p = some q) :
    (w.players p).mTradeTarget = some q := by
  unfold exchangesWith at h
  split at h
  · exact absurd h (by simp)
  · rw [Option.filter_eq_some_iff] at h
    exact (getPlayer_eq_some h.1).1

/-- In every run from a world without trades whose steps leave no partner
behind, partners are mutual, an exchange is between two players who are
each other's target, and every step is defined. The next step keeps it
so exactly when it leaves no partner behind either. -/
theorem trade_partners_symmetric {w₀ w : World} {es : List TradeEvent} (h₀ : w₀.NoTrades)
    (hrun : Run (Guarded KeepsPartner (PartialStep fun w e => e.step w)) w₀ es w) :
    w.Symmetric ∧
      (∀ p q, w.exchangesWith p = some q → (w.players p).mTradeTarget = some q ∧
        (w.players q).mTradeTarget = some p) ∧
      ∀ e w', e.step w = some w' → (w'.Symmetric ↔ w.KeepsPartner e) := by
  have hinv : w.SessionInv := by
    refine hrun.invariant (fun v => v.SessionInv) ?_ h₀.sessionInv
    intro v e v' hi hstep
    obtain ⟨hok, hr⟩ := hstep
    obtain ⟨v₁, hr₁, hi'⟩ := hi.step hok
    exact (Option.some.inj (hr₁.symm.trans hr)) ▸ hi'
  refine ⟨hinv.symmetric, ?_, fun e w' hstep => symmetric_step_iff hinv hstep⟩
  intro p q hex
  have hpq := target_of_exchangesWith hex
  exact ⟨hpq, hinv.paired p q hpq⟩

/-! ### Three players -/

/-- Everybody on map 0 with 100 copper and no trade. -/
def idleWorld : World where
  players := fun _ => ⟨some 0, false, 0, 0, 100, none, .playerBusy, 0, fun _ => none⟩
  items := ItemWorld.empty
  log := []

def alice : PlayerGuid := ⟨1, by decide⟩
def bob : PlayerGuid := ⟨2, by decide⟩
def carol : PlayerGuid := ⟨3, by decide⟩

theorem idleWorld_noTrades : idleWorld.NoTrades := fun _ => ⟨rfl, nofun⟩

/-- Alice opens a trade with Bob, accepts, and opens one with Carol; Bob's
target is still Alice. When Alice accepts in her trade with Carol, Bob's
accept exchanges with her. -/
theorem exchange_with_third_party :
    (¬ ∀ (w₀ w : World) (es : List TradeEvent), w₀.NoTrades →
      Run (PartialStep fun w e => e.step w) w₀ es w → w.Symmetric) ∧
    ∃ (w : World) (es : List TradeEvent), Run (PartialStep fun w e => e.step w) idleWorld es w ∧
      w.exchangesWith bob = some alice ∧ (w.players alice).mTradeTarget = some carol := by
  constructor
  · intro hall
    have hs := hall idleWorld _ [.initiate alice (some bob) false, .initiate alice (some carol) false]
      idleWorld_noTrades (.cons rfl (.cons rfl (.nil _)))
    exact absurd (hs bob alice (by decide) (by decide)) (by decide)
  · refine ⟨_, [.initiate alice (some bob) false, .initiate alice (some carol) false,
      .setGold bob 5, .accept alice],
      .cons rfl (.cons rfl (.cons rfl (.cons rfl (.nil _)))), ?_, ?_⟩
    · decide
    · decide

/-- Alice cancels with Bob before she turns to Carol. -/
theorem trade_partners_symmetric_in_turn :
    ∃ w, Run (Guarded KeepsPartner (PartialStep fun w e => e.step w)) idleWorld
      [.initiate alice (some bob) false, .begin bob false, .cancel alice,
        .initiate alice (some carol) false] w ∧ w.Symmetric := by
  have hrun : Run (Guarded KeepsPartner (PartialStep fun w e => e.step w)) idleWorld
      [.initiate alice (some bob) false, .begin bob false, .cancel alice,
        .initiate alice (some carol) false] _ :=
    .cons ⟨fun _ => Or.inl rfl, rfl⟩ (.cons ⟨nofun, rfl⟩ (.cons ⟨trivial, rfl⟩
      (.cons ⟨fun _ => Or.inl (by decide), rfl⟩ (.nil _))))
  exact ⟨_, hrun, (trade_partners_symmetric idleWorld_noTrades hrun).1⟩

end World

end HearthStone
