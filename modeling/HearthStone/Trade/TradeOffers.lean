/-
HearthStone.Trade.TradeOffers — no item is offered twice.

`HandleSetTradeItem` compares an item with the fourteen slots of the two
offers before it writes one; every other handler writes nothing but
empty slots. Where partners are mutual the two offers that an accept
reads are the two that were compared.

* `NoNewOffers` — what the other handlers leave of the offers.
* `offers_distinct` — in a run that leaves no partner behind, the offers
  of two partners share no item and repeat none.
-/
import HearthStone.Lib.Placement
import HearthStone.Trade.TradeConsent

namespace HearthStone

open Lib

namespace World

variable {w w' w'' : World} {p q x : PlayerGuid}

/-- No item is in two slots of an offer, or in both offers. -/
structure OffersDistinct (w : World) (p q : PlayerGuid) : Prop where
  player : AtMostOnce (w.players p).mTradeItems
  target : AtMostOnce (w.players q).mTradeItems
  apart : ∀ i j g, (w.players p).mTradeItems i = some g → (w.players q).mTradeItems j ≠ some g

/-- The offers of all partners, who are mutual. -/
structure OffersInv (w : World) : Prop where
  session : w.SessionInv
  distinct : ∀ a b, (w.players a).mTradeTarget = some b → a ≠ b → w.OffersDistinct a b

theorem NoTrades.offersInv (h : w.NoTrades) : w.OffersInv where
  session := h.sessionInv
  distinct := by
    intro a b hab
    rw [(h a).1] at hab
    cases hab

/-! ## The handlers that offer nothing -/

/-- What is offered was offered, and who has a new partner offers nothing. -/
structure NoNewOffers (w w' : World) : Prop where
  offers : ∀ x i g, (w'.players x).mTradeItems i = some g → (w.players x).mTradeItems i = some g
  targets : ∀ x y, (w'.players x).mTradeTarget = some y → (w.players x).mTradeTarget = some y ∨
    ∀ i, (w'.players x).mTradeItems i = none

theorem NoNewOffers.refl (w : World) : w.NoNewOffers w :=
  ⟨fun _ _ _ h => h, fun _ _ h => Or.inl h⟩

theorem NoNewOffers.trans (h₁ : w.NoNewOffers w') (h₂ : w'.NoNewOffers w'') :
    w.NoNewOffers w'' where
  offers := fun x i g hg => h₁.offers x i g (h₂.offers x i g hg)
  targets := by
    intro x y hxy
    rcases h₂.targets x y hxy with hxy | hnone
    · rcases h₁.targets x y hxy with hxy | hnone
      · exact Or.inl hxy
      · right
        intro i
        cases hi : (w''.players x).mTradeItems i with
        | none => rfl
        | some g =>
          have hg := h₂.offers x i g hi
          rw [hnone i] at hg
          cases hg
    · exact Or.inr hnone

/-- A write to neither an offer nor a partner. -/
theorem NoNewOffers.frame
    (hi : ∀ x, (w'.players x).mTradeItems = (w.players x).mTradeItems)
    (ht : ∀ x, (w'.players x).mTradeTarget = (w.players x).mTradeTarget) : w.NoNewOffers w' where
  offers := by
    intro x i g hg
    rwa [hi] at hg
  targets := by
    intro x y hxy
    rw [ht] at hxy
    exact Or.inl hxy

theorem NoNewOffers.setTrader {f : Trader → Trader} (hi : ∀ t, (f t).mTradeItems = t.mTradeItems)
    (ht : ∀ t, (f t).mTradeTarget = t.mTradeTarget) : w.NoNewOffers (w.setTrader p f) :=
  .frame (fun _ => field_setTrader Trader.mTradeItems hi)
    fun _ => field_setTrader Trader.mTradeTarget ht

theorem NoNewOffers.record (h : w.NoNewOffers w') (es : List TradeEntry) :
    w.NoNewOffers (w'.record es) :=
  ⟨h.offers, h.targets⟩

theorem noNewOffers_setStatus {s : TradeStatus} : w.NoNewOffers (w.setStatus p s) := by
  refine (NoNewOffers.setTrader ?_ ?_).record _
  · intro t
    rfl
  · intro t
    rfl

@[simp] theorem items_reset_self : ((w.resetTradeVariables p).players p).mTradeItems =
    fun _ => none := by
  unfold resetTradeVariables
  simp

theorem items_reset_of_ne (h : x ≠ p) :
    ((w.resetTradeVariables p).players x).mTradeItems = (w.players x).mTradeItems := by
  unfold resetTradeVariables
  rw [players_record, players_setTrader_of_ne _ h]

theorem noNewOffers_reset : w.NoNewOffers (w.resetTradeVariables p) where
  offers := by
    intro x i g hg
    by_cases hxp : x = p
    · rw [hxp, items_reset_self] at hg
      cases hg
    · rwa [items_reset_of_ne hxp] at hg
  targets := by
    intro x y hxy
    rw [target_reset] at hxy
    split at hxy
    · cases hxy
    · exact Or.inl hxy

/-- A partner is written to a player who offers nothing. -/
theorem noNewOffers_setTarget {t : Option PlayerGuid}
    (hp : ∀ i, (w.players p).mTradeItems i = none) :
    w.NoNewOffers (w.setTrader p fun v => { v with mTradeTarget := t }) where
  offers := by
    intro x i g hg
    rwa [field_setTrader Trader.mTradeItems] at hg
  targets := by
    intro x y hxy
    by_cases hxp : x = p
    · right
      intro i
      rw [field_setTrader Trader.mTradeItems, hxp, hp]
    · rw [players_setTrader_of_ne _ hxp] at hxy
      exact Or.inl hxy

theorem noNewOffers_openTrade : w.NoNewOffers (w.openTrade p q) := by
  have hp : ∀ i, (((w.resetTradeVariables p).resetTradeVariables q).players p).mTradeItems i =
      none := by
    intro i
    by_cases hpq : p = q
    · rw [hpq, items_reset_self]
    · rw [items_reset_of_ne hpq, items_reset_self]
  unfold openTrade
  refine (NoNewOffers.trans ?_ noNewOffers_setStatus).trans noNewOffers_setStatus
  refine ((noNewOffers_reset.trans noNewOffers_reset).trans (noNewOffers_setTarget ?_)).trans
    (noNewOffers_setTarget ?_)
  · intro i
    rw [items_reset_self]
  · intro i
    rw [field_setTrader Trader.mTradeItems, hp]

theorem noNewOffers_initiateTrade {guid : Option PlayerGuid} {tooFar : Bool} :
    w.NoNewOffers (w.initiateTrade p guid tooFar) := by
  unfold initiateTrade
  split
  · exact NoNewOffers.refl w
  dsimp only
  split
  · exact noNewOffers_reset
  split
  · exact noNewOffers_reset
  · exact noNewOffers_openTrade

theorem noNewOffers_beginTrade {tooFar : Bool} : w.NoNewOffers (w.beginTrade p tooFar) := by
  unfold beginTrade
  split
  · exact noNewOffers_reset
  split
  · exact noNewOffers_reset
  · exact noNewOffers_setStatus.trans noNewOffers_setStatus

theorem noNewOffers_declineTrade : w.NoNewOffers (w.declineTrade p) := by
  unfold declineTrade
  split
  · exact NoNewOffers.refl w
  · exact noNewOffers_reset

theorem noNewOffers_cancelTrade : w.NoNewOffers (w.cancelTrade p) := by
  unfold cancelTrade
  split
  · exact NoNewOffers.refl w
  split
  · exact noNewOffers_reset
  split
  · exact noNewOffers_reset
  · exact noNewOffers_reset.trans noNewOffers_reset

theorem noNewOffers_unacceptTrade : w.NoNewOffers (w.unacceptTrade p) := by
  unfold unacceptTrade
  split
  · exact NoNewOffers.refl w
  split
  · exact noNewOffers_reset
  · exact noNewOffers_setStatus.trans noNewOffers_setStatus

theorem noNewOffers_setMap {m : Option Nat} :
    w.NoNewOffers (w.setTrader p fun t => { t with mapMgr := m }) := by
  refine NoNewOffers.setTrader ?_ ?_
  · intro t
    rfl
  · intro t
    rfl

theorem noNewOffers_removeFromWorld : w.NoNewOffers (w.removeFromWorld p) := by
  unfold removeFromWorld
  refine NoNewOffers.trans ?_ noNewOffers_setMap
  split
  · exact NoNewOffers.refl w
  split
  · exact noNewOffers_reset
  · exact noNewOffers_reset.trans noNewOffers_reset

theorem noNewOffers_setAccepted : w.NoNewOffers (w.setAccepted p) := by
  unfold setAccepted
  refine (NoNewOffers.setTrader ?_ ?_).record _
  · intro t
    rfl
  · intro t
    rfl

theorem noNewOffers_exchange : w.NoNewOffers (w.exchange p q) :=
  .frame (fun _ => field_exchange Trader.mTradeItems fun _ _ => rfl)
    fun _ => field_exchange Trader.mTradeTarget fun _ _ => rfl

theorem noNewOffers_acceptTrade (h : w.acceptTrade p = some w') : w.NoNewOffers w' := by
  unfold acceptTrade at h
  split at h
  · exact Option.some.inj h ▸ NoNewOffers.refl w
  · cases hpq : w.getTradeTarget p with
    | none => simp [hpq] at h
    | some q =>
      simp only [hpq] at h
      split at h
      · rw [← Option.some.inj h]
        refine NoNewOffers.trans ?_ (noNewOffers_reset.trans noNewOffers_reset)
        split
        · exact noNewOffers_setAccepted.trans noNewOffers_exchange
        · exact noNewOffers_setAccepted
      · exact Option.some.inj h ▸ noNewOffers_setAccepted

theorem noNewOffers_setTradeGold {gold : UInt32} : w.NoNewOffers (w.setTradeGold p gold) := by
  unfold setTradeGold
  split
  · exact NoNewOffers.refl w
  split
  · exact NoNewOffers.refl w
  · refine (NoNewOffers.setTrader ?_ ?_).record _
    · intro t
      rfl
    · intro t
      rfl

theorem noNewOffers_clearTradeItem {tradeSlot : UInt8} :
    w.NoNewOffers (w.clearTradeItem p tradeSlot) := by
  unfold clearTradeItem
  split
  · exact NoNewOffers.refl w
  split
  · refine NoNewOffers.record ⟨?_, ?_⟩ _
    · intro x i g hg
      by_cases hxp : x = p
      · rw [hxp, players_setTrader_self] at hg
        rw [hxp]
        exact (of_clear hg).2
      · rwa [players_setTrader_of_ne _ hxp] at hg
    · intro x y hxy
      rw [field_setTrader Trader.mTradeTarget] at hxy
      exact Or.inl hxy
  · exact NoNewOffers.refl w

/-! ## The handler that offers -/

/-- An item that is offered now was in none of the fourteen slots. -/
theorem setTradeItem_cases {tradeSlot : UInt8} {bag slot : Int} :
    w.setTradeItem p tradeSlot bag slot = w ∨
      ∃ q g i, w.getTradeTarget p = some q ∧
        (∀ j, (w.players p).mTradeItems j ≠ some g ∧ (w.players q).mTradeItems j ≠ some g) ∧
        w.setTradeItem p tradeSlot bag slot = (w.setTrader p fun t =>
          { t with mTradeItems := Function.update t.mTradeItems i (some g) }).record [.offer p] := by
  unfold setTradeItem
  split
  · exact Or.inl rfl
  cases hpq : w.getTradeTarget p with
  | none => exact Or.inl rfl
  | some q =>
    dsimp only
    split
    · rename_i hlt
      cases hg : w.items.getInventoryItemIn p bag slot with
      | none => exact Or.inl rfl
      | some g =>
        dsimp only
        split
        · exact Or.inl rfl
        split
        · exact Or.inl rfl
        · rename_i hnew
          rw [not_exists] at hnew
          exact Or.inr ⟨q, g, _, rfl, fun j => not_or.1 (hnew j), rfl⟩
    · exact Or.inl rfl

/-- Offers without repetition stay so when a new item is added. -/
theorem update_once {offer : Fin 7 → Option Guid} {k : Fin 7} {g : Guid}
    (honce : AtMostOnce offer) (hnew : ∀ j, offer j ≠ some g) :
    AtMostOnce (Function.update offer k (some g)) :=
  honce.put fun ⟨j, hj⟩ => hnew j hj

theorem OffersInv.setTradeItem (h : w.OffersInv) {tradeSlot : UInt8} {bag slot : Int}
    (hsession : (w.setTradeItem p tradeSlot bag slot).SessionInv) :
    (w.setTradeItem p tradeSlot bag slot).OffersInv := by
  refine ⟨hsession, ?_⟩
  rcases setTradeItem_cases with heq | ⟨q, g, k, hpq, hnew, heq⟩
  · rw [heq]
    exact h.distinct
  have htarget : (w.players p).mTradeTarget = some q := (getPlayer_eq_some hpq).1
  rw [heq]
  intro a b hab hne
  rw [players_record, field_setTrader Trader.mTradeTarget] at hab
  have hold := h.distinct a b hab hne
  by_cases hap : a = p
  · subst hap
    obtain rfl : b = q := Option.some.inj (hab.symm.trans htarget)
    constructor
    · intro i j x
      rw [players_record, players_setTrader_self]
      exact update_once hold.player (fun j => (hnew j).1) i j x
    · rw [players_record, players_setTrader_of_ne _ hne.symm]
      exact hold.target
    · intro i j x hi
      rw [players_record, players_setTrader_of_ne _ hne.symm]
      rw [players_record, players_setTrader_self] at hi
      dsimp only at hi
      by_cases hik : i = k
      · subst hik
        rw [Function.update_self] at hi
        exact Option.some.inj hi ▸ (hnew j).2
      · rw [Function.update_of_ne hik] at hi
        exact hold.apart i j x hi
  · have hback := h.session.paired a b hab
    by_cases hbp : b = p
    · subst hbp
      obtain rfl : a = q := Option.some.inj (hback.symm.trans htarget)
      constructor
      · rw [players_record, players_setTrader_of_ne _ hap]
        exact hold.player
      · intro i j x
        rw [players_record, players_setTrader_self]
        exact update_once hold.target (fun j => (hnew j).1) i j x
      · intro i j x hi
        rw [players_record, players_setTrader_self]
        rw [players_record, players_setTrader_of_ne _ hap] at hi
        dsimp only
        intro hj
        by_cases hjk : j = k
        · subst hjk
          rw [Function.update_self] at hj
          exact (hnew i).2 (hi.trans hj.symm)
        · rw [Function.update_of_ne hjk] at hj
          exact hold.apart i j x hi hj
    · constructor
      · rw [players_record, players_setTrader_of_ne _ hap]
        exact hold.player
      · rw [players_record, players_setTrader_of_ne _ hbp]
        exact hold.target
      · rw [players_record, players_setTrader_of_ne _ hap, players_setTrader_of_ne _ hbp]
        exact hold.apart

/-! ## Every run -/

theorem OffersInv.noNewOffers (h : w.OffersInv) (hsession : w'.SessionInv)
    (hno : w.NoNewOffers w') : w'.OffersInv := by
  refine ⟨hsession, ?_⟩
  intro a b hab hne
  have hpair := hsession.paired a b hab
  rcases hno.targets a b hab with hab | hnone
  · have hold := h.distinct a b hab hne
    constructor
    · exact fun i j g hi hj => hold.player i j g (hno.offers a i g hi) (hno.offers a j g hj)
    · exact fun i j g hi hj => hold.target i j g (hno.offers b i g hi) (hno.offers b j g hj)
    · exact fun i j g hi hj => hold.apart i j g (hno.offers a i g hi) (hno.offers b j g hj)
  · have hnoneb : ∀ i, (w'.players b).mTradeItems i = none ∨
        (w.players b).mTradeTarget = some a := by
      intro i
      rcases hno.targets b a hpair with hba | hb
      · exact Or.inr hba
      · exact Or.inl (hb i)
    constructor
    · intro i j g hi
      rw [hnone i] at hi
      cases hi
    · intro i j g hi hj
      rcases hnoneb i with hb | hba
      · rw [hb] at hi
        cases hi
      · exact (h.distinct b a hba hne.symm).player i j g (hno.offers b i g hi)
          (hno.offers b j g hj)
    · intro i j g hi
      rw [hnone i] at hi
      cases hi

theorem OffersInv.step (h : w.OffersInv) {e : TradeEvent} (hok : w.KeepsPartner e)
    (hstep : e.step w = some w') : w'.OffersInv := by
  obtain ⟨w₁, hr, hsession⟩ := h.session.step hok
  obtain rfl : w₁ = w' := Option.some.inj (hr.symm.trans hstep)
  cases e with
  | setItem p tradeSlot bag slot =>
    have heq : w.setTradeItem p tradeSlot bag slot = w₁ := Option.some.inj hstep
    subst heq
    exact h.setTradeItem hsession
  | accept p => exact h.noNewOffers hsession (noNewOffers_acceptTrade hstep)
  | initiate p guid tooFar =>
    exact h.noNewOffers hsession (Option.some.inj hstep ▸ noNewOffers_initiateTrade)
  | begin p tooFar =>
    exact h.noNewOffers hsession (Option.some.inj hstep ▸ noNewOffers_beginTrade)
  | busy p | ignore p => exact h.noNewOffers hsession (Option.some.inj hstep ▸ noNewOffers_declineTrade)
  | cancel p => exact h.noNewOffers hsession (Option.some.inj hstep ▸ noNewOffers_cancelTrade)
  | unaccept p =>
    exact h.noNewOffers hsession (Option.some.inj hstep ▸ noNewOffers_unacceptTrade)
  | setGold p gold =>
    exact h.noNewOffers hsession (Option.some.inj hstep ▸ noNewOffers_setTradeGold)
  | clearItem p tradeSlot =>
    exact h.noNewOffers hsession (Option.some.inj hstep ▸ noNewOffers_clearTradeItem)
  | leaveWorld p =>
    exact h.noNewOffers hsession (Option.some.inj hstep ▸ noNewOffers_removeFromWorld)
  | enterWorld p map =>
    refine h.noNewOffers hsession ?_
    rw [← Option.some.inj hstep]
    split
    · exact NoNewOffers.refl w
    · exact noNewOffers_setMap
  | other p coinage isDead items =>
    refine h.noNewOffers hsession ?_
    rw [← Option.some.inj hstep]
    have hno : w.NoNewOffers (w.setTrader p fun t => { t with coinage, isDead }) := by
      refine NoNewOffers.setTrader ?_ ?_
      · intro t
        rfl
      · intro t
        rfl
    exact ⟨hno.offers, hno.targets⟩

/-- In a run that leaves no partner behind, two partners offer every item
at most once. -/
theorem offers_distinct {w₀ : World} {es : List TradeEvent} (h₀ : w₀.NoTrades)
    (hrun : Run (Guarded KeepsPartner (PartialStep TradeEvent.step)) w₀ es w) (hpq : p ≠ q)
    (htarget : (w.players p).mTradeTarget = some q) : w.OffersDistinct p q := by
  have hinv : w.OffersInv := by
    refine hrun.invariant OffersInv ?_ h₀.offersInv
    intro v e v' hi hstep
    exact hi.step hstep.1 hstep.2
  exact hinv.distinct p q htarget hpq

end World

end HearthStone
