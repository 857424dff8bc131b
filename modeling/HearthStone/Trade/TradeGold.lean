/-
HearthStone.Trade.TradeGold — the gold of an exchange.

`HandleSetTradeGold` holds an offer against the coinage of the moment;
`HandleAcceptTrade` applies it later through `ModUnsigned32Value`, which
replaces what reads as negative by zero. The player pays first and is
paid second, the target the other way round. `PayReceive` and
`ReceivePay` say when such a pair of writes leaves the difference, over
the whole range of both fields, and `GoldFits` is the two of them.

* `payReceive_iff` / `receivePay_iff` — one side.
* `exact_iff_goldFits` — one completed exchange.
* `trade_gold_conserved` — every exchange of a run, whatever was spent or
  received in between.
-/
import HearthStone.Trade.TradeConsent

namespace HearthStone

open Lib

/-! ## One side of the exchange -/

/-- Paying `a` and then receiving `b` at a coinage `v` is not clamped. -/
def PayReceive (v a b : Nat) : Prop :=
  (a = 0 ∧ b = 0) ∨
    (a ≤ v + b ∧ v + b < a + 2 ^ 31 ∧
      (a ≤ v ∨ v + 2 ^ 31 < a ∨ (a = v + 2 ^ 31 ∧ b = 2 ^ 31)))

/-- Receiving `a` and then paying `b` at a coinage `v` is not clamped. -/
def ReceivePay (v a b : Nat) : Prop :=
  (a = 0 ∧ b = 0) ∨
    (b ≤ v + a ∧ v + a < b + 2 ^ 31 ∧
      (a = 0 ∨ v + a < 2 ^ 31 ∨ 2 ^ 32 ≤ v + a ∨ (v + a = 2 ^ 31 ∧ b = 2 ^ 31)))

theorem toNat_pos_of_ne_zero {a : UInt32} (ha : a ≠ 0) : 0 < a.toNat :=
  Nat.pos_of_ne_zero fun h => ha (UInt32.toNat_inj.mp h)

theorem payReceive_iff (v a b : UInt32) :
    (credit (debit v a) b).toNat + a.toNat = v.toNat + b.toNat ↔
      PayReceive v.toNat a.toNat b.toNat := by
  have ha' := a.toNat_lt
  unfold PayReceive
  by_cases ha : a = 0
  · subst ha
    rw [debit_zero]
    have hcredit := credit_exact_iff v b
    have hb : b = 0 ↔ b.toNat = 0 := by rw [← UInt32.toNat_inj]; rfl
    rw [hb] at hcredit
    simp only [UInt32.toNat_zero, true_and]
    omega
  have hapos := toNat_pos_of_ne_zero ha
  by_cases hb : b = 0
  · subst hb
    rw [credit_zero]
    have hdebit := debit_exact_iff v a
    simp only [ha, false_or] at hdebit
    simp only [UInt32.toNat_zero, and_true]
    omega
  rw [toNat_credit hb, toNat_debit ha]
  split <;> split <;> omega

theorem receivePay_iff (v a b : UInt32) :
    (debit (credit v a) b).toNat + b.toNat = v.toNat + a.toNat ↔
      ReceivePay v.toNat a.toNat b.toNat := by
  have hb' := b.toNat_lt
  unfold ReceivePay
  by_cases hb : b = 0
  · subst hb
    rw [debit_zero]
    have hcredit := credit_exact_iff v a
    have ha : a = 0 ↔ a.toNat = 0 := by rw [← UInt32.toNat_inj]; rfl
    rw [ha] at hcredit
    simp only [UInt32.toNat_zero, and_true]
    omega
  have hbpos := toNat_pos_of_ne_zero hb
  by_cases ha : a = 0
  · subst ha
    rw [credit_zero]
    have hdebit := debit_exact_iff v b
    simp only [hb, false_or] at hdebit
    simp only [UInt32.toNat_zero, true_and, true_or, and_true]
    omega
  have hapos := toNat_pos_of_ne_zero ha
  rw [toNat_debit hb, toNat_credit ha]
  split <;> split <;> omega

/-! ## The exchange -/

/-- Each side paid what it offered and received what the other offered. -/
structure GoldExchange.Exact (g : GoldExchange) : Prop where
  player : g.after.toNat + g.offered.toNat = g.before.toNat + g.targetOffered.toNat
  target : g.targetAfter.toNat + g.targetOffered.toNat = g.targetBefore.toNat + g.offered.toNat

/-- The sum of the two coinages is what it was. -/
def GoldExchange.SumKept (g : GoldExchange) : Prop :=
  g.after.toNat + g.targetAfter.toNat = g.before.toNat + g.targetBefore.toNat

theorem GoldExchange.Exact.sumKept {g : GoldExchange} (h : g.Exact) : g.SumKept := by
  have hp := h.player
  have ht := h.target
  unfold GoldExchange.SumKept
  omega

namespace World

variable {w w' : World} {p q x : PlayerGuid}

/-- Neither side of an exchange between `p` and `q` is clamped. -/
def GoldFits (w : World) (p q : PlayerGuid) : Prop :=
  PayReceive (w.players p).coinage.toNat (w.players p).mTradeGold.toNat
      (w.players q).mTradeGold.toNat ∧
    ReceivePay (w.players q).coinage.toNat (w.players p).mTradeGold.toNat
      (w.players q).mTradeGold.toNat

theorem coinage_moveGold (hpq : p ≠ q) :
    ((w.moveGold p q).players p).coinage =
        credit (debit (w.players p).coinage (w.players p).mTradeGold) (w.players q).mTradeGold ∧
      ((w.moveGold p q).players q).coinage =
        debit (credit (w.players q).coinage (w.players p).mTradeGold) (w.players q).mTradeGold := by
  have hqp : q ≠ p := hpq.symm
  unfold moveGold
  by_cases ha : (w.players p).mTradeGold = 0
  · by_cases hb : (w.players q).mTradeGold = 0
    · simp [ha, hb]
    · simp [ha, hb, players_setTrader_of_ne, hpq, hqp]
  · by_cases hb : (w.players q).mTradeGold = 0
    · simp [ha, hb, players_setTrader_of_ne, hpq, hqp]
    · simp [ha, hb, players_setTrader_of_ne, hpq, hqp]

/-- What the record of an exchange says of its gold. -/
theorem exact_iff_goldFits (hpq : p ≠ q) :
    (w.goldRecord (w.exchanged p q) p q).Exact ↔ w.GoldFits p q := by
  unfold exchanged
  obtain ⟨hp, hq⟩ := coinage_moveGold (w := { w with
    items := moveOffers p q (w.players p).mTradeItems (w.players q).mTradeItems w.items }) hpq
  constructor
  · intro h
    have hplayer := h.player
    have htarget := h.target
    simp only [goldRecord, hp, hq] at hplayer htarget
    exact ⟨(payReceive_iff _ _ _).1 hplayer, (receivePay_iff _ _ _).1 htarget⟩
  · intro h
    constructor
    · simp only [goldRecord, hp]
      exact (payReceive_iff _ _ _).2 h.1
    · simp only [goldRecord, hq]
      exact (receivePay_iff _ _ _).2 h.2

/-! ## One accept -/

theorem coinage_reset :
    ((w.resetTradeVariables p).players x).coinage = (w.players x).coinage := by
  unfold resetTradeVariables
  rw [players_record]
  exact field_setTrader Trader.coinage

theorem coinage_setAccepted :
    ((w.setAccepted p).players x).coinage = (w.players x).coinage := by
  unfold World.setAccepted
  rw [players_record]
  exact field_setTrader Trader.coinage

theorem gold_setAccepted :
    ((w.setAccepted p).players x).mTradeGold = (w.players x).mTradeGold := by
  unfold World.setAccepted
  rw [players_record]
  exact field_setTrader Trader.mTradeGold

theorem exchangesWith_of_ready (hpq : w.getTradeTarget p = some q)
    (hq : ((w.setAccepted p).players q).mTradeStatus = .accepted)
    (hready : (w.setAccepted p).exchangeReady p q = true) : w.exchangesWith p = some q := by
  have htarget : (w.players p).mTradeTarget = some q := (getPlayer_eq_some hpq).1
  unfold exchangesWith
  rw [if_neg (by simp [htarget]), hpq]
  simp [hq, hready]

/-- An accept exchanges with the partner and resets both, or moves no item
and logs no exchange. -/
theorem acceptTrade_cases (h : w.acceptTrade p = some w') :
    (∃ q, w.exchangesWith p = some q ∧
      w' = (((w.setAccepted p).exchange p q).resetTradeVariables p).resetTradeVariables q) ∨
    (w.exchangesWith p = none ∧ w'.items = w.items ∧
      ∀ g, .exchange g ∈ w'.log → .exchange g ∈ w.log) := by
  unfold World.acceptTrade at h
  split at h
  · rename_i hidle
    right
    rw [← Option.some.inj h]
    refine ⟨?_, rfl, fun g hg => hg⟩
    unfold exchangesWith getTradeTarget getPlayer
    rcases hidle with hout | hnone
    · simp [hout]
    · simp [hnone]
  · cases hpq : w.getTradeTarget p with
    | none => simp [hpq] at h
    | some q =>
      simp only [hpq] at h
      by_cases hq : ((w.setAccepted p).players q).mTradeStatus = .accepted
      · by_cases hready : (w.setAccepted p).exchangeReady p q = true
        · left
          rw [if_pos hq, if_pos hready] at h
          exact ⟨q, exchangesWith_of_ready hpq hq hready, (Option.some.inj h).symm⟩
        · right
          rw [if_pos hq, if_neg hready] at h
          rw [← Option.some.inj h]
          refine ⟨by simp [exchangesWith, hpq, hready], rfl, ?_⟩
          intro g hg
          simpa [resetTradeVariables, World.setAccepted, record, setTrader] using hg
      · right
        rw [if_neg hq] at h
        rw [← Option.some.inj h]
        refine ⟨by simp [exchangesWith, hpq, hq], rfl, ?_⟩
        intro g hg
        simpa [World.setAccepted, record, setTrader] using hg

/-- A record reads the coinages and the offered gold only. -/
theorem goldRecord_congr {v v' : World}
    (hgold : ∀ x, (v.players x).mTradeGold = (w.players x).mTradeGold)
    (hcoin : ∀ x, (v.players x).coinage = (w.players x).coinage)
    (hcoin' : ∀ x, (v'.players x).coinage = (w'.players x).coinage) :
    v.goldRecord v' p q = w.goldRecord w' p q := by
  unfold goldRecord
  rw [hgold, hgold, hcoin, hcoin, hcoin', hcoin']

theorem goldFits_setAccepted : (w.setAccepted x).GoldFits p q ↔ w.GoldFits p q := by
  unfold GoldFits
  simp only [coinage_setAccepted, gold_setAccepted]

/-- The record an accept logs is of the coinages before and after it. -/
theorem exchange_recorded (hex : w.exchangesWith p = some q) (h : w.acceptTrade p = some w') :
    w.goldRecord w' p q =
        (w.setAccepted p).goldRecord ((w.setAccepted p).exchanged p q) p q ∧
      w'.log =
        w.log ++ [.accept p, .exchange (w.goldRecord w' p q), .revoke p, .revoke q] := by
  rcases acceptTrade_cases h with ⟨q', hex', rfl⟩ | ⟨hnone, -⟩
  · obtain rfl : q' = q := Option.some.inj (hex'.symm.trans hex)
    have hrecord : w.goldRecord
          ((((w.setAccepted p).exchange p q').resetTradeVariables p).resetTradeVariables q') p q' =
        (w.setAccepted p).goldRecord ((w.setAccepted p).exchanged p q') p q' := by
      symm
      refine goldRecord_congr (fun x => gold_setAccepted) (fun x => coinage_setAccepted) ?_
      intro x
      rw [coinage_reset, coinage_reset]
      rfl
    refine ⟨hrecord, ?_⟩
    rw [hrecord]
    calc ((((w.setAccepted p).exchange p q').resetTradeVariables p).resetTradeVariables q').log
        = (((w.setAccepted p).exchange p q').log ++ [.revoke p]) ++ [.revoke q'] := rfl
      _ = _ := by
        rw [log_exchange]
        simp [World.setAccepted, record, setTrader]
  · rw [hnone] at hex
    cases hex

/-- The accept that exchanges is exact when neither side is clamped. -/
theorem exchange_exact_iff (hpq : p ≠ q) (hex : w.exchangesWith p = some q)
    (h : w.acceptTrade p = some w') : (w.goldRecord w' p q).Exact ↔ w.GoldFits p q := by
  rw [(exchange_recorded hex h).1, exact_iff_goldFits hpq, goldFits_setAccepted]

/-! ## Every exchange of a run -/

/-- The step performs no exchange, or one whose two sides are not clamped. -/
def KeepsGold (w : World) : TradeEvent → Prop
  | .accept p => ∀ q, w.exchangesWith p = some q → p ≠ q → w.GoldFits p q
  | _ => True

/-- Every exchange in the log between two players was exact. -/
def ExchangesExact (log : List TradeEntry) : Prop :=
  ∀ g, .exchange g ∈ log → g.player ≠ g.target → g.Exact ∧ g.SumKept

theorem ExchangesExact.mono {log log' : List TradeEntry} (h : ExchangesExact log)
    (hsub : ∀ g, .exchange g ∈ log' → .exchange g ∈ log) : ExchangesExact log' :=
  fun g hg => h g (hsub g hg)

theorem Keeps.exchange_mem (h : w.Keeps w') {g : GoldExchange} (hg : .exchange g ∈ w'.log) :
    .exchange g ∈ w.log := by
  obtain ⟨es, hlog, hrev, -⟩ := h
  rw [hlog, List.mem_append] at hg
  refine hg.resolve_right ?_
  intro hes
  obtain ⟨y, hy⟩ := hrev _ hes
  cases hy

theorem ChangesOffer.exchange_mem (h : w' = w ∨ w.ChangesOffer p w') {g : GoldExchange}
    (hg : .exchange g ∈ w'.log) : .exchange g ∈ w.log := by
  rcases h with rfl | h
  · exact hg
  · rw [h.log] at hg
    simpa using hg

theorem exchangesExact_accept (hi : ExchangesExact w.log)
    (hok : ∀ q, w.exchangesWith p = some q → p ≠ q → w.GoldFits p q)
    (h : w.acceptTrade p = some w') : ExchangesExact w'.log := by
  rcases acceptTrade_cases h with ⟨q, hex, heq⟩ | ⟨-, -, hsub⟩
  · intro g hg hne
    have hrecorded : .exchange g ∈ w.log ∨ g = w.goldRecord w' p q := by
      rw [(exchange_recorded hex h).2] at hg
      simpa using hg
    rcases hrecorded with hg | rfl
    · exact hi g hg hne
    · have hexact := (exchange_exact_iff hne hex h).2 (hok q hex hne)
      exact ⟨hexact, hexact.sumKept⟩
  · exact hi.mono hsub

theorem exchangesExact_step (hi : ExchangesExact w.log) {e : TradeEvent} (hok : w.KeepsGold e)
    (hstep : e.step w = some w') : ExchangesExact w'.log := by
  have hkeeps : ∀ {v : World}, w.Keeps v → ExchangesExact v.log :=
    fun h => hi.mono fun g => h.exchange_mem
  have hoffer : ∀ {v : World} {x : PlayerGuid}, v = w ∨ w.ChangesOffer x v →
      ExchangesExact v.log := fun h => hi.mono fun g => ChangesOffer.exchange_mem h
  cases e with
  | initiate p guid tooFar => exact Option.some.inj hstep ▸ hkeeps keeps_initiateTrade
  | begin p tooFar => exact Option.some.inj hstep ▸ hkeeps keeps_beginTrade
  | busy p => exact Option.some.inj hstep ▸ hkeeps keeps_declineTrade
  | ignore p => exact Option.some.inj hstep ▸ hkeeps keeps_declineTrade
  | cancel p => exact Option.some.inj hstep ▸ hkeeps keeps_cancelTrade
  | unaccept p => exact Option.some.inj hstep ▸ hkeeps keeps_unacceptTrade
  | setItem p tradeSlot bag slot =>
    exact Option.some.inj hstep ▸ hoffer changesOffer_setTradeItem
  | setGold p gold => exact Option.some.inj hstep ▸ hoffer changesOffer_setTradeGold
  | clearItem p tradeSlot => exact Option.some.inj hstep ▸ hoffer changesOffer_clearTradeItem
  | accept p => exact exchangesExact_accept hi hok hstep
  | leaveWorld p => exact Option.some.inj hstep ▸ hkeeps keeps_removeFromWorld
  | enterWorld p map =>
    rw [← Option.some.inj hstep]
    split
    · exact hi
    · exact hi
  | other p coinage isDead items =>
    rw [← Option.some.inj hstep]
    exact hi

/-- An exchange between two players moves exactly the offered gold of
each, and so keeps the sum of their coinages, precisely when neither side
is clamped; and in every run whose exchanges are not clamped, with any
coin spent or received between the opcodes, every exchange did so. -/
theorem trade_gold_conserved (w : World) :
    (∀ (w' : World) (p q : PlayerGuid), p ≠ q → w.exchangesWith p = some q →
      w.acceptTrade p = some w' → ((w.goldRecord w' p q).Exact ↔ w.GoldFits p q)) ∧
    ∀ (w₀ : World) (es : List TradeEvent), (∀ g, .exchange g ∉ w₀.log) →
      Run (Guarded KeepsGold (PartialStep TradeEvent.step)) w₀ es w →
        ∀ g, .exchange g ∈ w.log → g.player ≠ g.target → g.Exact ∧ g.SumKept := by
  refine ⟨fun w' p q hpq hex h => exchange_exact_iff hpq hex h, ?_⟩
  intro w₀ es h₀ hrun
  have hstart : ExchangesExact w₀.log := fun g hg => absurd hg (h₀ g)
  exact hrun.invariant (fun v => ExchangesExact v.log)
    (fun _ _ _ hi hs => exchangesExact_step hi hs.1 hs.2) hstart

/-! ### Coin spent between the offer and the exchange -/

theorem idleWorld_noExchange (g : GoldExchange) : TradeEntry.exchange g ∉ idleWorld.log := by
  simp [idleWorld]

/-- Alice offers her hundred copper and spends them; after the exchange
Bob has two hundred and Alice none. -/
theorem offered_gold_spent :
    ¬ ∀ (w₀ w : World) (es : List TradeEvent), w₀.NoTrades → (∀ g, .exchange g ∉ w₀.log) →
      Run (PartialStep TradeEvent.step) w₀ es w →
        ∀ g, .exchange g ∈ w.log → g.player ≠ g.target → g.SumKept := by
  intro hall
  have hsum := hall idleWorld _ [.initiate alice (some bob) false, .begin bob false,
    .setGold alice 100, .other alice 0 false idleWorld.items, .accept alice, .accept bob]
    idleWorld_noTrades idleWorld_noExchange
    (.cons rfl (.cons rfl (.cons rfl (.cons rfl (.cons rfl (.cons rfl (.nil _)))))))
    ⟨bob, alice, 0, 100, 100, 0, 200, 0⟩ (by decide) (by decide)
  exact absurd hsum (by unfold GoldExchange.SumKept; decide)

/-- Alice pays a hundred copper for fifty of Bob's. -/
theorem trade_gold_conserved_both_ways :
    ∃ w, Run (Guarded KeepsGold (PartialStep TradeEvent.step)) idleWorld
      [.initiate alice (some bob) false, .begin bob false, .setGold alice 100, .setGold bob 50,
        .accept alice, .accept bob] w ∧
      ∀ g, .exchange g ∈ w.log → g.player ≠ g.target → g.Exact ∧ g.SumKept := by
  have hrun : ∃ w, Run (Guarded KeepsGold (PartialStep TradeEvent.step)) idleWorld
      [.initiate alice (some bob) false, .begin bob false, .setGold alice 100, .setGold bob 50,
        .accept alice, .accept bob] w := by
    refine ⟨_, .cons ⟨trivial, rfl⟩ (.cons ⟨trivial, rfl⟩ (.cons ⟨trivial, rfl⟩
      (.cons ⟨trivial, rfl⟩ (.cons ⟨?_, rfl⟩ (.cons ⟨?_, rfl⟩ (.nil _))))))⟩
    · -- Bob has not accepted yet
      intro q hex
      exact absurd (show none = some q from hex) (by simp)
    · intro q hex _
      obtain rfl : alice = q := Option.some.inj hex
      exact ⟨Or.inr (by decide), Or.inr (by decide)⟩
  obtain ⟨w, hrun⟩ := hrun
  exact ⟨w, hrun, (trade_gold_conserved w).2 _ _ idleWorld_noExchange hrun⟩

end World

end HearthStone
