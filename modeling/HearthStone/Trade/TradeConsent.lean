/-
HearthStone.Trade.TradeConsent — what an acceptance stands for when the
exchange takes place.

The acceptance of a player is its trade status. A status is overwritten
by an unaccept or a begin of either side, by an initiate that involves
the player and by every reset; the three handlers that change an offer
do not touch it. So at every exchange both acceptances are later than
whatever revokes them, and may be older than the offers they are read
for: they are later than those too in a run that changes no offer while
either side stands accepted.

* `Spoiler`, `Agreed` — what an acceptance is required to be later than.
* `Keeps` — what a handler of the session appends to the log, against the
  acceptances it leaves standing.
* `ConsentInv` — standing acceptances are in the log unspoiled.
-/
import HearthStone.Lib.Trace
import HearthStone.Trade.TradeSession

namespace HearthStone

open Lib

/-! ## Acceptances in the log -/

/-- The entries that spoil an acceptance by a player with this partner. -/
abbrev Spoiler := PlayerGuid → Option PlayerGuid → TradeEntry → Prop

/-- The acceptance itself was revoked. -/
def revoked : Spoiler := fun x _ a => a = .revoke x

/-- One of the two offers was changed. -/
def reoffered : Spoiler := fun x partner a => a = .offer x ∨ ∃ y, partner = some y ∧ a = .offer y

/-- An exchange finds both sides accepted since the last entry that spoils. -/
def Agreed (sp : Spoiler) (before : List TradeEntry) (a : TradeEntry) : Prop :=
  ∀ g, a = .exchange g → Since (.accept g.player) (sp g.player (some g.target)) before ∧
    Since (.accept g.target) (sp g.target (some g.player)) before

/-- A revocation spoils the revoked acceptance only, and acceptances and
exchanges spoil nothing. -/
structure Spoiler.Fair (sp : Spoiler) : Prop where
  revoke : ∀ x partner y, sp x partner (.revoke y) → y = x
  accept : ∀ x partner y, ¬ sp x partner (.accept y)
  exchange : ∀ x partner g, ¬ sp x partner (.exchange g)

theorem revoked_fair : Spoiler.Fair revoked where
  revoke := by
    intro x partner y h
    injection h
  accept := by
    intro x partner y h
    injection h
  exchange := by
    intro x partner g h
    injection h

theorem reoffered_fair : Spoiler.Fair reoffered where
  revoke := by
    intro x partner y h
    simp [reoffered] at h
  accept := by
    intro x partner y h
    simp [reoffered] at h
  exchange := by
    intro x partner g h
    simp [reoffered] at h

namespace World

variable {w w' w'' : World} {p q x : PlayerGuid} {sp : Spoiler}

def HasAccepted (w : World) (x : PlayerGuid) : Prop := (w.players x).mTradeStatus = .accepted

/-- Standing acceptances are in the log unspoiled, and so were those of
every exchange. -/
structure ConsentInv (sp : Spoiler) (w : World) : Prop where
  standing : ∀ x, w.HasAccepted x → Since (.accept x) (sp x (w.players x).mTradeTarget) w.log
  exchanges : Upheld (Agreed sp) w.log

/-- `w'` has what `w` logged and further revocations; whoever stands
accepted in it stood accepted, has its partner still and was not revoked. -/
def Keeps (w w' : World) : Prop :=
  ∃ es, w'.log = w.log ++ es ∧ (∀ a ∈ es, ∃ y, a = .revoke y) ∧
    ∀ x, w'.HasAccepted x → w.HasAccepted x ∧
      (w'.players x).mTradeTarget = (w.players x).mTradeTarget ∧ .revoke x ∉ es

theorem Keeps.refl (w : World) : w.Keeps w :=
  ⟨[], by simp, by simp, fun _ hx => ⟨hx, rfl, by simp⟩⟩

theorem Keeps.trans (h₁ : w.Keeps w') (h₂ : w'.Keeps w'') : w.Keeps w'' := by
  obtain ⟨es, hlog, hrev, hacc⟩ := h₁
  obtain ⟨fs, hlog', hrev', hacc'⟩ := h₂
  refine ⟨es ++ fs, by rw [hlog', hlog, List.append_assoc], ?_, ?_⟩
  · intro a ha
    exact (List.mem_append.1 ha).elim (hrev a) (hrev' a)
  · intro x hx
    obtain ⟨hx', htarget', hnot'⟩ := hacc' x hx
    obtain ⟨hx'', htarget, hnot⟩ := hacc x hx'
    refine ⟨hx'', htarget'.trans htarget, ?_⟩
    rw [List.mem_append, not_or]
    exact ⟨hnot, hnot'⟩

theorem Keeps.consentInv (hsp : sp.Fair) (h : w.Keeps w') (hi : w.ConsentInv sp) :
    w'.ConsentInv sp := by
  obtain ⟨es, hlog, hrev, hacc⟩ := h
  constructor
  · intro x hx
    obtain ⟨hx', htarget, hnot⟩ := hacc x hx
    rw [hlog, htarget]
    refine (hi.standing x hx').append ?_
    intro a ha hspoil
    obtain ⟨y, rfl⟩ := hrev a ha
    exact hnot (hsp.revoke x _ y hspoil ▸ ha)
  · rw [hlog]
    refine hi.exchanges.append ?_
    intro before e after heq g hg
    obtain ⟨y, hy⟩ := hrev e (heq ▸ by simp)
    rw [hy] at hg
    cases hg

/-! ## The pieces of the handlers -/

/-- A status other than accepted, logged as a revocation. -/
theorem Keeps.revoke {f : Trader → Trader} (hs : ∀ t, (f t).mTradeStatus ≠ .accepted) :
    w.Keeps ((w.setTrader p f).record [.revoke p]) := by
  refine ⟨[.revoke p], rfl, fun a ha => ⟨p, by simpa using ha⟩, ?_⟩
  intro x hx
  unfold HasAccepted at hx ⊢
  rw [players_record] at hx ⊢
  by_cases hxp : x = p
  · rw [hxp, players_setTrader_self] at hx
    exact absurd hx (hs _)
  · rw [players_setTrader_of_ne _ hxp] at hx ⊢
    exact ⟨hx, rfl, by simpa using hxp⟩

theorem keeps_reset : w.Keeps (w.resetTradeVariables p) := Keeps.revoke fun _ => by simp

theorem keeps_setStatus {s : TradeStatus} (hs : s ≠ .accepted) : w.Keeps (w.setStatus p s) :=
  Keeps.revoke fun _ => hs

/-- A write to neither the status nor the partner. -/
theorem Keeps.frame (hlog : w'.log = w.log)
    (hs : ∀ x, (w'.players x).mTradeStatus = (w.players x).mTradeStatus)
    (ht : ∀ x, (w'.players x).mTradeTarget = (w.players x).mTradeTarget) : w.Keeps w' := by
  refine ⟨[], by rw [hlog, List.append_nil], by simp, ?_⟩
  intro x hx
  unfold HasAccepted at hx ⊢
  rw [hs] at hx
  exact ⟨hx, ht x, by simp⟩

/-- A partner is written to a player who does not stand accepted. -/
theorem keeps_setTarget {t : Option PlayerGuid} (hp : ¬ w.HasAccepted p) :
    w.Keeps (w.setTrader p fun v => { v with mTradeTarget := t }) := by
  refine ⟨[], by simp [setTrader], by simp, ?_⟩
  intro x hx
  have hstatus : ((w.setTrader p fun v => { v with mTradeTarget := t }).players x).mTradeStatus =
      (w.players x).mTradeStatus := field_setTrader Trader.mTradeStatus
  unfold HasAccepted at hx
  rw [hstatus] at hx
  have hxp : x ≠ p := fun h => hp (h ▸ hx)
  exact ⟨hx, by rw [players_setTrader_of_ne _ hxp], by simp⟩

/-- An entry that spoils no standing acceptance. -/
theorem ConsentInv.append (hi : w.ConsentInv sp) {a : TradeEntry} (hlog : w'.log = w.log ++ [a])
    (hs : ∀ x, (w'.players x).mTradeStatus = (w.players x).mTradeStatus)
    (ht : ∀ x, (w'.players x).mTradeTarget = (w.players x).mTradeTarget)
    (hclean : ∀ x, w.HasAccepted x → ¬ sp x (w.players x).mTradeTarget a)
    (hagreed : Agreed sp w.log a) : w'.ConsentInv sp := by
  constructor
  · intro x hx
    unfold HasAccepted at hx
    rw [hs] at hx
    rw [hlog, ht]
    refine (hi.standing x hx).append ?_
    intro b hb
    rw [List.mem_singleton.1 hb]
    exact hclean x hx
  · rw [hlog]
    exact hi.exchanges.snoc hagreed

theorem ConsentInv.setAccepted (hsp : sp.Fair) (hi : w.ConsentInv sp) :
    (w.setAccepted p).ConsentInv sp := by
  constructor
  · intro x hx
    by_cases hxp : x = p
    · rw [hxp]
      exact since_snoc w.log
    · unfold HasAccepted World.setAccepted at hx
      rw [players_record, players_setTrader_of_ne _ hxp] at hx
      rw [target_setAccepted]
      refine (hi.standing x hx).append ?_
      intro b hb
      rw [List.mem_singleton.1 hb]
      exact hsp.accept x _ p
  · refine hi.exchanges.snoc ?_
    intro g hg
    cases hg

/-- What the exchange leaves before it is logged. -/
def exchanged (w : World) (p q : PlayerGuid) : World :=
  ({ w with items := moveOffers p q (w.players p).mTradeItems (w.players q).mTradeItems w.items } :
    World).moveGold p q

theorem log_moveGold : (w.moveGold p q).log = w.log := by
  unfold moveGold
  dsimp only
  split <;> split <;> rfl

/-- The exchange logs its record after everything that came before. -/
theorem log_exchange :
    (w.exchange p q).log = w.log ++ [.exchange (w.goldRecord (w.exchanged p q) p q)] := by
  unfold World.exchange record
  dsimp only
  rw [log_moveGold]
  rfl

/-- The exchange of two players whose acceptances stand for each other. -/
theorem ConsentInv.exchange (hsp : sp.Fair) (hi : w.ConsentInv sp)
    (hp : Since (.accept p) (sp p (some q)) w.log) (hq : Since (.accept q) (sp q (some p)) w.log) :
    (w.exchange p q).ConsentInv sp := by
  refine hi.append log_exchange (fun x => field_exchange Trader.mTradeStatus fun _ _ => rfl)
    (fun x => field_exchange Trader.mTradeTarget fun _ _ => rfl)
    (fun x _ => hsp.exchange x _ _) ?_
  intro g hg
  injection hg with hg
  rw [← hg]
  exact ⟨hp, hq⟩

/-! ## The handlers of the session -/

theorem keeps_openTrade : w.Keeps (w.openTrade p q) := by
  have hreset : w.Keeps ((w.resetTradeVariables p).resetTradeVariables q) :=
    keeps_reset.trans keeps_reset
  unfold openTrade
  refine (Keeps.trans ?_ (keeps_setStatus (by simp))).trans (keeps_setStatus (by simp))
  refine (hreset.trans (keeps_setTarget ?_)).trans (keeps_setTarget ?_)
  · simp [HasAccepted]
  · unfold HasAccepted
    rw [field_setTrader Trader.mTradeStatus]
    simp

theorem keeps_initiateTrade {guid : Option PlayerGuid} {tooFar : Bool} :
    w.Keeps (w.initiateTrade p guid tooFar) := by
  unfold initiateTrade
  split
  · exact Keeps.refl w
  dsimp only
  split
  · exact keeps_reset
  split
  · exact keeps_reset
  · exact keeps_openTrade

theorem keeps_beginTrade {tooFar : Bool} : w.Keeps (w.beginTrade p tooFar) := by
  unfold beginTrade
  split
  · exact keeps_reset
  split
  · exact keeps_reset
  · exact (keeps_setStatus (by simp)).trans (keeps_setStatus (by simp))

theorem keeps_declineTrade : w.Keeps (w.declineTrade p) := by
  unfold declineTrade
  split
  · exact Keeps.refl w
  · exact keeps_reset

theorem keeps_cancelTrade : w.Keeps (w.cancelTrade p) := by
  unfold cancelTrade
  split
  · exact Keeps.refl w
  split
  · exact keeps_reset
  split
  · exact keeps_reset
  · exact keeps_reset.trans keeps_reset

theorem keeps_unacceptTrade : w.Keeps (w.unacceptTrade p) := by
  unfold unacceptTrade
  split
  · exact Keeps.refl w
  split
  · exact keeps_reset
  · exact (keeps_setStatus (by simp)).trans (keeps_setStatus (by simp))

/-- The player's map, coinage, life or the items: no write of the session. -/
theorem keeps_setTrader {f : Trader → Trader} (hs : ∀ t, (f t).mTradeStatus = t.mTradeStatus)
    (ht : ∀ t, (f t).mTradeTarget = t.mTradeTarget) : w.Keeps (w.setTrader p f) :=
  Keeps.frame rfl (fun _ => field_setTrader Trader.mTradeStatus hs)
    fun _ => field_setTrader Trader.mTradeTarget ht

theorem keeps_setMap {m : Option Nat} :
    w.Keeps (w.setTrader p fun t => { t with mapMgr := m }) := by
  refine keeps_setTrader ?_ ?_
  · intro t
    rfl
  · intro t
    rfl

theorem keeps_removeFromWorld : w.Keeps (w.removeFromWorld p) := by
  unfold removeFromWorld
  refine Keeps.trans ?_ keeps_setMap
  split
  · exact Keeps.refl w
  split
  · exact keeps_reset
  · exact keeps_reset.trans keeps_reset

/-! ## The handlers of the offers -/

/-- An offer handler does nothing, or logs the change and writes neither
the status nor the partner of anybody. -/
structure ChangesOffer (w : World) (p : PlayerGuid) (w' : World) : Prop where
  log : w'.log = w.log ++ [.offer p]
  status : ∀ x, (w'.players x).mTradeStatus = (w.players x).mTradeStatus
  target : ∀ x, (w'.players x).mTradeTarget = (w.players x).mTradeTarget

theorem changesOffer_setTrader {f : Trader → Trader}
    (hs : ∀ t, (f t).mTradeStatus = t.mTradeStatus)
    (ht : ∀ t, (f t).mTradeTarget = t.mTradeTarget) :
    w.ChangesOffer p ((w.setTrader p f).record [.offer p]) where
  log := rfl
  status := by
    intro x
    rw [players_record, field_setTrader Trader.mTradeStatus hs]
  target := by
    intro x
    rw [players_record, field_setTrader Trader.mTradeTarget ht]

theorem changesOffer_setTradeItem {tradeSlot : UInt8} {bag slot : Int} :
    w.setTradeItem p tradeSlot bag slot = w ∨
      w.ChangesOffer p (w.setTradeItem p tradeSlot bag slot) := by
  unfold setTradeItem
  split
  · exact Or.inl rfl
  split
  · exact Or.inl rfl
  split
  · split
    · exact Or.inl rfl
    split
    · exact Or.inl rfl
    split
    · exact Or.inl rfl
    refine Or.inr (changesOffer_setTrader ?_ ?_)
    · intro t
      rfl
    · intro t
      rfl
  · exact Or.inl rfl

theorem changesOffer_setTradeGold {gold : UInt32} :
    w.setTradeGold p gold = w ∨ w.ChangesOffer p (w.setTradeGold p gold) := by
  unfold setTradeGold
  split
  · exact Or.inl rfl
  split
  · exact Or.inl rfl
  refine Or.inr (changesOffer_setTrader ?_ ?_)
  · intro t
    rfl
  · intro t
    rfl

theorem changesOffer_clearTradeItem {tradeSlot : UInt8} :
    w.clearTradeItem p tradeSlot = w ∨ w.ChangesOffer p (w.clearTradeItem p tradeSlot) := by
  unfold clearTradeItem
  split
  · exact Or.inl rfl
  split
  · refine Or.inr (changesOffer_setTrader ?_ ?_)
    · intro t
      rfl
    · intro t
      rfl
  · exact Or.inl rfl

theorem ConsentInv.offer (hi : w.ConsentInv sp) (h : w' = w ∨ w.ChangesOffer p w')
    (hclean : ∀ x, w.HasAccepted x → ¬ sp x (w.players x).mTradeTarget (.offer p)) :
    w'.ConsentInv sp := by
  rcases h with rfl | h
  · exact hi
  · refine hi.append h.log h.status h.target hclean ?_
    intro g hg
    cases hg

theorem hasAccepted_offer (h : w' = w ∨ w.ChangesOffer p w') :
    w'.HasAccepted x ↔ w.HasAccepted x := by
  rcases h with rfl | h
  · exact Iff.rfl
  · unfold HasAccepted
    rw [h.status]

/-! ## Steps and runs -/

/-- What a step must not do for the acceptances to be later than `sp`:
spoil a standing one, or exchange with a partner who accepted another. -/
def Respects (sp : Spoiler) (w : World) : TradeEvent → Prop
  | .setItem p _ _ _ => ∀ x, w.HasAccepted x → ¬ sp x (w.players x).mTradeTarget (.offer p)
  | .setGold p _ => ∀ x, w.HasAccepted x → ¬ sp x (w.players x).mTradeTarget (.offer p)
  | .clearItem p _ => ∀ x, w.HasAccepted x → ¬ sp x (w.players x).mTradeTarget (.offer p)
  | .accept p => ∀ q, w.getTradeTarget p = some q → ∀ a, sp q (some p) a →
      sp q (w.players q).mTradeTarget a
  | _ => True

theorem ConsentInv.acceptTrade (hsp : sp.Fair) (hi : w.ConsentInv sp)
    (hok : ∀ q, w.getTradeTarget p = some q → ∀ a, sp q (some p) a →
      sp q (w.players q).mTradeTarget a)
    (hstep : w.acceptTrade p = some w') : w'.ConsentInv sp := by
  unfold World.acceptTrade at hstep
  split at hstep
  · exact Option.some.inj hstep ▸ hi
  · cases hpq : w.getTradeTarget p with
    | none => simp [hpq] at hstep
    | some q =>
      simp only [hpq] at hstep
      have hacc : (w.setAccepted p).ConsentInv sp := hi.setAccepted hsp
      split at hstep
      · rename_i hq
        have hp : Since (.accept p) (sp p (some q)) (w.setAccepted p).log := since_snoc w.log
        have hq' : Since (.accept q) (sp q (some p)) (w.setAccepted p).log := by
          refine (hacc.standing q hq).mono ?_
          intro a ha
          rw [target_setAccepted]
          exact hok q hpq a ha
        rw [← Option.some.inj hstep]
        refine (keeps_reset.trans keeps_reset).consentInv hsp ?_
        split
        · exact hacc.exchange hsp hp hq'
        · exact hacc
      · exact Option.some.inj hstep ▸ hacc

theorem ConsentInv.step (hsp : sp.Fair) (hi : w.ConsentInv sp) {e : TradeEvent}
    (hok : w.Respects sp e) (hstep : e.step w = some w') : w'.ConsentInv sp := by
  cases e with
  | initiate p guid tooFar => exact Option.some.inj hstep ▸ keeps_initiateTrade.consentInv hsp hi
  | begin p tooFar => exact Option.some.inj hstep ▸ keeps_beginTrade.consentInv hsp hi
  | busy p => exact Option.some.inj hstep ▸ keeps_declineTrade.consentInv hsp hi
  | ignore p => exact Option.some.inj hstep ▸ keeps_declineTrade.consentInv hsp hi
  | cancel p => exact Option.some.inj hstep ▸ keeps_cancelTrade.consentInv hsp hi
  | unaccept p => exact Option.some.inj hstep ▸ keeps_unacceptTrade.consentInv hsp hi
  | setItem p tradeSlot bag slot =>
    exact Option.some.inj hstep ▸ hi.offer changesOffer_setTradeItem hok
  | setGold p gold => exact Option.some.inj hstep ▸ hi.offer changesOffer_setTradeGold hok
  | clearItem p tradeSlot =>
    exact Option.some.inj hstep ▸ hi.offer changesOffer_clearTradeItem hok
  | accept p => exact hi.acceptTrade hsp hok hstep
  | leaveWorld p => exact Option.some.inj hstep ▸ keeps_removeFromWorld.consentInv hsp hi
  | enterWorld p map =>
    rw [← Option.some.inj hstep]
    split
    · exact hi
    · exact keeps_setMap.consentInv hsp hi
  | other p coinage isDead items =>
    rw [← Option.some.inj hstep]
    have hkeep : w.Keeps (w.setTrader p fun t => { t with coinage, isDead }) := by
      refine keeps_setTrader ?_ ?_
      · intro t
        rfl
      · intro t
        rfl
    have hi' := hkeep.consentInv hsp hi
    exact ⟨hi'.standing, hi'.exchanges⟩

/-- Nobody stands accepted and nothing has been seen. -/
def NoAccepts (w : World) : Prop := (∀ x, ¬ w.HasAccepted x) ∧ w.log = []

theorem NoAccepts.consentInv (h : w.NoAccepts) : w.ConsentInv sp where
  standing := fun x hx => absurd hx (h.1 x)
  exchanges := by
    rw [h.2]
    exact upheld_nil

theorem ConsentInv.run (hsp : sp.Fair) {w₀ : World} {es : List TradeEvent} (h₀ : w₀.NoAccepts)
    (hrun : Run (Guarded (Respects sp) (PartialStep TradeEvent.step)) w₀ es w) :
    w.ConsentInv sp :=
  hrun.invariant (fun v => v.ConsentInv sp) (fun _ _ _ hi hs => hi.step hsp hs.1 hs.2)
    h₀.consentInv

/-- Revocations are the only thing an acceptance is bound to outlive. -/
theorem respects_revoked (e : TradeEvent) : w.Respects revoked e := by
  cases e with
  | setItem p tradeSlot bag slot =>
    intro x _ h
    cases h
  | setGold p gold =>
    intro x _ h
    cases h
  | clearItem p tradeSlot =>
    intro x _ h
    cases h
  | accept p =>
    intro q _ a ha
    exact ha
  | _ => trivial

/-- No offer is changed while its player, or somebody whose partner that
player is, stands accepted, and partners who accept are mutual. -/
def OffersSettled (w : World) : TradeEvent → Prop
  | .setItem p _ _ _ => ∀ x, x = p ∨ (w.players x).mTradeTarget = some p → ¬ w.HasAccepted x
  | .setGold p _ => ∀ x, x = p ∨ (w.players x).mTradeTarget = some p → ¬ w.HasAccepted x
  | .clearItem p _ => ∀ x, x = p ∨ (w.players x).mTradeTarget = some p → ¬ w.HasAccepted x
  | .accept p => ∀ q, w.getTradeTarget p = some q → (w.players q).mTradeTarget = some p
  | _ => True

theorem not_reoffered_of_settled
    (h : ∀ x, x = p ∨ (w.players x).mTradeTarget = some p → ¬ w.HasAccepted x) :
    ∀ x, w.HasAccepted x → ¬ reoffered x (w.players x).mTradeTarget (.offer p) := by
  rintro x hx (heq | ⟨y, hy, heq⟩)
  · injection heq with heq
    exact h x (Or.inl heq.symm) hx
  · injection heq with heq
    exact h x (Or.inr (heq ▸ hy)) hx

theorem OffersSettled.respects {e : TradeEvent} (h : w.OffersSettled e) :
    w.Respects reoffered e := by
  cases e with
  | setItem p tradeSlot bag slot => exact not_reoffered_of_settled h
  | setGold p gold => exact not_reoffered_of_settled h
  | clearItem p tradeSlot => exact not_reoffered_of_settled h
  | accept p =>
    intro q hpq a ha
    rw [h q hpq]
    exact ha
  | _ => trivial

/-- After an unaccept neither side stands accepted. -/
theorem not_hasAccepted_unaccept (hin : w.isInWorld p = true)
    (hpq : w.getTradeTarget p = some q) (hx : x = p ∨ x = q) :
    ¬ (w.unacceptTrade p).HasAccepted x := by
  have htarget : (w.players p).mTradeTarget = some q := (getPlayer_eq_some hpq).1
  unfold HasAccepted unacceptTrade
  rw [if_neg (by simp [hin, htarget]), hpq]
  simp only [status_setStatus]
  rcases hx with hx | hx
  · simp [hx]
  · by_cases hxp : x = p
    · simp [hxp]
    · simp [hx]

/-- In every run, at every exchange, the last acceptance of each side is
later than everything that revoked it; in a run that changes no offer
under a standing acceptance it is later than every change of the two
offers as well. An unaccept revokes both sides; a change of an offer
revokes nobody. -/
theorem trade_acceptances_stand {w₀ w : World} {es : List TradeEvent} (h₀ : w₀.NoAccepts)
    (hrun : Run (PartialStep TradeEvent.step) w₀ es w) :
    Upheld (Agreed revoked) w.log ∧
      (Run (Guarded OffersSettled (PartialStep TradeEvent.step)) w₀ es w →
        Upheld (Agreed reoffered) w.log) ∧
      (∀ p q x, w.isInWorld p = true → w.getTradeTarget p = some q → x = p ∨ x = q →
        ¬ (w.unacceptTrade p).HasAccepted x) ∧
      (∀ p x tradeSlot bag slot gold,
        ((w.setTradeItem p tradeSlot bag slot).HasAccepted x ↔ w.HasAccepted x) ∧
        ((w.setTradeGold p gold).HasAccepted x ↔ w.HasAccepted x) ∧
        ((w.clearTradeItem p tradeSlot).HasAccepted x ↔ w.HasAccepted x)) := by
  refine ⟨?_, ?_, fun p q x => not_hasAccepted_unaccept, ?_⟩
  · have hguarded : Run (Guarded (Respects revoked) (PartialStep TradeEvent.step)) w₀ es w :=
      hrun.mono fun _ e _ hs => ⟨respects_revoked e, hs⟩
    exact (ConsentInv.run revoked_fair h₀ hguarded).exchanges
  · intro hsettled
    have hguarded : Run (Guarded (Respects reoffered) (PartialStep TradeEvent.step)) w₀ es w :=
      hsettled.mono fun _ _ _ hs => ⟨hs.1.respects, hs.2⟩
    exact (ConsentInv.run reoffered_fair h₀ hguarded).exchanges
  · intro p x tradeSlot bag slot gold
    exact ⟨hasAccepted_offer changesOffer_setTradeItem, hasAccepted_offer changesOffer_setTradeGold,
      hasAccepted_offer changesOffer_clearTradeItem⟩

/-! ### Two runs of Alice and Bob -/

theorem idleWorld_noAccepts : idleWorld.NoAccepts :=
  ⟨fun _ h => absurd h (by simp [idleWorld, HasAccepted]), rfl⟩

/-- Bob offers fifty copper before either side accepts. -/
theorem trade_acceptances_stand_for_offer :
    ∃ w, Run (PartialStep TradeEvent.step) idleWorld
      [.initiate alice (some bob) false, .begin bob false, .setGold bob 50, .accept alice,
        .accept bob] w ∧ Upheld (Agreed revoked) w.log := by
  have hrun : Run (PartialStep TradeEvent.step) idleWorld
      [.initiate alice (some bob) false, .begin bob false, .setGold bob 50, .accept alice,
        .accept bob] _ := .cons rfl (.cons rfl (.cons rfl (.cons rfl (.cons rfl (.nil _)))))
  exact ⟨_, hrun, (trade_acceptances_stand idleWorld_noAccepts hrun).1⟩

/-- Alice accepts Bob's fifty copper; Bob lowers them to one, accepts, and
the exchange takes place. -/
theorem offer_changed_after_accept :
    ¬ ∀ (w₀ w : World) (es : List TradeEvent), w₀.NoTrades → w₀.NoAccepts →
      Run (PartialStep TradeEvent.step) w₀ es w → Upheld (Agreed reoffered) w.log := by
  intro hall
  have hc := hall idleWorld _ [.initiate alice (some bob) false, .begin bob false,
    .setGold bob 50, .accept alice, .setGold bob 1, .accept bob] idleWorld_noTrades
    idleWorld_noAccepts
    (.cons rfl (.cons rfl (.cons rfl (.cons rfl (.cons rfl (.cons rfl (.nil _)))))))
  have hsince := (hc [.revoke alice, .revoke bob, .revoke bob, .revoke alice, .revoke bob,
    .revoke alice, .offer bob, .accept alice, .offer bob, .accept bob] _
    [.revoke bob, .revoke alice] rfl ⟨bob, alice, 1, 0, 100, 100, 99, 101⟩ (by rfl)).2
  simp [Since, reoffered, alice, bob] at hsince

end World

end HearthStone
