/-
HearthStone.Trade.TradeHandler — the trade opcodes (`TradeHandler.cpp`,
`Player.h`), over any number of players.

* `initiateTrade`, `beginTrade`, `declineTrade` (busy and ignore),
  `cancelTrade`, `unacceptTrade` — the session of two players.
* `setTradeItem`, `setTradeGold`, `clearTradeItem` — the offers.
* `acceptTrade` — the acceptance, and with both sides accepted the
  exchange: `moveOffers`, then `moveGold`.
* `removeFromWorld` — `Player::RemoveFromWorld` cancels a trade.

Each session's opcodes are one step; any order of them over all players
is a run. The distance of two players is an argument of the request that
measures it, and `TradeEvent.other` stands for whatever else changes a
player's coinage, life or items between two opcodes. The status packets
are left out. `log` is what an observer sees: it is written and never read.
-/
import HearthStone.Item.ItemInterface

namespace HearthStone

/-- `enum TRADE_STATUS`, the values a handler writes or compares. -/
inductive TradeStatus
  | playerBusy
  | proposed
  | initiated
  | cancelled
  | accepted
  | alreadyTrading
  | playerNotFound
  | complete
  | unaccepted
  | tooFarAway
  | wrongFaction
  | playerIgnored
  | dead
  | targetDead
  deriving DecidableEq, Repr

/-- What a trade reads of a `Player`. -/
structure Trader where
  /-- `m_mapMgr` of a player in the world -/
  mapMgr : Option Nat
  isDead : Bool
  team : UInt32
  permissionCount : Nat
  /-- `PLAYER_FIELD_COINAGE` -/
  coinage : UInt32
  /-- the low GUID of the partner, none for zero -/
  mTradeTarget : Option PlayerGuid
  mTradeStatus : TradeStatus
  mTradeGold : UInt32
  mTradeItems : Fin 7 → Option Guid

/-- A completed exchange of gold: what each side offered, had and has. -/
structure GoldExchange where
  player : PlayerGuid
  target : PlayerGuid
  offered : UInt32
  targetOffered : UInt32
  before : UInt32
  targetBefore : UInt32
  after : UInt32
  targetAfter : UInt32
  deriving DecidableEq, Repr

/-- What an observer of the trades records. -/
inductive TradeEntry
  /-- `HandleAcceptTrade` set the player's status to accepted -/
  | accept (p : PlayerGuid)
  /-- another value was written to the player's status -/
  | revoke (p : PlayerGuid)
  /-- an item or the gold of the player's offer was written -/
  | offer (p : PlayerGuid)
  /-- the offers were exchanged -/
  | exchange (e : GoldExchange)
  deriving DecidableEq, Repr

/-- The players and the items. -/
structure World where
  players : PlayerGuid → Trader
  items : ItemWorld
  log : List TradeEntry

namespace World

def setTrader (w : World) (p : PlayerGuid) (f : Trader → Trader) : World :=
  { w with players := Function.update w.players p (f (w.players p)) }

def record (w : World) (es : List TradeEntry) : World := { w with log := w.log ++ es }

def isInWorld (w : World) (p : PlayerGuid) : Bool := (w.players p).mapMgr.isSome

/-- `m_mapMgr->GetPlayer(guid)`: a player of the same map. -/
def getPlayer (w : World) (p : PlayerGuid) (guid : Option PlayerGuid) : Option PlayerGuid :=
  guid.filter fun q => w.isInWorld p ∧ (w.players q).mapMgr = (w.players p).mapMgr

/-- `Player::GetTradeTarget`. -/
def getTradeTarget (w : World) (p : PlayerGuid) : Option PlayerGuid :=
  w.getPlayer p (w.players p).mTradeTarget

/-- `Player::ResetTradeVariables`. -/
def resetTradeVariables (w : World) (p : PlayerGuid) : World :=
  (w.setTrader p fun t =>
    { t with mTradeGold := 0, mTradeItems := fun _ => none, mTradeStatus := .playerBusy
             mTradeTarget := none }).record [.revoke p]

/-- A status other than accepted. -/
def setStatus (w : World) (p : PlayerGuid) (s : TradeStatus) : World :=
  (w.setTrader p fun t => { t with mTradeStatus := s }).record [.revoke p]

/-! ## The session -/

/-- The outcome `HandleInitiateTrade` computes; `DEAD` stands only when no
later check overwrites it. -/
def initiateStatus (w : World) (p : PlayerGuid) (pTarget : Option PlayerGuid) (tooFar : Bool) :
    TradeStatus :=
  match pTarget with
  | none => .playerNotFound
  | some q =>
    if (w.players q).isDead then .targetDead
    else if (w.players q).mTradeTarget ≠ none then .alreadyTrading
    else if (w.players q).team ≠ (w.players p).team ∧ (w.players p).permissionCount = 0 then
      .wrongFaction
    else if tooFar then .tooFarAway
    else if (w.players p).isDead then .dead
    else .proposed

/-- The session is opened on both sides. -/
def openTrade (w : World) (p q : PlayerGuid) : World :=
  let w := (w.resetTradeVariables p).resetTradeVariables q
  let w := w.setTrader q fun t => { t with mTradeTarget := some p }
  let w := w.setTrader p fun t => { t with mTradeTarget := some q }
  (w.setStatus q .proposed).setStatus p .proposed

/-- `HandleInitiateTrade`. -/
def initiateTrade (w : World) (p : PlayerGuid) (guid : Option PlayerGuid) (tooFar : Bool) : World :=
  if w.isInWorld p = false then w
  else
    let pTarget := w.getPlayer p guid
    match pTarget with
    | none => w.resetTradeVariables p
    | some q =>
      if w.initiateStatus p pTarget tooFar ≠ .proposed then w.resetTradeVariables p
      else w.openTrade p q

/-- `HandleBeginTrade`: an aborted one resets its own side only. -/
def beginTrade (w : World) (p : PlayerGuid) (tooFar : Bool) : World :=
  match w.getTradeTarget p with
  | none => w.resetTradeVariables p
  | some q =>
    if tooFar then w.resetTradeVariables p
    else (w.setStatus p .initiated).setStatus q .initiated

/-- `HandleBusyTrade` and `HandleIgnoreTrade`, which differ in the status
they answer: both reset their own side only. -/
def declineTrade (w : World) (p : PlayerGuid) : World :=
  if w.isInWorld p = false ∨ (w.players p).mTradeTarget = none then w
  else w.resetTradeVariables p

def busyTrade (w : World) (p : PlayerGuid) : World := w.declineTrade p
def ignoreTrade (w : World) (p : PlayerGuid) : World := w.declineTrade p

/-- `HandleCancelTrade`: both sides are reset. -/
def cancelTrade (w : World) (p : PlayerGuid) : World :=
  if w.isInWorld p = false ∨ (w.players p).mTradeTarget = none then w
  else if (w.players p).mTradeStatus = .complete then w.resetTradeVariables p
  else
    match w.getTradeTarget p with
    | none => w.resetTradeVariables p
    | some q => (w.resetTradeVariables q).resetTradeVariables p

/-- `HandleUnacceptTrade`. -/
def unacceptTrade (w : World) (p : PlayerGuid) : World :=
  if w.isInWorld p = false ∨ (w.players p).mTradeTarget = none then w
  else
    match w.getTradeTarget p with
    | none => w.resetTradeVariables p
    | some q => (w.setStatus q .unaccepted).setStatus p .unaccepted

/-- The trade part of `Player::RemoveFromWorld`. -/
def removeFromWorld (w : World) (p : PlayerGuid) : World :=
  let w :=
    if (w.players p).mTradeTarget = none then w
    else
      match w.getTradeTarget p with
      | none => w.resetTradeVariables p
      | some q => (w.resetTradeVariables q).resetTradeVariables p
  w.setTrader p fun t => { t with mapMgr := none }

/-! ## The offers -/

/-- `HandleSetTradeItem`. A bag with items is refused, and so is an item
that either side already offers. -/
def setTradeItem (w : World) (p : PlayerGuid) (tradeSlot : UInt8) (sourceBag sourceSlot : Int) :
    World :=
  if w.isInWorld p = false ∨ (w.players p).mTradeTarget = none then w
  else
    match w.getTradeTarget p with
    | none => w
    | some q =>
      if h : tradeSlot.toNat < 7 then
        match w.items.getInventoryItemIn p sourceBag sourceSlot with
        | none => w
        | some g =>
          if w.items.isContainer g ∧ w.items.hasItems g then w
          else if ∃ i, (w.players p).mTradeItems i = some g ∨ (w.players q).mTradeItems i = some g
          then w
          else
            (w.setTrader p fun t =>
              { t with mTradeItems := Function.update t.mTradeItems ⟨tradeSlot.toNat, h⟩ (some g) }).record
                [.offer p]
      else w

/-- `HandleSetTradeGold`: at most the coinage of the moment. -/
def setTradeGold (w : World) (p : PlayerGuid) (gold : UInt32) : World :=
  if w.isInWorld p = false ∨ (w.players p).mTradeTarget = none then w
  else if (w.players p).mTradeGold = gold then w
  else
    let offered := if gold > (w.players p).coinage then (w.players p).coinage else gold
    (w.setTrader p fun t => { t with mTradeGold := offered }).record [.offer p]

/-- `HandleClearTradeItem`. -/
def clearTradeItem (w : World) (p : PlayerGuid) (tradeSlot : UInt8) : World :=
  if w.isInWorld p = false ∨ (w.players p).mTradeTarget = none then w
  else if h : tradeSlot.toNat < 7 then
    (w.setTrader p fun t =>
      { t with mTradeItems := Function.update t.mTradeItems ⟨tradeSlot.toNat, h⟩ none }).record
        [.offer p]
  else w

/-! ## The exchange -/

/-- The six slots that change hands; the seventh does not. -/
def tradedSlots : List (Fin 7) := [0, 1, 2, 3, 4, 5]

/-- `ItemCount`, `TargetItemCount` and whether a full bag stopped the count. -/
structure OfferCount where
  items : Nat
  targetItems : Nat
  bagTrick : Bool
  deriving DecidableEq, Repr

/-- A bag that holds items. -/
def isLoadedBag (w : ItemWorld) (g : Guid) : Bool := w.isContainer g && w.hasItems g

/-- The counting loop of `HandleAcceptTrade`. -/
def countOffers (w : ItemWorld) (offer targetOffer : Fin 7 → Option Guid) :
    List (Fin 7) → OfferCount → OfferCount
  | [], c => c
  | i :: is, c =>
    if (offer i).any (isLoadedBag w) then { c with bagTrick := true }
    else
      let c := { c with items := c.items + if (offer i).isSome then 1 else 0 }
      if (targetOffer i).any (isLoadedBag w) then { c with bagTrick := true }
      else countOffers w offer targetOffer is
        { c with targetItems := c.targetItems + if (targetOffer i).isSome then 1 else 0 }

/-- One offered item leaves `src` and goes to a free slot of `dst`; it is
destroyed when there is none. -/
def moveOffer (w : ItemWorld) (src dst : PlayerGuid) : Option Guid → ItemWorld
  | none => w
  | some g =>
    if (w.item g).isSoulbound then w
    else
      match w.safeRemoveByGuid src g with
      | (none, w) => w
      | (some g, w) =>
        let w := w.modify g fun it => { it with owner := some dst }
        (w.addItemToFreeSlot dst g).getD (w.destructor g)

/-- The loop over the six slots: the player's item, then the target's. -/
def moveOffers (p q : PlayerGuid) (offer targetOffer : Fin 7 → Option Guid) (w : ItemWorld) :
    ItemWorld :=
  tradedSlots.foldl (fun w i => moveOffer (moveOffer w p q (offer i)) q p (targetOffer i)) w

/-- The gold of both sides, in the order of the four writes. -/
def moveGold (w : World) (p q : PlayerGuid) : World :=
  let pay (w : World) (src dst : PlayerGuid) : World :=
    let gold := (w.players src).mTradeGold
    if gold = 0 then w
    else
      (w.setTrader dst fun t => { t with coinage := credit t.coinage gold }).setTrader src
        fun t => { t with coinage := debit t.coinage gold }
  pay (pay w p q) q p

/-- `HandleAcceptTrade` decides that the exchange takes place. -/
def exchangeReady (w : World) (p q : PlayerGuid) : Bool :=
  let c := countOffers w.items (w.players p).mTradeItems (w.players q).mTradeItems tradedSlots
    ⟨0, 0, false⟩
  if c.items = 0 ∧ c.targetItems = 0 ∧ (w.players p).mTradeGold = 0 ∧ (w.players q).mTradeGold = 0
  then false
  else if w.items.calculateFreeSlots p none + c.items < c.targetItems ∨
      w.items.calculateFreeSlots q none + c.targetItems < c.items then false
  else c.bagTrick = false

/-- What an observer records of an exchange that led from `w` to `w'`. -/
def goldRecord (w w' : World) (p q : PlayerGuid) : GoldExchange where
  player := p
  target := q
  offered := (w.players p).mTradeGold
  targetOffered := (w.players q).mTradeGold
  before := (w.players p).coinage
  targetBefore := (w.players q).coinage
  after := (w'.players p).coinage
  targetAfter := (w'.players q).coinage

/-- The exchange itself. -/
def exchange (w : World) (p q : PlayerGuid) : World :=
  let items := moveOffers p q (w.players p).mTradeItems (w.players q).mTradeItems w.items
  let w' := ({ w with items } : World).moveGold p q
  w'.record [.exchange (w.goldRecord w' p q)]

/-- The player's acceptance. -/
def setAccepted (w : World) (p : PlayerGuid) : World :=
  (w.setTrader p fun t => { t with mTradeStatus := .accepted }).record [.accept p]

/-- `HandleAcceptTrade`. A partner who is not on the map is dereferenced:
undefined. -/
def acceptTrade (w : World) (p : PlayerGuid) : Option World :=
  if w.isInWorld p = false ∨ (w.players p).mTradeTarget = none then some w
  else
    match w.getTradeTarget p with
    | none => none
    | some q =>
      let w := w.setAccepted p
      if (w.players q).mTradeStatus = .accepted then
        let w := if w.exchangeReady p q then w.exchange p q else w
        some ((w.resetTradeVariables p).resetTradeVariables q)
      else some w

/-- The partner with whom an accept by `p` exchanges. -/
def exchangesWith (w : World) (p : PlayerGuid) : Option PlayerGuid :=
  if (w.players p).mTradeTarget = none then none
  else (w.getTradeTarget p).filter fun q =>
    ((w.setAccepted p).players q).mTradeStatus = .accepted ∧ (w.setAccepted p).exchangeReady p q

end World

/-- A trade opcode of a player, or whatever happens in between. -/
inductive TradeEvent
  | initiate (p : PlayerGuid) (guid : Option PlayerGuid) (tooFar : Bool)
  | begin (p : PlayerGuid) (tooFar : Bool)
  | busy (p : PlayerGuid)
  | ignore (p : PlayerGuid)
  | cancel (p : PlayerGuid)
  | unaccept (p : PlayerGuid)
  | setItem (p : PlayerGuid) (tradeSlot : UInt8) (sourceBag sourceSlot : Int)
  | setGold (p : PlayerGuid) (gold : UInt32)
  | clearItem (p : PlayerGuid) (tradeSlot : UInt8)
  | accept (p : PlayerGuid)
  | leaveWorld (p : PlayerGuid)
  | enterWorld (p : PlayerGuid) (map : Nat)
  /-- coin spent or received, death, resurrection, items moved -/
  | other (p : PlayerGuid) (coinage : UInt32) (isDead : Bool) (items : ItemWorld)

/-- One event. -/
def TradeEvent.step (w : World) : TradeEvent → Option World
  | .initiate p guid tooFar => some (w.initiateTrade p guid tooFar)
  | .begin p tooFar => some (w.beginTrade p tooFar)
  | .busy p => some (w.busyTrade p)
  | .ignore p => some (w.ignoreTrade p)
  | .cancel p => some (w.cancelTrade p)
  | .unaccept p => some (w.unacceptTrade p)
  | .setItem p tradeSlot sourceBag sourceSlot =>
      some (w.setTradeItem p tradeSlot sourceBag sourceSlot)
  | .setGold p gold => some (w.setTradeGold p gold)
  | .clearItem p tradeSlot => some (w.clearTradeItem p tradeSlot)
  | .accept p => w.acceptTrade p
  | .leaveWorld p => some (w.removeFromWorld p)
  | .enterWorld p map =>
      some (if w.isInWorld p then w else w.setTrader p fun t => { t with mapMgr := some map })
  | .other p coinage isDead items =>
      some { (w.setTrader p fun t => { t with coinage, isDead }) with items }

end HearthStone
