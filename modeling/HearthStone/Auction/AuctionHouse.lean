/-
HearthStone.Auction.AuctionHouse — one auction house with its deferred
settlement (`AuctionHouse.cpp`, `AuctionMgr.cpp`), as a state machine
over the client's requests and the two periodic updates.

* `placeBid`, `cancelAuction`, `sellItem` — the `WorldSession` handlers.
* `queueDeletion`, `updateAuctions` — the two places that put an auction
  on `removalList`. The first looks at `Deleted`, the second does not.
* `updateDeletionQueue`, `removeAuction` — settlement.

`Auction*` is an `AuctionPtr`; `auctions` is the hash map as the list of
its entries in iteration order. `delete auct` empties the pointer, and a
step that goes through an empty pointer is undefined (`none`).

The float products of the house (`cut_percent * HighestBid`, the
deposit) are parameters. `log` is what an observer sees: it is written
and never read.
-/
import HearthStone.Object.UnsignedValue

namespace HearthStone.Auctions

abbrev AuctionPtr := Nat

/-- `enum AuctionRemoveType`, the values of `DeletedReason`. -/
inductive AuctionRemoveType
  | expired
  | won
  | cancelled
  deriving DecidableEq, Repr

/-- `enum AuctionMailResult`, the last number of a mail's subject. -/
inductive AuctionMailResult
  | outbid
  | won
  | sold
  | expired
  | expired2
  | cancelled
  deriving DecidableEq, Repr

def AuctionMailResult.code : AuctionMailResult → Nat
  | outbid => 0
  | won => 1
  | sold => 2
  | expired => 3
  | expired2 => 4
  | cancelled => 5

/-- `pItem`: the GUID and the entry of the auctioned item. -/
structure AuctionItem where
  guid : Nat
  entry : UInt32
  deriving DecidableEq, Repr

/-- `struct Auction`. -/
structure Auction where
  id : UInt32
  owner : UInt32
  highestBidder : UInt32
  highestBid : UInt32
  buyoutPrice : UInt32
  depositAmount : UInt32
  expiryTime : UInt32
  pItem : AuctionItem
  deleted : Bool
  deletedReason : AuctionRemoveType
  deriving DecidableEq, Repr

/-- A call of `MailSystem::DeliverMessage(AUCTION, dbc->id, ...)`. The
`cod` argument is zero in every one of them. -/
structure Mail where
  receiver : UInt32
  subject : String
  body : String
  money : UInt32
  item : Option Nat
  deriving DecidableEq, Repr

/-- What an observer of the house records. -/
inductive LogEntry
  /-- the auction was pushed on `removalList` -/
  | queued (p : AuctionPtr)
  /-- a bid was accepted; the gold the bidder's coinage lost -/
  | bid (p : AuctionPtr) (bidder : UInt32) (taken : Nat)
  /-- a mail left on behalf of the auction -/
  | mail (p : AuctionPtr) (kind : AuctionMailResult) (m : Mail)
  /-- `RemoveAuction` ran on this record -/
  | settled (p : AuctionPtr) (a : Auction)
  deriving DecidableEq, Repr

/-- An auction house and the players around it. -/
structure AuctionHouse where
  objs : AuctionPtr → Option Auction
  nextPtr : AuctionPtr
  auctions : List (UInt32 × AuctionPtr)
  removalList : List AuctionPtr
  maxId : UInt32
  coinage : UInt32 → UInt32
  /-- `objmgr.GetPlayer(guid) != NULL` -/
  online : UInt32 → Bool
  /-- `FL2UINT(cut_percent * HighestBid)` of a won auction -/
  auctionCut : UInt32 → UInt32
  /-- `uint32(cut_percent * HighestBid)` of a cancelled auction -/
  cancelCut : UInt32 → UInt32
  log : List LogEntry

/-- `%X`. -/
def hexUpper (n : Nat) : String :=
  String.ofList ((Nat.toDigits 16 n).map Char.toUpper)

/-- `"%u:0:<code>"` on the item's entry. -/
def mailSubject (a : Auction) (kind : AuctionMailResult) : String :=
  toString a.pItem.entry.toNat ++ ":0:" ++ toString kind.code

namespace AuctionHouse

def setAuction (h : AuctionHouse) (p : AuctionPtr) (a : Option Auction) : AuctionHouse :=
  { h with objs := Function.update h.objs p a }

def setCoinage (h : AuctionHouse) (g : UInt32) (c : UInt32) : AuctionHouse :=
  { h with coinage := Function.update h.coinage g c }

def record (h : AuctionHouse) (es : List LogEntry) : AuctionHouse :=
  { h with log := h.log ++ es }

/-- `GetAuction`: the entry in the map, whether or not it is `Deleted`. -/
def getAuction (h : AuctionHouse) (id : UInt32) : Option AuctionPtr :=
  (h.auctions.find? fun e => e.1 = id).map Prod.snd

/-- `auct->Deleted = true; DeletedReason = ...; removalList.push_back`. -/
def pushRemoval (h : AuctionHouse) (p : AuctionPtr) (a : Auction) (reason : AuctionRemoveType) :
    AuctionHouse :=
  ({ h with removalList := h.removalList ++ [p] }.setAuction p
    (some { a with deleted := true, deletedReason := reason })).record [.queued p]

/-- `AuctionHouse::QueueDeletion`. -/
def queueDeletion (h : AuctionHouse) (p : AuctionPtr) (a : Auction) (reason : AuctionRemoveType) :
    AuctionHouse :=
  if a.deleted then h else h.pushRemoval p a reason

/-- The auction a bid is accepted on: the checks of
`HandleAuctionPlaceBid`. None of them looks at `Deleted`. -/
def bidTarget (h : AuctionHouse) (player : PlayerGuid) (auctionId price : UInt32) :
    Option (AuctionPtr × Auction) :=
  if price = 0 then none
  else
    match h.getAuction auctionId with
    | none => none
    | some p =>
      match h.objs p with
      | none => none
      | some auct =>
        if auct.owner = 0 ∨ auct.owner = player.val then none
        else if auct.highestBid > price ∧ price ≠ auct.buyoutPrice then none
        else if h.coinage player.val < price then none
        else some (p, auct)

/-- The mail that returns the money of the last highest bidder. -/
def outbidMail (a : Auction) : Mail :=
  { receiver := a.highestBidder, subject := mailSubject a .outbid, body := ""
    money := a.highestBid, item := none }

/-- `HandleAuctionPlaceBid` once the checks have passed: the bidder pays
and the last highest bidder gets the money back. -/
def takeBid (h : AuctionHouse) (player : PlayerGuid) (p : AuctionPtr) (auct : Auction)
    (price : UInt32) : AuctionHouse :=
  let coin := h.coinage player.val
  let coin' := debit coin price
  let h := (h.setCoinage player.val coin').record [.bid p player.val (coin.toNat - coin'.toNat)]
  if auct.highestBidder ≠ 0 then h.record [.mail p .outbid (outbidMail auct)] else h

/-- The rest of the handler: the bid is written into the auction, which
is queued when the bid is the buyout. -/
def acceptBid (h : AuctionHouse) (player : PlayerGuid) (p : AuctionPtr) (auct : Auction)
    (price : UInt32) : AuctionHouse :=
  let auct' := { auct with highestBidder := player.val, highestBid := price }
  let h := (h.takeBid player p auct price).setAuction p (some auct')
  if auct.buyoutPrice = price then h.queueDeletion p auct' .won else h

/-- `WorldSession::HandleAuctionPlaceBid`. -/
def placeBid (h : AuctionHouse) (player : PlayerGuid) (auctionId price : UInt32) : AuctionHouse :=
  match h.bidTarget player auctionId price with
  | none => h
  | some (p, auct) => h.acceptBid player p auct price

/-- `WorldSession::HandleCancelAuction`: any player, any auction. -/
def cancelAuction (h : AuctionHouse) (auctionId : UInt32) : AuctionHouse :=
  match h.getAuction auctionId with
  | none => h
  | some p =>
    match h.objs p with
    | none => h
    | some auct => h.queueDeletion p auct .cancelled

/-- `AuctionHouse::AddAuction`: `insert` keeps an entry already there. -/
def addAuction (h : AuctionHouse) (p : AuctionPtr) (a : Auction) : AuctionHouse :=
  if (h.getAuction a.id).isSome then h else { h with auctions := h.auctions ++ [(a.id, p)] }

/-- `WorldSession::HandleAuctionSellItem` on an item taken out of the
seller's inventory, with the deposit the house computed for it. -/
def sellItem (h : AuctionHouse) (seller : PlayerGuid) (item : AuctionItem)
    (bid buyout etime itemDeposit : UInt32) (now : UInt32) : AuctionHouse :=
  if h.coinage seller.val < itemDeposit then h
  else
    let id := h.maxId + 1
    let p := h.nextPtr
    let auct : Auction :=
      { id, owner := seller.val, highestBidder := 0, highestBid := bid, buyoutPrice := buyout
        depositAmount := itemDeposit, expiryTime := now + etime * 60, pItem := item
        deleted := false, deletedReason := .expired }
    let h := { h with nextPtr := p + 1, maxId := id }
    let h := h.setAuction p (some auct)
    let h := h.setCoinage seller.val (debit (h.coinage seller.val) itemDeposit)
    h.addAuction p auct

/-- The loop of `AuctionHouse::UpdateAuctions` over the map's pointers. -/
def expireAll (t : UInt32) : AuctionHouse → List AuctionPtr → Option AuctionHouse
  | h, [] => some h
  | h, p :: ps =>
    match h.objs p with
    | none => none
    | some auct =>
      if t ≥ auct.expiryTime then
        let reason := if auct.highestBidder = 0 then .expired else .won
        expireAll t (h.pushRemoval p auct reason) ps
      else expireAll t h ps

/-- `AuctionHouse::UpdateAuctions`. -/
def updateAuctions (h : AuctionHouse) (t : UInt32) : Option AuctionHouse :=
  expireAll t h (h.auctions.map Prod.snd)

/-- `int32 amount = HighestBid - auction_cut + DepositAmount`, cut off
at zero. -/
def sellerAmount (h : AuctionHouse) (a : Auction) : UInt32 :=
  let amount := a.highestBid - h.auctionCut a.highestBid + a.depositAmount
  if amount.toInt32 < 0 then 0 else amount

/-- A mail that carries the auctioned item. -/
def itemMail (a : Auction) (receiver : UInt32) (kind : AuctionMailResult) (body : String) : Mail :=
  { receiver, subject := mailSubject a kind, body, money := 0, item := some a.pItem.guid }

/-- `<owner player guid>:bid:buyout`. -/
def wonBody (a : Auction) : String :=
  hexUpper a.owner.toNat ++ ":" ++ toString a.highestBid.toNat ++ ":" ++
    toString a.buyoutPrice.toNat

/-- `<hex player guid>:bid:buyout:deposit:cut`, with a zero in the
buyout's place unless the bid was the buyout. -/
def soldBody (h : AuctionHouse) (a : Auction) : String :=
  let buyout := if a.highestBid = a.buyoutPrice then a.buyoutPrice.toNat else 0
  hexUpper a.highestBidder.toNat ++ ":" ++ toString a.highestBid.toNat ++ ":" ++
    toString buyout ++ ":" ++ toString a.depositAmount.toNat ++ ":" ++
    toString (h.auctionCut a.highestBid).toNat

/-- The seller's share of a won auction. -/
def soldMail (h : AuctionHouse) (a : Auction) : Mail :=
  { receiver := a.owner, subject := mailSubject a .sold, body := h.soldBody a
    money := h.sellerAmount a, item := none }

/-- The bidder's money of a cancelled auction. -/
def refundMail (a : Auction) : Mail :=
  { receiver := a.highestBidder, subject := mailSubject a .cancelled, body := ""
    money := a.highestBid, item := none }

/-- The mails `RemoveAuction` sends, by reason. -/
def settlementMails (h : AuctionHouse) (p : AuctionPtr) (a : Auction) : List LogEntry :=
  match a.deletedReason with
  | .expired => [.mail p .expired (itemMail a a.owner .expired "")]
  | .won => [.mail p .won (itemMail a a.highestBidder .won (wonBody a)), .mail p .sold (h.soldMail a)]
  | .cancelled =>
    .mail p .cancelled (itemMail a a.owner .cancelled "") ::
      if a.highestBidder ≠ 0 then [.mail p .cancelled (refundMail a)] else []

/-- The cancel penalty, charged to a seller who is online and has it. -/
def chargePenalty (h : AuctionHouse) (a : Auction) : AuctionHouse :=
  let cut := h.cancelCut a.highestBid
  if a.deletedReason = .cancelled ∧ cut ≠ 0 ∧ h.online a.owner ∧ h.coinage a.owner ≥ cut then
    h.setCoinage a.owner (debit (h.coinage a.owner) cut)
  else h

/-- The body of `RemoveAuction`: the mails, the penalty, and the auction
leaves the map and is deleted. -/
def settle (h : AuctionHouse) (p : AuctionPtr) (a : Auction) : AuctionHouse :=
  let mails := h.settlementMails p a
  let h := (h.chargePenalty a).record (mails ++ [.settled p a])
  { h with auctions := h.auctions.filter fun e => e.1 ≠ a.id }.setAuction p none

/-- `AuctionHouse::RemoveAuction`, with the assertion of its caller that
the auction is `Deleted`. -/
def removeAuction (h : AuctionHouse) (p : AuctionPtr) : Option AuctionHouse :=
  match h.objs p with
  | none => none
  | some a => if a.deleted then some (h.settle p a) else none

/-- The loop of `AuctionHouse::UpdateDeletionQueue`. -/
def removeAll : AuctionHouse → List AuctionPtr → Option AuctionHouse
  | h, [] => some h
  | h, p :: ps =>
    match h.removeAuction p with
    | none => none
    | some h' => removeAll h' ps

/-- `AuctionHouse::UpdateDeletionQueue`. -/
def updateDeletionQueue (h : AuctionHouse) : Option AuctionHouse :=
  (removeAll h h.removalList).map fun h' => { h' with removalList := [] }

end AuctionHouse

/-- What can happen to a house. -/
inductive AuctionEvent
  | placeBid (player : PlayerGuid) (auctionId price : UInt32)
  | cancelAuction (auctionId : UInt32)
  | sellItem (seller : PlayerGuid) (item : AuctionItem)
      (bid buyout etime itemDeposit now : UInt32)
  | updateAuctions (t : UInt32)
  | updateDeletionQueue

/-- One event; `none` where the code goes through a freed auction. -/
def AuctionEvent.step (h : AuctionHouse) : AuctionEvent → Option AuctionHouse
  | placeBid player id price => some (h.placeBid player id price)
  | cancelAuction id => some (h.cancelAuction id)
  | sellItem seller item bid buyout etime deposit now =>
      some (h.sellItem seller item bid buyout etime deposit now)
  | updateAuctions t => h.updateAuctions t
  | updateDeletionQueue => h.updateDeletionQueue

end HearthStone.Auctions
