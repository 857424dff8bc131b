/-
HearthStone.Item.BuyBack — the list of sold items a player may buy back
(`ItemInterface.cpp`).

The list is four arrays of twelve that are moved along together: the
pointers `m_pBuyBack`, and in the player's fields the GUIDs, the prices
and the timestamps.

* `addBuyBackItem`, `removeBuyBackItem`, `emptyBuyBack` — the operations.
* `buyBackItem` — what the packet handler does to the list.
* `BuyBackOp` — what happens to the list and to the fields behind it.

The fields follow one another, so that an index behind the end of one
array is the next one: `PLAYER_FIELD_KEYRING_SLOT_1` is behind the last
GUID, the first timestamp behind the last price, and `PLAYER_FIELD_KILLS`
behind the last timestamp.
-/
import HearthStone.Lib.Run
import HearthStone.Item.Item

namespace HearthStone

open Lib

def MAX_BUYBACK_SLOT : Nat := 12

structure BuyBack where
  /-- from index 12 on it is what lies behind the array -/
  m_pBuyBack : Nat → Option Guid
  /-- the GUIDs from `PLAYER_FIELD_VENDORBUYBACK_SLOT_1` on -/
  guids : Nat → Guid
  /-- the fields from `PLAYER_FIELD_BUYBACK_PRICE_1` on -/
  words : Nat → UInt32
  /-- the indices at which the arrays have been read or written -/
  touched : List Nat

/-- An item that is sold. The lower half of its GUID is a number handed
out in order, and none is zero. -/
structure Sale where
  item : Guid
  price : UInt32
  unixtime : UInt32
  low : item % 2 ^ 32 ≠ 0

namespace BuyBack

/-- `PLAYER_FIELD_BUYBACK_PRICE_1 + j`. -/
def price (s : BuyBack) (j : Nat) : UInt32 := s.words j

/-- `PLAYER_FIELD_BUYBACK_TIMESTAMP_1 + j`. -/
def timestamp (s : BuyBack) (j : Nat) : UInt32 := s.words (MAX_BUYBACK_SLOT + j)

def touch (s : BuyBack) (js : List Nat) : BuyBack := { s with touched := js ++ s.touched }

def setItem (s : BuyBack) (j : Nat) (it : Option Guid) : BuyBack :=
  { s with m_pBuyBack := Function.update s.m_pBuyBack j it, touched := j :: s.touched }

/-- The three fields of an index. -/
def setFields (s : BuyBack) (j : Nat) (guid : Guid) (price timestamp : UInt32) : BuyBack :=
  { s with
    guids := Function.update s.guids j guid
    words := Function.update (Function.update s.words j price) (MAX_BUYBACK_SLOT + j) timestamp
    touched := j :: s.touched }

/-- The three fields of an index become those of the next. -/
def copyFields (s : BuyBack) (j : Nat) : BuyBack :=
  (s.touch [j + 1]).setFields j (s.guids (j + 1)) (s.price (j + 1)) (s.timestamp (j + 1))

/-- An index is given to a sold item. -/
def store (s : BuyBack) (j : Nat) (sale : Sale) : BuyBack :=
  (s.setItem j (some sale.item)).setFields j sale.item sale.price sale.unixtime

/-- `EmptyBuyBack`, on the indices that are left. It stops where there is no item. -/
def emptyFrom : List Nat → BuyBack → BuyBack
  | [], s => s
  | j :: js, s =>
    if (s.m_pBuyBack j).isSome then emptyFrom js ((s.setItem j none).setFields j 0 0 0)
    else s.touch [j]

def emptyBuyBack (s : BuyBack) : BuyBack := emptyFrom (slotRange 0 12) s

/-- `AddBuyBackItem`. -/
def addBuyBackItem (s : BuyBack) (sale : Sale) : BuyBack :=
  let full := (s.m_pBuyBack 11).isSome ∧ s.guids 11 ≠ 0
  let s := s.touch [11]
  if full then
    let s := s.setItem 0 none
    let s := (slotRange 0 11).foldl
      (fun s j => (s.copyFields j).setItem j (s.m_pBuyBack (j + 1))) s
    s.store 11 sale
  else
    match (slotRange 0 12).find? fun i => s.guids i % 2 ^ 32 = 0 ∨ s.m_pBuyBack i = none with
    | some i => (s.touch (slotRange 0 (i + 1))).store i sale
    | none => s.touch (slotRange 0 12)

/-- The body of the loop of `RemoveBuyBackItem`. -/
def moveDown (s : BuyBack) (j : Nat) : BuyBack :=
  let s := s.copyFields j
  if (s.m_pBuyBack (j + 1)).isSome ∧ s.guids (j + 1) ≠ 0 then
    s.setItem j (s.m_pBuyBack (j + 1))
  else s.setItem j none

/-- The loop of `RemoveBuyBackItem`, on the indices that are left, and
what follows it. It returns at the first index without a GUID. -/
def removeFrom : List Nat → BuyBack → BuyBack
  | [], s => (s.copyFields 11).setItem 11 none
  | j :: js, s => if s.guids j ≠ 0 then removeFrom js (s.moveDown j) else s.touch [j]

def removeBuyBackItem (s : BuyBack) (index : Nat) : BuyBack := removeFrom (slotRange index 11) s

/-- `GetBuyBack`. -/
def getBuyBack (s : BuyBack) (slot : Int) : Option Guid × BuyBack :=
  if 0 ≤ slot ∧ slot ≤ 12 then (s.m_pBuyBack slot.toNat, s.touch [slot.toNat]) else (none, s)

/-- What `HandleBuyBackOpcode` does to the list: the answers in between
say whether the item is bought. -/
def buyBackItem (s : BuyBack) (stuff : Int) (bought : Bool) : BuyBack :=
  if stuff > MAX_BUYBACK_SLOT then s
  else
    let (it, s) := s.getBuyBack stuff
    if it.isSome ∧ bought then s.removeBuyBackItem stuff.toNat else s

end BuyBack

/-- What happens to the list and to the fields behind it. -/
inductive BuyBackOp
  | addBuyBackItem (sale : Sale)
  | buyBackItem (stuff : Int) (bought : Bool)
  | emptyBuyBack
  /-- a key is put on the key ring or taken off it -/
  | keyring (slot : Nat) (guid : Guid)
  /-- `PLAYER_FIELD_KILLS` -/
  | kills (count : UInt32)

namespace BuyBack

def step (s : BuyBack) : BuyBackOp → BuyBack
  | .addBuyBackItem sale => s.addBuyBackItem sale
  | .buyBackItem stuff bought => s.buyBackItem stuff bought
  | .emptyBuyBack => s.emptyBuyBack
  | .keyring slot guid => { s with guids := Function.update s.guids (MAX_BUYBACK_SLOT + slot) guid }
  | .kills count => { s with words := Function.update s.words (2 * MAX_BUYBACK_SLOT) count }

end BuyBack

end HearthStone
