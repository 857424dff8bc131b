/-
HearthStone.Mail.MailSystem — mailboxes, the table `mailbox`, and the
operations that move letters between them (`MailSystem.cpp`).

* A letter is a row of the table and, while its recipient is online, an
  entry of his `Mailbox`. `SaveToDB` writes the row; of a new message the
  statement goes through `AsyncQuery`, which `QueueAsyncQuery` performs at
  once: the callback has run before `AddMessage` copies the message.
* `Reply` is what the database answers to an insert and to the
  `SELECT LAST_INSERT_ID()` behind it. The callback looks at the second
  answer only.
* `DeleteMessage` reads the id of a message it has just erased; `freed`
  is what it finds there.

`log`, `deleted`, `attached`, `taken`, `serial` and `origin` are kept for
the theorems. All other statements are executed, and the text of a
message holds no `%`.
-/
import HearthStone.Mail.SendMail
import Mathlib.Data.List.Dedup

namespace HearthStone

namespace Mail

def PLAYER_MAX_GOLD : UInt32 := 0x7FFFFFFF

/-- The number of the delivery that made the message, and of the one its
money was attached in. -/
structure Letter where
  msg : MailMessage
  serial : Nat
  origin : Nat
  deriving DecidableEq

/-- What can be taken out of a letter. -/
inductive Attachment where
  | item (g : Guid)
  | money (origin : Nat)
  deriving DecidableEq

def Letter.attachments (l : Letter) : List Attachment :=
  l.msg.items.map .item ++ if l.msg.money = 0 then [] else [.money l.origin]

/-- With `deleted_flag` set. -/
def Letter.flagged (l : Letter) : Letter := { l with msg := { l.msg with deleted_flag := true } }

/-- `MailMessage::Expired`. -/
def MailMessage.Expired (m : MailMessage) (now : UInt32) : Prop :=
  m.expire_time ≠ 0 ∧ m.expire_time < now

instance (m : MailMessage) (now : UInt32) : Decidable (m.Expired now) :=
  inferInstanceAs (Decidable (_ ∧ _))

/-! ## The statement -/

/-- `mysql_real_escape_string`, of a character. -/
def escapeChar (c : Char) : List Char :=
  match c.toNat with
  | 0 => [Char.ofNat 92, '0']
  | 10 => [Char.ofNat 92, 'n']
  | 13 => [Char.ofNat 92, 'r']
  | 26 => [Char.ofNat 92, 'Z']
  | 34 | 39 | 92 => [Char.ofNat 92, c]
  | _ => [c]

/-- `EscapeString`. -/
def escapeString (s : String) : List Char := s.toList.flatMap escapeChar

def flagText (b : Bool) : String := if b then "1" else "0"

/-- The `REPLACE` that `SaveToDB` builds. -/
def MailMessage.replaceText (m : MailMessage) : List Char :=
  ("REPLACE INTO mailbox VALUES(" ++ toString m.message_id ++ "," ++ toString m.message_type ++
    "," ++ toString m.player_guid.val ++ "," ++ toString m.sender_guid.val ++ ",\"").toList ++
  escapeString m.subject ++ "\",\"".toList ++ escapeString m.body ++
  ("\"," ++ toString m.money ++ ",'" ++ String.join (m.items.map fun g => toString g ++ ",") ++
    "'," ++ toString m.cod ++ "," ++ toString m.stationary ++ "," ++ toString m.expire_time ++
    "," ++ toString m.delivery_time ++ "," ++ flagText m.copy_made ++ "," ++
    flagText m.read_flag ++ "," ++ flagText m.deleted_flag ++ "," ++
    flagText m.returned_flag ++ ")").toList

/-- `AsyncQuery::AddQuery` formats into a buffer of 10000 bytes. -/
def MailMessage.AddQueryFits (m : MailMessage) : Bool :=
  (m.replaceText.map Char.utf8Size).sum < 10000

/-- The answers to an insert. -/
inductive Reply where
  /-- the row is inserted, under this id -/
  | inserted (id : UInt32)
  /-- it is not, and the connection still has the id of an earlier insert -/
  | refused (lastInsertId : UInt32)
  deriving DecidableEq

def Reply.Inserted : Reply → Prop
  | .inserted _ => True
  | .refused _ => False

instance (r : Reply) : Decidable r.Inserted :=
  match r with
  | .inserted _ => .isTrue trivial
  | .refused _ => .isFalse id

/-- `Mailbox::Messages`. -/
abbrev Messages := UInt32 → Option Letter

/-- A message delivered: the id it was saved under, and its recipient. -/
structure Delivery where
  id : UInt32
  player : PlayerGuid
  deriving DecidableEq

structure MailWorld where
  /-- `(uint32)UNIXTIME` -/
  now : UInt32
  /-- `MailOption(MAIL_FLAG_NO_EXPIRY)` -/
  noExpiry : Bool
  /-- `m_mailBox` of the players that are online -/
  m_mailBox : PlayerGuid → Option Messages
  /-- the table -/
  mailbox : UInt32 → Option Letter
  /-- the ids `AUTO_INCREMENT` has given -/
  given : List UInt32
  /-- the answers to come -/
  replies : List Reply
  /-- `PLAYER_FIELD_COINAGE` -/
  coinage : PlayerGuid → UInt32
  /-- the items that lie in no letter -/
  loose : Guid → Bool
  log : List Delivery
  deleted : List Nat
  attached : Attachment → Nat
  taken : Attachment → Nat

namespace MailWorld

variable (w : MailWorld)

/-- A server with an empty table. -/
def new (now : UInt32) (noExpiry : Bool) (replies : List Reply) (coinage : PlayerGuid → UInt32)
    (loose : Guid → Bool) : MailWorld where
  now := now
  noExpiry := noExpiry
  m_mailBox := fun _ => none
  mailbox := fun _ => none
  given := []
  replies := replies
  coinage := coinage
  loose := loose
  log := []
  deleted := []
  attached := fun _ => 0
  taken := fun _ => 0

/-! ## Rows and entries -/

/-- `Mailbox::GetMessage`. -/
def GetMessage (p : PlayerGuid) (message_id : UInt32) : Option Letter :=
  (w.m_mailBox p).bind fun Messages => Messages message_id

/-- An entry of a player that is online. -/
def setEntry (p : PlayerGuid) (key : UInt32) (l : Option Letter) : MailWorld :=
  match w.m_mailBox p with
  | none => w
  | some Messages =>
    { w with m_mailBox := Function.update w.m_mailBox p (some (Function.update Messages key l)) }

/-- `Mailbox::AddMessage`, when the player is online. -/
def AddMessage (l : Letter) : MailWorld := w.setEntry l.msg.player_guid l.msg.message_id (some l)

def setRow (id : UInt32) (l : Option Letter) : MailWorld :=
  { w with mailbox := Function.update w.mailbox id l }

/-- `MailMessage::SaveToDB` with its callback: the message as it is
afterwards. `AUTO_INCREMENT` gives an id that is not zero, was not given
before and has no row; a statement that was cut off is not accepted. -/
def SaveToDB (l : Letter) : Option (Letter × MailWorld) :=
  if l.msg.message_id = 0 then
    match w.replies with
    | [] => none
    | .inserted id :: rs =>
      if id ≠ 0 ∧ id ∉ w.given ∧ w.mailbox id = none ∧ l.msg.AddQueryFits then
        let l := { l with msg := { l.msg with message_id := id } }
        some (l, { w.setRow id (some l) with given := id :: w.given, replies := rs })
      else none
    | .refused id :: rs =>
      some ({ l with msg := { l.msg with message_id := id } }, { w with replies := rs })
  else some (l, w.setRow l.msg.message_id (some l))

/-- `SaveToDB` of an entry, through the pointer to it. -/
def saveEntry (p : PlayerGuid) (key : UInt32) (l : Letter) : Option MailWorld := do
  let (l, w) ← w.SaveToDB l
  some (w.setEntry p key (some l))

/-! ## Deliveries -/

/-- `MailSystem::DeliverMessage`, of a message whose attachments come from
this delivery. -/
def DeliverMessage (m : MailMessage) (origin : Nat) : Option MailWorld := do
  let (l, w) ← w.SaveToDB ⟨m, w.log.length, origin⟩
  let w := { w with log := w.log ++ [Delivery.mk l.msg.message_id m.player_guid] }
  some (w.AddMessage l)

/-- The attachments of a new message. -/
def attach (m : MailMessage) : MailWorld :=
  { w with
    loose := fun g => w.loose g && !m.items.contains g
    attached := fun a =>
      w.attached a + if a ∈ (Letter.mk m w.log.length w.log.length).attachments then 1 else 0 }

/-- A new message, with the id and the flags all senders give it. What is
attached was in no letter, and is attached once. -/
def send (m : MailMessage) : Option MailWorld :=
  if m.message_id = 0 ∧ m.copy_made = false ∧ m.deleted_flag = false ∧ m.items.Nodup ∧
      ∀ g ∈ m.items, w.loose g then
    (w.attach m).DeliverMessage m w.log.length
  else none

/-- The delivery is marked as deleted. -/
def mark (serial : Nat) : MailWorld := { w with deleted := serial :: w.deleted }

/-- `Mailbox::DeleteMessage` of this mailbox. The message is the entry of
`ref`, or a copy of its own. -/
def DeleteMessage (mailbox : PlayerGuid) (ref : Option (PlayerGuid × UInt32)) (l : Letter) (freed : UInt32) :
    Option MailWorld :=
  let w := w.mark l.serial
  if l.msg.copy_made then do
    let (l, w) ← w.SaveToDB l.flagged
    match ref with
    | none => some w
    | some (p, key) => some (w.setEntry p key (some l))
  else
    let w := w.setEntry mailbox l.msg.message_id none
    some (w.setRow (if ref.isSome then freed else l.msg.message_id) none)

/-- The message that goes back. -/
def returned (m : MailMessage) : MailMessage :=
  { m with
    player_guid := m.sender_guid
    sender_guid := m.player_guid
    message_id := 0
    read_flag := false
    deleted_flag := false
    copy_made := false
    returned_flag := true
    cod := 0
    delivery_time := if m.items = [] then w.now else w.now + 3600
    expire_time := 0 }

/-- The same of a message whose mailbox is not loaded. -/
def dropRow (l : Letter) : Option MailWorld :=
  let w := w.mark l.serial
  if l.msg.copy_made then
    (w.SaveToDB l.flagged).map Prod.snd
  else some (w.setRow l.msg.message_id none)

/-- The old message is removed. -/
def removeOld (ref : Option (PlayerGuid × UInt32)) (l : Letter) (freed : UInt32) :
    Option MailWorld :=
  if (w.m_mailBox l.msg.player_guid).isSome then w.DeleteMessage l.msg.player_guid ref l freed
  else w.dropRow l

/-- `MailSystem::ReturnToSender`. -/
def ReturnToSender (ref : Option (PlayerGuid × UInt32)) (l : Letter) (freed : UInt32) :
    Option MailWorld := do
  let w ← w.removeOld ref l freed
  w.DeliverMessage (w.returned l.msg) l.origin

/-! ## The handlers -/

/-- Three days from now, for a message that is to expire. -/
def shortExpiry (m : MailMessage) : MailMessage :=
  if w.noExpiry then m else { m with expire_time := w.now + TIME_DAY * 3 }

/-- A message that was read. -/
def readMessage (m : MailMessage) : MailMessage :=
  if m.returned_flag then { m with read_flag := true }
  else w.shortExpiry { m with read_flag := true }

/-- `HandleMarkAsRead`. -/
def HandleMarkAsRead (p : PlayerGuid) (message_id : UInt32) : Option MailWorld :=
  match w.GetMessage p message_id with
  | none => some w
  | some l =>
    if l.msg.Expired w.now then some w
    else w.saveEntry p message_id { l with msg := w.readMessage l.msg }

/-- `HandleMailDelete`. -/
def HandleMailDelete (p : PlayerGuid) (message_id freed : UInt32) : Option MailWorld :=
  match w.GetMessage p message_id with
  | none => some w
  | some l =>
    if l.msg.Expired w.now then some w
    else w.DeleteMessage p (some (p, message_id)) l freed

/-- A message from which something was taken. -/
def emptied (m : MailMessage) : MailMessage :=
  if m.items = [] ∧ m.money = 0 then w.shortExpiry m else m

def itemTaken (m : MailMessage) (lowguid : Guid) : MailMessage :=
  w.emptied { m with items := m.items.erase lowguid }

def moneyTaken (m : MailMessage) : MailMessage := w.emptied { m with money := 0 }

/-- The payment for a COD message. -/
def codPayment (m : MailMessage) : MailMessage where
  message_id := 0
  message_type := 0
  player_guid := m.sender_guid
  sender_guid := m.player_guid
  subject := "COD Payment: " ++ m.subject
  body := ""
  money := m.cod
  items := []
  cod := 0
  stationary := 1
  expire_time := 0
  delivery_time := w.now
  copy_made := false
  read_flag := false
  deleted_flag := false
  returned_flag := true

def setCoinage (p : PlayerGuid) (value : UInt32) : MailWorld :=
  { w with coinage := Function.update w.coinage p value }

/-- The payment leaves the taker and is delivered. -/
def payCod (p : PlayerGuid) (m : MailMessage) : Option MailWorld :=
  if 0 < m.cod then
    ((w.setCoinage p (debit (w.coinage p) m.cod)).attach (w.codPayment m)).DeliverMessage
      (w.codPayment m) w.log.length
  else some w

/-- An attachment is taken. -/
def take (a : Attachment) : MailWorld :=
  { w with
    loose := fun g => w.loose g || a == .item g
    taken := fun b => w.taken b + if b = a then 1 else 0 }

/-- `HandleTakeItem`. The item could be loaded and `stored`, or not. -/
def HandleTakeItem (p : PlayerGuid) (message_id : UInt32) (lowguid : Guid) (stored : Bool) :
    Option MailWorld :=
  match w.GetMessage p message_id with
  | none => some w
  | some l =>
    if l.msg.Expired w.now ∨ l.msg.items = [] ∨ lowguid ∉ l.msg.items then some w
    else if 0 < l.msg.cod ∧ w.coinage p < l.msg.cod then some w
    else if stored = false then some w
    else do
      let msg := w.itemTaken l.msg lowguid
      let w ← w.payCod p msg
      let w ← w.saveEntry p message_id { l with msg := { msg with cod := 0 } }
      some (w.take (.item lowguid))

/-- `HandleTakeMoney`. -/
def HandleTakeMoney (p : PlayerGuid) (message_id : UInt32) : Option MailWorld :=
  match w.GetMessage p message_id with
  | none => some w
  | some l =>
    if l.msg.Expired w.now ∨ l.msg.money = 0 then some w
    else if w.coinage p + l.msg.money ≥ PLAYER_MAX_GOLD then some w
    else do
      let w ← (w.setCoinage p (credit (w.coinage p) l.msg.money)).saveEntry p message_id
        { l with msg := w.moneyTaken l.msg }
      some (w.take (.money l.origin))

/-- `HandleReturnToSender`. -/
def HandleReturnToSender (p : PlayerGuid) (message_id freed : UInt32) : Option MailWorld :=
  match w.GetMessage p message_id with
  | none => some w
  | some l =>
    if l.msg.Expired w.now ∨ l.msg.returned_flag then some w
    else w.ReturnToSender (some (p, message_id)) l freed

/-- `HandleMailCreateTextItem`. The text item could be `stored`, or not. -/
def HandleMailCreateTextItem (p : PlayerGuid) (message_id : UInt32) (stored : Bool) :
    Option MailWorld :=
  match w.GetMessage p message_id with
  | none => some w
  | some l =>
    if l.msg.Expired w.now ∨ l.msg.copy_made ∨ stored = false then some w
    else w.saveEntry p message_id { l with msg := { l.msg with copy_made := true } }

/-- The text copy is gone. -/
def uncopied (l : Letter) : Letter := { l with msg := { l.msg with copy_made := false } }

/-- `Mailbox::OnMessageCopyDeleted`. -/
def OnMessageCopyDeleted (p : PlayerGuid) (message_id freed : UInt32) : Option MailWorld :=
  match w.GetMessage p message_id with
  | none => some w
  | some l =>
    if l.msg.deleted_flag then w.DeleteMessage p (some (p, message_id)) (uncopied l) freed
    else w.saveEntry p message_id (uncopied l)

/-! ## Expiry, login and logout -/

/-- `expiry_time > 0 and expiry_time <= now and deleted_flag = 0`. -/
def selected (l : Letter) : Bool :=
  0 < l.msg.expire_time && l.msg.expire_time ≤ w.now && !l.msg.deleted_flag

/-- The turn of `UpdateMessages` for a row of its result. -/
def expireMessage (l : Letter) : Option MailWorld :=
  if l.msg.items = [] ∧ l.msg.money = 0 then w.dropRow l else w.ReturnToSender none l 0

/-- `UpdateMessages`, when the database lists its rows in this order. -/
def UpdateMessages (order : List UInt32) : Option MailWorld :=
  ((order.dedup.filterMap w.mailbox).filter w.selected).foldlM expireMessage w

/-- `Mailbox::Load` at the login. -/
def login (p : PlayerGuid) : MailWorld :=
  match w.m_mailBox p with
  | some _ => w
  | none =>
    { w with
      m_mailBox := Function.update w.m_mailBox p (some fun id =>
        (w.mailbox id).filter fun l =>
          l.msg.player_guid = p ∧ (l.msg.deleted_flag = false ∨ l.msg.copy_made)) }

def logout (p : PlayerGuid) : MailWorld :=
  { w with m_mailBox := Function.update w.m_mailBox p none }

end MailWorld

/-- Everything that happens to mail. -/
inductive MailEvent where
  | send (m : MailMessage)
  | markAsRead (p : PlayerGuid) (message_id : UInt32)
  | mailDelete (p : PlayerGuid) (message_id freed : UInt32)
  | takeItem (p : PlayerGuid) (message_id : UInt32) (lowguid : Guid) (stored : Bool)
  | takeMoney (p : PlayerGuid) (message_id : UInt32)
  | returnToSender (p : PlayerGuid) (message_id freed : UInt32)
  | createTextItem (p : PlayerGuid) (message_id : UInt32) (stored : Bool)
  | copyDeleted (p : PlayerGuid) (message_id freed : UInt32)
  | updateMessages (order : List UInt32)
  | login (p : PlayerGuid)
  | logout (p : PlayerGuid)
  | clock (now : UInt32)

namespace MailWorld

def step (w : MailWorld) : MailEvent → Option MailWorld
  | .send m => w.send m
  | .markAsRead p id => w.HandleMarkAsRead p id
  | .mailDelete p id freed => w.HandleMailDelete p id freed
  | .takeItem p id lowguid stored => w.HandleTakeItem p id lowguid stored
  | .takeMoney p id => w.HandleTakeMoney p id
  | .returnToSender p id freed => w.HandleReturnToSender p id freed
  | .createTextItem p id stored => w.HandleMailCreateTextItem p id stored
  | .copyDeleted p id freed => w.OnMessageCopyDeleted p id freed
  | .updateMessages order => w.UpdateMessages order
  | .login p => some (w.login p)
  | .logout p => some (w.logout p)
  | .clock now => some { w with now := now }

end MailWorld

end Mail

end HearthStone
