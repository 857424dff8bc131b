/-
HearthStone.Mail.SendMail — `WorldSession::HandleSendMail`
(`MailSystem.cpp`).

* `getItemByGUID`, `getInventorySlotByGuid` — what the attachments are
  looked up with.
* `sendMailRefusal` — the checks, in the order of the code. They read and
  write nothing.
* `sendMail` — the cost is taken, the attachments leave the inventory one
  by one, and the message is delivered.

The cost is an `int32` to which the `uint32` money of the client is
added. `delivered` is what `DeliverMessage` was called with; saving the
message and telling the recipient are left out.
-/
import HearthStone.Item.ItemInterface
import HearthStone.Lib.Run

namespace HearthStone

namespace ItemWorld

variable (w : ItemWorld) (me : PlayerGuid)

/-- `GetItemByGUID`: equipment, bags and their cells, backpack, keyring. A
slot for bags that holds no bag is passed over. -/
def getItemByGUID (g : Guid) : Option Guid :=
  let inBags := (slotRange INVENTORY_SLOT_BAG_START INVENTORY_SLOT_BAG_END).any fun i =>
    match w.bagAt me i fun _ => true with
    | none => false
    | some b => b = g ||
        (slotRange 0 (w.containerSlots b)).any fun (j : Nat) => w.getItem b j = some g
  if (w.locateTop me g 0 EQUIPMENT_SLOT_END).isSome ∨ inBags ∨
      (w.locateTop me g INVENTORY_SLOT_ITEM_START INVENTORY_SLOT_ITEM_END).isSome ∨
      (w.locateTop me g INVENTORY_KEYRING_START INVENTORY_KEYRING_END).isSome
  then some g else none

/-- `GetInventorySlotByGuid`. -/
def getInventorySlotByGuid (g : Guid) : Int :=
  let slots := slotRange 0 INVENTORY_SLOT_ITEM_END ++
    slotRange INVENTORY_KEYRING_START INVENTORY_KEYRING_END
  match slots.find? fun i => w.slots (.top me i) = some g with
  | some i => i
  | none => INVENTORY_SLOT_NOT_SET

end ItemWorld

namespace Mail

def MAIL_FLAG_NO_COST_FOR_GM : UInt32 := 1
def MAIL_FLAG_CAN_SEND_TO_OPPOSITE_FACTION : UInt32 := 2
def MAIL_FLAG_CAN_SEND_TO_OPPOSITE_FACTION_GM : UInt32 := 4
def MAIL_FLAG_DISABLE_POSTAGE_COSTS : UInt32 := 8
def MAIL_FLAG_DISABLE_HOUR_DELAY_FOR_ITEMS : UInt32 := 16
def MAIL_FLAG_NO_EXPIRY : UInt32 := 32

def TIME_DAY : UInt32 := 86400

/-- `enum MailError`, the values `HandleSendMail` answers. -/
inductive MailError
  | ok
  | cannotSendToSelf
  | notEnoughMoney
  | recipientNotFound
  | notYourAlliance
  | internalError
  deriving DecidableEq, Repr

/-- What a mail reads of `PlayerInfo`. -/
structure PlayerInfo where
  guid : PlayerGuid
  team : UInt32
  acct : UInt32
  deriving DecidableEq

/-- `struct MailMessage`. -/
structure MailMessage where
  message_id : UInt32
  message_type : UInt32
  player_guid : PlayerGuid
  sender_guid : PlayerGuid
  subject : String
  body : String
  money : UInt32
  items : List Guid
  cod : UInt32
  stationary : UInt32
  expire_time : UInt32
  delivery_time : UInt32
  copy_made : Bool
  read_flag : Bool
  deleted_flag : Bool
  returned_flag : Bool
  deriving DecidableEq

/-- The session that sends, and the server around it. -/
structure Session where
  player : PlayerGuid
  team : UInt32
  accountId : UInt32
  permissionCount : Nat
  permissions : String
  /-- `sMailSystem.config_flags` -/
  config_flags : UInt32
  /-- `ObjectMgr::GetPlayerInfoByName` -/
  getPlayerInfoByName : String → Option PlayerInfo
  /-- `(uint32)UNIXTIME` -/
  now : UInt32

/-- The packet. -/
structure SendMailPacket where
  recepient : String
  subject : String
  body : String
  stationary : UInt32
  /-- the GUIDs of the attachments, as many as `itemcount` says -/
  items : List Guid
  money : UInt32
  cod : UInt32

/-- What a mail changes. -/
structure Postbox where
  /-- `PLAYER_FIELD_COINAGE` of the sender -/
  coinage : UInt32
  items : ItemWorld
  delivered : List MailMessage

namespace Session

variable (s : Session)

/-- `sMailSystem.MailOption(flag)`. -/
def mailOption (flag : UInt32) : Bool := s.config_flags &&& flag ≠ 0

/-- `HasGMPermissions`. -/
def hasGMPermissions : Bool := s.permissionCount ≠ 0 && s.permissions.toList.contains 'a'

/-- The postage of any mail of the session. -/
def postage : UInt32 :=
  if ¬ s.mailOption MAIL_FLAG_DISABLE_POSTAGE_COSTS ∧
      ¬ (s.permissionCount ≠ 0 ∧ s.mailOption MAIL_FLAG_NO_COST_FOR_GM)
  then 30 else 0

/-- `int32 cost`. -/
def cost (money : UInt32) : Int32 := (s.postage + money).toInt32

def interfaction : Bool :=
  s.mailOption MAIL_FLAG_CAN_SEND_TO_OPPOSITE_FACTION ||
    (s.hasGMPermissions && s.mailOption MAIL_FLAG_CAN_SEND_TO_OPPOSITE_FACTION_GM)

/-- The check of one attachment. -/
def attachable (w : ItemWorld) (g : Guid) : Bool :=
  match w.getItemByGUID s.player g with
  | none => false
  | some g =>
    let real_item_slot := w.getInventorySlotByGuid s.player g
    !((w.item g).isSoulbound || (w.item g).isConjured ||
      (w.isContainer g && w.hasItems g) ||
      (0 ≤ real_item_slot && real_item_slot < INVENTORY_SLOT_ITEM_START))

/-- The first check that refuses the mail. -/
def sendMailRefusal (b : Postbox) (m : SendMailPacket) : Option MailError :=
  match s.getPlayerInfoByName m.recepient with
  | none => some .recipientNotFound
  | some player =>
    if ¬ m.items.all (s.attachable b.items) then some .internalError
    else if m.items.length > 12 ∨ m.body.toList.contains '%' ∨ m.subject.toList.contains '%' then
      some .internalError
    else if player.guid = s.player ∧ s.permissionCount = 0 then some .cannotSendToSelf
    else if m.stationary = 0x3d ∧ ¬ s.hasGMPermissions then some .internalError
    else if s.cost m.money < 0 then some .internalError
    else if b.coinage.toInt32 < s.cost m.money then some .notEnoughMoney
    else if ¬ s.interfaction ∧ player.team ≠ s.team then some .notYourAlliance
    else none

/-- The delivery time: an hour later for money, a COD, or nothing but
letters to another account. -/
def deliveryTime (player : PlayerInfo) (m : SendMailPacket) : UInt32 :=
  if (m.money ≠ 0 ∨ m.cod ≠ 0 ∨ (m.items.isEmpty ∧ player.acct ≠ s.accountId)) ∧
      ¬ s.mailOption MAIL_FLAG_DISABLE_HOUR_DELAY_FOR_ITEMS
  then s.now + 3600 else s.now

def expireTime (m : SendMailPacket) : UInt32 :=
  if s.mailOption MAIL_FLAG_NO_EXPIRY then 0
  else if m.cod ≠ 0 then s.now + TIME_DAY * 3
  else s.now + TIME_DAY * 30

/-- The loop over the attachments: the items left and the message's list. -/
def takeAttachments : List Guid → ItemWorld × List Guid → ItemWorld × List Guid
  | [], r => r
  | g :: gs, (w, taken) =>
    match w.safeRemoveByGuid s.player g with
    | (some g', w) =>
      if g' = g then
        let w := w.modify g fun it => { it with owner := none }
        takeAttachments gs (w.destructor g, taken ++ [g])
      else takeAttachments gs (w, taken)
    | (none, w) => takeAttachments gs (w, taken)

/-- The message, without its attachments. -/
def message (player : PlayerInfo) (m : SendMailPacket) : MailMessage where
  message_id := 0
  message_type := 0
  player_guid := player.guid
  sender_guid := s.player
  subject := m.subject
  body := m.body
  money := m.money
  items := []
  cod := m.cod
  stationary := m.stationary
  expire_time := s.expireTime m
  delivery_time := s.deliveryTime player m
  copy_made := false
  read_flag := false
  deleted_flag := false
  returned_flag := false

/-- `HandleSendMail`. -/
def sendMail (b : Postbox) (m : SendMailPacket) : MailError × Postbox :=
  match s.sendMailRefusal b m, s.getPlayerInfoByName m.recepient with
  | some e, _ => (e, b)
  | none, none => (.recipientNotFound, b)
  | none, some player =>
    let coinage := modUnsigned32Value b.coinage (-s.cost m.money)
    let (items, taken) := s.takeAttachments m.items (b.items, [])
    (.ok, { coinage, items
            delivered := b.delivered ++ [{ s.message player m with items := taken }] })

end Session

end Mail

end HearthStone

/-! ## Theorems

What a mail costs.

The cost is the postage and the money modulo 2^32, read as signed; the
two checks on it keep the coinage from being clamped, so a mail that is
sent always costs exactly that much (`coinage_sendMail`). It is the
postage and the money themselves unless their sum passes 2^32, which
the check for a negative cost was meant to exclude: the last thirty
values of the money make the cost small and positive again.

* `sendMail_refused` / `sendMail_sent` — the two outcomes.
* `exact_iff_postageFits` — one mail.
* `mail_gold_paid` — and coinage and mailed money over a run.
-/

namespace HearthStone.Mail

open Lib

variable {s : Session} {b b' : Postbox} {m : SendMailPacket}

/-! ## The two outcomes -/

theorem sendMail_refused {e : MailError} (h : s.sendMailRefusal b m = some e) :
    s.sendMail b m = (e, b) := by
  unfold Session.sendMail
  rw [h]

theorem recipient_of_not_refused (h : s.sendMailRefusal b m = none) :
    ∃ player, s.getPlayerInfoByName m.recepient = some player := by
  unfold Session.sendMailRefusal at h
  cases hp : s.getPlayerInfoByName m.recepient with
  | none => simp [hp] at h
  | some player => exact ⟨player, rfl⟩

/-- The two checks of the cost passed. -/
theorem cost_of_not_refused (h : s.sendMailRefusal b m = none) :
    ¬ s.cost m.money < 0 ∧ ¬ b.coinage.toInt32 < s.cost m.money := by
  obtain ⟨player, hp⟩ := recipient_of_not_refused h
  unfold Session.sendMailRefusal at h
  simp only [hp] at h
  split at h
  · cases h
  split at h
  · cases h
  split at h
  · cases h
  split at h
  · cases h
  split at h
  · cases h
  split at h
  · cases h
  rename_i hneg hpoor
  exact ⟨hneg, hpoor⟩

/-- No check answers `MAIL_OK`. -/
theorem refusal_ne_ok : s.sendMailRefusal b m ≠ some .ok := by
  unfold Session.sendMailRefusal
  repeat' split
  all_goals simp

theorem sendMail_sent (h : s.sendMailRefusal b m = none) :
    ∃ msg, (s.sendMail b m).1 = .ok ∧ msg.money = m.money ∧
      (s.sendMail b m).2.delivered = b.delivered ++ [msg] ∧
      (s.sendMail b m).2.coinage = debit b.coinage (s.postage + m.money) := by
  obtain ⟨player, hp⟩ := recipient_of_not_refused h
  unfold Session.sendMail
  simp only [h, hp]
  refine ⟨_, trivial, ?_, rfl, rfl⟩
  rfl

/-! ## The cost -/

theorem toInt32_lt_iff {x y : UInt32} (hy : y.toNat < 2 ^ 31) :
    ¬ x.toInt32 < y.toInt32 ↔ y.toNat ≤ x.toNat ∧ x.toNat < 2 ^ 31 := by
  have hsignedx : x.toInt32.toInt = x.toBitVec.toInt := rfl
  have hsignedy : y.toInt32.toInt = y.toBitVec.toInt := rfl
  have htox : x.toBitVec.toNat = x.toNat := rfl
  have htoy : y.toBitVec.toNat = y.toNat := rfl
  rw [Int32.lt_iff_toInt_lt, hsignedx, hsignedy, BitVec.toInt_eq_toNat_cond,
    BitVec.toInt_eq_toNat_cond, htox, htoy]
  split <;> split <;> omega

/-- What the two checks have established: the cost is in the lower half
and the coinage covers it. -/
theorem covered_of_not_refused (h : s.sendMailRefusal b m = none) :
    (s.postage + m.money).toNat ≤ b.coinage.toNat ∧ b.coinage.toNat < 2 ^ 31 := by
  obtain ⟨hneg, hpoor⟩ := cost_of_not_refused h
  unfold Session.cost at hneg hpoor
  rw [toInt32_neg_iff, Nat.not_le] at hneg
  exact (toInt32_lt_iff hneg).1 hpoor

/-- A mail that is sent costs the postage and the money modulo 2^32. -/
theorem coinage_sendMail (h : s.sendMailRefusal b m = none) :
    (s.sendMail b m).2.coinage.toNat + (s.postage.toNat + m.money.toNat) % 2 ^ 32 =
      b.coinage.toNat := by
  obtain ⟨hle, hlt⟩ := covered_of_not_refused h
  obtain ⟨msg, -, -, -, hcoinage⟩ := sendMail_sent h
  rw [hcoinage, ← UInt32.toNat_add]
  exact (debit_exact_iff _ _).2 (Or.inr ⟨hle, by omega⟩)

/-! ## One mail -/

/-- A delivered mail cost its money and its postage; a refused one left
the coinage, the items and the mailboxes alone. -/
def MailExact (s : Session) (b : Postbox) (m : SendMailPacket) : Prop :=
  ((s.sendMail b m).1 = .ok →
    (∃ msg, msg.money = m.money ∧ (s.sendMail b m).2.delivered = b.delivered ++ [msg]) ∧
      (s.sendMail b m).2.coinage.toNat + (m.money.toNat + s.postage.toNat) = b.coinage.toNat) ∧
    ((s.sendMail b m).1 ≠ .ok → (s.sendMail b m).2 = b)

/-- The mail is refused by a check, or money and postage fit the field. -/
def PostageFits (s : Session) (b : Postbox) (m : SendMailPacket) : Prop :=
  s.sendMailRefusal b m ≠ none ∨ m.money.toNat + s.postage.toNat < 2 ^ 32

theorem mailExact_of_refused (h : s.sendMailRefusal b m ≠ none) : MailExact s b m := by
  obtain ⟨e, he⟩ := Option.ne_none_iff_exists'.1 h
  have hne : e ≠ .ok := fun hok => refusal_ne_ok (hok ▸ he)
  unfold MailExact
  rw [sendMail_refused he]
  exact ⟨fun hok => absurd hok hne, fun _ => rfl⟩

theorem exact_iff_postageFits : MailExact s b m ↔ PostageFits s b m := by
  by_cases hrefused : s.sendMailRefusal b m ≠ none
  · exact iff_of_true (mailExact_of_refused hrefused) (Or.inl hrefused)
  rw [not_not] at hrefused
  obtain ⟨msg, hok, hmoney, hdelivered, -⟩ := sendMail_sent hrefused
  have hcost := coinage_sendMail hrefused
  unfold PostageFits
  constructor
  · intro hexact
    have hpaid := (hexact.1 hok).2
    -- the sum fits because a coinage that was in the lower half paid it
    have hcoinage := b.coinage.toNat_lt
    exact Or.inr (by omega)
  · intro hfits
    have hlt := hfits.resolve_left (fun h => h hrefused)
    rw [Nat.mod_eq_of_lt (by omega)] at hcost
    exact ⟨fun _ => ⟨⟨msg, hmoney, hdelivered⟩, by omega⟩, fun h => absurd hok h⟩

/-! ## Runs of mails -/

/-- The coinage of the sender and the money in the delivered mails. -/
def Postbox.gold (b : Postbox) : Nat :=
  b.coinage.toNat + (b.delivered.map fun msg => msg.money.toNat).sum

theorem gold_le_of_exact (h : MailExact s b m) : (s.sendMail b m).2.gold ≤ b.gold := by
  by_cases hok : (s.sendMail b m).1 = .ok
  · obtain ⟨⟨msg, hmoney, hdelivered⟩, hpaid⟩ := h.1 hok
    unfold Postbox.gold
    rw [hdelivered, List.map_append, List.sum_append]
    simp only [List.map_cons, List.map_nil, List.sum_cons, List.sum_nil, hmoney]
    omega
  · rw [h.2 hok]

/-- A mail costs exactly its money and its postage, and a refused one
changes nothing, precisely when it is refused or money and postage fit
32 bits; a run of such mails creates no gold. -/
theorem mail_gold_paid (s : Session) :
    (∀ (b : Postbox) (m : SendMailPacket), MailExact s b m ↔ PostageFits s b m) ∧
    ∀ (b b' : Postbox) (ms : List SendMailPacket),
      Run (Guarded (PostageFits s) (FunStep fun b m => (s.sendMail b m).2)) b ms b' →
        b'.gold ≤ b.gold := by
  refine ⟨fun b m => exact_iff_postageFits, fun b b' ms hrun => ?_⟩
  refine hrun.relates (fun _ => True) (fun x y : Postbox => y.gold ≤ x.gold) (fun _ => le_rfl)
    (fun _ _ _ h₁ h₂ => h₂.trans h₁) ?_ trivial
  rintro x m - - ⟨hfits, rfl⟩
  exact ⟨trivial, gold_le_of_exact (exact_iff_postageFits.2 hfits)⟩

/-! ### The last thirty values -/

/-- A player with 100 copper and no items, on a server that charges. -/
def senderBox : Postbox where
  coinage := 100
  items := ItemWorld.empty
  delivered := []

def senderSession : Session where
  player := ⟨11, by decide⟩
  team := 0
  accountId := 1
  permissionCount := 0
  permissions := ""
  config_flags := 0
  getPlayerInfoByName := fun _ => some ⟨⟨12, by decide⟩, 0, 2⟩
  now := 0

def letter (money : UInt32) : SendMailPacket where
  recepient := "Bob"
  subject := ""
  body := ""
  stationary := 41
  items := []
  money := money
  cod := 0

/-- Mailing 2^32 - 1 copper costs 29. -/
theorem mail_of_max_money_costs_29 :
    ¬ MailExact senderSession senderBox (letter 0xFFFFFFFF) ∧
      (senderSession.sendMail senderBox (letter 0xFFFFFFFF)).2.coinage = 71 ∧
      (senderSession.sendMail senderBox (letter 0xFFFFFFFF)).2.delivered.map MailMessage.money =
        [0xFFFFFFFF] := by
  refine ⟨?_, by decide, by decide⟩
  rw [exact_iff_postageFits]
  rintro (h | h)
  · exact h (by decide)
  · exact absurd h (by decide)

/-- Two letters with ten copper. -/
theorem mail_gold_paid_twice :
    (senderSession.sendMail (senderSession.sendMail senderBox (letter 10)).2 (letter 10)).2.gold ≤
      senderBox.gold := by
  refine (mail_gold_paid senderSession).2 _ _ [letter 10, letter 10]
    (.cons ⟨?_, rfl⟩ (.cons ⟨?_, rfl⟩ (.nil _)))
  · exact Or.inr (by decide)
  · exact Or.inr (by decide)

end HearthStone.Mail
