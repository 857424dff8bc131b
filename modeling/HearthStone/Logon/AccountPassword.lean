/-
HearthStone.Logon.AccountPassword — the password hashes the logon server
loads (`AccountCache.cpp`, `BigNumber.cpp`).

The column `password` holds either a text or, with encrypted passwords, the
hash of user and password in hexadecimal. Which of the two it is `AddAccount`
and `UpdateAccount` tell by the number of bytes of the number the text begins
with; what they take for a text they have the database convert.

SHA1 and the database's `UPPER` are parameters, and so is what lies in the
memory of a new account. The columns that are no part of the hash are left
out, and a statement is done before the next reload.
-/
import HearthStone.Lib.Hexadecimal
import HearthStone.Logon.AuthSocket
import HearthStone.Shared.Field

namespace HearthStone.Logon.Password

open Lib
open Database (cString)

/-! ## Hashes -/

/-- `uint8 SrpHash[20]`, and what SHA1 computes. -/
@[ext]
structure Digest where
  bytes : List UInt8
  length_eq : bytes.length = 20
  deriving DecidableEq

namespace Digest

variable (d : Digest)

theorem length_copy (bs : List UInt8) : ((bs ++ d.bytes.drop bs.length).take 20).length = 20 := by
  rw [List.length_take, List.length_append, List.length_drop, d.length_eq]
  omega

/-- `memcpy` to the beginning. -/
def copy (bs : List UInt8) : Digest := ⟨(bs ++ d.bytes.drop bs.length).take 20, d.length_copy bs⟩

theorem length_reverse : d.bytes.reverse.length = 20 := by rw [List.length_reverse, d.length_eq]

/-- `reverse_array`. -/
def reverse : Digest := ⟨d.bytes.reverse, d.length_reverse⟩

/-- The digits `SHA1` of the database returns. -/
def hexText : Text := hexChars d.bytes

end Digest

/-! ## Big numbers -/

def skipMinus (str : Text) : Text := if str.head? = some '-' then str.tail else str

/-- The digits that `BN_hex2bn` reads. -/
def leadingDigits (str : Text) : Text := (skipMinus str).takeWhile isHexDigit

/-- `SetHexStr`; the sign plays no part. -/
def setHexStr (str : Text) : Nat := hexValue (leadingDigits str)

/-- `GetNumBytes`. -/
def getNumBytes (n : Nat) : Nat := (LogonAuth.bytesOf n).length

/-! ## The data -/

/-- A row of `accounts`. -/
structure Row where
  acct : UInt32
  login : Text
  password : Text
  deriving DecidableEq

/-- `acct` is the primary key. -/
structure Table where
  rows : List Row
  nodup : (rows.map Row.acct).Nodup

structure Account where
  accountId : UInt32
  srpHash : Digest
  deriving DecidableEq

structure Server where
  /-- `m_encryptedPasswords` -/
  encrypted : Bool
  accountDatabase : Text → Option Account
  accounts : Table

namespace Row

variable (row : Row)

/-- `Username`, in upper case. -/
def username : Text := toUpper (cString row.login)

/-- `Password`, in upper case. -/
def upperPassword : Text := toUpper (cString row.password)

/-- `Username + ":" + Password`. -/
def userPassword : Text := row.username ++ ':' :: row.upperPassword

/-- `CONCAT(UPPER(login), ':', UPPER(password))`. -/
def concat (upper : Text → Text) : Text := upper row.login ++ ':' :: upper row.password

end Row

namespace Table

variable (t : Table)

theorem nodup_map {f : Row → Row} (hf : ∀ row, (f row).acct = row.acct) :
    ((t.rows.map f).map Row.acct).Nodup := by
  have hacct : Row.acct ∘ f = Row.acct := funext hf
  rw [List.map_map, hacct]
  exact t.nodup

/-- `UPDATE accounts SET password = .. WHERE acct = ..`, on one row. -/
def updatePassword (acct : UInt32) (f : Row → Text) (row : Row) : Row :=
  if row.acct = acct then { row with password := f row } else row

theorem acct_updatePassword (acct : UInt32) (f : Row → Text) (row : Row) :
    (updatePassword acct f row).acct = row.acct := by
  unfold updatePassword
  split_ifs
  · rfl
  · rfl

def setPassword (acct : UInt32) (f : Row → Text) : Table :=
  ⟨t.rows.map (updatePassword acct f), t.nodup_map (acct_updatePassword acct f)⟩

theorem nodup_filter (keep : Row → Bool) : ((t.rows.filter keep).map Row.acct).Nodup :=
  t.nodup.sublist (List.filter_sublist.map _)

/-- `DELETE FROM accounts WHERE acct = ..`. -/
def delete (acct : UInt32) : Table :=
  ⟨t.rows.filter fun row => row.acct ≠ acct, t.nodup_filter _⟩

end Table

section Load

variable (sha : Text → Digest) (upper : Text → Text)

/-! ## Loading -/

/-- What `AddAccount` and `UpdateAccount` put into `SrpHash`, over what is
there. -/
def srpHashOf (encrypted : Bool) (row : Row) (srpHash : Digest) : Digest :=
  if encrypted then
    let bn := setHexStr row.upperPassword
    if getNumBytes bn ≠ 20 then sha row.userPassword
    else if row.upperPassword.length = 40 then
      -- never, as the number has 20 bytes
      if getNumBytes bn < 20 then
        (srpHash.copy (LogonAuth.bytesOf bn ++ List.replicate (20 - getNumBytes bn) 0)).reverse
      else (srpHash.copy ((LogonAuth.bytesOf bn).take 20)).reverse
    else srpHash
  else sha row.userPassword

/-- The password is taken for one that is not encrypted, and the row is
converted. -/
def converts (encrypted : Bool) (row : Row) : Bool :=
  encrypted && getNumBytes (setHexStr row.upperPassword) ≠ 20

namespace Server

variable (s : Server) (row : Row)

/-- The row in the database, after it was loaded. -/
def convert : Table :=
  if converts s.encrypted row then
    s.accounts.setPassword row.acct fun r => (sha (r.concat upper)).hexText
  else s.accounts

/-- Both functions, over the hash that is in the account before. -/
def load (srpHash : Digest) : Server :=
  { s with
    accountDatabase := Function.update s.accountDatabase row.username
      (some ⟨row.acct, srpHashOf sha s.encrypted row srpHash⟩)
    accounts := s.convert sha upper row }

def addAccount (fresh : Text → Digest) : Server := s.load sha upper row (fresh row.username)

/-- A row with another id is a duplicate, and deleted. -/
def updateAccount (acct : Account) : Server :=
  if row.acct ≠ acct.accountId then { s with accounts := s.accounts.delete row.acct }
  else s.load sha upper row acct.srpHash

/-- The loop of `ReloadAccounts`, over one row of the result. -/
def reloadRow (fresh : Text → Digest) (s : Server) (row : Row) : Server :=
  match s.accountDatabase row.username with
  | none => s.addAccount sha upper row fresh
  | some acct => s.updateAccount sha upper row acct

/-- Accounts that are in no row of the result are deleted. -/
def purge (rows : List Row) : Server :=
  { s with accountDatabase := fun name =>
      if (rows.map Row.username).contains name then s.accountDatabase name else none }

def reloadAccounts (fresh : Text → Digest) : Server :=
  (s.accounts.rows.foldl (reloadRow sha upper fresh) s).purge s.accounts.rows

/-- One reload after another. -/
def reloads (fresh : Nat → Text → Digest) : Nat → Server
  | 0 => s
  | n + 1 => (reloads fresh n).reloadAccounts sha upper (fresh n)

end Server

end Load

end HearthStone.Logon.Password
