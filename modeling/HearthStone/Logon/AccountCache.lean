/-
HearthStone.Logon.AccountCache — the accounts and the banned addresses the
logon server keeps in memory, and the tables they are loaded from
(`AccountCache.cpp`, `LogonCommServer.cpp`).

A request of a world server changes the cache and sends one statement to
the database. Nothing else is written until the next reload.

* `Columns` says what the columns of the tables keep of a value; a
  statement the database refuses leaves the row as it was.
* Logins are compared without regard to case, by the default collation.
* `IPBanner::Add` leaves `Expire` as the memory is; that is an argument
  of the request here.

Passwords, locales and the flags of an account play no part.
-/
import Mathlib

namespace HearthStone

namespace Logon

abbrev Text := List Char

/-- `HEARTHSTONE_TOUPPER`. -/
def toUpper (s : Text) : Text := s.map Char.toUpper

/-! ## Numbers in a text -/

def isSign (c : Char) : Bool := c = '-' || c = '+'

/-- `isspace`: the blank and the five controls from the tabulator on. -/
def isSpace (c : Char) : Bool := c = ' ' || ('\t' ≤ c && c ≤ '\r')

/-- The text from the sign on. -/
def skipBlanks (s : Text) : Text := s.dropWhile isSpace

def skipSign (s : Text) : Text := if s.head?.any isSign then s.tail else s

def digits (s : Text) : Text := (skipSign s).takeWhile Char.isDigit

def afterDigits (s : Text) : Text := (skipSign s).dropWhile Char.isDigit

def value (ds : Text) : Nat := ds.foldl (fun n c => 10 * n + (c.toNat - '0'.toNat)) 0

/-- `strtoul` on 64 bits, cut down to 32. -/
def unsignedOf (s : Text) : UInt32 :=
  if value (digits s) ≥ 2 ^ 64 then 0xFFFFFFFF
  else if s.head? = some '-' then 0 - UInt32.ofNat (value (digits s))
  else UInt32.ofNat (value (digits s))

/-- `%u` of `sscanf`. -/
def scanUnsigned (s : Text) : Option (UInt32 × Text) :=
  if digits (skipBlanks s) = [] then none
  else some (unsignedOf (skipBlanks s), afterDigits (skipBlanks s))

def scanDot : Text → Option Text
  | '.' :: s => some s
  | _ => none

def packBytes (b0 b1 b2 b3 : UInt32) : UInt32 := b0 ||| (b1 <<< 8) ||| (b2 <<< 16) ||| (b3 <<< 24)

/-- `MakeIP`: 0 when the text is no address. -/
def makeIP (str : Text) : UInt32 :=
  ((scanUnsigned str).bind fun b0 => (scanDot b0.2).bind fun s =>
    (scanUnsigned s).bind fun b1 => (scanDot b1.2).bind fun s =>
      (scanUnsigned s).bind fun b2 => (scanDot b2.2).bind fun s =>
        (scanUnsigned s).map fun b3 => packBytes b0.1 b1.1 b2.1 b3.1).getD 0

/-- `atoi`, as the `unsigned int` it is stored in. -/
def atoi (str : Text) : UInt32 :=
  if (skipBlanks str).head? = some '-' then
    0 - UInt32.ofNat (min (value (digits (skipBlanks str))) (2 ^ 63))
  else UInt32.ofNat (min (value (digits (skipBlanks str))) (2 ^ 63 - 1))

/-! ## The data -/

structure Account where
  accountId : UInt32
  gmFlags : Option Text
  banned : UInt32
  muted : UInt32
  deriving DecidableEq

/-- A row of `accounts`. -/
structure AccountRow where
  acct : UInt32
  login : Text
  gm : Text
  banned : UInt32
  muted : UInt32
  deriving DecidableEq

structure IPBan where
  mask : UInt32
  bytes : UInt8
  expire : UInt32
  dbIp : Text
  deriving DecidableEq

/-- A row of `ipbans`. -/
structure IPBanRow where
  ip : Text
  expire : UInt32
  deriving DecidableEq

/-- `SetGMFlags`. -/
def gmFlagsOf (flags : Text) : Option Text :=
  if flags = [] ∨ flags = ['0'] then none else some flags

/-- A ban or mute that has run out is none; 0 and 1 are no times. -/
def unexpired (now t : UInt32) : UInt32 := if now > t ∧ t ≠ 0 ∧ t ≠ 1 then 0 else t

/-- What `AddAccount` and `UpdateAccount` make of a row. -/
def AccountRow.load (now : UInt32) (row : AccountRow) : Account :=
  ⟨row.acct, gmFlagsOf row.gm, unexpired now row.banned, unexpired now row.muted⟩

/-- The address and the number of bits; no ban is made when one is 0. -/
def ipBanOf (ip stmp smask : Text) (expire : UInt32) : Option IPBan :=
  if makeIP stmp = 0 ∨ atoi smask = 0 then none
  else some ⟨makeIP stmp, (atoi smask).toUInt8, expire, ip⟩

def beforeSlash (ip : Text) : Text := ip.takeWhile (· ≠ '/')

def afterSlash (ip : Text) : Text := (ip.dropWhile (· ≠ '/')).tail

/-- A row as `IPBanner::Reload` reads it. -/
def IPBanRow.load (row : IPBanRow) : Option IPBan :=
  ipBanOf row.ip (beforeSlash row.ip) (if '/' ∈ row.ip then afterSlash row.ip else ['3', '2'])
    row.expire

/-- What the columns keep. `none` is a statement that is refused. -/
structure Columns where
  /-- `UPDATE accounts SET banned, banReason`. -/
  banned : UInt32 → Text → Option UInt32
  gm : Text → Option Text
  muted : UInt32 → Option UInt32
  /-- `INSERT INTO ipbans VALUES` of two values. -/
  ipban : Text → UInt32 → Option IPBanRow

structure LogonServer where
  /-- `UNIXTIME`. -/
  now : UInt32
  accountDatabase : Text → Option Account
  accounts : List AccountRow
  banList : List IPBan
  ipbans : List IPBanRow

namespace LogonServer

variable (s : LogonServer)

/-! ## Loading -/

/-- `UPDATE accounts SET banned = 0`, or `muted = 0`, where one has run out. -/
def settle (row : AccountRow) : List AccountRow :=
  s.accounts.map fun r =>
    if r.acct = row.acct then
      { r with
        banned := if unexpired s.now row.banned = row.banned then r.banned else 0
        muted := if unexpired s.now row.muted = row.muted then r.muted else 0 }
    else r

def addAccount (row : AccountRow) : LogonServer :=
  { s with
    accountDatabase := Function.update s.accountDatabase (toUpper row.login) (some (row.load s.now))
    accounts := s.settle row }

/-- A row with another id is a duplicate, and deleted. -/
def updateAccount (acct : Account) (row : AccountRow) : LogonServer :=
  if row.acct ≠ acct.accountId then
    { s with accounts := s.accounts.filter fun r => decide (r.acct ≠ row.acct) }
  else s.addAccount row

/-- The loop of `ReloadAccounts`, over one row of the result. -/
def reloadRow (row : AccountRow) : LogonServer :=
  match s.accountDatabase (toUpper row.login) with
  | none => s.addAccount row
  | some acct => s.updateAccount acct row

def reloadRows (rows : List AccountRow) : LogonServer := rows.foldl reloadRow s

/-- Accounts that are in no row of the result are deleted. -/
def dropUnknown (rows : List AccountRow) : LogonServer :=
  { s with accountDatabase := fun name =>
      if name ∈ rows.map (fun row => toUpper row.login) then s.accountDatabase name else none }

/-- `IPBanner::Reload`. -/
def reloadBans : LogonServer := { s with banList := s.ipbans.filterMap IPBanRow.load }

def reloadAccounts : LogonServer := ((s.reloadRows s.accounts).dropUnknown s.accounts).reloadBans

/-! ## `HandleDatabaseModify` -/

/-- `UPDATE accounts SET .. WHERE login = ..`. -/
def updateRow (account : Text) (f : AccountRow → AccountRow) : List AccountRow :=
  s.accounts.map fun r => if toUpper r.login = toUpper account then f r else r

/-- The account is changed in memory, and its row in the table. -/
def writeAccount (account : Text) (f : Account → Account) (g : AccountRow → AccountRow) :
    LogonServer :=
  match s.accountDatabase account with
  | none => s
  | some acct =>
    { s with
      accountDatabase := Function.update s.accountDatabase account (some (f acct))
      accounts := s.updateRow account g }

/-- `IPBanner::Add`; `none` stands for false. -/
def addBan (ip : Text) (expire : UInt32) : Option IPBan :=
  if '/' ∈ ip then ipBanOf ip (beforeSlash ip) (afterSlash ip) expire else none

/-- An insertion into `ipbans`, whose key is the address. -/
def insertBan (row : Option IPBanRow) : List IPBanRow :=
  match row with
  | none => s.ipbans
  | some row => if row.ip ∈ s.ipbans.map (·.ip) then s.ipbans else s.ipbans ++ [row]

inductive Request
  | ban (account : Text) (duration : UInt32) (reason : Text)
  | setGM (account gm : Text)
  | mute (account : Text) (duration : UInt32)
  | ipBanAdd (ip : Text) (duration : UInt32) (memory : UInt32)
  | ipBanRemove (ip : Text)
  | other (method : UInt32)
  deriving DecidableEq

variable (columns : Columns)

def modify : Request → LogonServer
  | .ban account duration reason =>
    s.writeAccount (toUpper account) (fun acct => { acct with banned := duration }) fun row =>
      { row with banned := (columns.banned duration reason).getD row.banned }
  | .setGM account gm =>
    s.writeAccount (toUpper account)
      (fun acct => { acct with gmFlags := gmFlagsOf (toUpper account) }) fun row =>
        { row with gm := (columns.gm gm).getD row.gm }
  | .mute account duration =>
    s.writeAccount (toUpper account) (fun acct => { acct with muted := duration }) fun row =>
      { row with muted := (columns.muted duration).getD row.muted }
  | .ipBanAdd ip duration memory =>
    match addBan ip memory with
    | none => s
    | some ban =>
      { s with
        banList := s.banList ++ [ban]
        ipbans := s.insertBan (columns.ipban ip duration) }
  | .ipBanRemove ip =>
    if s.banList.any fun ban => decide (ban.dbIp = ip) then
      { s with
        banList := s.banList.eraseP fun ban => decide (ban.dbIp = ip)
        ipbans := s.ipbans.filter fun row => decide (row.ip ≠ ip) }
    else s
  | .other _ => s

/-- A request that comes from an allowed server or not, or the passing of
time. -/
inductive Event
  | request (allowed : Bool) (r : Request)
  | clock (now : UInt32)
  deriving DecidableEq

def step : Event → LogonServer
  | .request allowed r => if allowed then s.modify columns r else s
  | .clock now => { s with now := now }

/-- The start of the server, with the tables as they are. -/
def boot (now : UInt32) (accounts : List AccountRow) (ipbans : List IPBanRow) : LogonServer :=
  LogonServer.reloadAccounts ⟨now, fun _ => none, accounts, [], ipbans⟩

end LogonServer

end Logon

end HearthStone
