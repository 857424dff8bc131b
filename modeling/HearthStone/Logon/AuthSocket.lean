/-
HearthStone.Logon.AuthSocket — how a client logs on (`AuthSocket.cpp`,
`AuthSocket.h`, `BigNumber.cpp`).

SHA1 is a parameter. A packet is handled when it is there as a whole;
random numbers, and what lies in memory behind a byte array, are
arguments of the packet.

* `bytesOf`, `readBytes` — `AsByteArray`, and a read of a fixed number of
  bytes from it.
* `verifier`, `publicB`, `secret`, `sessionKeyOf`, `expectedM1` — the
  arithmetic of the exchange.
* `challengeCheck`, `reconnectCheck` — what is tested before the account
  is looked up.
* `handleChallenge`, `handleProof`, `handleReconnectChallenge`,
  `handleReconnectProof` — the four handlers.
-/
import HearthStone.Lib.LittleEndian

namespace HearthStone.LogonAuth

open Lib

abbrev Bytes := List UInt8

/-! ## Big numbers -/

/-- The bytes of a number, least significant first and no more than it
has. -/
def bytesOf (n : Nat) : Bytes := (Nat.digits 256 n).map UInt8.ofNat

/-- `len` bytes read from the array of `n`, and from what lies behind it. -/
def readBytes (behind : Bytes) (len n : Nat) : Bytes := (bytesOf n ++ behind).take len

/-- `ModExp`. -/
def modExp (a e n : Nat) : Nat :=
  e.bits.foldr (fun bit acc => acc * acc * (if bit then a else 1) % n) (1 % n)

def N : Nat := 0x894B645E89E1535BBDAD5B8B290650530801B18EBFBF5E8FAB3C82872A3E9BB7

def g : Nat := 7

section Srp

variable (sha : Bytes → Bytes)

/-- `v = g.ModExp(x, N)`, of the salt and the password hash. -/
def verifier (behind : Bytes) (s : Nat) (srpHash : Bytes) : Nat :=
  modExp g (ofLeBytes (sha (readBytes behind 32 s ++ srpHash))) N

/-- `B = ((v * 3) + gmod) % N`. -/
def publicB (v b : Nat) : Nat := (v * 3 + modExp g b N) % N

/-- `S`. -/
def secret (v b B A : Nat) : Nat :=
  modExp (A * modExp v (ofLeBytes (sha (bytesOf A ++ bytesOf B))) N) b N

/-- Every other byte, from the first or the second on. -/
def everyOther (from' : Nat) (t : Bytes) : Bytes :=
  (List.range 16).map fun i => t.getD (2 * i + from') 0

def interleave : Bytes → Bytes → Bytes
  | a :: as, b :: bs => a :: b :: interleave as bs
  | _, _ => []

/-- `m_sessionkey`. -/
def sessionKeyOf (behind : Bytes) (S : Nat) : Nat :=
  ofLeBytes (interleave (sha (everyOther 0 (readBytes behind 32 S)))
    (sha (everyOther 1 (readBytes behind 32 S))))

/-- What the client has to prove. -/
def expectedM1 (behind username : Bytes) (s A B K : Nat) : Bytes :=
  readBytes behind 20 (ofLeBytes (sha
    (bytesOf (ofLeBytes (List.zipWith (· ^^^ ·) (sha (bytesOf N)) (sha (bytesOf g)))) ++
      bytesOf (ofLeBytes (sha username)) ++ bytesOf s ++ bytesOf A ++ bytesOf B ++ bytesOf K)))

end Srp

/-! ## The data -/

structure Account where
  accountId : Nat
  username : Bytes
  srpHash : Bytes
  banned : Nat
  sessionKey : Option Bytes
  forcedLocale : Bool
  locale : Bytes
  deriving DecidableEq

inductive BanStatus where
  | notBanned | timeLeftOnBan | permanentBan
  deriving DecidableEq

structure LogonServer where
  minBuild : Nat
  maxBuild : Nat
  /-- of the address of the client -/
  banStatus : BanStatus
  findPatch : Nat → Bytes → Option Nat
  /-- `GetAccount` -/
  getAccount : Bytes → Option Nat
  accounts : Nat → Account
  /-- `SELECT SessionKey FROM accounts` -/
  sessionKeyRow : Nat → Option Nat

inductive Error where
  | accountClosed | noAccount | serverFull | wrongBuildNumber | accountFreezed
  deriving DecidableEq

inductive Reply where
  | challengeError (error : Error)
  | patchSelected
  | challenge (B s : Nat)
  | patchJob
  | proof (M2 : Bytes)
  | reconnectChallenge (rs : Nat)
  | reconnectProof
  deriving DecidableEq

structure AuthSocket where
  /-- `m_challenge` -/
  challenge : Bytes
  account : Option Nat
  accountName : Bytes
  authenticated : Bool
  s : Nat
  v : Nat
  b : Nat
  B : Nat
  K : Nat
  rs : Nat
  sessionKey : Nat
  patch : Option Nat
  connected : Bool
  sent : List Reply

namespace AuthSocket

variable (sock : AuthSocket)

def send (reply : Reply) : AuthSocket := { sock with sent := sock.sent ++ [reply] }

def sendChallengeError (error : Error) : AuthSocket := sock.send (.challengeError error)

def disconnect : AuthSocket := { sock with connected := false }

/-- The packet is read over the cached challenge. -/
def cache (packet : Bytes) : AuthSocket :=
  { sock with challenge := packet ++ sock.challenge.drop packet.length }

end AuthSocket

/-! ## The challenge -/

/-- `sizeof(sAuthLogonChallenge_C)`. -/
def CHALLENGE_SIZE : Nat := 84

def build (m : Bytes) : Nat := ofLeBytes ((m.drop 11).take 2)

/-- The country, in the other direction. -/
def flippedLocale (m : Bytes) : Bytes := ((m.drop 21).take 4).reverse

def nameLength (m : Bytes) : Nat := (m.getD 33 0).toNat

/-- The account string, terminated at its length. -/
def nameOf (m : Bytes) : Bytes := ((m.drop 34).take (nameLength m)).takeWhile (· ≠ 0)

/-- What comes of the tests before the account is looked up. -/
inductive Check where
  | error (error : Error)
  | patch (patch : Option Nat)
  | disconnect
  | hash (name : Bytes)
  | lookup (name : Bytes)
  deriving DecidableEq

def challengeCheck (srv : LogonServer) (m : Bytes) : Check :=
  if build m > srv.maxBuild then .error .wrongBuildNumber
  else if build m < srv.minBuild then .patch (srv.findPatch (build m) (flippedLocale m))
  else if srv.banStatus = .permanentBan then .error .accountClosed
  else if srv.banStatus = .timeLeftOnBan then .error .accountFreezed
  else if nameLength m ≥ 0x50 then .disconnect
  else if '#'.toUInt8 ∈ nameOf m then .hash (nameOf m)
  else .lookup (nameOf m)

def reconnectCheck (srv : LogonServer) (m : Bytes) : Check :=
  if build m > srv.maxBuild ∨ build m < srv.minBuild then .error .wrongBuildNumber
  else if srv.banStatus = .permanentBan then .error .accountClosed
  else if srv.banStatus = .timeLeftOnBan then .error .accountFreezed
  else if nameLength m ≥ 50 then .disconnect
  else .lookup (nameOf m)

structure Session where
  srv : LogonServer
  sock : AuthSocket

namespace Session

variable (sha : Bytes → Bytes) (y : Session)

def setSock (sock : AuthSocket) : Session := { y with sock := sock }

/-- "update cached locale". -/
def updateLocale (acct : Nat) : Session :=
  if (y.srv.accounts acct).forcedLocale then y
  else { y with srv := { y.srv with
    accounts := Function.update y.srv.accounts acct
      { y.srv.accounts acct with locale := flippedLocale y.sock.challenge } } }

/-- The error for a banned account. -/
def banError (banned : Nat) : Error := if banned = 1 then .accountClosed else .accountFreezed

/-- The end of `HandleChallenge`, for an account that is not banned. -/
def computeB (acct b : Nat) (behind : Bytes) : Session :=
  let y := y.updateLocale acct
  let v := verifier sha behind y.sock.s (y.srv.accounts acct).srpHash
  y.setSock ({ y.sock with v := v, b := b, B := publicB v b }.send
    (.challenge (publicB v b) y.sock.s))

/-- `HandleChallenge`. -/
def handleChallenge (packet : Bytes) (b : Nat) (behind : Bytes) : Session :=
  if packet.length > CHALLENGE_SIZE + 4 then y.setSock y.sock.disconnect
  else
    let y := y.setSock (y.sock.cache packet)
    match challengeCheck y.srv y.sock.challenge with
    | .error error => y.setSock (y.sock.sendChallengeError error)
    | .patch none => y.setSock ({ y.sock with patch := none }.sendChallengeError .wrongBuildNumber)
    | .patch (some patch) => y.setSock ({ y.sock with patch := some patch }.send .patchSelected)
    | .disconnect => y.setSock y.sock.disconnect
    | .hash name => y.setSock { y.sock with accountName := name }
    | .lookup name =>
      let y := y.setSock { y.sock with accountName := name, account := y.srv.getAccount name }
      match y.sock.account with
      | none => y.setSock (y.sock.sendChallengeError .noAccount)
      | some acct =>
        -- the account is that of the packet by now, `v` and `B` are not
        if (y.srv.accounts acct).banned ≠ 0 then
          y.setSock (y.sock.sendChallengeError (banError (y.srv.accounts acct).banned))
        else y.computeB sha acct b behind

/-! ## The proof -/

/-- `m_sessionkey`, of what the socket holds. -/
def proofKey (A : Nat) (behind : Bytes) : Nat :=
  sessionKeyOf sha behind (secret sha y.sock.v y.sock.b y.sock.B A)

def proofM1 (acct A : Nat) (behind : Bytes) : Bytes :=
  expectedM1 sha behind (y.srv.accounts acct).username y.sock.s A y.sock.B
    (y.proofKey sha A behind)

/-- The account whose session key `HandleProof` stores, if it does. -/
def storesFor (A : Nat) (M1 behind : Bytes) : Option Nat :=
  y.sock.account.filter fun acct => M1 = y.proofM1 sha acct A behind

/-- `SetSessionKey`, and the row in the database. -/
def storeKey (acct key : Nat) (behind : Bytes) : Session :=
  { y with srv := { y.srv with
    accounts := Function.update y.srv.accounts acct
      { y.srv.accounts acct with sessionKey := some (readBytes behind 40 key) }
    sessionKeyRow := Function.update y.srv.sessionKeyRow (y.srv.accounts acct).accountId
      (some key) } }

/-- `HandleProof`. -/
def handleProof (A : Nat) (M1 behind : Bytes) : Session :=
  match y.sock.account with
  | none => if y.sock.patch.isSome then y.setSock (y.sock.send .patchJob) else y
  | some _ =>
    let key := y.proofKey sha A behind
    let y' := y.setSock { y.sock with sessionKey := key }
    match y.storesFor sha A M1 behind with
    | none => y'.setSock (y'.sock.sendChallengeError .noAccount)
    | some acct =>
      let y' := y'.storeKey acct key behind
      y'.setSock ({ y'.sock with authenticated := true }.send
        (.proof (sha (bytesOf A ++ bytesOf (ofLeBytes M1) ++ bytesOf key))))

/-! ## Reconnecting -/

/-- `HandleReconnectChallenge`. -/
def handleReconnectChallenge (packet : Bytes) (rs : Nat) : Session :=
  if packet.length > CHALLENGE_SIZE then y.setSock y.sock.disconnect
  else
    let y := y.setSock (y.sock.cache packet)
    match reconnectCheck y.srv y.sock.challenge with
    | .error error => y.setSock (y.sock.sendChallengeError error)
    | .disconnect => y.setSock y.sock.disconnect
    | .patch _ | .hash _ => y
    | .lookup name =>
      let y := y.setSock { y.sock with accountName := name, account := y.srv.getAccount name }
      match y.sock.account with
      | none => y.setSock (y.sock.sendChallengeError .noAccount)
      | some acct =>
        if (y.srv.accounts acct).banned ≠ 0 then
          y.setSock (y.sock.sendChallengeError (banError (y.srv.accounts acct).banned))
        else if (y.srv.accounts acct).sessionKey = none then
          y.setSock (y.sock.sendChallengeError .serverFull)
        else y.setSock ({ y.sock with rs := rs }.send (.reconnectChallenge rs))

/-- `HandleReconnectProof`. -/
def handleReconnectProof (R1 R2 : Bytes) : Session :=
  match y.sock.account with
  | none => y
  | some acct =>
    match y.srv.sessionKeyRow (y.srv.accounts acct).accountId with
    | none => y.setSock y.sock.disconnect
    | some K =>
      if R2 = sha (y.sock.accountName ++ bytesOf (ofLeBytes R1) ++ bytesOf y.sock.rs ++ bytesOf K) then
        y.setSock ({ y.sock with K := K, authenticated := true }.send .reconnectProof)
      else y.setSock { y.sock with K := K }

end Session

/-! ## Packets -/

inductive Packet where
  | challenge (packet : Bytes) (b : Nat) (behind : Bytes)
  | proof (A M1 : Bytes) (behind : Bytes)
  | reconnectChallenge (packet : Bytes) (rs : Nat)
  | reconnectProof (R1 R2 : Bytes)
  /-- accounts are loaded or banned meanwhile, and other sockets store keys -/
  | server (srv : LogonServer)

/-- One packet; none is handled after `Disconnect`. -/
def step (sha : Bytes → Bytes) (y : Session) : Packet → Session
  | .server srv => { y with srv := srv }
  | .challenge packet b behind =>
    if y.sock.connected then y.handleChallenge sha packet b behind else y
  | .proof A M1 behind => if y.sock.connected then y.handleProof sha (ofLeBytes A) M1 behind else y
  | .reconnectChallenge packet rs =>
    if y.sock.connected then y.handleReconnectChallenge packet rs else y
  | .reconnectProof R1 R2 => if y.sock.connected then y.handleReconnectProof sha R1 R2 else y

/-- The socket of the constructor. -/
def newSocket (s : Nat) : AuthSocket where
  challenge := []
  account := none
  accountName := []
  authenticated := false
  s := s
  v := 0
  b := 0
  B := 0
  K := 0
  rs := 0
  sessionKey := 0
  patch := none
  connected := true
  sent := []

end HearthStone.LogonAuth
