/-
HearthStone.Session.World — the sessions of the world server and its
login queue (`World.cpp`, and `InformationRetreiveCallback`,
`Authenticate` and `OnDisconnect` of `WorldSocket.cpp`).

Sessions are numbered as they are allocated, and `live` lists those not
deleted. `m_sessions` is an association list from accounts to sessions.

* `login` — a result of the logon server for an account, from the search
  for a session of it to the entry into the world or the queue.
* `admitLoop` — the loop of `UpdateQueuedSessions`.
* `onDisconnect`, `deleteGlobalSession` — the two ends.

`fromQueue`, `arrived` and `admitted` record who came through the queue
and in which order; the source has no such fields.
-/
import Mathlib

namespace HearthStone.Sessions

structure WorldSession where
  id : Nat
  /-- `_accountId` -/
  account : Nat
  /-- `_socket` -/
  socket : Option Nat
  /-- `HasGMPermissions` -/
  gm : Bool
  /-- `AddSession` and `AddGlobalSession` were called with it -/
  entered : Bool
  /-- and that from the queue -/
  fromQueue : Bool
  deriving DecidableEq

structure WorldSocket where
  connected : Bool
  /-- `Authed` -/
  authed : Bool
  /-- `mSession` -/
  session : Option Nat
  /-- `mQueued` -/
  queued : Bool
  deriving DecidableEq

/-- The constructor. -/
def WorldSocket.new : WorldSocket :=
  { connected := true, authed := false, session := none, queued := false }

structure World where
  live : List WorldSession
  /-- the number of the next session -/
  next : Nat
  /-- `m_sessions` -/
  sessions : AList fun _ : Nat => Nat
  /-- `mQueuedSessions` -/
  queued : List Nat
  socket : Nat → WorldSocket
  /-- `m_playerLimit` -/
  playerLimit : Nat
  /-- `m_queueUpdateTimer`, `mQueueUpdateInterval` -/
  timer : Nat
  interval : Nat
  /-- the sockets that were queued, in order -/
  arrived : List Nat
  /-- the sockets admitted from the queue, in order -/
  admitted : List Nat

namespace World

/-- The start of the server. Every socket that will ever connect is new. -/
def start (playerLimit interval : Nat) : World :=
  { live := [], next := 0, sessions := ∅, queued := [], socket := fun _ => .new, playerLimit
    timer := interval, interval, arrived := [], admitted := [] }

variable (w : World)

/-- `FindSession`. -/
def findSession (account : Nat) : Option Nat := w.sessions.lookup account

/-- The session that a pointer points to. -/
def get (i : Nat) : Option WorldSession := w.live.find? fun S => S.id = i

def setSocket (s : Nat) (sock : WorldSocket) : World :=
  { w with socket := Function.update w.socket s sock }

/-- A write to the session that a pointer points to. -/
def modify (i : Nat) (f : WorldSession → WorldSession) : World :=
  { w with live := w.live.map fun S => if S.id = i then f S else S }

/-! ## The ends -/

/-- `RemoveQueuedSocket`. -/
def removeQueuedSocket (s : Nat) : World := { w with queued := w.queued.erase s }

/-- `mSession->SetSocket(0)`. -/
def dropSocket (session : Option Nat) : World :=
  match session with
  | none => w
  | some i => w.modify i fun S => { S with socket := none }

/-- `Socket::Disconnect`, with `OnDisconnect`. -/
def onDisconnect (s : Nat) : World :=
  (if (w.socket s).queued then (w.dropSocket (w.socket s).session).removeQueuedSocket s
    else w.dropSocket (w.socket s).session).setSocket s
    { w.socket s with connected := false, session := none, queued := false }

/-- `WorldSession::Disconnect`. -/
def disconnectSession (S : WorldSession) : World :=
  match S.socket with
  | none => w
  | some s => if (w.socket s).connected then w.onDisconnect s else w

/-- The destructor of a session: `_socket->SetSession(0)`. -/
def forget (S : WorldSession) : World :=
  match S.socket with
  | none => w
  | some s => w.setSocket s { w.socket s with session := none }

/-- `DeleteGlobalSession`. -/
def deleteGlobalSession (S : WorldSession) : World :=
  { w.forget S with
    sessions := w.sessions.erase S.account
    live := w.live.filter fun T => T.id ≠ S.id }

/-! ## The ways in -/

/-- `Authenticate`, with `AddSession` and `AddGlobalSession`. -/
def authenticate (s : Nat) (fromQueue : Bool) : World :=
  match (w.socket s).session with
  | none => w.setSocket s { w.socket s with queued := false }
  | some i =>
    match w.get i with
    | none => w.setSocket s { w.socket s with queued := false }
    | some S =>
      { (w.setSocket s { w.socket s with queued := false }).modify i fun S =>
          { S with entered := true, fromQueue } with
        sessions := w.sessions.insert S.account i }

/-- `AddQueuedSocket`, with `mQueued = true`. -/
def addQueuedSocket (s : Nat) : World :=
  { w.setSocket s { w.socket s with queued := true } with
    queued := w.queued ++ [s], arrived := w.arrived ++ [s] }

/-- `new WorldSession`, with `mSession = pSession`. -/
def allocate (s account : Nat) (gm : Bool) : World :=
  { w.setSocket s { w.socket s with session := some w.next } with
    live := w.live ++ [⟨w.next, account, some s, gm, false, false⟩], next := w.next + 1 }

/-- `InformationRetreiveCallback` for an account whose result has no
error, where `proof` says that the digests agree. -/
def informationRetreiveCallback (s account : Nat) (gm proof : Bool) : World :=
  match w.findSession account with
  | some i =>
    match w.get i with
    | none => w
    | some S => w.disconnectSession S
  | none =>
    if proof then
      if w.sessions.entries.length < w.playerLimit ∨ gm then
        (w.allocate s account gm).authenticate s false
      else (w.allocate s account gm).addQueuedSocket s
    else w

/-- `HandleSessionInfo` for a socket that waits for this result. -/
def login (s account : Nat) (gm proof : Bool) : World :=
  if (w.socket s).authed ∨ (w.socket s).connected = false then w
  else
    (w.setSocket s { w.socket s with authed := true }).informationRetreiveCallback s account gm proof

/-- "Welcome": what the loop does with the first socket. -/
def welcome (s : Nat) : World :=
  match (w.socket s).session with
  | none => w
  | some _ => { w.authenticate s true with admitted := w.admitted ++ [s] }

/-- The loop of `UpdateQueuedSessions`. -/
def admitLoop : List Nat → World → World
  | [], w => { w with queued := [] }
  | s :: rest, w =>
    if w.sessions.entries.length < w.playerLimit then
      admitLoop rest ({ w with queued := rest }.welcome s)
    else { w with queued := s :: rest }

def updateQueuedSessions (diff : Nat) : World :=
  if diff ≥ w.timer then admitLoop w.queued { w with timer := w.interval }
  else { w with timer := w.timer - diff }

inductive Event where
  | login (s account : Nat) (gm proof : Bool)
  | updateQueue (diff : Nat)
  | disconnect (s : Nat)
  /-- `UpdateSessions` or a map deletes a session -/
  | delete (i : Nat)
  deriving DecidableEq

/-- One event. Only a session that has entered the world is deleted. -/
def step (w : World) : Event → World
  | .login s account gm proof => w.login s account gm proof
  | .updateQueue diff => w.updateQueuedSessions diff
  | .disconnect s => w.onDisconnect s
  | .delete i =>
    match w.get i with
    | none => w
    | some S => if S.entered then w.deleteGlobalSession S else w

end World

end HearthStone.Sessions
