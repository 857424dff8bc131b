/-
HearthStone.Session.LogonComm — how a world socket asks the logon server
for its account (`LogonCommHandler.cpp`, `LogonCommClient.cpp` and the
parts of `WorldSocket.cpp` that they meet).

`_HandleAuthSession` runs on one thread and the results come in on
another. What holds `pendingLock` is one step; between `next_request++`,
the locked part of `ClientConnected`, and the two assignments of the
caller anything may happen.

* `authSession`, `register`, `assign`, `storePacket` — the four parts of
  `_HandleAuthSession`.
* `handleSessionInfo` — a result, with `InformationRetreiveCallback`.
* `onDisconnect` — the clean-up of a socket.

The state also lists the requests sent, those not yet answered, those
answered and those whose result a socket has used; the source has no such
lists, the law is about them.
-/
import Mathlib

namespace HearthStone.LogonComm

/-- A request: its id, and the socket that sent it. -/
abbrev Request := BitVec 32 × Nat

/-- How far a socket is in `_HandleAuthSession`. -/
inductive Progress where
  | idle
  /-- `next_request++` is done and a logon server is there -/
  | allocated (id : BitVec 32)
  /-- `ClientConnected` answers -1, no logon server is connected -/
  | refused
  /-- the request is sent and registered -/
  | registered (id : BitVec 32)
  /-- `mRequestID` is assigned -/
  | assigned
  deriving DecidableEq

structure WorldSocket where
  connected : Bool
  /-- `Authed` -/
  authed : Bool
  /-- `mRequestID` -/
  requestID : BitVec 32
  /-- `pAuthenticationPacket` is set -/
  packet : Bool
  progress : Progress
  /-- the id of the socket's latest request -/
  latest : Option (BitVec 32)
  deriving DecidableEq

/-- The constructor. -/
def WorldSocket.new : WorldSocket :=
  { connected := true, authed := false, requestID := 0, packet := false, progress := .idle
    latest := none }

/-- `LogonCommHandler`, and the world sockets. -/
structure LogonCommHandler where
  nextRequest : BitVec 32
  /-- `logons` has a connected logon server -/
  linked : Bool
  pendingLogons : BitVec 32 → Option Nat
  socket : Nat → WorldSocket
  requests : List Request
  unanswered : List Request
  answered : List Request
  applied : List Request

namespace LogonCommHandler

/-- The start of the server. Every socket that will ever connect is new. -/
def start : LogonCommHandler :=
  { nextRequest := 1, linked := true, pendingLogons := fun _ => none, socket := fun _ => .new
    requests := [], unanswered := [], answered := [], applied := [] }

variable (w : LogonCommHandler)

def setSocket (s : Nat) (sock : WorldSocket) : LogonCommHandler :=
  { w with socket := Function.update w.socket s sock }

/-- `pending_logons.erase(id)`. -/
def removeUnauthedSocket (id : BitVec 32) : LogonCommHandler :=
  { w with pendingLogons := Function.update w.pendingLogons id none }

/-! ## `_HandleAuthSession` -/

/-- `ClientConnected` up to its lock. -/
def authSession (s : Nat) : LogonCommHandler :=
  { w.setSocket s { w.socket s with
      progress := if w.linked then .allocated w.nextRequest else .refused } with
    nextRequest := w.nextRequest + 1 }

/-- `ClientConnected` under its lock: the request is sent, then stored. -/
def register (s : Nat) (id : BitVec 32) : LogonCommHandler :=
  { w.setSocket s { w.socket s with progress := .registered id, latest := some id } with
    pendingLogons := Function.update w.pendingLogons id (some s)
    requests := w.requests ++ [(id, s)]
    unanswered := w.unanswered ++ [(id, s)] }

/-- `Socket::Disconnect`, with `OnDisconnect`. -/
def onDisconnect (s : Nat) : LogonCommHandler :=
  if (w.socket s).requestID ≠ 0 then
    (w.removeUnauthedSocket (w.socket s).requestID).setSocket s
      { w.socket s with connected := false, requestID := 0 }
  else w.setSocket s { w.socket s with connected := false }

/-- `mRequestID = ClientConnected(…)`; -1 disconnects the socket. -/
def assign (s : Nat) (id : BitVec 32) : LogonCommHandler :=
  if id = 0xFFFFFFFF then
    (w.setSocket s { w.socket s with requestID := id, progress := .idle }).onDisconnect s
  else w.setSocket s { w.socket s with requestID := id, progress := .assigned }

/-- The rest of `_HandleAuthSession`. -/
def storePacket (s : Nat) : LogonCommHandler :=
  w.setSocket s { w.socket s with packet := true, progress := .idle }

/-! ## `HandleSessionInfo` -/

/-- `InformationRetreiveCallback`. A result with an error is told to the
client; one without needs the packet, and `mRequestID` is cleared. -/
def informationRetreiveCallback (s : Nat) (id : BitVec 32) (error : Bool) : LogonCommHandler :=
  if id ≠ (w.socket s).requestID then w
  else if error then { w with applied := w.applied ++ [(id, s)] }
  else if (w.socket s).packet = false then w
  else
    { w.setSocket s { w.socket s with requestID := 0 } with applied := w.applied ++ [(id, s)] }

def handleSessionInfo (id : BitVec 32) (error : Bool) : LogonCommHandler :=
  match w.pendingLogons id with
  | none => w
  | some s =>
    if (w.socket s).authed ∨ (w.socket s).connected = false then w
    else
      ((w.setSocket s { w.socket s with authed := true }).removeUnauthedSocket
        id).informationRetreiveCallback s id error

inductive Event where
  | authSession (s : Nat)
  | register (s : Nat)
  | assign (s : Nat)
  | storePacket (s : Nat)
  | disconnect (s : Nat)
  /-- the logon server's result for a request -/
  | result (r : Request) (error : Bool)
  /-- the link to the logon server comes or goes -/
  | link (up : Bool)
  /-- `Authenticate` gives the packet back -/
  | authenticate (s : Nat)
  deriving DecidableEq

/-- One event. Only requests not yet answered get a result. -/
def step (w : LogonCommHandler) : Event → Option LogonCommHandler
  | .authSession s => if (w.socket s).progress = .idle then some (w.authSession s) else none
  | .register s =>
    match (w.socket s).progress with
    | .allocated id => some (w.register s id)
    | _ => none
  | .assign s =>
    match (w.socket s).progress with
    | .registered id => some (w.assign s id)
    | .refused => some (w.assign s 0xFFFFFFFF)
    | _ => none
  | .storePacket s => if (w.socket s).progress = .assigned then some (w.storePacket s) else none
  | .disconnect s => some (w.onDisconnect s)
  | .result r error =>
    if r ∈ w.unanswered then
      some ({ w with unanswered := w.unanswered.erase r
                     answered := w.answered ++ [r] }.handleSessionInfo r.1 error)
    else none
  | .link up => some { w with linked := up }
  | .authenticate s =>
    if (w.socket s).authed then some (w.setSocket s { w.socket s with packet := false }) else none

end LogonCommHandler

end HearthStone.LogonComm
