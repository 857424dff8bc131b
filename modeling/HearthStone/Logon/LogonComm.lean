/-
HearthStone.Logon.LogonComm — the link between a world server and the
logon server (`LogonCommServer.cpp`, `LogonCommClient.cpp`, `Socket.cpp`,
`SocketLinux.cpp`).

The world server is the client. It sends the digest of the link's
password in the clear, as a challenge, and both ends encrypt with that
digest from then on: the client before it sends the challenge, the server
when it handles it.

* `sendPacket` — header and body go into the send buffer, each encrypted
  on its own.
* `onReadTurn` — one turn of the loop of `OnRead`; between two turns, and
  between the two ends, anything else may happen.
* `LogonLink.step` — the two sockets and the bytes on their way.

An engine is a key and a position (`KeyPosition`). What handlers do
besides the authentication is not modelled; the packets they send are
steps of their own. The server sends none but from a handler of an
authenticated link, and the client sends one challenge, when it has
connected. `sent` and `delivered` are what an observer sees: they are
written and never read.
-/
import HearthStone.Lib.LittleEndian
import HearthStone.Network.Rc4Stream
import HearthStone.Network.WorldSocket

namespace HearthStone

open Lib

/-- A SHA-1 digest. -/
abbrev Digest := { bytes : List UInt8 // bytes.length = 20 }

/-- `LogonOpcodes.h`. -/
def RCMSG_AUTH_CHALLENGE : UInt16 := 9

def RSMSG_AUTH_RESPONSE : UInt16 := 10

/-- `swap32`. -/
def swap32 (p : UInt32) : UInt32 :=
  (p >>> (24 : UInt32) &&& (0xff : UInt32)) ||| (p >>> (8 : UInt32) &&& (0xff00 : UInt32)) |||
    (p <<< (8 : UInt32) &&& (0xff0000 : UInt32)) ||| p <<< (24 : UInt32)

/-- A packed `logonpacket` as it lies in memory. -/
def logonpacket (opcode : UInt16) (size : UInt32) : List UInt8 :=
  leBytes 2 opcode.toNat ++ leBytes 4 size.toNat

/-- `LogonCommServerSocket`, `LogonCommClientSocket` and what they have
of a `Socket`. -/
structure LogonCommSocket where
  connected : Bool
  deleted : Bool
  readBuffer : CircularBuffer
  writeBuffer : CircularBuffer
  /-- the loop of `OnRead` runs, under the read mutex -/
  reading : Bool
  opcode : UInt16
  remaining : UInt32
  useCrypto : Bool
  sendCrypto : KeyPosition
  recvCrypto : KeyPosition
  authenticated : UInt32
  sent : List WorldPacket
  delivered : List WorldPacket

namespace LogonCommSocket

/-- `Socket(fd, sendbuffersize, recvbuffersize)`, connected; `malloc` has
answered `sendBlock` and `recvBlock`. -/
def new (mem : Nat → UInt8) (sendSize sendBlock recvSize recvBlock : Nat) : LogonCommSocket where
  connected := true
  deleted := false
  readBuffer := (CircularBuffer.new mem).allocate recvSize recvBlock
  writeBuffer := (CircularBuffer.new mem).allocate sendSize sendBlock
  reading := false
  opcode := 0
  remaining := 0
  useCrypto := false
  sendCrypto := ⟨[], 0⟩
  recvCrypto := ⟨[], 0⟩
  authenticated := 0
  sent := []
  delivered := []

/-- `Socket::Disconnect`, with `Delete`. -/
def disconnect (s : LogonCommSocket) : LogonCommSocket :=
  { s with connected := false, deleted := true }

/-! ## Sending -/

/-- `sendCrypto.Process`, if the packet is encrypted. -/
def encrypt (s : LogonCommSocket) (crypto : Bool) (bytes : List UInt8) :
    List UInt8 × LogonCommSocket :=
  if crypto then ((s.sendCrypto.process bytes).1,
    { s with sendCrypto := (s.sendCrypto.process bytes).2 })
  else (bytes, s)

/-- `BurstSend`. -/
def burstSend (s : LogonCommSocket) (bytes : List UInt8) : Bool × LogonCommSocket :=
  ((s.writeBuffer.write bytes).1, { s with writeBuffer := (s.writeBuffer.write bytes).2 })

/-- The header of a packet. -/
def headerOf (p : WorldPacket) : List UInt8 :=
  logonpacket p.opcode (swap32 (UInt32.ofNat p.contents.length))

/-- `SendPacket`. -/
def sendPacket (s : LogonCommSocket) (no_crypto : Bool) (p : WorldPacket) : LogonCommSocket :=
  let crypto := s.useCrypto && !no_crypto
  let (header, s) := s.encrypt crypto (headerOf p)
  let (rv, s) := s.burstSend header
  let s :=
    if p.contents.length > 0 ∧ rv then
      let (body, s) := s.encrypt crypto p.contents
      (s.burstSend body).2
    else s
  { s with sent := s.sent ++ [p] }

/-- `Socket::WriteCallback`, where `send` takes at most `n` bytes: the
bytes it takes, and the socket. -/
def writeCallback (s : LogonCommSocket) (n : Nat) : List UInt8 × LogonCommSocket :=
  let bytes := min n s.writeBuffer.getContiguiousBytes
  (load s.writeBuffer.mem s.writeBuffer.getBufferStart bytes,
    { s with writeBuffer := s.writeBuffer.remove bytes })

/-! ## Receiving -/

/-- `Socket::ReadCallback` up to its call of `OnRead`, where `recv` finds
`available`: how many bytes it takes, and the socket. None mean a
disconnect, and none are taken where the buffer has no space. -/
def readCallback (s : LogonCommSocket) (available : List UInt8) : Nat × LogonCommSocket :=
  let (space, readBuffer) := s.readBuffer.getSpace
  let bytes := available.take space
  if bytes = [] then (0, { s with readBuffer }.disconnect)
  else
    let readBuffer := (readBuffer.receive readBuffer.getBuffer bytes).incrementWritten bytes.length
    (bytes.length, { s with readBuffer, reading := true })

/-- `recvCrypto.Process`, if the link is encrypted. -/
def decrypt (s : LogonCommSocket) (bytes : List UInt8) : List UInt8 × LogonCommSocket :=
  if s.useCrypto then ((s.recvCrypto.process bytes).1,
    { s with recvCrypto := (s.recvCrypto.process bytes).2 })
  else (bytes, s)

/-- `GetReadBuffer().Read`. -/
def readBytes (s : LogonCommSocket) (n : Nat) : List UInt8 × LogonCommSocket :=
  ((s.readBuffer.read n).1.getD [], { s with readBuffer := (s.readBuffer.read n).2 })

/-- The first half of a turn: a header, if none is waiting for its body.
None is the `return` for want of one. -/
def readHeader (s : LogonCommSocket) : Option LogonCommSocket :=
  if s.remaining = 0 then
    if s.readBuffer.getSize < 6 then none
    else
      let (opcode, s) := s.readBytes 2
      let (remaining, s) := s.readBytes 4
      let (opcode, s) := s.decrypt opcode
      let (remaining, s) := s.decrypt remaining
      some { s with opcode := UInt16.ofNat (ofLeBytes opcode)
                    remaining := swap32 (UInt32.ofNat (ofLeBytes remaining)) }
  else some s

/-- The second half: the packet, if all of it is there. -/
def readPacket (s : LogonCommSocket) : Option (WorldPacket × LogonCommSocket) :=
  if s.readBuffer.getSize < s.remaining.toNat then none
  else if s.remaining = 0 then some (⟨s.opcode, []⟩, s)
  else
    let (body, s) := s.readBytes s.remaining.toNat
    let (body, s) := s.decrypt body
    some (⟨s.opcode, body⟩, s)

/-- One turn of the loop of `OnRead`; a `return` ends it. -/
def onReadTurn (handlePacket : LogonCommSocket → WorldPacket → LogonCommSocket)
    (s : LogonCommSocket) : LogonCommSocket :=
  match s.readHeader with
  | none => { s with reading := false }
  | some s =>
    match s.readPacket with
    | none => { s with reading := false }
    | some (p, s) => { handlePacket s p with remaining := 0, opcode := 0 }

/-- A packet comes to `HandlePacket`. -/
def deliver (s : LogonCommSocket) (p : WorldPacket) : LogonCommSocket :=
  { s with delivered := s.delivered ++ [p] }

end LogonCommSocket

/-! ## The server -/

namespace LogonCommServerSocket

open LogonCommSocket

/-- The constructor. -/
def new (mem : Nat → UInt8) (sendBlock recvBlock : Nat) : LogonCommSocket :=
  LogonCommSocket.new mem 65536 sendBlock 524288 recvBlock

def sendPacket (s : LogonCommSocket) (p : WorldPacket) : LogonCommSocket := s.sendPacket false p

/-- `recvData.read(key, 20)`: too few bytes are read as zeros. -/
def readKey (p : WorldPacket) : List UInt8 :=
  if 20 ≤ p.contents.length then p.contents.take 20 else List.replicate 20 0

/-- The answer to a challenge: a number of four bytes. -/
def authResponse (result : UInt32) : WorldPacket := ⟨RSMSG_AUTH_RESPONSE, leBytes 4 result.toNat⟩

/-- `HandleAuthChallenge`. -/
def handleAuthChallenge (sqlHash : Digest) (s : LogonCommSocket) (p : WorldPacket) :
    LogonCommSocket :=
  let key := readKey p
  let result : UInt32 := if key ≠ sqlHash.1 then 0 else 1
  let s := { s with recvCrypto := ⟨key, 0⟩, sendCrypto := ⟨key, 0⟩, useCrypto := true }
  { sendPacket s (authResponse result) with authenticated := result }

/-- `HandlePacket`. -/
def handlePacket (sqlHash : Digest) (s : LogonCommSocket) (p : WorldPacket) : LogonCommSocket :=
  let s := s.deliver p
  if s.authenticated = 0 ∧ p.opcode ≠ RCMSG_AUTH_CHALLENGE then s.disconnect
  else if p.opcode = RCMSG_AUTH_CHALLENGE then handleAuthChallenge sqlHash s p
  else s

end LogonCommServerSocket

/-! ## The client -/

namespace LogonCommClientSocket

open LogonCommSocket

/-- The constructor. -/
def new (mem : Nat → UInt8) (sendBlock recvBlock : Nat) : LogonCommSocket :=
  LogonCommSocket.new mem 724288 sendBlock 262444 recvBlock

/-- `SendPacket`. -/
def sendPacket (s : LogonCommSocket) (p : WorldPacket) (no_crypto : Bool) : LogonCommSocket :=
  if s.connected = false ∨ s.deleted = true then s else s.sendPacket no_crypto p

/-- The challenge with the digest of the password. -/
def authChallenge (key : Digest) : WorldPacket := ⟨RCMSG_AUTH_CHALLENGE, key.1⟩

/-- `SendChallenge`. -/
def sendChallenge (key : Digest) (s : LogonCommSocket) : LogonCommSocket :=
  let s := { s with recvCrypto := ⟨key.1, 0⟩, sendCrypto := ⟨key.1, 0⟩, useCrypto := true }
  sendPacket s (authChallenge key) true

/-- `HandleAuthResponse`. -/
def handleAuthResponse (s : LogonCommSocket) (p : WorldPacket) : LogonCommSocket :=
  if p.contents.getD 0 0 ≠ 1 then { s with authenticated := 0xFFFFFFFF }
  else { s with authenticated := 1 }

/-- `HandlePacket`. -/
def handlePacket (s : LogonCommSocket) (p : WorldPacket) : LogonCommSocket :=
  let s := s.deliver p
  if p.opcode = RSMSG_AUTH_RESPONSE then handleAuthResponse s p else s

end LogonCommClientSocket

/-! ## The link -/

/-- Both ends, and the bytes on their way to each. -/
structure LogonLink where
  client : LogonCommSocket
  server : LogonCommSocket
  toClient : List UInt8
  toServer : List UInt8

inductive Side
  | client
  | server
  deriving DecidableEq, Repr

/-- What may happen next. -/
inductive LinkOp
  | send (side : Side) (p : WorldPacket)
  /-- `send` takes some bytes out of the send buffer -/
  | flush (side : Side) (n : Nat)
  /-- the next bytes have arrived and are received -/
  | receive (side : Side) (n : Nat)
  | turn (side : Side)
  /-- a timeout, or the other side's end of the stream -/
  | disconnect (side : Side)

namespace LogonLink

/-- Where `malloc` has put the buffers. -/
structure Blocks where
  mem : Nat → UInt8
  clientSend : Nat
  clientRecv : Nat
  serverSend : Nat
  serverRecv : Nat
  clientSend_ne : clientSend ≠ 0
  clientRecv_ne : clientRecv ≠ 0
  serverSend_ne : serverSend ≠ 0
  serverRecv_ne : serverRecv ≠ 0

/-- A link that has just been connected; the client has sent its challenge. -/
def start (blocks : Blocks) (passhash : Digest) : LogonLink where
  client := LogonCommClientSocket.sendChallenge passhash
    (LogonCommClientSocket.new blocks.mem blocks.clientSend blocks.clientRecv)
  server := LogonCommServerSocket.new blocks.mem blocks.serverSend blocks.serverRecv
  toClient := []
  toServer := []

/-- One step. A receive waits for the read mutex; a socket that is
disconnected is no longer told of any event. -/
def step (sqlHash : Digest) (l : LogonLink) : LinkOp → Option LogonLink
  | .send .client p =>
    if p.opcode = RCMSG_AUTH_CHALLENGE then none
    else some { l with client := LogonCommClientSocket.sendPacket l.client p false }
  | .send .server p =>
    if l.server.authenticated = 0 then none
    else some { l with server := LogonCommServerSocket.sendPacket l.server p }
  | .flush .client n =>
    if l.client.connected = false then none
    else some { l with client := (l.client.writeCallback n).2
                       toServer := l.toServer ++ (l.client.writeCallback n).1 }
  | .flush .server n =>
    if l.server.connected = false then none
    else some { l with server := (l.server.writeCallback n).2
                       toClient := l.toClient ++ (l.server.writeCallback n).1 }
  | .receive .client n =>
    if l.client.connected = false ∨ l.client.reading = true then none
    else
      let r := l.client.readCallback (l.toClient.take n)
      some { l with client := r.2, toClient := l.toClient.drop r.1 }
  | .receive .server n =>
    if l.server.connected = false ∨ l.server.reading = true then none
    else
      let r := l.server.readCallback (l.toServer.take n)
      some { l with server := r.2, toServer := l.toServer.drop r.1 }
  | .turn .client =>
    if l.client.reading = false then none
    else some { l with client := l.client.onReadTurn LogonCommClientSocket.handlePacket }
  | .turn .server =>
    if l.server.reading = false then none
    else some { l with
      server := l.server.onReadTurn (LogonCommServerSocket.handlePacket sqlHash) }
  | .disconnect .client => some { l with client := l.client.disconnect }
  | .disconnect .server => some { l with server := l.server.disconnect }

end LogonLink

end HearthStone
