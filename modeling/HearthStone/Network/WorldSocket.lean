/-
HearthStone.Network.WorldSocket — packets of a client's socket
(`WorldSocket.cpp`, `FastQueue.h`, `SocketLinux.cpp`).

* `outPacket`, `updateQueuedPackets` — sending: a packet goes into the
  send buffer or, when that has no room, into the overflow queue.
* `writeCallback` — the network thread sends from the front of the buffer.
* `readCallback`, `onRead` — receiving: bytes go into the receive buffer,
  and as many packets as it holds are taken out of it.

The overflow queue is the list of its elements, the first pushed first.
What the handlers do with a received packet, the packet log and the
buffer pool are left out. `log` and `wire` are what an observer sees:
they are written and never read.
-/
import HearthStone.Network.CircularBuffer
import HearthStone.Network.WowCrypt

namespace HearthStone

/-- `WORLDSOCKET_SENDBUF_SIZE`. -/
def WORLDSOCKET_SENDBUF_SIZE : Nat := 131078

/-- A `WorldPacket`. -/
structure WorldPacket where
  opcode : UInt16
  contents : List UInt8
  deriving DecidableEq, Repr

/-- What an observer of the sending side records. -/
inductive SendEntry
  /-- an `OutPacket` was accepted: it went out or was queued -/
  | accepted (p : WorldPacket)
  /-- a packet was put into the send buffer -/
  | sent (p : WorldPacket)
  /-- the cipher was initialized -/
  | keyed (c : WowCrypt)

structure WorldSocket where
  connected : Bool
  readBuffer : CircularBuffer
  writeBuffer : CircularBuffer
  queue : List WorldPacket
  crypt : WowCrypt
  mOpcode : UInt32
  mRemaining : UInt32
  mSize : UInt32
  log : List SendEntry
  wire : List UInt8

/-- `enum OUTPACKET_RESULT`. -/
inductive OutPacketResult
  | success
  | noRoomInBuffer
  | notConnected
  | socketError
  deriving DecidableEq, Repr

namespace WorldSocket

/-- A socket that has just been connected, with send and receive blocks
of the given sizes. -/
def connectedSocket (mem : Nat → UInt8) (sendSize sendBlock recvSize recvBlock : Nat)
    (crypt : WowCrypt) : WorldSocket where
  connected := true
  readBuffer := (CircularBuffer.new mem).allocate recvSize recvBlock
  writeBuffer := (CircularBuffer.new mem).allocate sendSize sendBlock
  queue := []
  crypt := crypt
  mOpcode := 0
  mRemaining := 0
  mSize := 0
  log := []
  wire := []

def record (w : WorldSocket) (e : SendEntry) : WorldSocket := { w with log := w.log ++ [e] }

/-! ## Sending -/

/-- `ServerPktHeader`: the size as the network has it, the opcode as the
machine has it. -/
def serverPktHeader (opcode : UInt16) (len : Nat) : List UInt8 :=
  let size : UInt16 := len.toUInt16 + 2
  [(size >>> 8).toUInt8, size.toUInt8, opcode.toUInt8, (opcode >>> 8).toUInt8]

/-- `_OutPacket`. -/
def tryOutPacket (w : WorldSocket) (p : WorldPacket) : OutPacketResult × WorldSocket :=
  let len := p.contents.length
  if w.connected = false then (.notConnected, w)
  else
    let (space, writeBuffer) := w.writeBuffer.getSpace
    let w := { w with writeBuffer }
    if space < len + 4 then (.noRoomInBuffer, w)
    else
      let (header, crypt) := w.crypt.encryptSend (serverPktHeader p.opcode len)
      let (rv, writeBuffer) := w.writeBuffer.write header
      let w := { w with crypt, writeBuffer }
      let (rv, w) :=
        if len > 0 ∧ rv then
          let (rv, writeBuffer) := w.writeBuffer.write p.contents
          (rv, { w with writeBuffer })
        else (rv, w)
      if rv then (.success, w.record (.sent p)) else (.socketError, w)

/-- The size check of `OutPacket`. -/
def tooLarge (p : WorldPacket) : Bool := p.contents.length + 10 > WORLDSOCKET_SENDBUF_SIZE

/-- `OutPacket`. -/
def outPacket (w : WorldSocket) (p : WorldPacket) : WorldSocket :=
  if tooLarge p then w
  else
    match w.tryOutPacket p with
    | (.success, w) => w.record (.accepted p)
    | (.noRoomInBuffer, w) => { w with queue := w.queue ++ [p] }.record (.accepted p)
    | (_, w) => w

/-- The loop of `UpdateQueuedPackets` over the queue. On an error the
comparison in `while((pck == _queue.Pop()))` takes the next packet off
as well and stops there. -/
def pushOut (w : WorldSocket) : List WorldPacket → WorldSocket
  | [] => { w with queue := [] }
  | p :: rest =>
    match w.tryOutPacket p with
    | (.success, w) => w.pushOut rest
    | (.noRoomInBuffer, w) => { w with queue := p :: rest }
    | (_, w) => { w with queue := rest.drop 1 }

/-- `UpdateQueuedPackets`. -/
def updateQueuedPackets (w : WorldSocket) : WorldSocket := w.pushOut w.queue

/-- `Socket::WriteCallback`, where `send` takes at most `n` bytes. -/
def writeCallback (w : WorldSocket) (n : Nat) : WorldSocket :=
  let bytes := min n w.writeBuffer.getContiguiousBytes
  { w with writeBuffer := w.writeBuffer.remove bytes
           wire := w.wire ++ Lib.load w.writeBuffer.mem w.writeBuffer.getBufferStart bytes }

/-- `_crypt.Init` when the session key has arrived. -/
def initCrypt (w : WorldSocket) (hmac : List UInt8 → List UInt8 → List UInt8) (k : List UInt8) :
    WorldSocket :=
  { w with crypt := .init hmac k }.record (.keyed (.init hmac k))

/-! ## Receiving -/

/-- `ntohs(Header.size)`. -/
def headerSize (header : List UInt8) : Nat := (header.getD 0 0).toNat * 256 + (header.getD 1 0).toNat

/-- `Header.cmd`. -/
def headerCmd (header : List UInt8) : UInt32 :=
  (header.getD 2 0).toUInt32 ||| ((header.getD 3 0).toUInt32 <<< 8) |||
    ((header.getD 4 0).toUInt32 <<< 16) ||| ((header.getD 5 0).toUInt32 <<< 24)

/-- The first half of the loop of `OnRead`: a header, if none is waiting
for its payload. None is the `return` for want of one. -/
def readHeader (w : WorldSocket) : Option WorldSocket :=
  if w.mRemaining = 0 then
    if w.readBuffer.getSize < 6 then none
    else
      let (bytes, readBuffer) := w.readBuffer.read 6
      let (header, crypt) := w.crypt.decryptRecv (bytes.getD [])
      let size : UInt32 := (headerSize header).toUInt32 - 4
      some { w with readBuffer, crypt, mRemaining := size, mSize := size
                    mOpcode := headerCmd header }
  else some w

/-- The second half: the payload, if it is all there. -/
def readPayload (w : WorldSocket) : Option (WorldPacket × WorldSocket) :=
  if w.mRemaining > 0 ∧ w.readBuffer.getSize < w.mRemaining.toNat then none
  else
    let (contents, readBuffer) :=
      if w.mRemaining > 0 then
        let (bytes, readBuffer) := w.readBuffer.read w.mRemaining.toNat
        (bytes.getD [], readBuffer)
      else ([], w.readBuffer)
    some (⟨w.mOpcode.toUInt16, contents⟩,
      { w with readBuffer, mRemaining := 0, mSize := 0, mOpcode := 0 })

/-- The loop of `OnRead`: the packets it hands on. The first argument
bounds the number of rounds. -/
def readLoop : Nat → WorldSocket → List WorldPacket × WorldSocket
  | 0, w => ([], w)
  | fuel + 1, w =>
    match w.readHeader with
    | none => ([], w)
    | some w =>
      match w.readPayload with
      | none => ([], w)
      | some (p, w) =>
        let (ps, w) := readLoop fuel w
        (p :: ps, w)

/-- `OnRead`; every round but the last takes something out of the buffer. -/
def onRead (w : WorldSocket) : List WorldPacket × WorldSocket :=
  readLoop (w.readBuffer.getSize + 1) w

/-- `Socket::ReadCallback`: `recv` finds `available`, at most as many
bytes as there is space are taken of it, and none mean a disconnect. -/
def readCallback (w : WorldSocket) (available : List UInt8) : List WorldPacket × WorldSocket :=
  if w.connected = false then ([], w)
  else
    let (space, readBuffer) := w.readBuffer.getSpace
    let bytes := available.take space
    if bytes = [] then ([], { w with readBuffer, connected := false })
    else
      let readBuffer := (readBuffer.receive readBuffer.getBuffer bytes).incrementWritten bytes.length
      onRead { w with readBuffer }

end WorldSocket

end HearthStone
