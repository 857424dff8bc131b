/-
HearthStone.Logon.ChallengeParser — how the two challenge handlers get a
packet out of the ring buffer (`AuthSocket.cpp`, `AuthStructs.h`).

What a call reads of the buffer's block and writes into the socket is
recorded. The memory of the socket begins at `m_challenge` and goes on behind
it. What comes of the packet is decided by `challengeCheck` and
`reconnectCheck`.

A handler is called whatever the first byte of the packet is, and the other
handlers take out any number of bytes.
-/
import HearthStone.Logon.AuthSocket
import HearthStone.Network.CircularBuffer

namespace HearthStone.ChallengeParser

open Lib LogonAuth

/-- Some bytes, from an address on. -/
structure Span where
  start : Nat
  length : Nat
  deriving DecidableEq

/-- `offsetof(sAuthLogonChallenge_C, I)` and its size. -/
def NAME_OFFSET : Nat := 34

def NAME_SIZE : Nat := 50

structure Socket where
  readBuffer : CircularBuffer
  /-- from `&m_challenge` on -/
  memory : Nat → UInt8
  connected : Bool

namespace Socket

variable (s : Socket)

def disconnect : Socket := { s with connected := false }

/-- `m_challenge`, and as much behind it as a handler takes for the name. -/
def challenge : Bytes := load s.memory 0 (NAME_OFFSET + 0x50)

/-- `memcpy(&m_challenge, ..)`. -/
def copy (bytes : Bytes) : Socket := { s with memory := store s.memory 0 bytes }

/-- `GetReadBuffer().Read(&m_challenge, n)`. -/
def read (n : Nat) : Socket :=
  { s.copy ((s.readBuffer.read n).1.getD []) with readBuffer := (s.readBuffer.read n).2 }

/-- "Null-terminate the account string". -/
def terminate : Socket :=
  { s with memory := store s.memory (NAME_OFFSET + nameLength s.challenge) [0] }

end Socket

/-- What a call did. -/
structure Call where
  /-- in the block of the buffer -/
  read : List Span
  /-- from `&m_challenge` on -/
  written : List Span
  /-- of a packet that was taken -/
  check : Option Check
  socket : Socket

/-- `full_size`. -/
def fullSize (c : CircularBuffer) : Nat := ofLeBytes (load c.mem (c.getBufferStart + 2) 2)

def sizeSpan (c : CircularBuffer) : Span := ⟨c.getBufferStart + 2, 2⟩

/-- What `Read` copies out of region A and then out of region B. -/
def sourceSpans (c : CircularBuffer) (n : Nat) : List Span :=
  [⟨c.regionAPointer, c.cutA n⟩, ⟨c.regionBPointer, c.cutB (n - c.cutA n)⟩]

/-- And where to. -/
def targetSpans (c : CircularBuffer) (n : Nat) : List Span :=
  [⟨0, c.cutA n⟩, ⟨c.cutA n, c.cutB (n - c.cutA n)⟩]

/-- The rest of a handler, as far as the name. -/
def conclude (s : Socket) (read written : List Span) (check : Check) : Call :=
  match check with
  | .disconnect => ⟨read, written, some check, s.disconnect⟩
  | .hash _ | .lookup _ =>
    ⟨read, written ++ [⟨NAME_OFFSET + nameLength s.challenge, 1⟩], some check, s.terminate⟩
  | .error _ | .patch _ => ⟨read, written, some check, s⟩

/-- `HandleChallenge`. -/
def handleChallenge (srv : LogonServer) (s : Socket) : Call :=
  let c := s.readBuffer
  if c.getContiguiousBytes < 4 then ⟨[], [], none, s⟩
  else if c.getSize < fullSize c + 4 then ⟨[sizeSpan c], [], none, s⟩
  else if fullSize c > CHALLENGE_SIZE then ⟨[sizeSpan c], [], none, s.disconnect⟩
  else
    let s := s.read (fullSize c + 4)
    conclude s (sizeSpan c :: sourceSpans c (fullSize c + 4)) (targetSpans c (fullSize c + 4))
      (challengeCheck srv s.challenge)

/-- `HandleReconnectChallenge`. -/
def handleReconnectChallenge (srv : LogonServer) (s : Socket) : Call :=
  let c := s.readBuffer
  if c.getContiguiousBytes < 4 then ⟨[], [], none, s⟩
  else if c.getSize < fullSize c + 4 then ⟨[sizeSpan c], [], none, s⟩
  else if fullSize c + 4 > CHALLENGE_SIZE then ⟨[sizeSpan c], [], none, s.disconnect⟩
  else
    -- copied twice, the first time without regard to the regions
    let s := (s.copy (load c.mem c.getBufferStart (fullSize c + 4))).read (fullSize c + 4)
    conclude s
      (sizeSpan c :: ⟨c.getBufferStart, fullSize c + 4⟩ :: sourceSpans c (fullSize c + 4))
      (⟨0, fullSize c + 4⟩ :: targetSpans c (fullSize c + 4))
      (reconnectCheck srv s.challenge)

/-! ## The socket over time -/

inductive Event where
  | receive (available : Bytes)
  | challenge (srv : LogonServer)
  | reconnectChallenge (srv : LogonServer)
  /-- what another handler takes out -/
  | remove (len : Nat)

namespace Socket

variable (s : Socket)

/-- `ReadCallback`, before `OnRead`. -/
def receive (available : Bytes) : Socket :=
  let (space, c) := s.readBuffer.getSpace
  let bytes := available.take space
  if bytes = [] then { s with readBuffer := c }.disconnect
  else { s with readBuffer := (c.receive c.getBuffer bytes).incrementWritten bytes.length }

def step : Event → Socket
  | .receive available => if s.connected then s.receive available else s
  | .challenge srv => if s.connected then (handleChallenge srv s).socket else s
  | .reconnectChallenge srv => if s.connected then (handleReconnectChallenge srv s).socket else s
  | .remove len => if s.connected then { s with readBuffer := s.readBuffer.remove len } else s

end Socket

/-- The socket of the constructor; nothing else is in its memory than was
there. -/
def newSocket (mem memory : Nat → UInt8) (block : Nat) : Socket where
  readBuffer := (CircularBuffer.new mem).allocate 4096 block
  memory := memory
  connected := true

end HearthStone.ChallengeParser
