/-
HearthStone.Logon.AutoPatcher — patch jobs of the logon server
(`AutoPatcher.cpp`, `AutoPatcher.h`, and the transfer packets and
`OnDisconnect` of `AuthSocket.cpp`).

A pointer to a job is a number that is not given out twice. The bytes of
a patch are a list, and `m_dataPointer` is an offset into it. The write
buffer of a client is the circular buffer of its socket.

* `PatchJob.update` — one chunk, or nothing while the write buffer holds
  bytes.
* `walk` — the loop of `UpdateJobs`, which has no result where it steps
  the iterator beyond `end()`.
* `PatchMgr.step` — a packet, a disconnect, a pass, and what else happens
  to a client's write buffer.

A job keeps the offset it was asked for and the bytes it has put into the
write buffer; the source has no such fields, the transfer is judged by
them. So it is with `finished`, `aborted` and `updated`.
-/
import HearthStone.Lib.LittleEndian
import HearthStone.Network.CircularBuffer

namespace HearthStone.AutoPatcher

open Lib

/-! ## Patches -/

/-- `Patch`. `FileSize` is the length of `Data` and fits a `uint32`. -/
structure Patch where
  data : List UInt8
  version : Nat
  /-- `Locality`, four bytes in lower case -/
  locality : List UInt8
  sized : data.length < 2 ^ 32
  deriving DecidableEq

def Patch.fileSize (p : Patch) : Nat := p.data.length

/-- `tolower` of the C locale. -/
def toLower (b : UInt8) : UInt8 := if 65 ≤ b ∧ b ≤ 90 then b + 32 else b

/-- The loop of `FindPatchForClient`. -/
def findPatchLoop (version : Nat) (ulocality : List UInt8) :
    Option Patch → List Patch → Option Patch
  | fallbackPatch, [] => fallbackPatch
  | fallbackPatch, p :: rest =>
    if p.locality = ulocality then
      if p.version = version then some p
      else
        findPatchLoop version ulocality
          (if fallbackPatch = none ∧ p.version = 0 then some p else fallbackPatch) rest
    else findPatchLoop version ulocality fallbackPatch rest

def findPatchForClient (patches : List Patch) (version : Nat) (locality : List UInt8) :
    Option Patch :=
  findPatchLoop version ((locality.take 4).map toLower) none patches

/-! ## Jobs -/

structure PatchJob where
  /-- the pointer -/
  id : Nat
  patchToSend : Patch
  client : Nat
  bytesSent : Nat
  bytesLeft : Nat
  dataPointer : Nat
  /-- the offset the client asked for -/
  requested : Nat
  /-- what the job has put into the client's write buffer -/
  sent : List UInt8

namespace PatchJob

/-- The constructor. `skip` is below the file size, or zero. -/
def new (id : Nat) (patch : Patch) (client skip requested : Nat) : PatchJob :=
  { id, patchToSend := patch, client, bytesSent := skip, bytesLeft := patch.fileSize - skip
    dataPointer := skip, requested, sent := [] }

variable (j : PatchJob)

/-- `header.chunk_size`. -/
def chunkSize : Nat := if j.bytesLeft > 1500 then 1500 else j.bytesLeft

/-- `TransferDataPacket`, packed. -/
def header : List UInt8 := 0x31 :: leBytes 2 j.chunkSize

/-- `chunk_size` bytes at `m_dataPointer`. -/
def chunk : List UInt8 := (j.patchToSend.data.drop j.dataPointer).take j.chunkSize

/-- Bytes that `BurstSend` took. -/
def put (bytes : List UInt8) : PatchJob := { j with sent := j.sent ++ bytes }

def advance : PatchJob :=
  { j with dataPointer := j.dataPointer + j.chunkSize, bytesSent := j.bytesSent + j.chunkSize
           bytesLeft := j.bytesLeft - j.chunkSize }

/-- `Update`: its answer, the job, and the client's write buffer. -/
def update (buffer : CircularBuffer) : Bool × PatchJob × CircularBuffer :=
  if buffer.getSize ≠ 0 then (true, j, buffer)
  else
    match buffer.write j.header with
    | (false, buffer) => (decide (j.bytesLeft > 0), j, buffer)
    | (true, buffer) =>
      match buffer.write j.chunk with
      | (false, buffer) => (decide (j.bytesLeft > 0), j.put j.header, buffer)
      | (true, buffer) =>
        (decide (j.advance.bytesLeft > 0), (j.put (j.header ++ j.chunk)).advance, buffer)

end PatchJob

/-! ## Clients -/

/-- What the patcher uses of an `AuthSocket`. -/
structure AuthSocket where
  connected : Bool
  /-- `m_patch` -/
  patch : Option Patch
  /-- `m_patchJob` -/
  patchJob : Option Nat
  writeBuffer : CircularBuffer

/-- The constructor, with the block that `malloc` gave. The write buffer
has 32768 bytes. -/
def AuthSocket.new (connected : Bool) (mem : Nat → UInt8) (block : { b : Nat // b ≠ 0 }) :
    AuthSocket :=
  { connected, patch := none, patchJob := none
    writeBuffer := (CircularBuffer.new mem).allocate 32768 block }

/-- `PatchMgr`, and the clients of the server. -/
structure PatchMgr where
  patches : List Patch
  patchJobs : List PatchJob
  client : Nat → AuthSocket
  /-- the pointer that `new PatchJob` returns next -/
  nextJob : Nat
  /-- jobs that `UpdateJobs` deleted -/
  finished : List PatchJob
  /-- jobs that `AbortPatchJob` deleted -/
  aborted : List PatchJob
  /-- the jobs that the last pass updated, in order -/
  updated : List Nat

namespace PatchMgr

/-- A server that has loaded its patches, and its clients. -/
def start (patches : List Patch) (online : Nat → Bool) (mem : Nat → Nat → UInt8)
    (block : Nat → { b : Nat // b ≠ 0 }) : PatchMgr :=
  { patches, patchJobs := [], client := fun c => .new (online c) (mem c) (block c), nextJob := 0
    finished := [], aborted := [], updated := [] }

variable (m : PatchMgr)

def setClient (c : Nat) (s : AuthSocket) : PatchMgr :=
  { m with client := Function.update m.client c s }

def beginPatchJob (patch : Patch) (c skip requested : Nat) : PatchMgr :=
  { m.setClient c { m.client c with patchJob := some m.nextJob } with
    patchJobs := m.patchJobs ++ [.new m.nextJob patch c skip requested]
    nextJob := m.nextJob + 1 }

/-- `AbortPatchJob`: the loop erases the first entry that is the job. -/
def abortPatchJob (job : Nat) : PatchMgr :=
  { m with patchJobs := m.patchJobs.eraseP (fun j => j.id = job)
           aborted := m.aborted ++ m.patchJobs.filter (fun j => j.id = job) }

end PatchMgr

/-! ## `UpdateJobs` -/

/-- A pass on its way: the jobs behind the iterator, and what it did. -/
structure Pass where
  client : Nat → AuthSocket
  kept : List PatchJob
  finished : List PatchJob
  updated : List Nat

namespace Pass

variable (p : Pass) (j : PatchJob)

/-- The call of `Update`. -/
def answer : Bool × PatchJob × CircularBuffer := j.update (p.client j.client).writeBuffer

/-- The client after the call of `Update`. -/
def buffered : AuthSocket := { p.client j.client with writeBuffer := (p.answer j).2.2 }

/-- `Update` answered false: the client forgets the job, which is deleted
and erased. -/
def finish : Pass :=
  { p with client := Function.update p.client j.client { p.buffered j with patchJob := none }
           finished := p.finished ++ [(p.answer j).2.1]
           updated := p.updated ++ [j.id] }

/-- `Update` answered true. -/
def keep : Pass :=
  { p with client := Function.update p.client j.client (p.buffered j)
           kept := p.kept ++ [(p.answer j).2.1]
           updated := p.updated ++ [j.id] }

/-- The entry that the second `++itr` steps over. -/
def skip : Pass := { p with kept := p.kept ++ [j] }

end Pass

/-- The loop of `UpdateJobs`. `itr` is stepped before the update, and a
second time when the job stays. Behind the last job that step starts from
`end()` and has no meaning. -/
def walk : List PatchJob → Pass → Option Pass
  | [], p => some p
  | [j], p => if (p.answer j).1 then none else some (p.finish j)
  | j :: k :: rest, p =>
    if (p.answer j).1 then walk rest ((p.keep j).skip k) else walk (k :: rest) (p.finish j)

namespace PatchMgr

variable (m : PatchMgr)

def updateJobs : Option PatchMgr :=
  (walk m.patchJobs { client := m.client, kept := [], finished := m.finished, updated := [] }).map
    fun p => { m with client := p.client, patchJobs := p.kept, finished := p.finished
                      updated := p.updated }

/-! ## Packets -/

/-- The part of `HandleChallenge` for a client that is too old. -/
def selectPatch (c version : Nat) (locality : List UInt8) : PatchMgr :=
  m.setClient c { m.client c with patch := findPatchForClient m.patches version locality }

def handleTransferAccept (c : Nat) : PatchMgr :=
  match (m.client c).patch with
  | none => m
  | some p => m.beginPatchJob p c 0 0

/-- The offset in a resume packet, where `packet` is what stands behind
the command in the read buffer. -/
def resumeOffset (packet : List UInt8) : Nat := ofLeBytes (packet.take 8)

/-- The variable `size` of `HandleTransferResume`. A `Read` of too few
bytes copies nothing. -/
def resumeSize (packet : List UInt8) (uninitialised : BitVec 64) : Nat :=
  if 8 ≤ packet.length then resumeOffset packet else uninitialised.toNat

def handleTransferResume (c : Nat) (packet : List UInt8) (uninitialised : BitVec 64) : PatchMgr :=
  match (m.client c).patch with
  | none => m
  | some p =>
    if resumeSize packet uninitialised ≥ p.fileSize then m
    else m.beginPatchJob p c (resumeSize packet uninitialised % 2 ^ 32) (resumeOffset packet)

/-- `Socket::Disconnect`, with `OnDisconnect`. -/
def disconnect (c : Nat) : PatchMgr :=
  match (m.client c).patchJob with
  | none => m.setClient c { m.client c with connected := false }
  | some job =>
    (m.abortPatchJob job).setClient c { m.client c with connected := false, patchJob := none }

inductive Event where
  | challenge (c version : Nat) (locality : List UInt8)
  | accept (c : Nat)
  | resume (c : Nat) (packet : List UInt8) (uninitialised : BitVec 64)
  | cancel (c : Nat)
  | disconnect (c : Nat)
  /-- another answer to the client goes into its write buffer -/
  | send (c : Nat) (data : List UInt8)
  /-- the socket takes bytes out of the write buffer -/
  | written (c bytes : Nat)
  | updateJobs
  deriving DecidableEq

/-- One event. A packet arrives on a connected socket only. -/
def step (m : PatchMgr) : Event → Option PatchMgr
  | .challenge c version locality =>
    some (if (m.client c).connected then m.selectPatch c version locality else m)
  | .accept c => some (if (m.client c).connected then m.handleTransferAccept c else m)
  | .resume c packet uninitialised =>
    some (if (m.client c).connected then m.handleTransferResume c packet uninitialised else m)
  | .cancel c => some (if (m.client c).connected then m.disconnect c else m)
  | .disconnect c => some (m.disconnect c)
  | .send c data =>
    some (m.setClient c
      { m.client c with writeBuffer := ((m.client c).writeBuffer.write data).2 })
  | .written c bytes =>
    some (m.setClient c { m.client c with writeBuffer := (m.client c).writeBuffer.remove bytes })
  | .updateJobs => m.updateJobs

end PatchMgr

end HearthStone.AutoPatcher
