/-
HearthStone.Network.WowCrypt — the cipher of the packet headers
(`WowCrypt.cpp`, `RC4Engine.h`).

Only headers are encrypted, each in the state the one before left. Before
`Init` they pass unchanged. The keyed digest is the library's and stands
as an argument of `init`.
-/
import Mathlib.Logic.Function.Basic

namespace HearthStone

/-- `class RC4Engine`. -/
structure RC4Engine where
  perm : UInt8 → UInt8
  index1 : UInt8
  index2 : UInt8

namespace RC4Engine

/-- `perm[i]` and `perm[j]` exchanged. -/
def swap (perm : UInt8 → UInt8) (i j : UInt8) : UInt8 → UInt8 :=
  Function.update (Function.update perm i (perm j)) j (perm i)

/-- `Setup`: the permutation stirred with the key. -/
def setup (keybytes : List UInt8) : RC4Engine :=
  let stirred := (List.range 256).foldl (fun (s : (UInt8 → UInt8) × UInt8) i =>
    let j := s.2 + s.1 i.toUInt8 + keybytes.getD (i % keybytes.length) 0
    (swap s.1 i.toUInt8 j, j)) (id, 0)
  ⟨stirred.1, 0, 0⟩

/-- `Process`. -/
def process : RC4Engine → List UInt8 → List UInt8 × RC4Engine
  | e, [] => ([], e)
  | e, b :: bs =>
    let index1 := e.index1 + 1
    let index2 := e.index2 + e.perm index1
    let perm := swap e.perm index1 index2
    let out := process ⟨perm, index1, index2⟩ bs
    ((b ^^^ perm (perm index1 + perm index2)) :: out.1, out.2)

theorem length_process (e : RC4Engine) (bs : List UInt8) : (e.process bs).1.length = bs.length := by
  induction bs generalizing e with
  | nil => rfl
  | cons b bs ih =>
    unfold process
    rw [List.length_cons, List.length_cons, ih]

end RC4Engine

/-- `class WowCrypt`; without engines it is not initialized. -/
structure WowCrypt where
  initialized : Bool
  decrypt : RC4Engine
  encrypt : RC4Engine

namespace WowCrypt

def serverEncryptionKey : List UInt8 :=
  [0x22, 0xBE, 0xE5, 0xCF, 0xBB, 0x07, 0x64, 0xD9, 0x00, 0x45, 0x1B, 0xD0, 0x24, 0xB8, 0xD5, 0x45]

def serverDecryptionKey : List UInt8 :=
  [0xF4, 0x66, 0x31, 0x59, 0xFC, 0x83, 0x6E, 0x31, 0x31, 0x02, 0x51, 0xD5, 0x44, 0x31, 0x67, 0x98]

/-- The constructor. -/
def new : WowCrypt := ⟨false, ⟨id, 0, 0⟩, ⟨id, 0, 0⟩⟩

/-- `Init`: both engines keyed with a digest of the session key and
turned by 1024 bytes. -/
def init (hmac : List UInt8 → List UInt8 → List UInt8) (k : List UInt8) : WowCrypt :=
  let turned (key : List UInt8) : RC4Engine :=
    ((RC4Engine.setup ((hmac key k).take 20)).process (List.replicate 1024 0)).2
  ⟨true, turned serverDecryptionKey, turned serverEncryptionKey⟩

def decryptRecv (c : WowCrypt) (data : List UInt8) : List UInt8 × WowCrypt :=
  if c.initialized = false then (data, c)
  else ((c.decrypt.process data).1, { c with decrypt := (c.decrypt.process data).2 })

def encryptSend (c : WowCrypt) (data : List UInt8) : List UInt8 × WowCrypt :=
  if c.initialized = false then (data, c)
  else ((c.encrypt.process data).1, { c with encrypt := (c.encrypt.process data).2 })

theorem length_encryptSend (c : WowCrypt) (data : List UInt8) :
    (c.encryptSend data).1.length = data.length := by
  unfold encryptSend
  split
  · rfl
  · exact RC4Engine.length_process _ _

end WowCrypt

end HearthStone
