/-
HearthStone.Logon.CharacterMapping — how many characters the accounts have on
a realm, told to the logon server (`LogonCommClient.cpp`,
`LogonCommServer.cpp`).

The realm counts the rows of `characters` in a `map<uint32, uint8>` and sends
its entries in chunks of 40000, each compressed. What zlib makes of the bytes
is a parameter.

* `mappingChunks` — the chunks of `HandleRequestAccountMapping`.
* `HandleMappingReply` — the entries of a chunk, written into the
  `CharacterMap` of their realm.

`HandleRegister` adds a realm with an empty map and asks for the mapping then.
-/
import HearthStone.Lib.OrderedMap
import HearthStone.Packet.ByteBuffer

namespace HearthStone.CharacterMapping

open Lib Lib.OrderedMap

local instance accountOrder : LinearOrder UInt32 where
  le_refl := UInt32.le_refl
  le_trans _ _ _ := UInt32.le_trans
  le_antisymm _ _ := UInt32.le_antisymm
  le_total := UInt32.le_total
  lt_iff_le_not_ge a b := by
    rw [UInt32.lt_iff_toNat_lt, UInt32.le_iff_toNat_le, UInt32.le_iff_toNat_le]
    omega
  toDecidableLE := inferInstance

/-- `map<uint32, uint8>`, in the order of the accounts. -/
abbrev Mapping := List (UInt32 × UInt8)

/-! ## The realm -/

/-- What `uncompressed` is filled with. -/
structure Chunk where
  realm_id : UInt32
  count : UInt32
  entries : Mapping

/-- The inner loop: `i` entries from the iterator on, or as many as remain.
`none` is a read past the end. -/
def fill : ℕ → Mapping → UInt32 → Option (Mapping × Mapping × UInt32)
  | 0, itr, Remaining => some ([], itr, Remaining)
  | _ + 1, [], _ => none
  | i + 1, e :: itr, Remaining =>
    if Remaining - 1 = 0 then some ([e], e :: itr, 0)
    else (fill i itr (Remaining - 1)).map fun r => (e :: r.1, r.2)

/-- The outer loop, as far as `n` rounds; `none` where they do not suffice. -/
def chunks (realm_id : UInt32) : ℕ → Mapping → UInt32 → Option (List Chunk)
  | 0, _, _ => none
  | n + 1, itr, Remaining => do
    let count := if Remaining > 40000 then 40000 else Remaining
    let (entries, itr, Remaining) ← fill 40000 itr Remaining
    if Remaining = 0 then return [⟨realm_id, count, entries⟩]
    let rest ← chunks realm_id n itr Remaining
    return ⟨realm_id, count, entries⟩ :: rest

variable {rows : List UInt32} {m itr : Mapping} {a : UInt32} {n : UInt8} {realm_id Remaining : UInt32}

/-- The chunks are of this realm, each counts its entries, and together they
have all entries from the iterator on. -/
structure Covers (realm_id : UInt32) (itr : Mapping) (cs : List Chunk) : Prop where
  entries : cs.flatMap Chunk.entries = itr
  realm : ∀ c ∈ cs, c.realm_id = realm_id
  count : ∀ c ∈ cs, c.count.toNat = c.entries.length
  short : ∀ c ∈ cs, c.entries.length ≤ 40000

open ByteBuffer

/-- What zlib makes of the mapping of three characters on realm 1, two of them
of account 7 and one of account 9; other bytes are not compressed. -/
def small : List UInt8 := [1, 0, 0, 0, 2, 0, 0, 0, 7, 0, 0, 0, 2, 9, 0, 0, 0, 1]

end HearthStone.CharacterMapping
