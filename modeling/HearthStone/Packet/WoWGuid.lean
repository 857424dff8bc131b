/-
HearthStone.Packet.WoWGuid — packed GUIDs (`WoWGuid.h`) and the three
overloads of `FastGUIDPack` (`WorldSocket.cpp`).

A packed GUID is a mask with a bit for each of the eight bytes that is
not zero, followed by those bytes. Bytes of a `uint64` are taken in the
order of a little-endian host.

`guidfields` is a memory of bytes, written at `fieldcount`. The two
assertions of `AppendField` make it partial; those of the two compile
functions hold because `Clear` comes right before.
-/
import HearthStone.Packet.ByteBuffer

namespace HearthStone

open Lib

/-- `((uint8*)&guid)[x]`. -/
def byteAt (guid : UInt64) (x : Nat) : UInt8 := (guid >>> UInt64.ofNat (8 * x)).toUInt8

/-! ## Counting bits -/

def bitCount1 (x : UInt8) : Nat := (x &&& 1).toNat
def bitCount2 (x : UInt8) : Nat := bitCount1 x + bitCount1 (x >>> 1)
def bitCount4 (x : UInt8) : Nat := bitCount2 x + bitCount2 (x >>> 2)
def bitCount8 (x : UInt8) : Nat := bitCount4 x + bitCount4 (x >>> 4)

/-! ## Fields and mask out of a GUID -/

/-- Where the fields go, the mask so far, and the next cell. -/
structure Packing where
  buffer : Nat → UInt8
  guidmask : UInt8
  j : Nat

/-- `if(*(test + x)) { buffer[j] = *(test + x); guidmask |= bit; j++; }`. -/
def packField (oldguid : UInt64) (s : Packing) (test : UInt8 × Nat) : Packing :=
  if byteAt oldguid test.2 ≠ 0 then
    ⟨store s.buffer s.j [byteAt oldguid test.2], s.guidmask ||| test.1, s.j + 1⟩
  else s

/-- The eight tests of `FastGUIDPack`. -/
def guidTests : List (UInt8 × Nat) :=
  [(1, 0), (2, 1), (4, 2), (8, 3), (16, 4), (32, 5), (64, 6), (128, 7)]

/-- `FastGUIDPack(oldguid, buffer, pos)`: the buffer, and the number of bytes. -/
def fastGUIDPackAt (oldguid : UInt64) (buffer : Nat → UInt8) (pos : Nat) : (Nat → UInt8) × Nat :=
  let s := guidTests.foldl (packField oldguid) ⟨buffer, 0, 1 + pos⟩
  (store s.buffer pos [s.guidmask], s.j - pos)

/-- The local array of the other two overloads. -/
def fastGUIDFields (oldguid : UInt64) : List UInt8 :=
  let s := guidTests.foldl (packField oldguid) ⟨fun _ => 0, 0, 1⟩
  load (store s.buffer 0 [s.guidmask]) 0 s.j

/-- `FastGUIDPack(ByteBuffer &, oldguid)`. -/
def ByteBuffer.fastGUIDPack (buf : ByteBuffer) (oldguid : UInt64) : ByteBuffer :=
  buf.append (fastGUIDFields oldguid)

/-- `FastGUIDPack(StackBuffer &, oldguid)`. -/
def StackBuffer.fastGUIDPack (buf : StackBuffer) (oldguid : UInt64) : Option StackBuffer :=
  buf.write (fastGUIDFields oldguid)

/-! ## WoWGuid -/

structure WoWGuid where
  oldguid : UInt64
  guidmask : UInt8
  guidfields : Nat → UInt8
  fieldcount : Nat
  compiled : Bool

namespace WoWGuid

/-- `Clear`. -/
def clear : WoWGuid := ⟨0, 0, fun _ => 0, 0, false⟩

variable (v : WoWGuid)

/-- One round of the loop of `_CompileByOld`. -/
def compileByte (x : Nat) : WoWGuid :=
  let p := byteAt v.oldguid x
  if p ≠ 0 then
    { v with
      guidfields := store v.guidfields v.fieldcount [p]
      fieldcount := v.fieldcount + 1
      guidmask := v.guidmask ||| 1 <<< UInt8.ofNat x }
  else v

def compileByOld : WoWGuid :=
  { (List.range 8).foldl compileByte { v with fieldcount := 0 } with compiled := true }

/-- `if(guidmask & bit) { oldguid |= (uint64)guidfields[j] << shift; j++; }`. -/
def compileBit (guidmask : UInt8) (guidfields : Nat → UInt8) (s : UInt64 × Nat)
    (bit : UInt8 × UInt64) : UInt64 × Nat :=
  if guidmask &&& bit.1 ≠ 0 then (s.1 ||| (guidfields s.2).toUInt64 <<< bit.2, s.2 + 1) else s

/-- The eight tests of `_CompileByNew`. -/
def maskTests : List (UInt8 × UInt64) :=
  [(0x01, 0), (0x02, 8), (0x04, 16), (0x08, 24), (0x10, 32), (0x20, 40), (0x40, 48), (0x80, 56)]

def compileByNew : WoWGuid :=
  { v with
    oldguid := (maskTests.foldl (compileBit v.guidmask v.guidfields) (v.oldguid, 0)).1
    compiled := true }

/-- `WoWGuid(uint64 guid)`. -/
def ofOld (guid : UInt64) : WoWGuid := compileByOld { clear with oldguid := guid }

/-- `Init(uint8 mask)`. -/
def ofMask (mask : UInt8) : WoWGuid :=
  if mask = 0 then compileByNew { clear with guidmask := mask } else { clear with guidmask := mask }

/-- `WoWGuid(uint8 mask, uint8 *fields)`. -/
def ofFields (mask : UInt8) (fields : Nat → UInt8) : WoWGuid :=
  if bitCount8 mask = 0 then { clear with guidmask := mask }
  else
    compileByNew
      { clear with
        guidmask := mask
        guidfields := store (fun _ => 0) 0 (load fields 0 (bitCount8 mask))
        fieldcount := bitCount8 mask }

/-- `AppendField`. -/
def appendField (field : UInt8) : Option WoWGuid :=
  if v.compiled ∨ v.fieldcount ≥ bitCount8 v.guidmask then none
  else
    let v' :=
      { v with guidfields := store v.guidfields v.fieldcount [field], fieldcount := v.fieldcount + 1 }
    some (if v'.fieldcount = bitCount8 v'.guidmask then v'.compileByNew else v')

/-- `AppendField` for one field after the other. -/
def appendFields (fields : List UInt8) : Option WoWGuid := fields.foldlM appendField v

/-- `GetNewGuid()`, all `GetNewGuidLen()` of it. -/
def newGuid : List UInt8 := load v.guidfields 0 (bitCount8 v.guidmask)

/-- Mask and fields. -/
def packed : List UInt8 := v.guidmask :: v.newGuid

end WoWGuid

namespace ByteBuffer

variable (b : ByteBuffer)

/-- `operator<<(const WoWGuid &)`. -/
def writeGuid (v : WoWGuid) : ByteBuffer := (b.append [v.guidmask]).append v.newGuid

/-- `operator>>(WoWGuid &)`. -/
def readGuid : Option (WoWGuid × ByteBuffer) :=
  let (mask, b) := b.readUInt8
  (List.range (bitCount8 mask)).foldlM (fun (s : WoWGuid × ByteBuffer) _ =>
    let (field, b) := s.2.readUInt8
    (s.1.appendField field).map fun v => (v, b)) (WoWGuid.ofMask mask, b)

end ByteBuffer

end HearthStone
