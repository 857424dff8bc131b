/-
HearthStone.Packet.Stream — the stream operators of `ByteBuffer`
(`ByteBuffer.h`).

* `access` — bytes of the storage. What is not there is undefined.
* `readAt`, `readNext` — `read<T>(pos)` and `read<T>()`.
* `appendBytes` — `append(src, cnt)` with its assertion.
* `Ty`, `Ty.Val` — the types the operators take, and their values.
* `write`, `read` — `operator<<` and `operator>>`.

A position is a number here. A `size_t` would have to be moved past
2^64 by reads alone to be anything else.
-/
import HearthStone.Lib.LittleEndian
import HearthStone.Packet.WoWGuid

namespace HearthStone.ByteBuffer

open Lib

variable (b : ByteBuffer)

/-! ## Bytes -/

/-- `&_storage[pos]`, `n` bytes of it. -/
def access (n pos : Nat) : Option (List UInt8) :=
  if pos + n ≤ b.storage.length then some ((b.storage.drop pos).take n) else none

/-- `read<T>(pos)`, for a type of `n` bytes. -/
def readAt (n pos : Nat) : Option (List UInt8) :=
  if pos + n > b.storage.length then some (List.replicate n 0) else b.access n pos

/-- `read<T>()`. -/
def readNext (n : Nat) : Option (List UInt8 × ByteBuffer) :=
  (b.readAt n b.rpos).map fun bytes => (bytes, b.setRpos (b.rpos + n))

/-- `read<uint8>()`. -/
def readByte : Option (UInt8 × ByteBuffer) :=
  b.readNext 1 |>.map fun r => (r.1.headD 0, r.2)

/-- The size from which on `append` fails. -/
def SIZE_LIMIT : Nat := 10000000

/-- `append(src, cnt)`. -/
def appendBytes (src : List UInt8) : Option ByteBuffer :=
  if src = [] then some b
  else if b.storage.length < SIZE_LIMIT then some (b.append src) else none

/-! ## Types -/

inductive IntWidth
  | w8
  | w16
  | w32
  | w64
  deriving DecidableEq

def IntWidth.bytes : IntWidth → Nat
  | .w8 => 1
  | .w16 => 2
  | .w32 => 4
  | .w64 => 8

inductive FloatWidth
  | single
  | double
  deriving DecidableEq

def FloatWidth.bytes : FloatWidth → Nat
  | .single => 4
  | .double => 8

/-- The bit pattern of infinity; a NaN has a greater one. -/
def FloatWidth.infinity : FloatWidth → Nat
  | .single => 0x7f800000
  | .double => 0x7ff0000000000000

/-- `std::vector` and `std::list` have the same two operators. -/
inductive Ty
  | bool
  | integer (width : IntWidth) (signed : Bool)
  | float (width : FloatWidth)
  | string
  | guid
  | sequence (t : Ty)
  | map (k v : Ty)

/-! ### Orders, for the keys of maps -/

/-- `operator<` of floating point numbers. -/
def floatLt (w : FloatWidth) (x y : BitVec (8 * w.bytes)) : Bool :=
  let magnitude (x : BitVec (8 * w.bytes)) : Nat := x.toNat % 2 ^ (8 * w.bytes - 1)
  let rank (x : BitVec (8 * w.bytes)) : Int := if x.msb then -(magnitude x) else magnitude x
  magnitude x ≤ w.infinity && magnitude y ≤ w.infinity && rank x < rank y

/-- `std::lexicographical_compare`. -/
def lexLt {α : Type} (lt : α → α → Bool) : List α → List α → Bool
  | _, [] => false
  | [], _ :: _ => true
  | x :: xs, y :: ys => lt x y || (!lt y x && lexLt lt xs ys)

/-- `operator<` of `std::pair`. -/
def pairLt {α β : Type} (lt : α → α → Bool) (lt' : β → β → Bool) (x y : α × β) : Bool :=
  lt x.1 y.1 || (!lt y.1 x.1 && lt' x.2 y.2)

/-- The values of a type and their order. -/
def Ty.sem : Ty → (V : Type) × (V → V → Bool)
  | .bool => ⟨Bool, fun x y => !x && y⟩
  | .integer w signed =>
    ⟨BitVec (8 * w.bytes), fun x y => if signed then x.slt y else x.ult y⟩
  | .float w => ⟨BitVec (8 * w.bytes), floatLt w⟩
  | .string => ⟨List UInt8, lexLt fun x y => x < y⟩
  | .guid => ⟨UInt64, fun x y => x < y⟩
  | .sequence t => ⟨List t.sem.1, lexLt t.sem.2⟩
  | .map k v => ⟨List (k.sem.1 × v.sem.1), lexLt (pairLt k.sem.2 v.sem.2)⟩

abbrev Ty.Val (t : Ty) : Type := t.sem.1

abbrev Ty.lt (t : Ty) : t.Val → t.Val → Bool := t.sem.2

/-- `std::map::insert`: an equivalent key keeps its value. -/
def insertKey {α β : Type} (lt : α → α → Bool) (k : α) (v : β) : List (α × β) → List (α × β)
  | [] => [(k, v)]
  | e :: m =>
    if lt e.1 k then e :: insertKey lt k v m
    else if lt k e.1 then (k, v) :: e :: m
    else e :: m

/-! ## Writing -/

/-- `(uint32)v.size()`. -/
def sizeBytes (n : Nat) : List UInt8 := leBytes 4 (n % 2 ^ 32)

/-- `operator<<(const WoWGuid &)`. -/
def appendGuid (v : WoWGuid) : Option ByteBuffer :=
  (b.appendBytes [v.guidmask]).bind fun b => b.appendBytes v.newGuid

/-- `operator<<`. -/
def write : (t : Ty) → t.Val → ByteBuffer → Option ByteBuffer
  | .bool, (v : Bool), b => b.appendBytes [if v then 1 else 0]
  | .integer w _, (v : BitVec (8 * w.bytes)), b => b.appendBytes (leBytes w.bytes v.toNat)
  | .float w, (v : BitVec (8 * w.bytes)), b => b.appendBytes (leBytes w.bytes v.toNat)
  | .string, (v : List UInt8), b => (b.appendBytes v).bind fun b => b.appendBytes [0]
  | .guid, (v : UInt64), b => b.appendGuid (.ofOld v)
  | .sequence t, (v : List t.Val), b =>
    (b.appendBytes (sizeBytes v.length)).bind fun b => v.foldlM (fun b x => write t x b) b
  | .map k t, (v : List (k.Val × t.Val)), b =>
    (b.appendBytes (sizeBytes v.length)).bind fun b =>
      v.foldlM (fun b e => (write k e.1 b).bind (write t e.2)) b

/-! ## Reading -/

/-- `operator>>(std::string &)`; the first argument bounds the turns of the loop. -/
def readString : Nat → ByteBuffer → Option (List UInt8 × ByteBuffer)
  | 0, _ => none
  | fuel + 1, b =>
    b.readByte.bind fun r =>
      if r.1 = 0 then some ([], r.2)
      else (readString fuel r.2).map fun s => (r.1 :: s.1, s.2)

/-- `operator>>(WoWGuid &)`. -/
def takeGuid : Option (WoWGuid × ByteBuffer) :=
  b.readByte.bind fun r =>
    (List.range (bitCount8 r.1)).foldlM (fun (s : WoWGuid × ByteBuffer) _ =>
      s.2.readByte.bind fun r => (s.1.appendField r.1).map fun v => (v, r.2))
      (WoWGuid.ofMask r.1, r.2)

/-- `while(vsize--) { T t; b >> t; v.push_back(t); }`. -/
def readMany {α : Type} (f : ByteBuffer → Option (α × ByteBuffer)) :
    Nat → ByteBuffer → Option (List α × ByteBuffer)
  | 0, b => some ([], b)
  | n + 1, b => (f b).bind fun r => (readMany f n r.2).map fun s => (r.1 :: s.1, s.2)

/-- `while(msize--) { b >> k >> v; m.insert(make_pair(k, v)); }`. -/
def readPairs {α β : Type} (lt : α → α → Bool) (f : ByteBuffer → Option (α × ByteBuffer))
    (g : ByteBuffer → Option (β × ByteBuffer)) :
    Nat → List (α × β) → ByteBuffer → Option (List (α × β) × ByteBuffer)
  | 0, m, b => some (m, b)
  | n + 1, m, b =>
    (f b).bind fun r => (g r.2).bind fun s => readPairs lt f g n (insertKey lt r.1 s.1 m) s.2

/-- `operator>>`. -/
def read : (t : Ty) → ByteBuffer → Option (t.Val × ByteBuffer)
  | .bool, b => b.readByte.map fun r => (decide (0 < r.1.toInt8), r.2)
  | .integer w _, b => (b.readNext w.bytes).map fun r => (BitVec.ofNat _ (ofLeBytes r.1), r.2)
  | .float w, b => (b.readNext w.bytes).map fun r => (BitVec.ofNat _ (ofLeBytes r.1), r.2)
  | .string, b => readString (b.storage.length - b.rpos + 1) b
  | .guid, b => b.takeGuid.map fun r => (r.1.oldguid, r.2)
  | .sequence t, b => (b.readNext 4).bind fun r => readMany (read t) (ofLeBytes r.1) r.2
  | .map k t, b =>
    (b.readNext 4).bind fun r => readPairs k.lt (read k) (read t) (ofLeBytes r.1) [] r.2

/-! ## Several values -/

/-- `b << x << y << ...`. -/
def writeAll (vs : List ((t : Ty) × t.Val)) (b : ByteBuffer) : Option ByteBuffer :=
  vs.foldlM (fun b v => write v.1 v.2 b) b

/-- `b >> x >> y >> ...`. -/
def readAll : List Ty → ByteBuffer → Option (List ((t : Ty) × t.Val) × ByteBuffer)
  | [], b => some ([], b)
  | t :: ts, b =>
    (read t b).bind fun r => (readAll ts r.2).map fun s => (⟨t, r.1⟩ :: s.1, s.2)

end HearthStone.ByteBuffer
