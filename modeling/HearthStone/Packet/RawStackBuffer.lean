/-
HearthStone.Packet.RawStackBuffer — `StackBuffer.h` down to its memory:
positions, room, and what lies at `m_bufferPointer`.

* `memcpy` and `fetch` are undefined outside the `m_space` allocated
  bytes.
* `ReallocateOnHeap` adds 200 bytes, whatever is to be written. What a
  new block holds behind the copied bytes is `junk`.
* The integers and floats have operators of their own, which test that
  the bytes are there. All other reads go through `Read<T>`, whose test
  is the other way round.

Integers and floats are words of their width; allocation succeeds.
-/
import HearthStone.Lib.LittleEndian
import HearthStone.Packet.WoWGuidTheorems

namespace HearthStone

open Lib

/-- The types with read and write operators of their own. -/
inductive FastType where
  | uint64 | uint32 | uint16 | uint8 | int64 | int32 | int16 | int8 | float | double
  deriving DecidableEq, Repr

/-- `sizeof`. -/
def FastType.size : FastType → Nat
  | .uint64 | .int64 | .double => 8
  | .uint32 | .int32 | .float => 4
  | .uint16 | .int16 => 2
  | .uint8 | .int8 => 1

structure RawStackBuffer where
  m_readPos : Nat
  m_writePos : Nat
  m_space : Nat
  /-- the buffer has been moved to the heap -/
  m_heapBuffer : Bool
  /-- the bytes at `m_bufferPointer` -/
  memory : Nat → UInt8

namespace RawStackBuffer

variable (junk : Nat → UInt8) (b : RawStackBuffer)

/-- `StackBuffer(ptr, sz)`. -/
def new (stack : Nat → UInt8) (sz : Nat) : RawStackBuffer := ⟨0, 0, sz, false, stack⟩

/-- `ReallocateOnHeap`. The first time the bytes written so far are
copied, later `realloc` keeps the block. -/
def ReallocateOnHeap : RawStackBuffer :=
  { b with
    memory := fun i =>
      if i < (if b.m_heapBuffer then b.m_space else b.m_writePos) then b.memory i else junk i
    m_space := b.m_space + 200
    m_heapBuffer := true }

/-- `EnsureBufferSize`, the test every write begins with. -/
def EnsureBufferSize (bytes : Nat) : RawStackBuffer :=
  if b.m_writePos + bytes > b.m_space then b.ReallocateOnHeap junk else b

/-- A copy to the write position. -/
def memcpy (data : List UInt8) : Option RawStackBuffer :=
  if b.m_writePos + data.length ≤ b.m_space then
    some { b with memory := store b.memory b.m_writePos data }
  else none

/-- `m_writePos += n`. -/
def advance (n : Nat) : RawStackBuffer := { b with m_writePos := b.m_writePos + n }

/-! ## Writing -/

/-- `Write<T>` and the fast write operators, of a value with these bytes. -/
def Write (data : List UInt8) : Option RawStackBuffer :=
  ((b.EnsureBufferSize junk data.length).memcpy data).map fun b => b.advance data.length

/-- `Write(data, size)`: the position is moved by `uint32(size)`. -/
def WriteBlock (data : List UInt8) : Option RawStackBuffer :=
  ((b.EnsureBufferSize junk data.length).memcpy data).map fun b => b.advance (data.length % 2 ^ 32)

/-- `operator<<(std::string &)`: the characters and a zero. -/
def writeString (value : List UInt8) : Option RawStackBuffer :=
  ((b.EnsureBufferSize junk (value.length + 1)).memcpy (value ++ [0])).map fun b =>
    b.advance (value.length + 1)

/-- What `strlen` counts. -/
def cstring (value : List UInt8) : List UInt8 := value.takeWhile fun c => c != 0

/-- `operator<<(const char *)`. -/
def writeCString (value : List UInt8) : Option RawStackBuffer :=
  let len := (cstring value).length
  ((b.EnsureBufferSize junk (len + 1)).memcpy (cstring value ++ [0])).map fun b => b.advance (len + 1)

/-- `operator<<(const WoWGuid &)`. -/
def writeGuid (value : WoWGuid) : Option RawStackBuffer := do
  let b := b.EnsureBufferSize junk (bitCount8 value.guidmask + 1)
  let b ← b.Write junk [value.guidmask]
  let b ← b.memcpy value.newGuid
  some (b.advance (bitCount8 value.guidmask))

/-- `operator<<(LocationVector &)`. -/
def writeLocation (x y z : BitVec 32) : Option RawStackBuffer := do
  let b ← b.Write junk (leBytes 4 x.toNat)
  let b ← b.Write junk (leBytes 4 y.toNat)
  b.Write junk (leBytes 4 z.toNat)

/-! ## Reading -/

/-- The bytes at the read position, undefined outside the block. -/
def fetch (n : Nat) : Option (List UInt8) :=
  if b.m_readPos + n ≤ b.m_space then some (load b.memory b.m_readPos n) else none

/-- `m_readPos += n`. -/
def skip (n : Nat) : RawStackBuffer := { b with m_readPos := b.m_readPos + n }

/-- The fast read operators. -/
def readFast (n : Nat) : Option (Nat × RawStackBuffer) :=
  if b.m_readPos + n > b.m_writePos then some (0, b)
  else (b.fetch n).map fun bytes => (ofLeBytes bytes, b.skip n)

/-- `Read<T>`, for a type of `n` bytes. -/
def Read (n : Nat) : Option (Nat × RawStackBuffer) :=
  if b.m_readPos + n ≤ b.m_writePos then some (0, b)
  else (b.fetch n).map fun bytes => (ofLeBytes bytes, b.skip n)

/-- `operator>>(bool &)`: the byte, as a `char`, is positive. -/
def readBool : Option (Bool × RawStackBuffer) := do
  let (c, b) ← b.Read 1
  some (decide (0 < c ∧ c < 128), b)

/-- The loop of `operator>>(std::string &)`; a turn that goes on has
moved the position. -/
def readChars : Nat → RawStackBuffer → Option (List UInt8 × RawStackBuffer)
  | 0, _ => none
  | fuel + 1, b => do
    let (c, b) ← b.Read 1
    if c = 0 then some ([], b)
    else
      let (s, b) ← readChars fuel b
      some (UInt8.ofNat c :: s, b)

/-- `operator>>(std::string &)`. There is a turn for each byte of the
block, and one more. -/
def readString : Option (List UInt8 × RawStackBuffer) := readChars (b.m_space + 1) b

/-- `operator>>(WoWGuid &)`. -/
def readGuid : Option (WoWGuid × RawStackBuffer) := do
  let (mask, b) ← b.Read 1
  let mask := UInt8.ofNat mask
  (List.range (bitCount8 mask)).foldlM (fun (s : WoWGuid × RawStackBuffer) _ => do
    let (field, b) ← s.2.Read 1
    let v ← s.1.appendField (UInt8.ofNat field)
    some (v, b)) (WoWGuid.ofMask mask, b)

/-- `operator>>(LocationVector &)`. -/
def readLocation : Option ((Nat × Nat × Nat) × RawStackBuffer) := do
  let (x, b) ← b.Read 4
  let (y, b) ← b.Read 4
  let (z, b) ← b.Read 4
  some ((x, y, z), b)

/-- A raw block, read byte by byte. -/
def readBlock : Nat → RawStackBuffer → Option (List UInt8 × RawStackBuffer)
  | 0, b => some ([], b)
  | n + 1, b => do
    let (x, b) ← b.readFast 1
    let (xs, b) ← readBlock n b
    some (UInt8.ofNat x :: xs, b)

end RawStackBuffer

/-! ## Packets -/

/-- Something written: an integer or float, to be read with its operator
or with `Read<T>`, or one of the other types. -/
inductive BufferItem where
  | fast (t : FastType) (x : BitVec (8 * t.size))
  | viaRead (t : FastType) (x : BitVec (8 * t.size))
  | bool (x : Bool)
  | string (s : List UInt8)
  | cstring (s : List UInt8)
  | guid (v : WoWGuid)
  | location (x y z : BitVec 32)
  | block (data : List UInt8)

namespace BufferItem

open RawStackBuffer

/-- The bytes an item should become. -/
def encode : BufferItem → List UInt8
  | .fast t x => leBytes t.size x.toNat
  | .viaRead t x => leBytes t.size x.toNat
  | .bool x => [if x then 1 else 0]
  | .string s => s ++ [0]
  | .cstring s => RawStackBuffer.cstring s ++ [0]
  | .guid v => v.packed
  | .location x y z => leBytes 4 x.toNat ++ leBytes 4 y.toNat ++ leBytes 4 z.toNat
  | .block data => data

def write (junk : Nat → UInt8) (b : RawStackBuffer) : BufferItem → Option RawStackBuffer
  | .fast t x => b.Write junk (leBytes t.size x.toNat)
  | .viaRead t x => b.Write junk (leBytes t.size x.toNat)
  | .bool x => b.Write junk [if x then 1 else 0]
  | .string s => b.writeString junk s
  | .cstring s => b.writeCString junk s
  | .guid v => b.writeGuid junk v
  | .location x y z => b.writeLocation junk x y z
  | .block data => b.WriteBlock junk data

/-- Reading the type of an item: whether the value is the item's. -/
def readBack (b : RawStackBuffer) : BufferItem → Option (Bool × RawStackBuffer)
  | .fast t x => (b.readFast t.size).map fun (y, b) => (decide (y = x.toNat), b)
  | .viaRead t x => (b.Read t.size).map fun (y, b) => (decide (y = x.toNat), b)
  | .bool x => b.readBool.map fun (y, b) => (decide (y = x), b)
  | .string s => b.readString.map fun (y, b) => (decide (y = s), b)
  | .cstring s => b.readString.map fun (y, b) => (decide (y = RawStackBuffer.cstring s), b)
  | .guid v => b.readGuid.map fun (y, b) => (decide (y.oldguid = v.oldguid), b)
  | .location x y z =>
    b.readLocation.map fun (r, b) => (decide (r = (x.toNat, y.toNat, z.toNat)), b)
  | .block data => (RawStackBuffer.readBlock data.length b).map fun (y, b) => (decide (y = data), b)

/-- All items, one behind the other. -/
def writeAll (junk : Nat → UInt8) (items : List BufferItem) (b : RawStackBuffer) :
    Option RawStackBuffer := items.foldlM (write junk) b

/-- The same types in the same order: whether every value came back. -/
def readBackAll : List BufferItem → RawStackBuffer → Option (Bool × RawStackBuffer)
  | [], b => some (true, b)
  | i :: is, b => do
    let (ok, b) ← i.readBack b
    let (oks, b) ← readBackAll is b
    some (ok && oks, b)

end BufferItem

/-- The ways to read. -/
inductive BufferRead where
  | fast (t : FastType)
  | viaRead (t : FastType)
  | bool
  | string
  | guid
  | location
  deriving DecidableEq

/-- The read returns zero and does not move. -/
def RawStackBuffer.ReadsZero (b : RawStackBuffer) : BufferRead → Prop
  | .fast t => b.readFast t.size = some (0, b)
  | .viaRead t => b.Read t.size = some (0, b)
  | .bool => b.readBool = some (false, b)
  | .string => b.readString = some ([], b)
  | .guid => ∃ v, b.readGuid = some (v, b) ∧ v.oldguid = 0
  | .location => b.readLocation = some ((0, 0, 0), b)

end HearthStone

/-! ## Theorems

When a `StackBuffer` stores what is written.

* A checked write has room when it is at most 200 bytes longer than what
  is left (`write_of_fits`), and is undefined otherwise; `Fits` follows
  the room through a list of writes.
* Every write of an item is such a checked write, or three of them
  (`item_write`).

`writeAll_iff` puts the parts together.
-/

namespace HearthStone

open Lib

/-! ## Room -/

/-- The room after a checked write of `n` bytes at `p`. -/
def grown (space p n : Nat) : Nat := if p + n > space then space + 200 else space

/-- Each write is at most 200 bytes longer than the room that is left. -/
def Fits : Nat → Nat → List Nat → Prop
  | _, _, [] => True
  | space, p, n :: ns => p + n ≤ space + 200 ∧ Fits (grown space p n) (p + n) ns

/-- The room after a list of writes. -/
def grownAll : Nat → Nat → List Nat → Nat
  | space, _, [] => space
  | space, p, n :: ns => grownAll (grown space p n) (p + n) ns

theorem fits_append {space p : Nat} (ns ms : List Nat) :
    Fits space p (ns ++ ms) ↔ Fits space p ns ∧ Fits (grownAll space p ns) (p + ns.sum) ms := by
  induction ns generalizing space p with
  | nil => simp [Fits, grownAll]
  | cons n ns ih =>
    simp only [List.cons_append, Fits, grownAll, ih, List.sum_cons, Nat.add_assoc, and_assoc]

namespace RawStackBuffer

variable {j : Nat → UInt8} {b b' : RawStackBuffer} {content data : List UInt8}

/-- The buffer holds these bytes, inside its block. -/
structure Holds (b : RawStackBuffer) (content : List UInt8) : Prop where
  pos : b.m_writePos = content.length
  inside : content.length ≤ b.m_space
  bytes : load b.memory 0 content.length = content

@[simp] theorem ensure_writePos (n : Nat) :
    (b.EnsureBufferSize j n).m_writePos = b.m_writePos := by
  unfold EnsureBufferSize
  split_ifs <;> rfl

@[simp] theorem ensure_readPos (n : Nat) :
    (b.EnsureBufferSize j n).m_readPos = b.m_readPos := by
  unfold EnsureBufferSize
  split_ifs <;> rfl

theorem ensure_space (n : Nat) :
    (b.EnsureBufferSize j n).m_space = grown b.m_space b.m_writePos n := by
  unfold EnsureBufferSize grown
  split_ifs <;> rfl

/-- Moving to the heap keeps what has been written. -/
theorem Holds.ensure (h : b.Holds content) (n : Nat) :
    (b.EnsureBufferSize j n).Holds content := by
  have hpos := h.pos
  have hin := h.inside
  refine ⟨by rw [ensure_writePos, hpos], ?_, ?_⟩
  · rw [ensure_space]
    unfold grown
    split_ifs <;> omega
  · unfold EnsureBufferSize
    split_ifs
    · refine (load_congr ?_).trans h.bytes
      intro a _ ha
      unfold ReallocateOnHeap
      cases b.m_heapBuffer with
      | true => exact if_pos (by simp; omega)
      | false => exact if_pos (by simp; omega)
    · exact h.bytes

theorem le_grown (space p n : Nat) (h : p + n ≤ space + 200) : p + n ≤ grown space p n := by
  unfold grown
  split_ifs <;> omega

/-- A checked copy that has room, and the move behind it. -/
theorem copy_of_fits {n : Nat} (h : b.Holds content) (hn : data.length = n)
    (hfit : content.length + n ≤ b.m_space + 200) :
    ∃ b', ((b.EnsureBufferSize j n).memcpy data).map (fun b => b.advance n) = some b' ∧
      b'.Holds (content ++ data) ∧ b'.m_space = grown b.m_space content.length n ∧
      b'.m_readPos = b.m_readPos := by
  subst hn
  have hpos := h.pos
  have hens := h.ensure (j := j) data.length
  have hspace : (b.EnsureBufferSize j data.length).m_space =
      grown b.m_space content.length data.length := by rw [ensure_space, hpos]
  have hroom := le_grown b.m_space content.length data.length hfit
  have hcopy : (b.EnsureBufferSize j data.length).memcpy data =
      some { b.EnsureBufferSize j data.length with
        memory := store (b.EnsureBufferSize j data.length).memory
          (b.EnsureBufferSize j data.length).m_writePos data } := by
    unfold memcpy
    rw [if_pos]
    rw [ensure_writePos, hpos, hspace]
    exact hroom
  rw [hcopy]
  refine ⟨_, rfl, ⟨?_, ?_, ?_⟩, hspace, ensure_readPos _⟩
  · show (b.EnsureBufferSize j data.length).m_writePos + data.length = _
    rw [ensure_writePos, hpos, List.length_append]
  · show (content ++ data).length ≤ (b.EnsureBufferSize j data.length).m_space
    rw [hspace, List.length_append]
    exact hroom
  · show load (store (b.EnsureBufferSize j data.length).memory _ data) 0 _ = _
    have happ := load_store_append (b.EnsureBufferSize j data.length).memory 0 content.length data
    rw [Nat.zero_add, hens.bytes] at happ
    rw [ensure_writePos, hpos, List.length_append]
    exact happ

/-- A checked copy that is too long. -/
theorem copy_of_not_fits {n : Nat} (h : b.Holds content) (hn : data.length = n)
    (hfit : ¬ content.length + n ≤ b.m_space + 200) :
    (b.EnsureBufferSize j n).memcpy data = none := by
  subst hn
  have hpos := h.pos
  unfold memcpy
  rw [if_neg]
  rw [ensure_writePos, ensure_space, hpos]
  unfold grown
  split_ifs <;> omega

theorem write_of_fits (h : b.Holds content)
    (hfit : content.length + data.length ≤ b.m_space + 200) :
    ∃ b', b.Write j data = some b' ∧ b'.Holds (content ++ data) ∧
      b'.m_space = grown b.m_space content.length data.length ∧ b'.m_readPos = b.m_readPos :=
  copy_of_fits h rfl hfit

theorem write_of_not_fits (h : b.Holds content)
    (hfit : ¬ content.length + data.length ≤ b.m_space + 200) : b.Write j data = none := by
  unfold Write
  rw [copy_of_not_fits h rfl hfit]
  rfl

theorem store_store_append {m : Nat → UInt8} {p : Nat} (xs ys : List UInt8) :
    store (store m p xs) (p + xs.length) ys = store m p (xs ++ ys) := by
  funext a
  unfold store
  by_cases h1 : p + xs.length ≤ a
  · rw [if_pos h1, if_pos (by omega), if_pos (by omega), List.getElem?_append_right (by omega),
      List.getElem?_eq_none (show xs.length ≤ a - p by omega), Option.getD_none]
    congr 2
    omega
  · rw [if_neg h1]
    by_cases h2 : p ≤ a
    · rw [if_pos h2, if_pos h2, List.getElem?_append_left (by omega)]
    · rw [if_neg h2, if_neg h2]

/-- Mask and fields are written like one string of bytes: the room for
both is made before. -/
theorem writeGuid_eq (v : WoWGuid) (h : b.Holds content) :
    b.writeGuid j v = b.Write j v.packed := by
  have hlen : v.newGuid.length = bitCount8 v.guidmask := length_load
  have hpacked : v.packed.length = bitCount8 v.guidmask + 1 := by
    unfold WoWGuid.packed
    rw [List.length_cons, hlen]
  have hle := bitCount8_le v.guidmask
  have hpos := h.pos
  have hin := h.inside
  have hfit : content.length + (bitCount8 v.guidmask + 1) ≤ b.m_space + 200 := by omega
  have hroom := le_grown _ _ _ hfit
  have hspace : (b.EnsureBufferSize j (bitCount8 v.guidmask + 1)).m_space =
      grown b.m_space content.length (bitCount8 v.guidmask + 1) := by rw [ensure_space, hpos]
  unfold writeGuid
  rw [Write, hpacked]
  generalize hc : b.EnsureBufferSize j (bitCount8 v.guidmask + 1) = c at hspace
  have hcpos : c.m_writePos = content.length := by
    rw [← hc, ensure_writePos, hpos]
  -- the second check finds the room the first one made
  have hkeep : c.EnsureBufferSize j 1 = c := by
    unfold EnsureBufferSize
    rw [if_neg (by omega)]
  have hmask : c.Write j [v.guidmask] =
      some (RawStackBuffer.advance { c with memory := store c.memory c.m_writePos [v.guidmask] } 1) := by
    unfold Write
    rw [List.length_singleton, hkeep]
    unfold memcpy
    rw [if_pos (by rw [List.length_singleton]; omega)]
    rfl
  have hfields : c.m_writePos + 1 + v.newGuid.length ≤ c.m_space := by omega
  have hall : c.m_writePos + v.packed.length ≤ c.m_space := by omega
  simp only [hmask, Option.bind_eq_bind, Option.bind_some, memcpy, advance, hfields, hall, if_true,
    Option.map_some]
  have hstore : store (store c.memory c.m_writePos [v.guidmask]) (c.m_writePos + 1) v.newGuid =
      store c.memory c.m_writePos v.packed := store_store_append [v.guidmask] v.newGuid
  rw [hstore, Nat.add_assoc, Nat.add_comm 1]

end RawStackBuffer

/-! ## Storing items -/

namespace BufferItem

open RawStackBuffer

variable {j : Nat → UInt8} {b b' : RawStackBuffer} {content : List UInt8} {i : BufferItem}

/-- The lengths of the checked writes an item is made of. -/
def chunks : BufferItem → List Nat
  | .location _ _ _ => [4, 4, 4]
  | i => [i.encode.length]

/-- The length of a raw block does not wrap in 32 bits. -/
def Short : BufferItem → Prop
  | .block data => data.length < 2 ^ 32
  | _ => True

theorem sum_chunks (i : BufferItem) : i.chunks.sum = i.encode.length := by
  cases i with
  | location x y z => simp [chunks, encode]
  | _ => simp [chunks]

/-- One checked write of all the bytes. -/
theorem single_write (h : b.Holds content) {data : List UInt8}
    (hfit : Fits b.m_space content.length [data.length]) :
    ∃ b', b.Write j data = some b' ∧ b'.Holds (content ++ data) ∧
      b'.m_space = grownAll b.m_space content.length [data.length] ∧
      b'.m_readPos = b.m_readPos := by
  obtain ⟨b', hb', hholds, hspace, hread⟩ := write_of_fits (j := j) h hfit.1
  exact ⟨b', hb', hholds, hspace, hread⟩

theorem string_eq (s : List UInt8) : b.writeString j s = b.Write j (s ++ [0]) := by
  unfold writeString Write
  rw [List.length_append, List.length_singleton]

theorem cstring_eq (s : List UInt8) :
    b.writeCString j s = b.Write j (RawStackBuffer.cstring s ++ [0]) := by
  unfold writeCString Write
  rw [List.length_append, List.length_singleton]

theorem block_eq {data : List UInt8} (hs : data.length < 2 ^ 32) :
    b.WriteBlock j data = b.Write j data := by
  unfold WriteBlock Write
  rw [Nat.mod_eq_of_lt hs]

/-- A location is three writes. -/
theorem location_write (h : b.Holds content) (x y z : BitVec 32)
    (hfit : Fits b.m_space content.length [4, 4, 4]) :
    ∃ b', b.writeLocation j x y z = some b' ∧
      b'.Holds (content ++ (BufferItem.location x y z).encode) ∧
      b'.m_space = grownAll b.m_space content.length [4, 4, 4] ∧
      b'.m_readPos = b.m_readPos := by
  obtain ⟨hx, hy, hz, -⟩ := hfit
  have hx' : content.length + (leBytes 4 x.toNat).length ≤ b.m_space + 200 := by
    rw [length_leBytes]
    exact hx
  obtain ⟨b₁, hb₁, h₁, hs₁, hr₁⟩ := write_of_fits (j := j) h hx'
  rw [length_leBytes] at hs₁
  have hy' : (content ++ leBytes 4 x.toNat).length + (leBytes 4 y.toNat).length ≤
      b₁.m_space + 200 := by
    rw [length_leBytes, List.length_append, length_leBytes, hs₁]
    exact hy
  obtain ⟨b₂, hb₂, h₂, hs₂, hr₂⟩ := write_of_fits (j := j) h₁ hy'
  rw [length_leBytes, List.length_append, length_leBytes, hs₁] at hs₂
  have hz' : (content ++ leBytes 4 x.toNat ++ leBytes 4 y.toNat).length +
      (leBytes 4 z.toNat).length ≤ b₂.m_space + 200 := by
    simp only [length_leBytes, List.length_append]
    rw [hs₂]
    exact hz
  obtain ⟨b₃, hb₃, h₃, hs₃, hr₃⟩ := write_of_fits (j := j) h₂ hz'
  simp only [length_leBytes, List.length_append] at hs₃
  rw [hs₂] at hs₃
  refine ⟨b₃, ?_, ?_, hs₃, by rw [hr₃, hr₂, hr₁]⟩
  · unfold writeLocation
    rw [hb₁]
    show (b₁.Write j _ >>= fun b => b.Write j _) = some b₃
    rw [hb₂]
    exact hb₃
  · unfold encode
    rw [← List.append_assoc, ← List.append_assoc]
    exact h₃

/-- The write of an item that fits stores its bytes. -/
theorem item_write (h : b.Holds content) (hs : i.Short)
    (hfit : Fits b.m_space content.length i.chunks) :
    ∃ b', i.write j b = some b' ∧ b'.Holds (content ++ i.encode) ∧
      b'.m_space = grownAll b.m_space content.length i.chunks ∧ b'.m_readPos = b.m_readPos := by
  cases i with
  | fast t x => exact single_write h hfit
  | viaRead t x => exact single_write h hfit
  | bool x => exact single_write h hfit
  | string s =>
    show ∃ b', b.writeString j s = some b' ∧ _
    rw [string_eq]
    exact single_write h hfit
  | cstring s =>
    show ∃ b', b.writeCString j s = some b' ∧ _
    rw [cstring_eq]
    exact single_write h hfit
  | guid v =>
    show ∃ b', b.writeGuid j v = some b' ∧ _
    rw [RawStackBuffer.writeGuid_eq v h]
    exact single_write h hfit
  | location x y z => exact location_write h x y z hfit
  | block data =>
    show ∃ b', b.WriteBlock j data = some b' ∧ _
    rw [block_eq hs]
    exact single_write h hfit

/-- The write of an item that does not fit is undefined. -/
theorem item_write_none (h : b.Holds content)
    (hfit : ¬ Fits b.m_space content.length i.chunks) : i.write j b = none := by
  have hone : ∀ {n : Nat}, ¬ Fits b.m_space content.length [n] →
      ¬ content.length + n ≤ b.m_space + 200 := by
    intro n hno hle
    exact hno ⟨hle, trivial⟩
  cases i with
  | fast t x => exact write_of_not_fits h (hone hfit)
  | viaRead t x => exact write_of_not_fits h (hone hfit)
  | bool x => exact write_of_not_fits h (hone hfit)
  | string s =>
    show b.writeString j s = none
    rw [string_eq]
    exact write_of_not_fits h (hone hfit)
  | cstring s =>
    show b.writeCString j s = none
    rw [cstring_eq]
    exact write_of_not_fits h (hone hfit)
  | guid v =>
    show b.writeGuid j v = none
    rw [RawStackBuffer.writeGuid_eq v h]
    exact write_of_not_fits h (hone hfit)
  | location x y z =>
    -- four bytes always fit
    have hin := h.inside
    refine absurd ?_ hfit
    show Fits b.m_space content.length [4, 4, 4]
    refine ⟨by omega, ?_, ?_, trivial⟩ <;> unfold grown <;> split_ifs <;> omega
  | block data =>
    have hnone : (b.EnsureBufferSize j data.length).memcpy data = none :=
      copy_of_not_fits h rfl (hone hfit)
    show ((b.EnsureBufferSize j data.length).memcpy data).map _ = none
    rw [hnone]
    rfl

/-- A block whose length wraps moves the position by too little. -/
theorem item_write_long (h : b.Holds content) (hs : ¬ i.Short) (hw : i.write j b = some b') :
    b'.m_writePos < content.length + i.encode.length := by
  cases i with
  | block data =>
    have hlong : ¬ data.length < 2 ^ 32 := hs
    have hpos := h.pos
    obtain ⟨c, hc, rfl⟩ := Option.map_eq_some_iff.1 hw
    unfold memcpy at hc
    split_ifs at hc
    cases hc
    show (b.EnsureBufferSize j data.length).m_writePos + data.length % 2 ^ 32 <
      content.length + data.length
    rw [ensure_writePos, hpos]
    omega
  | _ => exact absurd trivial hs

theorem memcpy_writePos {data : List UInt8} (hw : b.memcpy data = some b') :
    b'.m_writePos = b.m_writePos := by
  unfold memcpy at hw
  split_ifs at hw
  cases hw
  rfl

theorem write_writePos {data : List UInt8} (hw : b.Write j data = some b') :
    b'.m_writePos = b.m_writePos + data.length := by
  obtain ⟨c, hc, rfl⟩ := Option.map_eq_some_iff.1 hw
  show c.m_writePos + data.length = _
  rw [memcpy_writePos hc, ensure_writePos]

/-- No item moves the position by more than its length. -/
theorem item_writePos_le (hw : i.write j b = some b') :
    b'.m_writePos ≤ b.m_writePos + i.encode.length := by
  cases i with
  | fast t x => exact Nat.le_of_eq (write_writePos hw)
  | viaRead t x => exact Nat.le_of_eq (write_writePos hw)
  | bool x => exact Nat.le_of_eq (write_writePos hw)
  | string s =>
    have hw' : b.writeString j s = some b' := hw
    rw [string_eq] at hw'
    exact Nat.le_of_eq (write_writePos hw')
  | cstring s =>
    have hw' : b.writeCString j s = some b' := hw
    rw [cstring_eq] at hw'
    exact Nat.le_of_eq (write_writePos hw')
  | guid v =>
    have hw' : b.writeGuid j v = some b' := hw
    unfold writeGuid at hw'
    obtain ⟨c, hc, hw'⟩ := Option.bind_eq_some_iff.1 hw'
    obtain ⟨d, hd, hw'⟩ := Option.bind_eq_some_iff.1 hw'
    cases hw'
    have hlen : v.packed.length = bitCount8 v.guidmask + 1 := by
      unfold WoWGuid.packed WoWGuid.newGuid
      rw [List.length_cons, length_load]
    have h1 := write_writePos hc
    have h2 := memcpy_writePos hd
    rw [ensure_writePos, List.length_singleton] at h1
    show d.m_writePos + bitCount8 v.guidmask ≤ b.m_writePos + v.packed.length
    omega
  | location x y z =>
    have hw' : b.writeLocation j x y z = some b' := hw
    unfold writeLocation at hw'
    obtain ⟨c, hc, hw'⟩ := Option.bind_eq_some_iff.1 hw'
    obtain ⟨d, hd, hw'⟩ := Option.bind_eq_some_iff.1 hw'
    have h1 := write_writePos hc
    have h2 := write_writePos hd
    have h3 := write_writePos hw'
    rw [length_leBytes] at h1 h2 h3
    simp only [encode, List.length_append, length_leBytes]
    omega
  | block data =>
    have hw' : b.WriteBlock j data = some b' := hw
    obtain ⟨c, hc, rfl⟩ := Option.map_eq_some_iff.1 hw'
    have h1 := memcpy_writePos hc
    rw [ensure_writePos] at h1
    show c.m_writePos + data.length % 2 ^ 32 ≤ b.m_writePos + data.length
    omega

theorem writeAll_cons (i : BufferItem) (is : List BufferItem) :
    writeAll j (i :: is) b = (i.write j b).bind (writeAll j is) := rfl

theorem writeAll_writePos_le {items : List BufferItem} (hw : writeAll j items b = some b') :
    b'.m_writePos ≤ b.m_writePos + (items.flatMap encode).length := by
  induction items generalizing b with
  | nil =>
    cases hw
    exact Nat.le_add_right _ _
  | cons i is ih =>
    rw [writeAll_cons] at hw
    obtain ⟨c, hc, hw⟩ := Option.bind_eq_some_iff.1 hw
    have h1 := item_writePos_le hc
    have h2 := ih hw
    rw [List.flatMap_cons, List.length_append]
    omega

/-- The items are stored exactly when each write has room and no block is
too long. -/
theorem writeAll_iff {items : List BufferItem} (h : b.Holds content) :
    (∃ b', writeAll j items b = some b' ∧ b'.Holds (content ++ items.flatMap encode)) ↔
      Fits b.m_space content.length (items.flatMap chunks) ∧ ∀ i ∈ items, i.Short := by
  induction items generalizing b content with
  | nil =>
    refine iff_of_true ⟨b, rfl, ?_⟩ ⟨trivial, fun i hi => nomatch hi⟩
    rw [List.flatMap_nil, List.append_nil]
    exact h
  | cons i is ih =>
    rw [List.flatMap_cons, List.flatMap_cons, fits_append, sum_chunks]
    simp only [writeAll_cons, List.forall_mem_cons]
    by_cases hfit : Fits b.m_space content.length i.chunks
    · by_cases hs : i.Short
      · obtain ⟨c, hc, hholds, hspace, -⟩ := item_write (j := j) h hs hfit
        have hrest := ih hholds
        rw [List.length_append, hspace, List.append_assoc] at hrest
        rw [hc, Option.bind_some, hrest]
        tauto
      · -- the final position would be right only if this one were
        refine iff_of_false ?_ (fun hall => hs hall.2.1)
        rintro ⟨b', hw, hholds⟩
        obtain ⟨c, hc, hw⟩ := Option.bind_eq_some_iff.1 hw
        have h1 := item_write_long h hs hc
        have h2 := writeAll_writePos_le hw
        have h3 := hholds.pos
        simp only [List.length_append] at h3
        omega
    · refine iff_of_false ?_ (fun hall => hfit hall.1.1)
      rintro ⟨b', hw, -⟩
      rw [item_write_none h hfit] at hw
      cases hw

end BufferItem

end HearthStone
