/-
HearthStone.Packet.ByteBuffer — the two growing buffers packets are
written to (`ByteBuffer.h`, `StackBuffer.h`).

* `ByteBuffer` — a vector of bytes with a read and a write position. A
  read behind the end is zero and moves the position all the same.
* `StackBuffer` — `written` is what has been written, `m_space` the room
  that is allocated. Only 200 bytes are added when it is used up, so a
  longer write is undefined.

The assertion that a `ByteBuffer` stays below ten megabytes is left out:
it changes nothing that is written.
-/
import HearthStone.Lib.Memory
import Mathlib

namespace HearthStone

structure ByteBuffer where
  rpos : Nat
  wpos : Nat
  storage : List UInt8
  deriving DecidableEq

namespace ByteBuffer

/-- `_storage.resize(n)`, for one that has fewer. -/
def resize (storage : List UInt8) (n : Nat) : List UInt8 :=
  storage ++ List.replicate (n - storage.length) 0

/-- `memcpy(&_storage[pos], src, cnt)`. -/
def overwrite (storage : List UInt8) (pos : Nat) (src : List UInt8) : List UInt8 :=
  storage.take pos ++ src ++ storage.drop (pos + src.length)

variable (b : ByteBuffer)

def empty : ByteBuffer := ⟨0, 0, []⟩

/-- `append(src, cnt)`: `resize` fills with zeros. -/
def append (src : List UInt8) : ByteBuffer :=
  if src = [] then b
  else
    { b with
      storage := overwrite (resize b.storage (b.wpos + src.length)) b.wpos src
      wpos := b.wpos + src.length }

/-- `read<uint8>()`. -/
def readUInt8 : UInt8 × ByteBuffer := (b.storage.getD b.rpos 0, { b with rpos := b.rpos + 1 })

/-- `read(dest, len)`. -/
def readBytes : Nat → ByteBuffer → List UInt8 × ByteBuffer
  | 0, b => ([], b)
  | n + 1, b =>
    let (x, b) := b.readUInt8
    let (xs, b) := readBytes n b
    (x :: xs, b)

/-- A `uint32` as it lies in the memory of a little-endian host. -/
def uint32Bytes (value : UInt32) : List UInt8 :=
  [value.toUInt8, (value >>> 8).toUInt8, (value >>> 16).toUInt8, (value >>> 24).toUInt8]

/-- `read<uint32>()`. -/
def readUInt32 : UInt32 × ByteBuffer :=
  let (xs, b) := readBytes 4 b
  (UInt32.ofNat (Nat.ofDigits 256 (xs.map UInt8.toNat)), b)

/-- `rpos(pos)`. -/
def setRpos (pos : Nat) : ByteBuffer := { b with rpos := pos }

@[simp] theorem setRpos_rpos (pos : Nat) : (b.setRpos pos).rpos = pos := rfl
@[simp] theorem setRpos_storage (pos : Nat) : (b.setRpos pos).storage = b.storage := rfl

/-- The bytes from the read position on begin with `xs`. -/
def Holds (xs : List UInt8) : Prop := xs <+: b.storage.drop b.rpos

variable {b}

theorem le_length_resize (storage : List UInt8) (n : Nat) : n ≤ (resize storage n).length := by
  unfold resize
  rw [List.length_append, List.length_replicate]
  omega

/-- The larger of two sizes can be reached in two steps. -/
theorem resize_resize (storage : List UInt8) {m n : Nat} (h : m ≤ n) :
    resize (resize storage m) n = resize storage n := by
  unfold resize
  rw [List.append_assoc, List.replicate_append_replicate, List.length_append,
    List.length_replicate]
  congr 2
  omega

theorem length_overwrite {storage : List UInt8} {pos : Nat} {src : List UInt8}
    (h : pos + src.length ≤ storage.length) :
    (overwrite storage pos src).length = storage.length := by
  unfold overwrite
  simp only [List.length_append, List.length_take, List.length_drop]
  omega

/-- Two copies behind each other. -/
theorem overwrite_overwrite {storage : List UInt8} {pos : Nat} {xs ys : List UInt8}
    (h : pos + xs.length ≤ storage.length) :
    overwrite (overwrite storage pos xs) (pos + xs.length) ys =
      overwrite storage pos (xs ++ ys) := by
  have hfront : (storage.take pos ++ xs).length = pos + xs.length := by
    rw [List.length_append, List.length_take]
    omega
  unfold overwrite
  rw [List.take_left' hfront, ← List.drop_drop, List.drop_left' hfront, List.drop_drop,
    List.length_append]
  simp only [List.append_assoc, Nat.add_assoc]

/-- What is added at the end by a resize is not touched. -/
theorem resize_overwrite {storage : List UInt8} {pos n : Nat} {src : List UInt8}
    (h : pos + src.length ≤ storage.length) :
    resize (overwrite storage pos src) n = overwrite (resize storage n) pos src := by
  unfold resize
  rw [length_overwrite h]
  unfold overwrite
  rw [List.take_append_of_le_length (by omega), List.drop_append_of_le_length h]
  simp only [List.append_assoc]

@[simp] theorem append_nil : b.append [] = b := if_pos rfl

@[simp] theorem append_wpos (src : List UInt8) : (b.append src).wpos = b.wpos + src.length := by
  unfold append
  split
  · rename_i h
    rw [h]
    rfl
  · rfl

/-- What is appended stands where the write position was. -/
theorem append_holds (src : List UInt8) : ((b.append src).setRpos b.wpos).Holds src := by
  unfold Holds
  by_cases h : src = []
  · subst h
    exact List.nil_prefix
  · have hlen := le_length_resize b.storage (b.wpos + src.length)
    unfold append
    rw [if_neg h]
    dsimp only [setRpos]
    unfold overwrite
    rw [List.append_assoc, List.drop_left']
    · exact List.prefix_append _ _
    · rw [List.length_take]
      omega

/-- Two appends are one of both. -/
theorem append_append (xs ys : List UInt8) : (b.append xs).append ys = b.append (xs ++ ys) := by
  by_cases hx : xs = []
  · rw [hx, append_nil, List.nil_append]
  by_cases hy : ys = []
  · rw [hy, append_nil, List.append_nil]
  have hlen := le_length_resize b.storage (b.wpos + xs.length)
  have hboth := le_length_resize b.storage (b.wpos + xs.length + ys.length)
  unfold append
  rw [if_neg hx, if_neg hy, if_neg (by simp [hx]), List.length_append]
  dsimp only
  rw [resize_overwrite hlen, resize_resize _ (by omega), overwrite_overwrite (by omega),
    Nat.add_assoc]

/-- A byte that is there is read, and the position is behind it. -/
theorem Holds.readUInt8 {x : UInt8} {xs : List UInt8} (h : b.Holds (x :: xs)) :
    b.readUInt8 = (x, b.setRpos (b.rpos + 1)) ∧ (b.setRpos (b.rpos + 1)).Holds xs := by
  obtain ⟨rest, hrest⟩ := h
  have hget : b.storage[b.rpos]? = some x := by
    rw [← List.head?_drop, ← hrest]
    rfl
  refine ⟨?_, rest, ?_⟩
  · unfold ByteBuffer.readUInt8
    rw [List.getD_eq_getElem?_getD, hget]
    rfl
  · dsimp only [setRpos]
    rw [← List.drop_drop, ← hrest]
    rfl

/-- Bytes that are there are read, and the position is behind them. -/
theorem Holds.readBytes {xs ys : List UInt8} (h : b.Holds (xs ++ ys)) :
    readBytes xs.length b = (xs, b.setRpos (b.rpos + xs.length)) ∧
      (b.setRpos (b.rpos + xs.length)).Holds ys := by
  induction xs generalizing b with
  | nil => exact ⟨rfl, h⟩
  | cons x xs ih =>
    obtain ⟨hread, hrest⟩ := Holds.readUInt8 h
    obtain ⟨hreads, hys⟩ := ih hrest
    have hpos : (b.setRpos (b.rpos + 1)).setRpos ((b.setRpos (b.rpos + 1)).rpos + xs.length) =
        b.setRpos (b.rpos + (x :: xs).length) := by
      rw [setRpos_rpos, List.length_cons, Nat.add_right_comm, ← Nat.add_assoc]
      rfl
    rw [hpos] at hreads hys
    refine ⟨?_, hys⟩
    simp only [List.length_cons, ByteBuffer.readBytes, hread, hreads]

@[simp] theorem length_uint32Bytes (value : UInt32) : (uint32Bytes value).length = 4 := rfl

theorem ofDigits_uint32Bytes (value : UInt32) :
    UInt32.ofNat (Nat.ofDigits 256 ((uint32Bytes value).map UInt8.toNat)) = value := by
  have hlt := value.toNat_lt
  refine UInt32.toNat_inj.1 ?_
  simp [uint32Bytes, Nat.ofDigits_cons, Nat.shiftRight_eq_div_pow]
  omega

/-- A number that is there is read, and the position is behind it. -/
theorem Holds.readUInt32 {value : UInt32} {xs : List UInt8}
    (h : b.Holds (uint32Bytes value ++ xs)) :
    b.readUInt32 = (value, b.setRpos (b.rpos + 4)) ∧ (b.setRpos (b.rpos + 4)).Holds xs := by
  obtain ⟨hread, hrest⟩ := Holds.readBytes h
  rw [length_uint32Bytes] at hread hrest
  refine ⟨?_, hrest⟩
  unfold ByteBuffer.readUInt32
  simp only [hread]
  rw [ofDigits_uint32Bytes]

end ByteBuffer

/-- The data written so far fits into the space there is. -/
structure StackBuffer where
  written : List UInt8
  space : Nat
  fits : written.length ≤ space

namespace StackBuffer

variable (b : StackBuffer)

/-- `Write(data, size)`. -/
def write (data : List UInt8) : Option StackBuffer :=
  if h : b.written.length + data.length ≤ b.space then
    some ⟨b.written ++ data, b.space, by rw [List.length_append]; exact h⟩
  else if h : b.written.length + data.length ≤ b.space + 200 then
    some ⟨b.written ++ data, b.space + 200, by rw [List.length_append]; exact h⟩
  else none

variable {b}

/-- A short write always has room. -/
theorem write_of_length_le {data : List UInt8} (h : data.length ≤ 200) :
    ∃ b', b.write data = some b' ∧ b'.written = b.written ++ data := by
  have hfits := b.fits
  unfold write
  split
  · exact ⟨_, rfl, rfl⟩
  · rw [dif_pos (by omega)]
    exact ⟨_, rfl, rfl⟩

end StackBuffer

end HearthStone
