/-
HearthStone.Network.CircularBuffer — the buffer of a socket
(`CircularBuffer.cpp`, `CircularBuffer.h`).

The block holds a region A with the oldest bytes and, in front of it, at
times a region B with the newer ones. Pointers are addresses in a flat
memory and zero is `NULL`; sizes are numbers. The differences that the
helpers take of pointers are never negative in a buffer that is used as
the sockets use it (`CircularBuffer.Regions`).

* `write`, `read`, `remove` — the client's operations.
* `getSpace` — may start a region B.
* `getBuffer`, `incrementWritten` — a receive straight into the block.
-/
import HearthStone.Lib.Memory
import HearthStone.Lib.Run

namespace HearthStone

open Lib

structure CircularBuffer where
  /-- what every address holds -/
  mem : Nat → UInt8
  /-- `m_buffer`, `m_bufferEnd` -/
  buffer : Nat
  bufferEnd : Nat
  regionAPointer : Nat
  regionASize : Nat
  regionBPointer : Nat
  regionBSize : Nat

namespace CircularBuffer

/-- The constructor. -/
def new (mem : Nat → UInt8) : CircularBuffer := ⟨mem, 0, 0, 0, 0, 0, 0⟩

variable (c : CircularBuffer)

def getAFreeSpace : Nat := c.bufferEnd - c.regionAPointer - c.regionASize

def getSpaceBeforeA : Nat := c.regionAPointer - c.buffer

def getBFreeSpace : Nat :=
  if c.regionBPointer = 0 then 0 else c.regionAPointer - c.regionBPointer - c.regionBSize

def getSize : Nat := c.regionASize + c.regionBSize

def getContiguiousBytes : Nat := if c.regionASize ≠ 0 then c.regionASize else c.regionBSize

def getBufferStart : Nat := if c.regionASize > 0 then c.regionAPointer else c.regionBPointer

def getBuffer : Nat :=
  if c.regionBPointer ≠ 0 then c.regionBPointer + c.regionBSize
  else c.regionAPointer + c.regionASize

/-- `Allocate(size)`, where `malloc` answers `block`. -/
def allocate (size block : Nat) : CircularBuffer :=
  { c with buffer := block, bufferEnd := block + size, regionAPointer := block }

def allocateB : CircularBuffer := { c with regionBPointer := c.buffer }

/-- `GetSpace`, with the region B it may have started. -/
def getSpace : Nat × CircularBuffer :=
  if c.regionBPointer ≠ 0 then (c.getBFreeSpace, c)
  else if c.getAFreeSpace < c.getSpaceBeforeA then (c.allocateB.getBFreeSpace, c.allocateB)
  else (c.getAFreeSpace, c)

/-- `memcpy` behind region A. -/
def appendA (data : List UInt8) : CircularBuffer :=
  { c with mem := store c.mem (c.regionAPointer + c.regionASize) data
           regionASize := c.regionASize + data.length }

/-- `memcpy` behind region B. -/
def appendB (data : List UInt8) : CircularBuffer :=
  { c with mem := store c.mem (c.regionBPointer + c.regionBSize) data
           regionBSize := c.regionBSize + data.length }

/-- `Write`: its answer, and the buffer. -/
def write (data : List UInt8) : Bool × CircularBuffer :=
  if c.regionBPointer ≠ 0 then
    if c.getBFreeSpace < data.length then (false, c) else (true, c.appendB data)
  else if c.getAFreeSpace < c.getSpaceBeforeA then
    let c := c.allocateB
    if c.getBFreeSpace < data.length then (false, c) else (true, c.appendB data)
  else if c.getAFreeSpace < data.length then (false, c)
  else (true, c.appendA data)

/-- What `Read` and `Remove` do to the sizes and pointers: as much out of
A as there is, the rest out of B. -/
def cutA (cnt : Nat) : Nat := if c.regionASize > 0 then min cnt c.regionASize else 0

def cutB (cnt : Nat) : Nat := if cnt > 0 ∧ c.regionBSize > 0 then min cnt c.regionBSize else 0

def cut (cnt : Nat) : CircularBuffer :=
  let a := c.cutA cnt
  let b := c.cutB (cnt - a)
  { c with regionASize := c.regionASize - a, regionAPointer := c.regionAPointer + a
           regionBSize := c.regionBSize - b, regionBPointer := c.regionBPointer + b }

/-- "is buffer A empty? move buffer B to buffer A". -/
def moveBToA : CircularBuffer :=
  if c.regionASize = 0 then
    if c.regionBSize > 0 then
      let mem :=
        if c.regionBPointer ≠ c.buffer
        then store c.mem c.buffer (load c.mem c.regionBPointer c.regionBSize) else c.mem
      { c with mem, regionAPointer := c.buffer, regionASize := c.regionBSize
               regionBPointer := 0, regionBSize := 0 }
    else
      { c with regionBPointer := 0, regionBSize := 0, regionAPointer := c.buffer
               regionASize := 0 }
  else c

/-- `Read`: the bytes copied out, or none. -/
def read (bytes : Nat) : Option (List UInt8) × CircularBuffer :=
  if c.regionASize + c.regionBSize < bytes then (none, c)
  else
    let a := c.cutA bytes
    let data := load c.mem c.regionAPointer a ++ load c.mem c.regionBPointer (c.cutB (bytes - a))
    (some data, (c.cut bytes).moveBToA)

/-- `Remove`. -/
def remove (len : Nat) : CircularBuffer := (c.cut len).moveBToA

/-- Bytes stored from outside at an address of the block, as `recv` does
at `GetBuffer()`. -/
def receive (address : Nat) (data : List UInt8) : CircularBuffer :=
  { c with mem := store c.mem address data }

def incrementWritten (len : Nat) : CircularBuffer :=
  if c.regionBPointer ≠ 0 then { c with regionBSize := c.regionBSize + len }
  else { c with regionASize := c.regionASize + len }

end CircularBuffer

end HearthStone

/-! ## Theorems

The buffer is a queue of bytes.

* `Regions` — the order of the pointers: A ends inside the block, B
  starts the block and ends before A, and an empty A is at the start with
  no B.
* `contents` — the bytes of A and then those of B.
* one lemma for each operation: it keeps `Regions` and does to `contents`
  what the operation of a queue does.
* `circularBuffer_is_queue` — every run.
-/

namespace HearthStone

open Lib

namespace CircularBuffer

variable {c : CircularBuffer} {data : List UInt8} {n : Nat}

/-- The order of the pointers. -/
structure Regions (c : CircularBuffer) : Prop where
  start : c.buffer ≤ c.regionAPointer
  inside : c.regionAPointer + c.regionASize ≤ c.bufferEnd
  empty : c.regionASize = 0 → c.regionAPointer = c.buffer ∧ c.regionBPointer = 0
  noB : c.regionBPointer = 0 → c.regionBSize = 0
  before : c.regionBPointer ≠ 0 →
    c.regionBPointer = c.buffer ∧ c.regionBPointer + c.regionBSize ≤ c.regionAPointer
  block : c.buffer = 0 → c.bufferEnd = 0

/-- The bytes that are in the buffer, the oldest first. -/
def contents (c : CircularBuffer) : List UInt8 :=
  load c.mem c.regionAPointer c.regionASize ++ load c.mem c.regionBPointer c.regionBSize

theorem regions_new (mem : Nat → UInt8) : (new mem).Regions :=
  ⟨Nat.le_refl 0, Nat.le_refl 0, fun _ => ⟨rfl, rfl⟩, fun _ => rfl, fun h => absurd rfl h,
    fun _ => rfl⟩

@[simp] theorem length_contents : c.contents.length = c.getSize := by
  simp [contents, getSize]

theorem contents_eq_nil (h : c.getSize = 0) : c.contents = [] := by
  rw [← List.length_eq_zero_iff, length_contents, h]

/-! ## Region B -/

/-- Space in front of A means that the block is there. -/
theorem Regions.buffer_ne_zero (h : c.Regions) (hlt : c.getAFreeSpace < c.getSpaceBeforeA) :
    c.buffer ≠ 0 := by
  intro h0
  have hend := h.block h0
  have hinside := h.inside
  unfold getAFreeSpace getSpaceBeforeA at hlt
  omega

theorem Regions.allocateB (h : c.Regions) (hB : c.regionBPointer = 0)
    (hlt : c.getAFreeSpace < c.getSpaceBeforeA) : c.allocateB.Regions where
  start := h.start
  inside := h.inside
  empty := by
    intro hA
    have hstart : c.regionAPointer = c.buffer := (h.empty hA).1
    unfold getSpaceBeforeA at hlt
    omega
  noB := fun hzero => absurd hzero (h.buffer_ne_zero hlt)
  before := by
    intro _
    have hsize := h.noB hB
    have hstart := h.start
    refine ⟨rfl, ?_⟩
    change c.buffer + c.regionBSize ≤ c.regionAPointer
    omega
  block := h.block

theorem Regions.contents_allocateB (h : c.Regions) (hB : c.regionBPointer = 0) :
    c.allocateB.contents = c.contents := by
  unfold contents CircularBuffer.allocateB
  rw [h.noB hB]
  rfl

/-! ## Appending -/

theorem Regions.appendA (h : c.Regions) (hB : c.regionBPointer = 0)
    (hfits : data.length ≤ c.getAFreeSpace) : (c.appendA data).Regions where
  start := h.start
  inside := by
    have hinside := h.inside
    unfold getAFreeSpace at hfits
    change c.regionAPointer + (c.regionASize + data.length) ≤ c.bufferEnd
    omega
  empty := by
    intro hsize
    have hA : c.regionASize = 0 := (Nat.add_eq_zero_iff.1 hsize).1
    exact h.empty hA
  noB := h.noB
  before := fun hne => absurd hB hne
  block := h.block

theorem Regions.contents_appendA (h : c.Regions) (hB : c.regionBPointer = 0) :
    (c.appendA data).contents = c.contents ++ data := by
  unfold contents CircularBuffer.appendA
  rw [h.noB hB, load_zero, load_zero, List.append_nil, List.append_nil, load_store_append]

theorem Regions.appendB (h : c.Regions) (hB : c.regionBPointer ≠ 0)
    (hfits : data.length ≤ c.getBFreeSpace) : (c.appendB data).Regions where
  start := h.start
  inside := h.inside
  empty := h.empty
  noB := fun hzero => absurd hzero hB
  before := by
    intro _
    obtain ⟨hstart, hbefore⟩ := h.before hB
    refine ⟨hstart, ?_⟩
    unfold getBFreeSpace at hfits
    rw [if_neg hB] at hfits
    change c.regionBPointer + (c.regionBSize + data.length) ≤ c.regionAPointer
    omega
  block := h.block

theorem Regions.contents_appendB (h : c.Regions) (hB : c.regionBPointer ≠ 0)
    (hfits : data.length ≤ c.getBFreeSpace) : (c.appendB data).contents = c.contents ++ data := by
  obtain ⟨-, hbefore⟩ := h.before hB
  unfold getBFreeSpace at hfits
  rw [if_neg hB] at hfits
  have hA : load (store c.mem (c.regionBPointer + c.regionBSize) data) c.regionAPointer
      c.regionASize = load c.mem c.regionAPointer c.regionASize :=
    load_store_of_disjoint (Or.inr (by omega))
  unfold contents CircularBuffer.appendB
  rw [hA, load_store_append, List.append_assoc]

/-! ## `Write` and `GetSpace` -/

/-- A write appends its bytes, or is refused and leaves the contents. -/
theorem Regions.write (h : c.Regions) (data : List UInt8) :
    (c.write data).2.Regions ∧
      (c.write data).2.contents = if (c.write data).1 then c.contents ++ data else c.contents := by
  unfold CircularBuffer.write
  by_cases hB : c.regionBPointer ≠ 0
  · rw [if_pos hB]
    by_cases hfits : c.getBFreeSpace < data.length
    · rw [if_pos hfits]
      exact ⟨h, rfl⟩
    · rw [if_neg hfits]
      rw [Nat.not_lt] at hfits
      exact ⟨h.appendB hB hfits, h.contents_appendB hB hfits⟩
  · rw [if_neg hB]
    rw [not_not] at hB
    by_cases hlt : c.getAFreeSpace < c.getSpaceBeforeA
    · rw [if_pos hlt]
      have halloc := h.allocateB hB hlt
      have hsame := h.contents_allocateB hB
      by_cases hfits : c.allocateB.getBFreeSpace < data.length
      · rw [if_pos hfits]
        exact ⟨halloc, hsame⟩
      · rw [if_neg hfits]
        rw [Nat.not_lt] at hfits
        have hne : c.allocateB.regionBPointer ≠ 0 := h.buffer_ne_zero hlt
        refine ⟨halloc.appendB hne hfits, ?_⟩
        rw [halloc.contents_appendB hne hfits, hsame]
        rfl
    · rw [if_neg hlt]
      by_cases hfits : c.getAFreeSpace < data.length
      · rw [if_pos hfits]
        exact ⟨h, rfl⟩
      · rw [if_neg hfits]
        rw [Nat.not_lt] at hfits
        exact ⟨h.appendA hB hfits, h.contents_appendA hB⟩

theorem Regions.getSpace (h : c.Regions) :
    c.getSpace.2.Regions ∧ c.getSpace.2.contents = c.contents := by
  unfold CircularBuffer.getSpace
  by_cases hB : c.regionBPointer ≠ 0
  · rw [if_pos hB]
    exact ⟨h, rfl⟩
  · rw [if_neg hB]
    rw [not_not] at hB
    by_cases hlt : c.getAFreeSpace < c.getSpaceBeforeA
    · rw [if_pos hlt]
      exact ⟨h.allocateB hB hlt, h.contents_allocateB hB⟩
    · rw [if_neg hlt]
      exact ⟨h, rfl⟩

/-! ## `Read` and `Remove` -/

theorem cutA_eq (c : CircularBuffer) (n : Nat) : c.cutA n = min n c.regionASize := by
  unfold cutA
  split <;> omega

theorem cutB_eq (c : CircularBuffer) (n : Nat) : c.cutB n = min n c.regionBSize := by
  unfold cutB
  split <;> omega

theorem cut_regionASize (c : CircularBuffer) (n : Nat) :
    (c.cut n).regionASize = c.regionASize - n := by
  unfold cut
  dsimp only
  rw [cutA_eq]
  omega

theorem cut_regionAPointer (c : CircularBuffer) (n : Nat) :
    (c.cut n).regionAPointer = c.regionAPointer + min n c.regionASize := by
  unfold cut
  rw [cutA_eq]

theorem cut_regionBSize (c : CircularBuffer) (n : Nat) :
    (c.cut n).regionBSize = c.regionBSize - (n - c.regionASize) := by
  unfold cut
  dsimp only
  rw [cutA_eq, cutB_eq]
  omega

theorem cut_regionBPointer (c : CircularBuffer) (n : Nat) :
    (c.cut n).regionBPointer = c.regionBPointer + min (n - c.regionASize) c.regionBSize := by
  unfold cut
  dsimp only
  rw [cutA_eq, cutB_eq]
  congr 2
  omega

/-- What is left of a run whose first cells are skipped, or nothing. -/
theorem load_skip (m : Nat → UInt8) (p k n : Nat) :
    load m (p + min n k) (k - n) = (load m p k).drop n := by
  rcases Nat.le_total n k with hle | hle
  · rw [Nat.min_eq_left hle, drop_load hle]
  · rw [Nat.sub_eq_zero_of_le hle, load_zero, List.drop_of_length_le (by simpa)]

theorem contents_cut (c : CircularBuffer) (n : Nat) : (c.cut n).contents = c.contents.drop n := by
  unfold contents
  rw [cut_regionASize, cut_regionAPointer, cut_regionBSize, cut_regionBPointer,
    show (c.cut n).mem = c.mem from rfl, load_skip, load_skip, List.drop_append, length_load]

theorem contents_moveBToA : c.moveBToA.contents = c.contents := by
  unfold moveBToA
  by_cases hA : c.regionASize = 0
  · rw [if_pos hA]
    by_cases hsize : c.regionBSize > 0
    · rw [if_pos hsize]
      unfold contents
      rw [hA, load_zero, load_zero, List.append_nil, List.nil_append]
      by_cases hstart : c.regionBPointer = c.buffer
      · rw [if_neg (by simpa using hstart), hstart]
      · rw [if_pos hstart]
        have hback := load_store c.mem c.buffer (load c.mem c.regionBPointer c.regionBSize)
        rwa [length_load] at hback
    · rw [if_neg hsize]
      have hzero : c.regionBSize = 0 := by omega
      unfold contents
      rw [hA, hzero]
      rfl
  · rw [if_neg hA]

/-- An emptied A takes over what B holds. -/
theorem regions_moveBToA (hA : c.regionASize = 0) (hfits : c.buffer + c.regionBSize ≤ c.bufferEnd)
    (hblock : c.buffer = 0 → c.bufferEnd = 0) : c.moveBToA.Regions := by
  unfold moveBToA
  rw [if_pos hA]
  split
  · exact ⟨Nat.le_refl _, hfits, fun _ => ⟨rfl, rfl⟩, fun _ => rfl, fun hne => absurd rfl hne,
      hblock⟩
  · have hinside : c.buffer + 0 ≤ c.bufferEnd := by omega
    exact ⟨Nat.le_refl _, hinside, fun _ => ⟨rfl, rfl⟩, fun _ => rfl, fun hne => absurd rfl hne,
      hblock⟩

/-- While A is not emptied only A is cut. -/
theorem Regions.cut (h : c.Regions) (hlt : n < c.regionASize) : (c.cut n).Regions := by
  have hstart := h.start
  have hinside := h.inside
  have hB : (c.cut n).regionBPointer = c.regionBPointer := by
    rw [cut_regionBPointer]
    omega
  constructor
  · change c.buffer ≤ (c.cut n).regionAPointer
    rw [cut_regionAPointer]
    omega
  · change (c.cut n).regionAPointer + (c.cut n).regionASize ≤ c.bufferEnd
    rw [cut_regionAPointer, cut_regionASize]
    omega
  · intro hzero
    rw [cut_regionASize] at hzero
    omega
  · intro hzero
    rw [hB] at hzero
    rw [cut_regionBSize, h.noB hzero, Nat.zero_sub]
  · intro hne
    rw [hB] at hne
    obtain ⟨hb, hbefore⟩ := h.before hne
    rw [hB, cut_regionBSize, cut_regionAPointer]
    refine ⟨hb, ?_⟩
    omega
  · exact h.block

/-- Removing cuts the oldest bytes off. -/
theorem Regions.remove (h : c.Regions) (n : Nat) :
    (c.remove n).Regions ∧ (c.remove n).contents = c.contents.drop n := by
  unfold CircularBuffer.remove
  rw [contents_moveBToA, contents_cut]
  refine ⟨?_, rfl⟩
  by_cases hlt : n < c.regionASize
  · have hcut := h.cut hlt
    unfold moveBToA
    rw [if_neg (by rw [cut_regionASize]; omega)]
    exact hcut
  · refine regions_moveBToA ?_ ?_ h.block
    · rw [cut_regionASize]
      omega
    · rw [cut_regionBSize]
      change c.buffer + (c.regionBSize - (n - c.regionASize)) ≤ c.bufferEnd
      have hstart := h.start
      have hinside := h.inside
      by_cases hB : c.regionBPointer = 0
      · rw [h.noB hB]
        omega
      · have hbefore := h.before hB
        omega

/-- A read returns the oldest bytes and removes them, or refuses when
there are too few. -/
theorem read_eq (c : CircularBuffer) (n : Nat) :
    c.read n = if c.getSize < n then (none, c) else (some (c.contents.take n), c.remove n) := by
  unfold CircularBuffer.read getSize
  by_cases hlt : c.regionASize + c.regionBSize < n
  · rw [if_pos hlt, if_pos hlt]
  · rw [if_neg hlt, if_neg hlt]
    have hdata : load c.mem c.regionAPointer (c.cutA n) ++
        load c.mem c.regionBPointer (c.cutB (n - c.cutA n)) = c.contents.take n := by
      unfold contents
      rw [cutA_eq, cutB_eq, ← take_load (m := c.mem) (Nat.min_le_right n c.regionASize),
        ← take_load (m := c.mem) (Nat.min_le_right _ c.regionBSize), List.take_append, length_load]
      have hrest : min (n - min n c.regionASize) c.regionBSize = n - c.regionASize := by omega
      rw [hrest]
      congr 1
      rw [List.take_eq_take_iff, length_load]
      omega
    dsimp only
    rw [hdata]
    rfl

/-! ## `Allocate` and a receive into the block -/

/-- A buffer that holds nothing may be given a block. -/
theorem Regions.allocate (h : c.Regions) (hsize : c.getSize = 0) {size block : Nat}
    (hblock : block = 0 → size = 0) :
    (c.allocate size block).Regions ∧ (c.allocate size block).contents = [] := by
  obtain ⟨hA, hBsize⟩ := Nat.add_eq_zero_iff.1 hsize
  have hB := (h.empty hA).2
  constructor
  · refine ⟨Nat.le_refl _, ?_, fun _ => ⟨rfl, hB⟩, h.noB, fun hne => absurd hB hne, ?_⟩
    · change block + c.regionASize ≤ block + size
      omega
    · intro hzero
      change block + size = 0
      have hzero' : block = 0 := hzero
      rw [hzero', hblock hzero']
  · exact contents_eq_nil hsize

/-- The space at `GetBuffer()`. -/
def room (c : CircularBuffer) : Nat :=
  if c.regionBPointer ≠ 0 then c.getBFreeSpace else c.getAFreeSpace

/-- Bytes stored at `GetBuffer()` and then counted. -/
def commit (c : CircularBuffer) (data : List UInt8) : CircularBuffer :=
  (c.receive c.getBuffer data).incrementWritten data.length

theorem commit_eq (c : CircularBuffer) (data : List UInt8) :
    c.commit data = if c.regionBPointer ≠ 0 then c.appendB data else c.appendA data := by
  unfold commit receive getBuffer incrementWritten
  by_cases hB : c.regionBPointer ≠ 0
  · simp only [if_pos hB]
    rfl
  · simp only [if_neg hB]
    rfl

theorem Regions.commit (h : c.Regions) (hfits : data.length ≤ c.room) :
    (c.commit data).Regions ∧ (c.commit data).contents = c.contents ++ data := by
  rw [commit_eq]
  unfold CircularBuffer.room at hfits
  by_cases hB : c.regionBPointer ≠ 0
  · rw [if_pos hB] at hfits ⊢
    exact ⟨h.appendB hB hfits, h.contents_appendB hB hfits⟩
  · rw [if_neg hB] at hfits ⊢
    rw [not_not] at hB
    exact ⟨h.appendA hB hfits, h.contents_appendA hB⟩

/-- What `GetSpace` answers is the space at the `GetBuffer()` it leaves. -/
theorem room_getSpace : c.getSpace.2.room = c.getSpace.1 ∨ c.getSpace.1 = 0 := by
  unfold CircularBuffer.getSpace room
  by_cases hB : c.regionBPointer ≠ 0
  · left
    rw [if_pos hB, if_pos hB]
  · rw [if_neg hB]
    by_cases hlt : c.getAFreeSpace < c.getSpaceBeforeA
    · rw [if_pos hlt]
      by_cases hB' : c.allocateB.regionBPointer = 0
      · right
        exact if_pos hB'
      · left
        exact if_pos hB'
    · left
      rw [if_neg hlt, if_neg hB]

/-! ## Every run -/

/-- An operation of the buffer. -/
inductive Op
  | allocate (size block : Nat)
  | write (data : List UInt8)
  | read (bytes : Nat)
  | remove (len : Nat)
  | getSpace
  | commit (data : List UInt8)

/-- A buffer with what was written to it and what was taken out of it. -/
structure Traced where
  buf : CircularBuffer
  written : List UInt8
  taken : List UInt8

def Traced.start (mem : Nat → UInt8) : Traced := ⟨new mem, [], []⟩

/-- One operation. What `Remove` takes out is what the caller found at the
front. -/
def Op.step (t : Traced) : Op → Traced
  | .allocate size block => { t with buf := t.buf.allocate size block }
  | .write data =>
    { t with buf := (t.buf.write data).2
             written := t.written ++ if (t.buf.write data).1 then data else [] }
  | .read bytes =>
    { t with buf := (t.buf.read bytes).2, taken := t.taken ++ (t.buf.read bytes).1.getD [] }
  | .remove len => { t with buf := t.buf.remove len, taken := t.taken ++ t.buf.contents.take len }
  | .getSpace => { t with buf := t.buf.getSpace.2 }
  | .commit data => { t with buf := t.buf.commit data, written := t.written ++ data }

/-- A block is allocated for a buffer that holds nothing, and is null for
no size but zero; no more is counted as received than there was space for. -/
def Proper (t : Traced) : Op → Prop
  | .allocate size block => t.buf.getSize = 0 ∧ (block = 0 → size = 0)
  | .commit data => data.length ≤ t.buf.room
  | _ => True

/-- The buffer is the queue of what was written and not yet taken. -/
structure QueueInv (t : Traced) : Prop where
  regions : t.buf.Regions
  queue : t.written = t.taken ++ t.buf.contents

theorem QueueInv.step {t : Traced} (h : QueueInv t) {op : Op} (hok : Proper t op) :
    QueueInv (op.step t) := by
  obtain ⟨hr, hq⟩ := h
  cases op with
  | allocate size block =>
    obtain ⟨hregions, hcontents⟩ := hr.allocate hok.1 hok.2
    refine ⟨hregions, ?_⟩
    change t.written = t.taken ++ (t.buf.allocate size block).contents
    rw [hcontents, hq, contents_eq_nil hok.1]
  | write data =>
    obtain ⟨hregions, hcontents⟩ := hr.write data
    refine ⟨hregions, ?_⟩
    change t.written ++ _ = t.taken ++ (t.buf.write data).2.contents
    rw [hcontents, hq]
    split
    · rw [List.append_assoc]
    · rw [List.append_nil]
  | read bytes =>
    obtain ⟨hregions, hcontents⟩ := hr.remove bytes
    unfold Op.step
    dsimp only
    rw [read_eq]
    by_cases hlt : t.buf.getSize < bytes
    · rw [if_pos hlt]
      exact ⟨hr, by rw [Option.getD_none, List.append_nil]; exact hq⟩
    · rw [if_neg hlt]
      refine ⟨hregions, ?_⟩
      change t.written = t.taken ++ t.buf.contents.take bytes ++ (t.buf.remove bytes).contents
      rw [hcontents, List.append_assoc, List.take_append_drop, hq]
  | remove len =>
    obtain ⟨hregions, hcontents⟩ := hr.remove len
    refine ⟨hregions, ?_⟩
    change t.written = t.taken ++ t.buf.contents.take len ++ (t.buf.remove len).contents
    rw [hcontents, List.append_assoc, List.take_append_drop, hq]
  | getSpace =>
    obtain ⟨hregions, hcontents⟩ := hr.getSpace
    refine ⟨hregions, ?_⟩
    change t.written = t.taken ++ t.buf.getSpace.2.contents
    rw [hcontents, hq]
  | commit data =>
    obtain ⟨hregions, hcontents⟩ := hr.commit hok
    refine ⟨hregions, ?_⟩
    change t.written ++ data = t.taken ++ (t.buf.commit data).contents
    rw [hcontents, hq, List.append_assoc]

theorem queueInv_run {mem : Nat → UInt8} {ops : List Op} {t : Traced}
    (hrun : Run (Guarded Proper (FunStep Op.step)) (Traced.start mem) ops t) : QueueInv t := by
  refine hrun.invariant QueueInv ?_ ⟨regions_new mem, rfl⟩
  rintro s op _ hs ⟨hok, rfl⟩
  exact hs.step hok

/-- The addresses of a region. -/
def InA (c : CircularBuffer) (a : Nat) : Prop :=
  c.regionAPointer ≤ a ∧ a < c.regionAPointer + c.regionASize

def InB (c : CircularBuffer) (a : Nat) : Prop :=
  c.regionBPointer ≤ a ∧ a < c.regionBPointer + c.regionBSize

theorem Regions.apart (h : c.Regions) (a : Nat) : ¬ (c.InA a ∧ c.InB a) := by
  rintro ⟨⟨hA, -⟩, -, hB⟩
  by_cases hzero : c.regionBPointer = 0
  · have hsize := h.noB hzero
    omega
  · have hbefore := (h.before hzero).2
    omega

theorem Regions.inBlock (h : c.Regions) (a : Nat) (ha : c.InA a ∨ c.InB a) :
    c.buffer ≤ a ∧ a < c.bufferEnd := by
  have hstart := h.start
  have hinside := h.inside
  rcases ha with ⟨hA, hlt⟩ | ⟨hB, hlt⟩
  · omega
  · by_cases hzero : c.regionBPointer = 0
    · have hsize := h.noB hzero
      omega
    · obtain ⟨hb, hbefore⟩ := h.before hzero
      omega

/-- In every run in which blocks are allocated for an empty buffer and
receives keep within the space, the bytes taken out are the first of the
bytes written, the size is the number of the others, the regions are
apart and inside the block, and whatever is refused leaves the contents. -/
theorem circularBuffer_is_queue {mem : Nat → UInt8} {ops : List Op} {t : Traced}
    (hrun : Run (Guarded Proper (FunStep Op.step)) (Traced.start mem) ops t) :
    t.written = t.taken ++ t.buf.contents ∧
      t.buf.getSize = t.written.length - t.taken.length ∧
      (∀ a, ¬ (t.buf.InA a ∧ t.buf.InB a)) ∧
      (∀ a, t.buf.InA a ∨ t.buf.InB a → t.buf.buffer ≤ a ∧ a < t.buf.bufferEnd) ∧
      (∀ data, (t.buf.write data).1 = false → (t.buf.write data).2.contents = t.buf.contents) ∧
      ∀ n, (t.buf.read n).1 = none → (t.buf.read n).2 = t.buf := by
  obtain ⟨hr, hq⟩ := queueInv_run hrun
  refine ⟨hq, ?_, hr.apart, hr.inBlock, ?_, ?_⟩
  · rw [hq, List.length_append, length_contents]
    omega
  · intro data hrefused
    rw [(hr.write data).2, hrefused]
    rfl
  · intro n hrefused
    rw [read_eq] at hrefused ⊢
    split
    · rfl
    · rename_i hlt
      rw [if_neg hlt] at hrefused
      cases hrefused

/-! ### A block of four bytes -/

/-- Three bytes are written, two are read, and three more wrap around. -/
theorem circularBuffer_is_queue_wrapped :
    ∃ t, Run (Guarded Proper (FunStep Op.step)) (Traced.start fun _ => 0)
      [.allocate 4 64, .write [1, 2, 3], .read 2, .write [4, 5], .read 3] t ∧
      t.taken = [1, 2, 3, 4, 5] ∧ t.written = t.taken ++ t.buf.contents := by
  have hrun : Run (Guarded Proper (FunStep Op.step)) (Traced.start fun _ => 0)
      [.allocate 4 64, .write [1, 2, 3], .read 2, .write [4, 5], .read 3] _ :=
    .cons ⟨⟨rfl, by decide⟩, rfl⟩ (.cons ⟨trivial, rfl⟩ (.cons ⟨trivial, rfl⟩
      (.cons ⟨trivial, rfl⟩ (.cons ⟨trivial, rfl⟩ (.nil _)))))
  exact ⟨_, hrun, by decide, (circularBuffer_is_queue hrun).1⟩

/-- A second block for a buffer that holds a byte loses it, and a receive
beyond the space leaves the block. -/
theorem improper_use_breaks_queue :
    (¬ ∀ (mem : Nat → UInt8) (ops : List Op) (t : Traced),
      Run (FunStep Op.step) (Traced.start mem) ops t → t.written = t.taken ++ t.buf.contents) ∧
    ¬ ∀ (mem : Nat → UInt8) (ops : List Op) (t : Traced),
      Run (FunStep Op.step) (Traced.start mem) ops t →
        ∀ a, t.buf.InA a ∨ t.buf.InB a → t.buf.buffer ≤ a ∧ a < t.buf.bufferEnd := by
  constructor
  · intro hall
    have hqueue := hall (fun _ => 0) [.allocate 4 64, .write [1], .allocate 4 128] _
      (.cons rfl (.cons rfl (.cons rfl (.nil _))))
    exact absurd hqueue (by decide)
  · intro hall
    have hinside := hall (fun _ => 0) [.allocate 1 64, .commit [1, 2]] _
      (.cons rfl (.cons rfl (.nil _))) 65 (Or.inl ⟨by decide, by decide⟩)
    exact absurd hinside.2 (by decide)

end CircularBuffer

end HearthStone
