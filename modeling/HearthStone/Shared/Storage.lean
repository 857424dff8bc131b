/-
HearthStone.Shared.Storage — the two containers under the database caches
(`Storage.h`), an array of pointers and a hash map.

A pointer is a number, NULL is `none`. `new T` gives the next number that
was never given, `delete` notes what it was called with. The operations of
the array go through `read` and `write`, which give `none` where the cell is
not one of the array's: there the code touches memory that is not its own.

The hash map is an association list without a key twice, in an order of its
own. `Restricted` is what the array should be: the hash map, with every
entry at or above a maximum refused.

`STORAGE_ALLOCATION_POOLS` is defined nowhere; the code is read without it.
-/
import Mathlib.Data.List.AList

namespace HearthStone.Storage

/-- `T *`. -/
abbrev Ptr := Nat

/-- What `new` and `delete` were called for. -/
structure Heap where
  next : Ptr
  freed : List Ptr
  deriving DecidableEq

def Heap.new (h : Heap) : Ptr × Heap := (h.next, { h with next := h.next + 1 })

/-- `delete`, which does nothing on NULL. -/
def Heap.delete (h : Heap) (p : Option Ptr) : Heap := { h with freed := h.freed ++ p.toList }

/-- The operations the containers share. -/
inductive Op
  | allocateEntry (entry : UInt32)
  | deallocateEntry (entry : UInt32)
  | lookupEntry (entry : UInt32)
  | setEntry (entry : UInt32) (pointer : Option Ptr)
  | lookupEntryAllocate (entry : UInt32)
  | resetup (max : UInt32)
  | clear
  deriving DecidableEq

inductive Answer
  | pointer (p : Option Ptr)
  | success (b : Bool)
  | nothing
  deriving DecidableEq

/-! ## ArrayStorageContainer -/

/-- The array has a cell for each entry below the maximum. -/
structure ArrayStorageContainer where
  max : UInt32
  array : List (Option Ptr)
  size : array.length = max.toNat
  heap : Heap

namespace ArrayStorageContainer

def setup (max : UInt32) : ArrayStorageContainer where
  max := max
  array := List.replicate max.toNat none
  size := List.length_replicate
  heap := { next := 0, freed := [] }

/-- `_array[Entry]`. -/
def read (s : ArrayStorageContainer) (entry : UInt32) : Option (Option Ptr) :=
  s.array[entry.toNat]?

/-- `_array[Entry] = Pointer`. -/
def write (s : ArrayStorageContainer) (entry : UInt32) (p : Option Ptr) :
    Option ArrayStorageContainer :=
  if entry.toNat < s.array.length then
    some { s with array := s.array.set entry.toNat p, size := by rw [List.length_set, s.size] }
  else none

/-- The old array is copied to the front of the new one. -/
def resetup (s : ArrayStorageContainer) (max : UInt32) : ArrayStorageContainer :=
  if h : max < s.max then s
  else
    { s with
      max := max
      array := s.array ++ List.replicate (max.toNat - s.max.toNat) none
      size := by
        have hmax := UInt32.le_iff_toNat_le.1 (UInt32.not_lt.1 h)
        rw [List.length_append, s.size, List.length_replicate]
        omega }

def allocateEntry (s : ArrayStorageContainer) (entry : UInt32) :
    Option (Option Ptr × ArrayStorageContainer) :=
  if s.max ≤ entry then some (none, s)
  else
    (s.read entry).bind fun cell =>
      if cell ≠ none then some (none, s)
      else
        let (p, heap) := s.heap.new
        (s.write entry (some p)).map fun s => (some p, { s with heap := heap })

def deallocateEntry (s : ArrayStorageContainer) (entry : UInt32) :
    Option (Bool × ArrayStorageContainer) :=
  if s.max ≤ entry then some (false, s)
  else
    (s.read entry).bind fun cell =>
      if cell = none then some (false, s)
      else (s.write entry none).map fun t => (true, { t with heap := s.heap.delete cell })

def lookupEntry (s : ArrayStorageContainer) (entry : UInt32) : Option (Option Ptr) :=
  if s.max ≤ entry then some none else s.read entry

/-- The test is `Entry > _max`. -/
def setEntry (s : ArrayStorageContainer) (entry : UInt32) (pointer : Option Ptr) :
    Option (Bool × ArrayStorageContainer) :=
  if s.max < entry then some (false, s)
  else
    (s.read entry).bind fun cell =>
      (s.write entry pointer).map fun t => (true, { t with heap := s.heap.delete cell })

def lookupEntryAllocate (s : ArrayStorageContainer) (entry : UInt32) :
    Option (Option Ptr × ArrayStorageContainer) :=
  (s.lookupEntry entry).bind fun ret =>
    if ret = none then s.allocateEntry entry else some (ret, s)

/-- The loop goes over the cells of the array. -/
def clear (s : ArrayStorageContainer) : ArrayStorageContainer where
  max := s.max
  array := s.array.map fun _ => none
  size := by rw [List.length_map, s.size]
  heap := s.array.foldl Heap.delete s.heap

def step (s : ArrayStorageContainer) : Op → Option (Answer × ArrayStorageContainer)
  | .allocateEntry e => (s.allocateEntry e).map fun r => (.pointer r.1, r.2)
  | .deallocateEntry e => (s.deallocateEntry e).map fun r => (.success r.1, r.2)
  | .lookupEntry e => (s.lookupEntry e).map fun p => (.pointer p, s)
  | .setEntry e p => (s.setEntry e p).map fun r => (.success r.1, r.2)
  | .lookupEntryAllocate e => (s.lookupEntryAllocate e).map fun r => (.pointer r.1, r.2)
  | .resetup m => some (.nothing, s.resetup m)
  | .clear => some (.nothing, s.clear)

end ArrayStorageContainer

/-! ## ArrayStorageIterator -/

structure ArrayStorageIterator where
  myIndex : Nat
  pointer : Option Ptr
  deriving DecidableEq

/-- `GetNextElement` from an index on. -/
def getNextElement (s : ArrayStorageContainer) (i : Nat) : ArrayStorageIterator :=
  if h : i < s.max.toNat then
    match s.array.get ⟨i, s.size.symm ▸ h⟩ with
    | some p => { myIndex := i + 1, pointer := some p }
    | none => getNextElement s (i + 1)
  else { myIndex := i, pointer := none }
termination_by s.max.toNat - i

def inc (s : ArrayStorageContainer) (itr : ArrayStorageIterator) : ArrayStorageIterator :=
  getNextElement s itr.myIndex

def makeIterator (s : ArrayStorageContainer) : ArrayStorageIterator := getNextElement s 0

/-! ## HashMapStorageContainer -/

structure HashMapStorageContainer where
  map : AList fun _ : UInt32 => Option Ptr
  heap : Heap

namespace HashMapStorageContainer

def empty : HashMapStorageContainer where
  map := ∅
  heap := { next := 0, freed := [] }

def allocateEntry (s : HashMapStorageContainer) (entry : UInt32) :
    Option Ptr × HashMapStorageContainer :=
  if s.map.lookup entry ≠ none then (none, s)
  else
    let (n, heap) := s.heap.new
    (some n, { map := s.map.insert entry (some n), heap := heap })

def deallocateEntry (s : HashMapStorageContainer) (entry : UInt32) :
    Bool × HashMapStorageContainer :=
  match s.map.lookup entry with
  | none => (false, s)
  | some p => (true, { map := s.map.erase entry, heap := s.heap.delete p })

def lookupEntry (s : HashMapStorageContainer) (entry : UInt32) : Option Ptr :=
  (s.map.lookup entry).join

def setEntry (s : HashMapStorageContainer) (entry : UInt32) (pointer : Option Ptr) :
    Bool × HashMapStorageContainer :=
  match s.map.lookup entry with
  | none => (true, { s with map := s.map.insert entry pointer })
  | some p => (true, { map := s.map.insert entry pointer, heap := s.heap.delete p })

def lookupEntryAllocate (s : HashMapStorageContainer) (entry : UInt32) :
    Option Ptr × HashMapStorageContainer :=
  if s.lookupEntry entry = none then s.allocateEntry entry else (s.lookupEntry entry, s)

/-- The pointers of the map, NULL left out. -/
def elements (s : HashMapStorageContainer) : List Ptr := s.map.entries.filterMap Sigma.snd

def clear (s : HashMapStorageContainer) : HashMapStorageContainer where
  map := ∅
  heap := (s.map.entries.map Sigma.snd).foldl Heap.delete s.heap

def step (s : HashMapStorageContainer) : Op → Answer × HashMapStorageContainer
  | .allocateEntry e => (.pointer (s.allocateEntry e).1, (s.allocateEntry e).2)
  | .deallocateEntry e => (.success (s.deallocateEntry e).1, (s.deallocateEntry e).2)
  | .lookupEntry e => (.pointer (s.lookupEntry e), s)
  | .setEntry e p => (.success (s.setEntry e p).1, (s.setEntry e p).2)
  | .lookupEntryAllocate e => (.pointer (s.lookupEntryAllocate e).1, (s.lookupEntryAllocate e).2)
  | .resetup _ => (.nothing, s)
  | .clear => (.nothing, s.clear)

end HashMapStorageContainer

/-! ## The hash map below a maximum -/

/-- The answer to an operation on an entry at or above the maximum. -/
def Op.refusal (max : UInt32) : Op → Option Answer
  | .allocateEntry e | .lookupEntry e | .lookupEntryAllocate e =>
    if max ≤ e then some (.pointer none) else none
  | .deallocateEntry e | .setEntry e _ => if max ≤ e then some (.success false) else none
  | .resetup _ | .clear => none

/-- The maximum after an operation. -/
def Op.raise (max : UInt32) : Op → UInt32
  | .resetup m => if m < max then max else m
  | _ => max

structure Restricted where
  hash : HashMapStorageContainer
  max : UInt32

namespace Restricted

def setup (max : UInt32) : Restricted where
  hash := HashMapStorageContainer.empty
  max := max

def step (r : Restricted) (o : Op) : Answer × Restricted :=
  match o.refusal r.max with
  | some answer => (answer, r)
  | none => ((r.hash.step o).1, { hash := (r.hash.step o).2, max := o.raise r.max })

end Restricted

end HearthStone.Storage
