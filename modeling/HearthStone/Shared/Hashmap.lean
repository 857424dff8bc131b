/-
HearthStone.Shared.Hashmap — `hashmap.cpp`, the open-addressing table the
server keys by 32-bit and by 64-bit integers.

The two copies of the code differ in the key type and the hash alone, so
each function is written once for a key type with a hash into the table.
`hashmap_hash_int` and `hashmap64_hash_int` are the two hashes.

A slot is taken or free by its `in_use` mark; a removed slot is blanked,
without a mark of its own. `size` is counted up by every `put`. `calloc`
is taken to succeed and table sizes are natural numbers.
-/
import HearthStone.Lib.Probe

namespace HearthStone

open Lib

/-- A hash into a table of a given size. -/
structure HashInt (K : Type*) where
  index : Nat → K → Nat
  index_lt : ∀ {n : Nat} (k : K), 0 < n → index n k < n

/-- `hashmap_hash_int`: Robert Jenkins' 32 bit mix, then Knuth's
multiplicative method. -/
def hashmap_hash_int : HashInt (BitVec 32) where
  index n key :=
    let key := key + (key <<< 12)
    let key := key ^^^ (key >>> 22)
    let key := key + (key <<< 4)
    let key := key ^^^ (key >>> 9)
    let key := key + (key <<< 10)
    let key := key ^^^ (key >>> 2)
    let key := key + (key <<< 7)
    let key := key ^^^ (key >>> 12)
    let key := (key >>> 3) * 2654435761#32
    key.toNat % n
  index_lt _ hn := Nat.mod_lt _ hn

/-- `hashmap64_hash_int`. -/
def hashmap64_hash_int : HashInt (BitVec 64) where
  index n key :=
    let key := ~~~key + (key <<< 18)
    let key := key ^^^ (key >>> 31)
    let key := key * 21#64
    let key := key ^^^ (key >>> 11)
    let key := key + (key <<< 6)
    let key := key ^^^ (key >>> 22)
    key.toNat % n
  index_lt _ hn := Nat.mod_lt _ hn

/-- `_hashmap_element`: a pointer with its key and the mark. -/
structure HashmapElement (K V : Type*) where
  key : K
  in_use : Bool
  data : V

/-- `_hashmap_map`: the slots, `table_size` of them, and the counter. -/
structure Hashmap (K V : Type*) where
  data : List (HashmapElement K V)
  size : Nat

namespace Hashmap

variable {K V : Type*} [DecidableEq K] [Zero K] [Zero V] (h : HashInt K)

def table_size (m : Hashmap K V) : Nat := m.data.length

/-- A zeroed element, as `calloc` and `hashmap_remove` leave it. -/
def blank : HashmapElement K V := { key := 0, in_use := false, data := 0 }

/-- A zeroed table. -/
def calloc (n : Nat) : Hashmap K V := { data := List.replicate n blank, size := 0 }

/-- `hashmap_new`, with `INITIAL_SIZE` slots. -/
def new : Hashmap K V := calloc 1024

omit [Zero K] [Zero V] in
/-- The places a lookup of the key visits. -/
def probe (m : Hashmap K V) (key : K) : List Nat :=
  probeFrom m.table_size m.table_size (h.index m.table_size key)

/-- `hashmap_hash`: the first place that is free or holds the key, `none`
for `MAP_FULL`. -/
def hash (m : Hashmap K V) (key : K) : Option Nat :=
  if m.size = m.table_size then none
  else (m.probe h key).find? fun i =>
    (m.data[i]?).any fun e => !e.in_use || (e.key == key && e.in_use)

omit [DecidableEq K] [Zero K] [Zero V] in
/-- The write at the end of `hashmap_put`. -/
def place (m : Hashmap K V) (index : Nat) (key : K) (value : V) : Hashmap K V :=
  { data := m.data.set index { key := key, in_use := true, data := value }, size := m.size + 1 }

/-- `hashmap_put` with `hashmap_rehash` in its loop: a full table is
doubled and every slot of the old one put into it. The two functions call
each other; `fuel` bounds the depth. -/
def putFuel : Nat → Hashmap K V → K → V → Option (Hashmap K V)
  | 0, _, _, _ => none
  | fuel + 1, m, key, value =>
    match m.hash h key with
    | some index => some (m.place index key value)
    | none => do
      let m' ← m.data.foldlM (fun t e => putFuel fuel t e.key e.data) (calloc (2 * m.table_size))
      putFuel fuel m' key value

/-- `hashmap_put`. Two levels are enough: the puts into the doubled table
find room in it (`put_sound`). -/
def put (m : Hashmap K V) (key : K) (value : V) : Option (Hashmap K V) := putFuel h 2 m key value

/-- The place of the key, `none` for `MAP_MISSING`. -/
def find (m : Hashmap K V) (key : K) : Option Nat :=
  (m.probe h key).find? fun i => (m.data[i]?).any fun e => e.key == key && e.in_use

/-- `hashmap_get`: the pointer found, `none` for `MAP_MISSING`. -/
def get (m : Hashmap K V) (key : K) : Option V :=
  (m.find h key).bind fun i => (m.data[i]?).map HashmapElement.data

/-- The scan of `hashmap_get_index`: `j` counts the slots in use so far. -/
def scan (index : Nat) : Nat → List (HashmapElement K V) → Option (K × V)
  | _, [] => none
  | j, e :: es =>
    if e.in_use then if j = index then some (e.key, e.data) else scan index (j + 1) es
    else scan index j es

omit [DecidableEq K] [Zero K] [Zero V] in
/-- `hashmap_get_index`, `none` for `MAP_MISSING`. -/
def get_index (m : Hashmap K V) (index : Nat) : Option (K × V) :=
  if index > m.size then none else scan index 0 m.data

/-- `hashmap_remove`. -/
def remove (m : Hashmap K V) (key : K) : Hashmap K V :=
  match m.find h key with
  | none => m
  | some i => { data := m.data.set i blank, size := m.size - 1 }

/-- `hashmap_length`. -/
def length (m : Hashmap K V) : Nat := m.size

end Hashmap

end HearthStone
