/-
HearthStone.Shared.StorageBlocks — the records of the database caches and
their format strings (`Storage.h`).

A letter of the format stands for a column of the row and for a member of
the record. `LoadBlock` reads the columns into the record; `FreeBlock` goes
through the same letters to free the strings again.

A record lies in the memory from `Allocated` on. A pointer has `w` bytes. A
`Field` is what its getters make of the column, `malloc n` is the address
that the `n`-th copy of a string is put at.
-/
import HearthStone.Lib.Layout
import HearthStone.Lib.LittleEndian
import HearthStone.Lib.Memory

namespace HearthStone.Storage

open Lib

/-- A column of a row. -/
structure Field where
  GetBool : Bool
  GetUInt8 : UInt8
  GetUInt16 : UInt16
  GetUInt32 : UInt32
  GetInt32 : Int32
  /-- The bits of the float. -/
  GetFloat : UInt32
  GetString : List UInt8

variable {w : Nat}

/-- A copy that `strdup` made: where in the record its pointer was stored,
the pointer, and what it points to. -/
structure Copy (w : Nat) where
  offset : Nat
  pointer : BitVec (8 * w)
  content : List UInt8

/-! ## LoadBlock -/

/-- The loop of `LoadBlock` at a letter. -/
structure Loading (w : Nat) where
  offset : UInt32
  memory : Nat → UInt8
  copies : List (Copy w)

/-- `*(T*)&structpointer[offset] = …; offset += sizeof(T);` -/
def Loading.put (Allocated : Nat) (bytes : List UInt8) (s : Loading w) : Loading w :=
  { s with
    memory := store s.memory (Allocated + s.offset.toNat) bytes
    offset := s.offset + UInt32.ofNat bytes.length }

/-- `*(char**)&structpointer[offset] = strdup(f->GetString());` -/
def Loading.putString (malloc : Nat → BitVec (8 * w)) (Allocated : Nat) (f : Field)
    (s : Loading w) : Loading w :=
  let pointer := malloc s.copies.length
  { s.put Allocated (leBytes w pointer.toNat) with
    copies := s.copies ++ [⟨s.offset.toNat, pointer, f.GetString⟩] }

def loadLetter (malloc : Nat → BitVec (8 * w)) (Allocated : Nat) (f : Field) (c : Char)
    (s : Loading w) : Loading w :=
  match c with
  | 'b' => s.put Allocated [if f.GetBool then 1 else 0]
  | 'c' => s.put Allocated [f.GetUInt8]
  | 'h' => s.put Allocated (leBytes 2 f.GetUInt16.toNat)
  | 'u' => s.put Allocated (leBytes 4 f.GetUInt32.toNat)
  | 'i' => s.put Allocated (leBytes 4 f.GetInt32.toUInt32.toNat)
  | 'f' => s.put Allocated (leBytes 4 f.GetFloat.toNat)
  | 's' => s.putString malloc Allocated f
  -- `x` skips the column; of any other letter the loop only prints a line
  | _ => s

/-- The loop of `LoadBlock`: `fields` is the pointer to the columns left. -/
def loadLoop (malloc : Nat → BitVec (8 * w)) (Allocated : Nat) :
    List Char → (Nat → Field) → Loading w → Loading w
  | [], _, s => s
  | c :: p, fields, s =>
    loadLoop malloc Allocated p (fun n => fields (n + 1))
      (loadLetter malloc Allocated (fields 0) c s)

def loadBlock (malloc : Nat → BitVec (8 * w)) (Allocated : Nat) (memory : Nat → UInt8)
    (formatString : List Char) (fields : Nat → Field) : Loading w :=
  loadLoop malloc Allocated formatString fields ⟨0, memory, []⟩

/-! ## FreeBlock -/

/-- A call of `free`: where in the record the pointer was read, and the
pointer. -/
structure Freed (w : Nat) where
  offset : Nat
  pointer : BitVec (8 * w)

/-- The loop of `FreeBlock` at a letter, `structpointer` counted from
`Allocated` on. -/
structure Freeing (w : Nat) where
  structpointer : Nat
  freed : List (Freed w)

/-- `*(char**)structpointer` -/
def readPointer (w : Nat) (memory : Nat → UInt8) (a : Nat) : BitVec (8 * w) :=
  BitVec.ofNat (8 * w) (ofLeBytes (load memory a w))

def freeLetter (memory : Nat → UInt8) (Allocated : Nat) (c : Char) (s : Freeing w) : Freeing w :=
  match c with
  | 's' => {
      structpointer := s.structpointer + w
      freed := s.freed
        ++ [⟨s.structpointer, readPointer w memory (Allocated + s.structpointer)⟩] }
  | 'u' | 'i' | 'f' => { s with structpointer := s.structpointer + 4 }
  | 'h' => { s with structpointer := s.structpointer + 2 }
  | 'c' => { s with structpointer := s.structpointer + 1 }
  | _ => s

/-- What `FreeBlock` frees of a record. -/
def freeBlock (w : Nat) (memory : Nat → UInt8) (Allocated : Nat) (formatString : List Char) :
    List (Freed w) :=
  (formatString.foldl (fun s c => freeLetter memory Allocated c s) ⟨0, []⟩).freed

end HearthStone.Storage

/-! ## Theorems

Where `LoadBlock` stores the strings of a record and where `FreeBlock` looks
for them.

Both go through the same letters and add up widths. `FreeBlock` has no case
for `b`, the Boolean, so from there on it is a byte behind.

* `loadBlock_offsets`, `freeBlock_eq` — either loop, as a function of what
  stands before each `s`.
* `load_loadBlock` — the pointers are still there when the record is loaded.
* `freeBlock_offsets_iff` — the two agree exactly when no `b` stands before
  an `s`, and then what is freed is what was copied.
-/

namespace HearthStone.Storage

open Lib

/-! ## Widths -/

/-- The bytes `LoadBlock` advances by at a letter. -/
def loadWidth (w : Nat) : Char → Nat
  | 'b' | 'c' => 1
  | 'h' => 2
  | 'u' | 'i' | 'f' => 4
  | 's' => w
  | _ => 0

/-- The bytes `FreeBlock` advances by. -/
def freeWidth (w : Nat) (c : Char) : Nat := if c = 'b' then 0 else loadWidth w c

/-- The size of a record of a format. -/
def recordSize (w : Nat) (fmt : List Char) : Nat := (fmt.map (loadWidth w)).sum

def freeSize (w : Nat) (fmt : List Char) : Nat := (fmt.map (freeWidth w)).sum

/-- At each string the `b`s before it make up for the wraps of the 32-bit
offset of `LoadBlock`. In a record below 4 GiB that is: there are none. -/
def InStep (w : Nat) (fmt : List Char) : Prop :=
  ∀ pre post, fmt = pre ++ 's' :: post → pre.count 'b' = 2 ^ 32 * (recordSize w pre / 2 ^ 32)

variable {w : Nat} {malloc : Nat → BitVec (8 * w)} {Allocated : Nat} {memory : Nat → UInt8}
  {fields : Nat → Field} {f : Field} {c : Char} {fmt seen : List Char}

@[simp] theorem recordSize_append (xs ys : List Char) :
    recordSize w (xs ++ ys) = recordSize w xs + recordSize w ys := by
  simp [recordSize]

@[simp] theorem recordSize_cons (x : Char) (xs : List Char) :
    recordSize w (x :: xs) = loadWidth w x + recordSize w xs := by
  simp [recordSize]

@[simp] theorem recordSize_nil : recordSize w [] = 0 := rfl

@[simp] theorem freeSize_append (xs ys : List Char) :
    freeSize w (xs ++ ys) = freeSize w xs + freeSize w ys := by
  simp [freeSize]

@[simp] theorem freeSize_singleton (x : Char) : freeSize w [x] = freeWidth w x := by
  simp [freeSize]

/-- `FreeBlock` is behind by a byte for each `b`. -/
theorem freeSize_add_count (fmt : List Char) :
    freeSize w fmt + fmt.count 'b' = recordSize w fmt := by
  induction fmt with
  | nil => rfl
  | cons c fmt ih =>
    have hcons : freeSize w (c :: fmt) = freeWidth w c + freeSize w fmt := by simp [freeSize]
    rw [hcons, recordSize_cons, List.count_cons, ← ih]
    by_cases hc : c = 'b'
    · subst hc
      show 0 + freeSize w fmt + (fmt.count 'b' + 1) = 1 + (freeSize w fmt + fmt.count 'b')
      omega
    · have hfree : freeWidth w c = loadWidth w c := if_neg hc
      rw [hfree, if_neg (by simpa using hc)]
      omega

theorem freeSize_eq_iff (pre : List Char) :
    freeSize w pre = recordSize w pre % 2 ^ 32 ↔
      pre.count 'b' = 2 ^ 32 * (recordSize w pre / 2 ^ 32) := by
  have hbehind := freeSize_add_count (w := w) pre
  omega

/-! ## LoadBlock -/

@[simp] theorem loadLetter_offset (s : Loading w) :
    (loadLetter malloc Allocated f c s).offset = s.offset + UInt32.ofNat (loadWidth w c) := by
  unfold loadLetter loadWidth
  split <;> simp [Loading.put, Loading.putString]

theorem loadLetter_string (s : Loading w) :
    loadLetter malloc Allocated f 's' s = s.putString malloc Allocated f := rfl

theorem loadLetter_copies (s : Loading w) (hc : c ≠ 's') :
    (loadLetter malloc Allocated f c s).copies = s.copies := by
  unfold loadLetter
  split <;> first | rfl | exact absurd rfl hc

/-- One letter writes from its own place on. -/
theorem loadLetter_memory (malloc : Nat → BitVec (8 * w)) (Allocated : Nat) (f : Field)
    (c : Char) (s : Loading w) : ∃ bytes : List UInt8,
    (loadLetter malloc Allocated f c s).memory
      = store s.memory (Allocated + s.offset.toNat) bytes := by
  unfold loadLetter
  split
  case h_8 => exact ⟨[], store_nil.symm⟩
  all_goals exact ⟨_, rfl⟩

/-- A letter at a place of its own in a record below 4 GiB. -/
theorem toNat_offset {s : Loading w} {n : Nat} (hs : s.offset = UInt32.ofNat n)
    (hn : n < 2 ^ 32) : s.offset.toNat = n := by
  rw [hs, UInt32.toNat_ofNat']
  exact Nat.mod_eq_of_lt hn

theorem loadLoop_offsets (seen : List Char) (s : Loading w)
    (hs : s.offset = UInt32.ofNat (recordSize w seen)) :
    (loadLoop malloc Allocated fmt fields s).copies.map Copy.offset
      = s.copies.map Copy.offset
        ++ (cuts (· = 's') seen fmt).map fun pre => recordSize w pre % 2 ^ 32 := by
  induction fmt generalizing fields s seen with
  | nil => simp [loadLoop, cuts]
  | cons c fmt ih =>
    have hnext : (loadLetter malloc Allocated (fields 0) c s).offset
        = UInt32.ofNat (recordSize w (seen ++ [c])) := by
      simp [hs]
    rw [loadLoop, ih _ _ hnext]
    by_cases hc : c = 's'
    · subst hc
      have hhere : s.offset.toNat = recordSize w seen % 2 ^ 32 := by
        rw [hs, UInt32.toNat_ofNat']
      rw [cuts_of_marked (by simp), loadLetter_string]
      simp [Loading.putString, hhere]
    · rw [cuts_of_unmarked (by simp [hc]), loadLetter_copies s hc]

/-- Where the strings are stored. -/
theorem loadBlock_offsets :
    (loadBlock malloc Allocated memory fmt fields).copies.map Copy.offset
      = (cuts (· = 's') [] fmt).map fun pre => recordSize w pre % 2 ^ 32 :=
  loadLoop_offsets [] _ rfl

/-- The pointer of each copy lies in what was loaded so far. -/
def Stored (Allocated size : Nat) (s : Loading w) : Prop :=
  ∀ x ∈ s.copies, x.offset + w ≤ size ∧
    load s.memory (Allocated + x.offset) w = leBytes w x.pointer.toNat

theorem stored_loadLetter {s : Loading w} {n : Nat} (hs : s.offset = UInt32.ofNat n)
    (hn : n < 2 ^ 32) (h : Stored Allocated n s) :
    Stored Allocated (n + loadWidth w c) (loadLetter malloc Allocated f c s) := by
  have hplace := toNat_offset hs hn
  -- an old copy lies before the bytes of this letter
  have hold : ∀ x ∈ s.copies, x.offset + w ≤ n + loadWidth w c ∧
      load (loadLetter malloc Allocated f c s).memory (Allocated + x.offset) w
        = leBytes w x.pointer.toNat := by
    intro x hx
    obtain ⟨hbefore, hload⟩ := h x hx
    obtain ⟨bytes, hmemory⟩ := loadLetter_memory malloc Allocated f c s
    refine ⟨by omega, ?_⟩
    rw [hmemory, hplace, load_store_of_disjoint (Or.inl (by omega)), hload]
  intro x hx
  by_cases hc : c = 's'
  · subst hc
    rcases List.mem_append.1 hx with hx | hx
    · exact hold x hx
    · obtain rfl := List.mem_singleton.1 hx
      refine ⟨by simp [hplace, loadWidth], ?_⟩
      have hback := load_store s.memory (Allocated + s.offset.toNat)
        (leBytes w (malloc s.copies.length).toNat)
      rwa [length_leBytes] at hback
  · rw [loadLetter_copies s hc] at hx
    exact hold x hx

theorem stored_loadLoop {s : Loading w} {n : Nat} (hs : s.offset = UInt32.ofNat n)
    (hn : n + recordSize w fmt < 2 ^ 32) (h : Stored Allocated n s) :
    Stored Allocated (n + recordSize w fmt) (loadLoop malloc Allocated fmt fields s) := by
  induction fmt generalizing fields s n with
  | nil => exact h
  | cons c fmt ih =>
    rw [recordSize_cons] at hn ⊢
    rw [← Nat.add_assoc] at hn ⊢
    refine ih ?_ hn (stored_loadLetter hs (by omega) h)
    simp [hs]

/-- When the record is loaded, each pointer is still where it was stored. -/
theorem load_loadBlock (hsize : recordSize w fmt < 2 ^ 32) :
    ∀ x ∈ (loadBlock malloc Allocated memory fmt fields).copies,
      readPointer w (loadBlock malloc Allocated memory fmt fields).memory (Allocated + x.offset)
        = x.pointer := by
  have hstored : Stored Allocated (0 + recordSize w fmt)
      (loadBlock malloc Allocated memory fmt fields) :=
    stored_loadLoop rfl (by simpa using hsize) (by simp [Stored])
  intro x hx
  rw [readPointer, (hstored x hx).2, ofNat_ofLeBytes]

/-! ## FreeBlock -/

theorem freeLetter_structpointer (s : Freeing w) :
    (freeLetter memory Allocated c s).structpointer = s.structpointer + freeWidth w c := by
  unfold freeLetter freeWidth loadWidth
  split <;> simp_all

theorem freeLetter_freed (s : Freeing w) (hc : c ≠ 's') :
    (freeLetter memory Allocated c s).freed = s.freed := by
  unfold freeLetter
  split <;> first | rfl | exact absurd rfl hc

/-- The pointer that is read behind the letters `pre`. -/
def freedBehind (w : Nat) (memory : Nat → UInt8) (Allocated : Nat) (pre : List Char) : Freed w :=
  ⟨freeSize w pre, readPointer w memory (Allocated + freeSize w pre)⟩

theorem freeLoop_freed (seen : List Char) (s : Freeing w)
    (hs : s.structpointer = freeSize w seen) :
    (fmt.foldl (fun s c => freeLetter memory Allocated c s) s).freed
      = s.freed ++ (cuts (· = 's') seen fmt).map (freedBehind w memory Allocated) := by
  induction fmt generalizing s seen with
  | nil => simp [cuts]
  | cons c fmt ih =>
    have hnext : (freeLetter memory Allocated c s).structpointer = freeSize w (seen ++ [c]) := by
      rw [freeLetter_structpointer, hs, freeSize_append, freeSize_singleton]
    rw [List.foldl_cons, ih _ _ hnext]
    by_cases hc : c = 's'
    · subst hc
      rw [cuts_of_marked (by simp)]
      simp [freeLetter, freedBehind, hs]
    · rw [cuts_of_unmarked (by simp [hc]), freeLetter_freed s hc]

/-- Where strings are freed, and what is read there. -/
theorem freeBlock_eq :
    freeBlock w memory Allocated fmt
      = (cuts (· = 's') [] fmt).map (freedBehind w memory Allocated) :=
  freeLoop_freed [] _ rfl

theorem freeBlock_offsets :
    (freeBlock w memory Allocated fmt).map Freed.offset
      = (cuts (· = 's') [] fmt).map (freeSize w) := by
  rw [freeBlock_eq, List.map_map]
  rfl

/-- A pointer is read at each offset. -/
theorem freeBlock_pointers :
    (freeBlock w memory Allocated fmt).map Freed.pointer
      = ((freeBlock w memory Allocated fmt).map Freed.offset).map
          fun o => readPointer w memory (Allocated + o) := by
  rw [freeBlock_eq]
  simp [freedBehind]

/-! ## Both -/

theorem inStep_iff_pairwise (hsize : recordSize w fmt < 2 ^ 32) :
    InStep w fmt ↔ fmt.Pairwise fun c d => c = 'b' → d ≠ 's' := by
  have hmarks : (fmt.Pairwise fun c d => c = 'b' → d ≠ 's') ↔
      fmt.Pairwise fun c d => c = 'b' → decide (d = 's') = false := by simp
  rw [hmarks, pairwise_iff_cut]
  have hcount : ∀ pre : List Char, pre.count 'b' = 0 ↔ ∀ y ∈ pre, ¬ y = 'b' := by
    intro pre
    rw [List.count_eq_zero]
    exact ⟨fun h y hy hb => h (hb ▸ hy), fun h hb => h 'b' hb rfl⟩
  have hsmall : ∀ pre post, fmt = pre ++ 's' :: post → recordSize w pre / 2 ^ 32 = 0 := by
    rintro pre post rfl
    rw [recordSize_append] at hsize
    omega
  constructor
  · rintro h pre d post hsplit hd
    obtain rfl := of_decide_eq_true hd
    have hzero := h pre post hsplit
    rw [hsmall pre post hsplit] at hzero
    exact (hcount pre).1 hzero
  · intro h pre post hsplit
    rw [hsmall pre post hsplit]
    exact (hcount pre).2 (h pre 's' post hsplit (by simp))

/-- `FreeBlock` looks for the strings where `LoadBlock` stored them exactly
when at each string the `b`s before it make up for the wraps of the offset.
In a record below 4 GiB that is when no `s` comes after a `b`, and then it
frees each copy that was made, once, and nothing else. -/
theorem freeBlock_offsets_iff (w : Nat) (fmt : List Char) (malloc : Nat → BitVec (8 * w))
    (Allocated : Nat) (memory : Nat → UInt8) (fields : Nat → Field) :
    let loaded := loadBlock malloc Allocated memory fmt fields
    let freed := freeBlock w loaded.memory Allocated fmt
    (freed.map Freed.offset = loaded.copies.map Copy.offset ↔ InStep w fmt) ∧
    (recordSize w fmt < 2 ^ 32 →
      (InStep w fmt ↔ fmt.Pairwise fun c d => c = 'b' → d ≠ 's') ∧
      (InStep w fmt → freed.map Freed.pointer = loaded.copies.map Copy.pointer)) := by
  intro loaded freed
  have hoffsets : freed.map Freed.offset = loaded.copies.map Copy.offset ↔ InStep w fmt := by
    rw [freeBlock_offsets, loadBlock_offsets, map_cuts_eq_iff]
    constructor
    · intro h pre post hsplit
      exact (freeSize_eq_iff pre).1 (h pre 's' post hsplit (by simp))
    · intro h pre d post hsplit hd
      obtain rfl := of_decide_eq_true hd
      exact (freeSize_eq_iff pre).2 (h pre post hsplit)
  refine ⟨hoffsets, fun hsize => ⟨inStep_iff_pairwise hsize, fun hstep => ?_⟩⟩
  rw [freeBlock_pointers, hoffsets.2 hstep, List.map_map]
  refine List.map_congr_left ?_
  intro x hx
  exact load_loadBlock hsize x hx

/-- A Boolean before a string. -/
theorem freeBlock_behind_bool :
    let loaded := loadBlock (w := 8) (fun n => BitVec.ofNat 64 (4096 + 16 * n)) 0 (fun _ => 0)
      ['b', 's'] fun _ => ⟨true, 1, 1, 1, 1, 0, [65]⟩
    (freeBlock 8 loaded.memory 0 ['b', 's']).map Freed.offset = [0] ∧
    loaded.copies.map Copy.offset = [1] ∧
    (freeBlock 8 loaded.memory 0 ['b', 's']).map Freed.pointer ≠ loaded.copies.map Copy.pointer := by
  decide +kernel

end HearthStone.Storage
