/-
HearthStone.Packet.WoWGuidTheorems — packing and unpacking GUIDs are
inverse to each other.

The bytes of a GUID are a list of eight, and a packed GUID is that list
in the sparse form of `Lib.Sparse`: `maskBits` of the mask are the flags.

* `Packs` — what the tests of the packing functions have done after the
  first `n` bytes.
* `unpacks` — the same for `_CompileByNew`, and `bytes_ofFields` for the
  whole.
* `readGuid_of_holds` — the read, one field at a time.
* `packed_guid_codec` — the codec.
-/
import HearthStone.Lib.Bits
import HearthStone.Lib.Sparse
import HearthStone.Packet.WoWGuid

namespace HearthStone

open Lib

variable {g g' : UInt64} {m : UInt8} {n i : Nat}

/-! ## Bytes and bits -/

/-- The first `n` bytes of a GUID. -/
def bytesOf (g : UInt64) (n : Nat) : List UInt8 := (List.range n).map (byteAt g)

/-- The lowest `n` bits of a mask. -/
def maskBits (m : UInt8) (n : Nat) : List Bool := (List.range n).map fun i => m.toNat.testBit i

theorem bytesOf_succ : bytesOf g (n + 1) = bytesOf g n ++ [byteAt g n] := by
  unfold bytesOf
  rw [List.range_succ, List.map_append]
  rfl

theorem maskBits_succ : maskBits m (n + 1) = maskBits m n ++ [m.toNat.testBit n] := by
  unfold maskBits
  rw [List.range_succ, List.map_append]
  rfl

@[simp] theorem length_bytesOf : (bytesOf g n).length = n := by simp [bytesOf]

@[simp] theorem length_maskBits : (maskBits m n).length = n := by simp [maskBits]

theorem toNat_byteAt (g : UInt64) {x : Nat} (hx : x < 8) :
    (byteAt g x).toNat = g.toNat / 2 ^ (8 * x) % 256 := by
  have hshift : (UInt64.ofNat (8 * x)).toNat % 64 = 8 * x := by
    rw [UInt64.toNat_ofNat_of_lt' (by rw [UInt64.size]; omega), Nat.mod_eq_of_lt (by omega)]
  unfold byteAt
  rw [UInt64.toNat_toUInt8, UInt64.toNat_shiftRight, hshift, Nat.shiftRight_eq_div_pow]

/-- A GUID is its eight bytes. -/
theorem bytesOf_inj (h : bytesOf g 8 = bytesOf g' 8) : g = g' := by
  have hbyte : ∀ x < 8, (byteAt g x).toNat = (byteAt g' x).toNat := by
    intro x hx
    unfold bytesOf at h
    have hx' := congrArg (fun l => l[x]?) h
    simp only [List.getElem?_map, List.getElem?_range hx, Option.map_some, Option.some.injEq] at hx'
    rw [hx']
  refine UInt64.toNat_inj.1 ?_
  have hg := g.toNat_lt
  have hg' := g'.toNat_lt
  have h0 := hbyte 0 (by omega)
  have h1 := hbyte 1 (by omega)
  have h2 := hbyte 2 (by omega)
  have h3 := hbyte 3 (by omega)
  have h4 := hbyte 4 (by omega)
  have h5 := hbyte 5 (by omega)
  have h6 := hbyte 6 (by omega)
  have h7 := hbyte 7 (by omega)
  rw [toNat_byteAt _ (by omega), toNat_byteAt _ (by omega)] at h0 h1 h2 h3 h4 h5 h6 h7
  norm_num at h0 h1 h2 h3 h4 h5 h6 h7
  omega

/-- A mask is its eight bits. -/
theorem maskBits_inj {m m' : UInt8} (h : maskBits m 8 = maskBits m' 8) : m = m' := by
  refine UInt8.toNat_inj.1 (Nat.eq_of_testBit_eq fun i => ?_)
  by_cases hi : i < 8
  · unfold maskBits at h
    have hbit := congrArg (fun l => l[i]?) h
    simpa [List.getElem?_range hi] using hbit
  · have hhigh : ∀ u : UInt8, u.toNat.testBit i = false := fun u =>
      Nat.testBit_lt_two_pow (lt_of_lt_of_le u.toNat_lt (Nat.pow_le_pow_right (by omega) (by omega)))
    rw [hhigh, hhigh]

/-- The macros count the bits. -/
theorem bitCount8_eq (m : UInt8) : bitCount8 m = (maskBits m 8).count true := by
  have hall : ∀ k < 256, bitCount8 (UInt8.ofNat k) = (maskBits (UInt8.ofNat k) 8).count true := by
    decide +kernel
  have h := hall m.toNat m.toNat_lt
  rwa [UInt8.ofNat_toNat] at h

theorem bitCount8_le (m : UInt8) : bitCount8 m ≤ 8 := by
  rw [bitCount8_eq]
  exact List.count_le_length.trans (le_of_eq length_maskBits)

/-- The bytes of a GUID with one more byte put in. -/
theorem byteAt_setByte (f : UInt8) (hn : n < 8) (hi : i < 8) (hzero : byteAt g n = 0) :
    byteAt (g ||| f.toUInt64 <<< UInt64.ofNat (8 * n)) i = if i = n then f else byteAt g i := by
  have hone : byteAt (f.toUInt64 <<< UInt64.ofNat (8 * n)) i = if i = n then f else 0 := by
    have hshift : (UInt64.ofNat (8 * n)).toNat % 64 = 8 * n := by
      rw [UInt64.toNat_ofNat_of_lt' (by rw [UInt64.size]; omega), Nat.mod_eq_of_lt (by omega)]
    have hf := f.toNat_lt
    refine UInt8.toNat_inj.1 ?_
    rw [toNat_byteAt _ hi, UInt64.toNat_shiftLeft, hshift, UInt8.toNat_toUInt64, Nat.shiftLeft_eq]
    interval_cases n <;> interval_cases i <;> norm_num <;> omega
  unfold byteAt at hone hzero ⊢
  rw [UInt64.shiftRight_or, UInt64.toUInt8_or, hone]
  split
  · rename_i h
    rw [h, hzero, UInt8.zero_or]
  · rw [UInt8.or_zero]

/-! ## Packing -/

/-- The first `n` bytes have been tested: those that are not zero stand
from `j₀` on, their bits are set, and no cell before `j₀` has changed. -/
structure Packs (g : UInt64) (buffer : Nat → UInt8) (j₀ n : Nat) (s : Packing) : Prop where
  bits : ∀ i < 8, s.guidmask.toNat.testBit i = (decide (i < n) && decide (byteAt g i ≠ 0))
  count : s.j = j₀ + (nonzero (bytesOf g n)).length
  fields : load s.buffer j₀ (nonzero (bytesOf g n)).length = nonzero (bytesOf g n)
  front : ∀ a, a < j₀ → s.buffer a = buffer a

theorem packs_start (g : UInt64) (buffer : Nat → UInt8) (j₀ : Nat) :
    Packs g buffer j₀ 0 ⟨buffer, 0, j₀⟩ where
  bits := by
    intro i _
    simp
  count := rfl
  fields := rfl
  front := fun _ _ => rfl

theorem Packs.packField {buffer : Nat → UInt8} {j₀ : Nat} {s : Packing}
    (h : Packs g buffer j₀ n s) (hn : n < 8) :
    Packs g buffer j₀ (n + 1) (packField g s (1 <<< UInt8.ofNat n, n)) := by
  unfold HearthStone.packField
  by_cases hzero : byteAt g n = 0
  · -- the byte is zero and nothing is written
    have hbytes : nonzero (bytesOf g (n + 1)) = nonzero (bytesOf g n) := by
      rw [bytesOf_succ, hzero]
      simp [nonzero]
    rw [if_neg (by simpa using hzero)]
    refine ⟨?_, by rw [hbytes, h.count], by rw [hbytes, h.fields], h.front⟩
    intro i hi
    rw [h.bits i hi]
    by_cases hin : i = n
    · simp [hin, hzero]
    · congr 1
      rw [decide_eq_decide]
      omega
  · have hbytes : nonzero (bytesOf g (n + 1)) = nonzero (bytesOf g n) ++ [byteAt g n] := by
      rw [bytesOf_succ]
      simp [nonzero, hzero]
    rw [if_pos hzero]
    refine ⟨?_, ?_, ?_, ?_⟩
    · intro i hi
      rw [testBit_setBit hn hi, h.bits i hi]
      by_cases hin : i = n
      · simp [hin, hzero]
      · simp only [hin, decide_false, Bool.or_false]
        congr 1
        rw [decide_eq_decide]
        omega
    · dsimp only
      rw [hbytes, List.length_append, h.count]
      rfl
    · dsimp only
      rw [hbytes, List.length_append, h.count, List.length_singleton]
      have happend := load_store_append s.buffer j₀ (nonzero (bytesOf g n)).length [byteAt g n]
      rw [List.length_singleton, h.fields] at happend
      exact happend
    · intro a ha
      dsimp only
      rw [store_of_lt (by rw [h.count]; omega), h.front a ha]

/-- The eight tests are those of the bytes in order. -/
theorem guidTests_eq :
    guidTests = (List.range 8).map fun x => ((1 : UInt8) <<< UInt8.ofNat x, x) := by decide

theorem packs_range (g : UInt64) (buffer : Nat → UInt8) (j₀ n : Nat) (hn : n ≤ 8) :
    Packs g buffer j₀ n
      (((List.range n).map fun x => ((1 : UInt8) <<< UInt8.ofNat x, x)).foldl (packField g)
        ⟨buffer, 0, j₀⟩) := by
  induction n with
  | zero => exact packs_start g buffer j₀
  | succ n ih =>
    rw [List.range_succ, List.map_append, List.foldl_append]
    exact (ih (by omega)).packField (by omega)

theorem packs_guidTests (g : UInt64) (buffer : Nat → UInt8) (j₀ : Nat) :
    Packs g buffer j₀ 8 (guidTests.foldl (packField g) ⟨buffer, 0, j₀⟩) := by
  rw [guidTests_eq]
  exact packs_range g buffer j₀ 8 le_rfl

/-- The flags of the mask are where the bytes are not zero. -/
theorem Packs.maskBits {buffer : Nat → UInt8} {j₀ : Nat} {s : Packing}
    (h : Packs g buffer j₀ 8 s) : maskBits s.guidmask 8 = support (bytesOf g 8) := by
  unfold HearthStone.maskBits bytesOf support
  rw [List.map_map]
  refine List.map_congr_left ?_
  intro i hi
  rw [h.bits i (List.mem_range.1 hi)]
  simp [List.mem_range.1 hi]

theorem Packs.bitCount8 {buffer : Nat → UInt8} {j₀ : Nat} {s : Packing}
    (h : Packs g buffer j₀ 8 s) :
    bitCount8 s.guidmask = (nonzero (bytesOf g 8)).length := by
  rw [bitCount8_eq, h.maskBits, length_nonzero]

/-- The fields and the mask after some tests. -/
def WoWGuid.withPacking (v : WoWGuid) (s : Packing) : WoWGuid :=
  { v with guidmask := s.guidmask, guidfields := s.buffer, fieldcount := s.j }

/-- A round of the loop is one test. -/
theorem compileByte_eq (v : WoWGuid) (x : Nat) :
    v.compileByte x = v.withPacking
      (packField v.oldguid ⟨v.guidfields, v.guidmask, v.fieldcount⟩ (1 <<< UInt8.ofNat x, x)) := by
  unfold WoWGuid.compileByte packField
  dsimp only
  split <;> rfl

theorem foldl_compileByte (l : List Nat) (v : WoWGuid) :
    l.foldl WoWGuid.compileByte v = v.withPacking
      ((l.map fun x => ((1 : UInt8) <<< UInt8.ofNat x, x)).foldl (packField v.oldguid)
        ⟨v.guidfields, v.guidmask, v.fieldcount⟩) := by
  induction l generalizing v with
  | nil => rfl
  | cons x l ih =>
    rw [List.foldl_cons, ih, compileByte_eq]
    rfl

/-- The constructor from a GUID makes the tests in a loop. -/
theorem ofOld_eq (g : UInt64) :
    WoWGuid.ofOld g =
      let s := guidTests.foldl (packField g) ⟨fun _ => 0, 0, 0⟩
      ⟨g, s.guidmask, s.buffer, s.j, true⟩ := by
  unfold WoWGuid.ofOld WoWGuid.compileByOld
  rw [foldl_compileByte, guidTests_eq]
  rfl

/-- What every encoder writes for a GUID. -/
def encoding (g : UInt64) : List UInt8 := (WoWGuid.ofOld g).packed

theorem encoding_fields (g : UInt64) :
    (WoWGuid.ofOld g).newGuid = nonzero (bytesOf g 8) ∧
      maskBits (WoWGuid.ofOld g).guidmask 8 = support (bytesOf g 8) := by
  have h := packs_guidTests g (fun _ => 0) 0
  rw [ofOld_eq]
  unfold WoWGuid.newGuid
  exact ⟨by rw [h.bitCount8, h.fields], h.maskBits⟩

/-! ## The three overloads -/

/-- The mask in front of the fields. -/
theorem Packs.load_store {buffer : Nat → UInt8} {pos : Nat} {s : Packing}
    (h : Packs g buffer (1 + pos) 8 s) :
    load (store s.buffer pos [s.guidmask]) pos (s.j - pos) =
      s.guidmask :: nonzero (bytesOf g 8) := by
  have hlen : s.j - pos = 1 + (nonzero (bytesOf g 8)).length := by
    rw [h.count]
    omega
  have hmask : load (store s.buffer pos [s.guidmask]) pos 1 = [s.guidmask] :=
    HearthStone.Lib.load_store s.buffer pos [s.guidmask]
  rw [hlen, load_add, hmask, load_store_of_disjoint (Or.inr (by simp)), Nat.add_comm, h.fields]
  rfl

theorem Packs.encoding {buffer : Nat → UInt8} {j₀ : Nat} {s : Packing}
    (h : Packs g buffer j₀ 8 s) : s.guidmask :: nonzero (bytesOf g 8) = encoding g := by
  obtain ⟨hfields, hbits⟩ := encoding_fields g
  unfold HearthStone.encoding WoWGuid.packed
  rw [hfields, maskBits_inj (h.maskBits.trans hbits.symm)]

theorem fastGUIDFields_eq (g : UInt64) : fastGUIDFields g = encoding g := by
  have h := packs_guidTests g (fun _ => 0) (1 + 0)
  rw [← h.encoding, ← h.load_store]
  rfl

theorem fastGUIDPackAt_eq (g : UInt64) (buffer : Nat → UInt8) (pos : Nat) :
    load (fastGUIDPackAt g buffer pos).1 pos (fastGUIDPackAt g buffer pos).2 = encoding g := by
  have h := packs_guidTests g buffer (1 + pos)
  rw [← h.encoding, ← h.load_store]
  rfl

theorem length_encoding_le (g : UInt64) : (encoding g).length ≤ 9 := by
  obtain ⟨hfields, -⟩ := encoding_fields g
  unfold encoding WoWGuid.packed
  rw [hfields, List.length_cons]
  have hle := List.length_filter_le (fun x => decide (x ≠ 0)) (bytesOf g 8)
  rw [length_bytesOf] at hle
  unfold nonzero
  omega

/-! ## Unpacking -/

/-- The tests of the mask are those of the bits in order. -/
theorem maskTests_eq : WoWGuid.maskTests =
    (List.range 8).map fun x => ((1 : UInt8) <<< UInt8.ofNat x, UInt64.ofNat (8 * x)) := by decide

theorem getD_append_singleton (xs : List UInt8) (y : UInt8) (i : Nat) :
    (xs ++ [y]).getD i 0 = if i = xs.length then y else xs.getD i 0 := by
  rw [List.getD_eq_getElem?_getD, List.getD_eq_getElem?_getD]
  by_cases hi : i = xs.length
  · simp [hi]
  · rw [if_neg hi]
    by_cases hlt : i < xs.length
    · rw [List.getElem?_append_left hlt]
    · rw [List.getElem?_eq_none (by simp; omega), List.getElem?_eq_none (by omega)]

/-- The field a set bit takes is the next one. -/
theorem expand_maskBits_succ (f : Nat → UInt8) (hn : n < 8) :
    expand (maskBits m (n + 1)) (load f 0 8) = expand (maskBits m n) (load f 0 8) ++
      [if m.toNat.testBit n then f ((maskBits m n).count true) else 0] := by
  have hcount : (maskBits m n).count true ≤ n :=
    List.count_le_length.trans (le_of_eq length_maskBits)
  have hdrop : (load f 0 8).drop ((maskBits m n).count true) =
      f ((maskBits m n).count true) ::
        load f ((maskBits m n).count true + 1) (7 - (maskBits m n).count true) := by
    rw [drop_load (by omega), Nat.zero_add]
    have hlen : 8 - (maskBits m n).count true = 1 + (7 - (maskBits m n).count true) := by omega
    rw [hlen, load_add]
    rfl
  rw [maskBits_succ, expand_append, hdrop]
  cases m.toNat.testBit n <;> rfl

/-- `_CompileByNew` after `n` tests: the bytes so far. -/
theorem unpacks (f : Nat → UInt8) (hn : n ≤ 8) :
    let s := ((List.range n).map fun x => ((1 : UInt8) <<< UInt8.ofNat x, UInt64.ofNat (8 * x))).foldl
      (WoWGuid.compileBit m f) (0, 0)
    s.2 = (maskBits m n).count true ∧
      ∀ i < 8, byteAt s.1 i = (expand (maskBits m n) (load f 0 8)).getD i 0 := by
  induction n with
  | zero =>
    have hzero : ∀ i < 8, byteAt 0 i = 0 := by decide
    refine ⟨rfl, ?_⟩
    intro i hi
    exact hzero i hi
  | succ n ih =>
    obtain ⟨hj, hbytes⟩ := ih (by omega)
    rw [List.range_succ, List.map_append, List.foldl_append]
    generalize ((List.range n).map fun x => ((1 : UInt8) <<< UInt8.ofNat x,
      UInt64.ofNat (8 * x))).foldl (WoWGuid.compileBit m f) (0, 0) = s at hj hbytes ⊢
    have hlen : (expand (maskBits m n) (load f 0 8)).length = n := by simp
    have hzero : byteAt s.1 n = 0 := by
      rw [hbytes n (by omega), List.getD_eq_getElem?_getD, List.getElem?_eq_none (by omega)]
      rfl
    rw [expand_maskBits_succ f (by omega), maskBits_succ, List.count_append]
    simp only [List.map_cons, List.map_nil, List.foldl_cons, List.foldl_nil, getD_append_singleton,
      hlen]
    unfold WoWGuid.compileBit
    by_cases hbit : m.toNat.testBit n = true
    · rw [if_pos ((and_bit_ne_zero m (by omega)).2 hbit), hbit]
      refine ⟨by rw [hj]; rfl, ?_⟩
      intro i hi
      rw [byteAt_setByte _ (by omega) hi hzero, hj]
      split
      · rfl
      · exact hbytes i hi
    · rw [if_neg (fun h => hbit ((and_bit_ne_zero m (by omega)).1 h)), Bool.eq_false_of_not_eq_true hbit]
      refine ⟨by rw [hj]; rfl, ?_⟩
      intro i hi
      split
      · rename_i hin
        rw [hin, hzero]
        rfl
      · exact hbytes i hi

/-- The GUID of a mask and fields. -/
theorem bytesOf_compileByNew {v : WoWGuid} (hzero : v.oldguid = 0) :
    bytesOf v.compileByNew.oldguid 8 = expand (maskBits v.guidmask 8) v.newGuid := by
  have h := (unpacks (m := v.guidmask) v.guidfields (le_refl 8)).2
  have htake : v.newGuid = (load v.guidfields 0 8).take ((maskBits v.guidmask 8).count true) := by
    rw [take_load (by rw [← bitCount8_eq]; exact bitCount8_le _), ← bitCount8_eq]
    rfl
  rw [htake, expand_take]
  refine List.ext_getElem? ?_
  intro i
  by_cases hi : i < 8
  · have hlen : i < (expand (maskBits v.guidmask 8) (load v.guidfields 0 8)).length := by simpa
    unfold bytesOf
    rw [List.getElem?_map, List.getElem?_range hi, List.getElem?_eq_getElem hlen, Option.map_some]
    have hbyte := h i hi
    rw [List.getD_eq_getElem?_getD, List.getElem?_eq_getElem hlen, Option.getD_some] at hbyte
    rw [← hbyte]
    unfold WoWGuid.compileByNew
    rw [hzero, maskTests_eq]
  · rw [List.getElem?_eq_none (by simp; omega), List.getElem?_eq_none (by simp; omega)]

/-- A mask and fields that are not zero are the encoding of their GUID,
and with a zero among the fields they are not. -/
theorem packed_eq_encoding_iff {v : WoWGuid}
    (h : bytesOf v.oldguid 8 = expand (maskBits v.guidmask 8) v.newGuid) :
    v.packed = encoding v.oldguid ↔ 0 ∉ v.newGuid := by
  obtain ⟨hfields, hbits⟩ := encoding_fields v.oldguid
  have hlen : v.newGuid.length = (maskBits v.guidmask 8).count true := by
    rw [← bitCount8_eq]
    exact length_load
  unfold encoding WoWGuid.packed
  constructor
  · intro heq
    rw [(List.cons.inj heq).2, hfields]
    exact zero_notMem_nonzero
  · intro hzero
    rw [hfields, h, nonzero_expand hlen hzero]
    rw [h, support_expand hlen hzero] at hbits
    rw [maskBits_inj hbits]

/-- A GUID is told by its encoding. -/
theorem oldguid_eq {v : WoWGuid}
    (h : bytesOf v.oldguid 8 = expand (maskBits v.guidmask 8) v.newGuid)
    (henc : v.packed = encoding g) : v.oldguid = g := by
  obtain ⟨hfields, hbits⟩ := encoding_fields g
  unfold encoding WoWGuid.packed at henc
  obtain ⟨hmask, hnew⟩ := List.cons.inj henc
  refine bytesOf_inj ?_
  rw [h, hnew, hmask, hfields, hbits, expand_support]

/-! ## The other constructors -/

/-- The GUID is the one its mask and fields stand for. -/
def WoWGuid.Agrees (v : WoWGuid) : Prop :=
  bytesOf v.oldguid 8 = expand (maskBits v.guidmask 8) v.newGuid

theorem agrees_ofFields (mask : UInt8) (fields : Nat → UInt8) :
    (WoWGuid.ofFields mask fields).Agrees ∧ (WoWGuid.ofFields mask fields).guidmask = mask ∧
      (WoWGuid.ofFields mask fields).newGuid = load fields 0 (bitCount8 mask) := by
  unfold WoWGuid.ofFields
  by_cases hcount : bitCount8 mask = 0
  · rw [if_pos hcount]
    have hnew : ({ WoWGuid.clear with guidmask := mask } : WoWGuid).newGuid = [] := by
      unfold WoWGuid.newGuid
      rw [hcount]
      rfl
    refine ⟨?_, rfl, by rw [hnew, hcount]; rfl⟩
    have hbytes : bytesOf 0 8 = List.replicate 8 0 := by decide
    unfold WoWGuid.Agrees
    rw [hnew, expand_nil, length_maskBits]
    exact hbytes
  · rw [if_neg hcount]
    refine ⟨bytesOf_compileByNew rfl, rfl, ?_⟩
    have hload := load_store (fun _ => 0) 0 (load fields 0 (bitCount8 mask))
    rw [length_load] at hload
    exact hload

/-- Some of the fields have been appended. -/
structure Appended (mask : UInt8) (fs : List UInt8) (v : WoWGuid) : Prop where
  guidmask : v.guidmask = mask
  count : v.fieldcount = fs.length
  fields : load v.guidfields 0 fs.length = fs
  compiled : v.compiled = true ↔ fs.length = bitCount8 mask
  clear : fs.length < bitCount8 mask → v.oldguid = 0
  agrees : fs.length = bitCount8 mask → v.Agrees

theorem appended_ofMask (mask : UInt8) : Appended mask [] (WoWGuid.ofMask mask) := by
  have hcount : bitCount8 0 = 0 := by decide
  unfold WoWGuid.ofMask
  by_cases hmask : mask = 0
  · subst hmask
    rw [if_pos rfl]
    refine ⟨rfl, rfl, rfl, iff_of_true rfl hcount.symm, fun _ => rfl, fun _ => ?_⟩
    exact bytesOf_compileByNew rfl
  · have hpos : bitCount8 mask ≠ 0 := by
      intro h
      have hall : ∀ k < 256, bitCount8 (UInt8.ofNat k) = 0 → UInt8.ofNat k = 0 := by decide +kernel
      have hzero := hall mask.toNat mask.toNat_lt
      rw [UInt8.ofNat_toNat] at hzero
      exact hmask (hzero h)
    rw [if_neg hmask]
    exact ⟨rfl, rfl, rfl, iff_of_false (by simp [WoWGuid.clear]) hpos.symm, fun _ => rfl,
      fun h => absurd h.symm hpos⟩

theorem Appended.appendField {mask : UInt8} {fs : List UInt8} {v : WoWGuid}
    (h : Appended mask fs v) (hlt : fs.length < bitCount8 mask) (field : UInt8) :
    ∃ v', v.appendField field = some v' ∧ Appended mask (fs ++ [field]) v' := by
  have hopen : ¬ (v.compiled = true ∨ v.fieldcount ≥ bitCount8 v.guidmask) := by
    rw [h.compiled, h.count, h.guidmask]
    omega
  have hload : load (store v.guidfields v.fieldcount [field]) 0 (fs ++ [field]).length =
      fs ++ [field] := by
    have happend := load_store_append v.guidfields 0 fs.length [field]
    rw [Nat.zero_add, h.fields] at happend
    rw [h.count, List.length_append]
    exact happend
  have hnot : v.compiled = false := by
    rw [← Bool.not_eq_true, h.compiled]
    omega
  unfold WoWGuid.appendField
  rw [if_neg hopen]
  refine ⟨_, rfl, ?_⟩
  dsimp only
  split
  · rename_i hlast
    rw [h.count, h.guidmask] at hlast
    refine ⟨h.guidmask, ?_, hload, iff_of_true rfl ?_, ?_, fun _ => bytesOf_compileByNew (h.clear hlt)⟩
    · rw [List.length_append, ← h.count]
      rfl
    · rw [List.length_append]
      exact hlast
    · rw [List.length_append, List.length_singleton]
      omega
  · rename_i hmore
    rw [h.count, h.guidmask] at hmore
    have hlen : (fs ++ [field]).length ≠ bitCount8 mask := by
      rw [List.length_append]
      exact hmore
    refine ⟨h.guidmask, ?_, hload, iff_of_false ?_ hlen, fun _ => h.clear hlt, fun heq => absurd heq hlen⟩
    · rw [List.length_append, ← h.count]
      rfl
    · dsimp only
      rw [hnot]
      exact Bool.false_ne_true

/-- All fields of a mask can be appended, and no more. -/
theorem appended_appendFields {mask : UInt8} {fs : List UInt8} {v : WoWGuid}
    (h : Appended mask fs v) (gs : List UInt8) (hlen : fs.length + gs.length ≤ bitCount8 mask) :
    ∃ v', v.appendFields gs = some v' ∧ Appended mask (fs ++ gs) v' := by
  induction gs generalizing fs v with
  | nil =>
    rw [List.append_nil]
    exact ⟨v, rfl, h⟩
  | cons field gs ih =>
    rw [List.length_cons] at hlen
    obtain ⟨v₁, hv₁, h₁⟩ := h.appendField (by omega) field
    obtain ⟨v₂, hv₂, h₂⟩ := ih h₁ (by rw [List.length_append, List.length_singleton]; omega)
    refine ⟨v₂, ?_, by rwa [List.append_assoc] at h₂⟩
    unfold WoWGuid.appendFields at hv₂ ⊢
    rw [List.foldlM_cons, hv₁]
    exact hv₂

/-- The completed GUID is the one of the mask and the fields. -/
theorem appendFields_ofMask {mask : UInt8} {fs : List UInt8} (hlen : fs.length = bitCount8 mask) :
    ∃ v, (WoWGuid.ofMask mask).appendFields fs = some v ∧ v.Agrees ∧ v.packed = mask :: fs := by
  obtain ⟨v, hv, h⟩ := appended_appendFields (appended_ofMask mask) fs (by rw [hlen]; simp)
  rw [List.nil_append] at h
  refine ⟨v, hv, h.agrees hlen, ?_⟩
  unfold WoWGuid.packed WoWGuid.newGuid
  rw [h.guidmask, ← hlen, h.fields]

/-! ## Reading -/

/-- The reads of the loop, on bytes that are there. -/
theorem readFields (fs : List UInt8) (b : ByteBuffer) (v : WoWGuid) (l : List Nat)
    (hl : l.length = fs.length) (hb : b.Holds fs) :
    (l.foldlM (fun (s : WoWGuid × ByteBuffer) _ =>
      let (field, b) := s.2.readUInt8
      (s.1.appendField field).map fun v => (v, b)) (v, b)) =
      (v.appendFields fs).map fun v => (v, b.setRpos (b.rpos + fs.length)) := by
  induction fs generalizing b v l with
  | nil =>
    rw [List.length_nil, List.length_eq_zero_iff] at hl
    rw [hl]
    rfl
  | cons field fs ih =>
    cases l with
    | nil => simp at hl
    | cons k l =>
      obtain ⟨hread, hrest⟩ := hb.readUInt8
      rw [List.foldlM_cons]
      unfold WoWGuid.appendFields
      rw [List.foldlM_cons]
      dsimp only
      rw [hread]
      cases hv : v.appendField field with
      | none => rfl
      | some v' =>
        have hstep := ih (b.setRpos (b.rpos + 1)) v' l (by simpa using hl) hrest
        rw [ByteBuffer.setRpos_rpos, Nat.add_assoc, Nat.add_comm 1] at hstep
        exact hstep

theorem readGuid_of_holds {b : ByteBuffer} {mask : UInt8} {fs : List UInt8}
    (hlen : fs.length = bitCount8 mask) (hb : b.Holds (mask :: fs)) :
    ∃ v, b.readGuid = some (v, b.setRpos (b.rpos + (mask :: fs).length)) ∧ v.Agrees ∧
      v.packed = mask :: fs := by
  obtain ⟨hread, hrest⟩ := hb.readUInt8
  obtain ⟨v, hv, hagrees, hpacked⟩ := appendFields_ofMask hlen
  refine ⟨v, ?_, hagrees, hpacked⟩
  unfold ByteBuffer.readGuid
  rw [hread]
  dsimp only
  rw [readFields fs _ _ _ (by rw [List.length_range, hlen]) hrest, hv, ByteBuffer.setRpos_rpos,
    List.length_cons, Nat.add_assoc, Nat.add_comm 1]
  rfl

theorem writeGuid_eq (b : ByteBuffer) (v : WoWGuid) : b.writeGuid v = b.append v.packed := by
  unfold ByteBuffer.writeGuid
  rw [ByteBuffer.append_append]
  rfl

/-! ## The codec -/

theorem length_newGuid (v : WoWGuid) : v.newGuid.length = bitCount8 v.guidmask := length_load

/-- The encoders for one GUID. -/
structure EncodersAgree (g : UInt64) : Prop where
  stream : ∀ b : ByteBuffer, b.writeGuid (.ofOld g) = b.append (encoding g)
  fields : ∀ mask fields, (WoWGuid.ofFields mask fields).oldguid = g →
    ((WoWGuid.ofFields mask fields).packed = encoding g ↔ 0 ∉ load fields 0 (bitCount8 mask))
  appended : ∀ mask fs, fs.length = bitCount8 mask →
    ∃ v, (WoWGuid.ofMask mask).appendFields fs = some v ∧
      (v.oldguid = g → (v.packed = encoding g ↔ 0 ∉ fs))
  reached : ∃ mask fs, fs.length = bitCount8 mask ∧ 0 ∉ fs ∧
    (WoWGuid.ofFields mask fun i => fs.getD i 0).oldguid = g ∧
      ∃ v, (WoWGuid.ofMask mask).appendFields fs = some v ∧ v.oldguid = g
  byteBuffer : ∀ b : ByteBuffer, b.fastGUIDPack g = b.append (encoding g)
  stackBuffer : ∀ b : StackBuffer,
    ∃ b', b.fastGUIDPack g = some b' ∧ b'.written = b.written ++ encoding g
  array : ∀ buffer pos,
    load (fastGUIDPackAt g buffer pos).1 pos (fastGUIDPackAt g buffer pos).2 = encoding g

theorem load_getD (fs : List UInt8) : load (fun i => fs.getD i 0) 0 fs.length = fs := by
  refine List.ext_getElem (by simp) ?_
  intro i hi hlt
  simp [load, hlt]

/-- A GUID comes back from its mask and its fields. -/
theorem reached_encoding (g : UInt64) :
    ∃ mask fs, fs.length = bitCount8 mask ∧ 0 ∉ fs ∧
      (WoWGuid.ofFields mask fun i => fs.getD i 0).oldguid = g ∧
        ∃ v, (WoWGuid.ofMask mask).appendFields fs = some v ∧ v.oldguid = g := by
  obtain ⟨hfields, -⟩ := encoding_fields g
  have hlen := length_newGuid (WoWGuid.ofOld g)
  obtain ⟨hagrees, hmask, hnew⟩ := agrees_ofFields (WoWGuid.ofOld g).guidmask
    fun i => (WoWGuid.ofOld g).newGuid.getD i 0
  obtain ⟨v, hv, hvagrees, hpacked⟩ := appendFields_ofMask hlen
  refine ⟨_, _, hlen, by rw [hfields]; exact zero_notMem_nonzero, oldguid_eq hagrees ?_, v, hv,
    oldguid_eq hvagrees hpacked⟩
  unfold WoWGuid.packed
  rw [hmask, hnew, ← hlen, load_getD]
  rfl

theorem encodersAgree (g : UInt64) : EncodersAgree g where
  stream := fun b => writeGuid_eq b _
  fields := by
    intro mask fields hg
    obtain ⟨hagrees, -, hnew⟩ := agrees_ofFields mask fields
    rw [← hg, packed_eq_encoding_iff hagrees, hnew]
  appended := by
    intro mask fs hlen
    obtain ⟨v, hv, hagrees, hpacked⟩ := appendFields_ofMask hlen
    refine ⟨v, hv, fun hg => ?_⟩
    have hnew : v.newGuid = fs := (List.cons.inj hpacked).2
    rw [← hg, packed_eq_encoding_iff hagrees, hnew]
  reached := reached_encoding g
  byteBuffer := by
    intro b
    unfold ByteBuffer.fastGUIDPack
    rw [fastGUIDFields_eq]
  stackBuffer := by
    intro b
    have hlen := length_encoding_le g
    unfold StackBuffer.fastGUIDPack
    rw [fastGUIDFields_eq]
    exact StackBuffer.write_of_length_le (by omega)
  array := fun buffer pos => fastGUIDPackAt_eq g buffer pos

/-- A GUID written to a buffer is read back, and the read position is
behind it; every encoder writes the same bytes for a GUID, where the two
that are given fields need fields that are not zero; and what has been
read from a complete encoding without a zero field is written as it was. -/
theorem packed_guid_codec :
    (∀ (g : UInt64) (b : ByteBuffer), ∃ v,
      ((b.writeGuid (.ofOld g)).setRpos b.wpos).readGuid =
          some (v, (b.writeGuid (.ofOld g)).setRpos (b.writeGuid (.ofOld g)).wpos) ∧
        v.oldguid = g) ∧
    (∀ g, EncodersAgree g) ∧
    ∀ (b : ByteBuffer) (mask : UInt8) (fs : List UInt8), fs.length = bitCount8 mask → 0 ∉ fs →
      b.Holds (mask :: fs) →
      ∃ v, b.readGuid = some (v, b.setRpos (b.rpos + (mask :: fs).length)) ∧
        v.packed = mask :: fs ∧ (WoWGuid.ofOld v.oldguid).packed = mask :: fs := by
  refine ⟨?_, encodersAgree, ?_⟩
  · intro g b
    rw [writeGuid_eq]
    have hholds : ((b.append (encoding g)).setRpos b.wpos).Holds (encoding g) :=
      ByteBuffer.append_holds _
    obtain ⟨v, hread, hagrees, hpacked⟩ := readGuid_of_holds (length_newGuid (.ofOld g)) hholds
    refine ⟨v, ?_, oldguid_eq hagrees hpacked⟩
    rw [ByteBuffer.append_wpos]
    exact hread
  · intro b mask fs hlen hzero hb
    obtain ⟨v, hread, hagrees, hpacked⟩ := readGuid_of_holds hlen hb
    have hnew : v.newGuid = fs := (List.cons.inj hpacked).2
    have henc : v.packed = encoding v.oldguid :=
      (packed_eq_encoding_iff hagrees).2 (by rwa [hnew])
    exact ⟨v, hread, hpacked, henc.symm.trans hpacked⟩

/-- The GUID 0x0700: one byte, the second. -/
theorem packed_guid_codec_second_byte :
    ∃ v, (ByteBuffer.mk 1 4 [9, 2, 7, 5]).readGuid = some (v, ⟨3, 4, [9, 2, 7, 5]⟩) ∧
      v.packed = [2, 7] ∧ (WoWGuid.ofOld v.oldguid).packed = [2, 7] :=
  packed_guid_codec.2.2 ⟨1, 4, [9, 2, 7, 5]⟩ 2 [7] (by decide) (by decide) ⟨[5], rfl⟩

end HearthStone
