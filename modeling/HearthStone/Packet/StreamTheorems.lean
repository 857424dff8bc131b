/-
HearthStone.Packet.StreamTheorems — what is written to a `ByteBuffer` is
read back, and no read leaves the storage.

* `Ty.encode` — the bytes of a value, and `write_eq`: they are appended.
* `Reads` — a reader that takes a value from its bytes, whatever follows;
  `readMany_reads` and `readPairs_reads` for the containers, `read_reads`
  by induction on the type.
* `Total` — a reader that ends, moves the position alone, and never asks
  for a byte outside the storage; `read_total` by induction on the type.
* `byte_buffer_faithful` — both for lists of values.
-/
import HearthStone.Packet.Stream
import HearthStone.Packet.WoWGuidTheorems

namespace HearthStone.ByteBuffer

open Lib

variable {b : ByteBuffer} {n pos : Nat} {xs ys : List UInt8} {α β : Type}

/-! ## Reading bytes -/

theorem readAt_inside (h : pos + n ≤ b.storage.length) :
    b.readAt n pos = some ((b.storage.drop pos).take n) := by
  unfold readAt access
  rw [if_neg (by omega), if_pos h]

theorem readAt_outside (h : b.storage.length < pos + n) :
    b.readAt n pos = some (List.replicate n 0) := if_pos h

theorem readNext_outside (h : b.storage.length < b.rpos + n) :
    b.readNext n = some (List.replicate n 0, b.setRpos (b.rpos + n)) := by
  unfold readNext
  rw [readAt_outside h]
  rfl

/-- Bytes that are there are read, and the position is behind them. -/
theorem Holds.readNext (h : b.Holds (xs ++ ys)) :
    b.readNext xs.length = some (xs, b.setRpos (b.rpos + xs.length)) ∧
      (b.setRpos (b.rpos + xs.length)).Holds ys := by
  obtain ⟨rest, hrest⟩ := h
  have hlen := congrArg List.length hrest
  simp only [List.length_append, List.length_drop] at hlen
  constructor
  · unfold ByteBuffer.readNext
    by_cases hxs : xs = []
    · subst hxs
      unfold readAt access
      split
      · rfl
      · rw [if_pos (by simpa using Nat.not_lt.1 ‹_›)]
        rfl
    · have hpos : 0 < xs.length := List.length_pos_of_ne_nil hxs
      rw [readAt_inside (by omega), ← hrest, List.append_assoc, List.take_left]
      rfl
  · refine ⟨rest, ?_⟩
    dsimp only [setRpos]
    rw [← List.drop_drop, ← hrest, List.append_assoc, List.drop_left]

theorem readNext_total (b : ByteBuffer) (n : Nat) :
    ∃ bytes, b.readNext n = some (bytes, b.setRpos (b.rpos + n)) := by
  unfold readNext
  by_cases h : b.rpos + n ≤ b.storage.length
  · rw [readAt_inside h]
    exact ⟨_, rfl⟩
  · rw [readAt_outside (by omega)]
    exact ⟨_, rfl⟩

/-- One byte is the one at the position, and zero behind the end. -/
theorem readByte_eq (b : ByteBuffer) : b.readByte = some b.readUInt8 := by
  unfold readByte readUInt8
  by_cases h : b.rpos < b.storage.length
  · have hread : b.readNext 1 = some ([b.storage[b.rpos]], b.setRpos (b.rpos + 1)) := by
      unfold readNext
      rw [readAt_inside (by omega), List.drop_eq_getElem_cons h]
      rfl
    rw [hread, List.getD_eq_getElem _ _ h]
    rfl
  · rw [readNext_outside (by omega), List.getD_eq_default _ _ (by omega)]
    rfl

/-! ## Strings -/

/-- The loop ends at the first zero, and at the end of the storage at the
latest. The induction is on the bound of the turns. -/
theorem readString_eq (fuel : Nat) (h : b.storage.length - b.rpos < fuel) :
    readString fuel b = some ((b.storage.drop b.rpos).takeWhile (· ≠ 0),
      b.setRpos (b.rpos + ((b.storage.drop b.rpos).takeWhile (· ≠ 0)).length + 1)) := by
  induction fuel generalizing b with
  | zero => exact absurd h (Nat.not_lt_zero _)
  | succ fuel ih =>
    rw [readString, readByte_eq, Option.bind_some]
    by_cases hin : b.rpos < b.storage.length
    · have hbyte : b.readUInt8 = (b.storage[b.rpos], b.setRpos (b.rpos + 1)) := by
        unfold readUInt8
        rw [List.getD_eq_getElem _ _ hin]
        rfl
      rw [hbyte, List.drop_eq_getElem_cons hin]
      by_cases hzero : b.storage[b.rpos] = 0
      · rw [if_pos hzero, List.takeWhile_cons_of_neg (by simpa using hzero)]
        rfl
      · have hrest := ih (b := b.setRpos (b.rpos + 1)) (by
          rw [setRpos_storage, setRpos_rpos]
          omega)
        rw [setRpos_storage, setRpos_rpos] at hrest
        rw [if_neg hzero, hrest, List.takeWhile_cons_of_pos (by simpa using hzero),
          List.length_cons, Nat.add_right_comm b.rpos 1, ← Nat.add_assoc b.rpos]
        rfl
    · have hbyte : b.readUInt8 = (0, b.setRpos (b.rpos + 1)) := by
        unfold readUInt8
        rw [List.getD_eq_default _ _ (by omega)]
        rfl
      rw [hbyte, List.drop_eq_nil_of_le (by omega)]
      rfl

/-! ## GUIDs -/

theorem takeGuid_eq (b : ByteBuffer) : b.takeGuid = b.readGuid := by
  unfold takeGuid readGuid
  simp only [readByte_eq, Option.bind_some]

theorem readBytes_spec (n : Nat) (b : ByteBuffer) :
    (readBytes n b).1.length = n ∧ (readBytes n b).2 = b.setRpos (b.rpos + n) := by
  induction n generalizing b with
  | zero => exact ⟨rfl, rfl⟩
  | succ n ih =>
    obtain ⟨hlen, hrest⟩ := ih b.readUInt8.2
    refine ⟨congrArg (· + 1) hlen, ?_⟩
    change (readBytes n b.readUInt8.2).2 = _
    rw [hrest]
    change b.setRpos (b.rpos + 1 + n) = _
    rw [Nat.add_assoc, Nat.add_comm 1]

/-- The reads of the loop, whatever is there. -/
theorem readFields_eq (l : List Nat) (v : WoWGuid) (b : ByteBuffer) :
    l.foldlM (fun (s : WoWGuid × ByteBuffer) _ =>
        let (field, b) := s.2.readUInt8
        (s.1.appendField field).map fun v => (v, b)) (v, b) =
      (v.appendFields (readBytes l.length b).1).map fun v => (v, (readBytes l.length b).2) := by
  induction l generalizing v b with
  | nil => rfl
  | cons k l ih =>
    have hfields : (readBytes (k :: l).length b).1 =
        b.readUInt8.1 :: (readBytes l.length b.readUInt8.2).1 := rfl
    have hbuffer : (readBytes (k :: l).length b).2 = (readBytes l.length b.readUInt8.2).2 := rfl
    rw [List.foldlM_cons, hfields, hbuffer]
    unfold WoWGuid.appendFields
    rw [List.foldlM_cons]
    dsimp only
    cases v.appendField b.readUInt8.1 with
    | none => rfl
    | some v' => exact ih v' b.readUInt8.2

/-- As many fields are read as the mask asks for, and all of them are taken. -/
theorem readGuid_total (b : ByteBuffer) :
    ∃ v, b.readGuid = some (v, b.setRpos (b.rpos + 1 + bitCount8 b.readUInt8.1)) := by
  obtain ⟨hlen, hrest⟩ := readBytes_spec (bitCount8 b.readUInt8.1) b.readUInt8.2
  obtain ⟨v, hv, -, -⟩ := appendFields_ofMask hlen
  refine ⟨v, ?_⟩
  unfold readGuid
  dsimp only
  rw [readFields_eq, List.length_range, hv, hrest]
  rfl

/-! ## Bytes of a value -/

/-- The bytes of a value. -/
def Ty.encode : (t : Ty) → t.Val → List UInt8
  | .bool, (v : Bool) => [if v then 1 else 0]
  | .integer w _, (v : BitVec (8 * w.bytes)) => leBytes w.bytes v.toNat
  | .float w, (v : BitVec (8 * w.bytes)) => leBytes w.bytes v.toNat
  | .string, (v : List UInt8) => v ++ [0]
  | .guid, (v : UInt64) => (WoWGuid.ofOld v).packed
  | .sequence t, (v : List t.Val) => sizeBytes v.length ++ v.flatMap fun x => t.encode x
  | .map k t, (v : List (k.Val × t.Val)) =>
    sizeBytes v.length ++ v.flatMap fun e => k.encode e.1 ++ t.encode e.2

/-- Strings are free of zeros, containers have fewer than 2^32 elements,
and the keys of a map ascend. -/
def Ty.Fits : (t : Ty) → t.Val → Prop
  | .bool, _ => True
  | .integer _ _, _ => True
  | .float _, _ => True
  | .string, (v : List UInt8) => 0 ∉ v
  | .guid, _ => True
  | .sequence t, (v : List t.Val) => v.length < 2 ^ 32 ∧ ∀ x ∈ v, t.Fits x
  | .map k t, (v : List (k.Val × t.Val)) =>
    v.length < 2 ^ 32 ∧ v.Pairwise (fun e e' => k.lt e.1 e'.1 = true) ∧
      ∀ e ∈ v, k.Fits e.1 ∧ t.Fits e.2

/-- What reads behind the end give. -/
def Ty.zero : (t : Ty) → t.Val
  | .bool => false
  | .integer w _ => (0 : BitVec (8 * w.bytes))
  | .float w => (0 : BitVec (8 * w.bytes))
  | .string => ([] : List UInt8)
  | .guid => (0 : UInt64)
  | .sequence t => ([] : List t.Val)
  | .map k t => ([] : List (k.Val × t.Val))

/-- `sizeof`, for the types that are read at once. -/
def Ty.size : Ty → Option Nat
  | .bool => some 1
  | .integer w _ => some w.bytes
  | .float w => some w.bytes
  | _ => none

/-! ## Writing -/

/-- The write position is at the end of the storage. -/
def AtEnd (b : ByteBuffer) : Prop := b.wpos = b.storage.length

theorem append_atEnd (hb : b.AtEnd) (src : List UInt8) :
    b.append src = { b with storage := b.storage ++ src, wpos := b.wpos + src.length } := by
  unfold append
  split
  · rename_i hsrc
    rw [hsrc, List.append_nil]
    rfl
  · congr 1
    unfold overwrite resize
    rw [hb, List.take_left, List.drop_eq_nil_of_le (by simp), List.append_nil]

theorem AtEnd.append (hb : b.AtEnd) (src : List UInt8) : (b.append src).AtEnd := by
  rw [append_atEnd hb]
  unfold AtEnd
  rw [List.length_append, hb]

theorem appendBytes_eq (hb : b.AtEnd) {src : List UInt8} (h : b.wpos + src.length < SIZE_LIMIT) :
    b.appendBytes src = some (b.append src) := by
  unfold appendBytes
  split
  · rename_i hsrc
    rw [hsrc, append_nil]
  · rw [if_pos (by rw [← hb]; omega)]

/-- What writes the bytes of a value, as long as they fit. -/
def Appends (f : ByteBuffer → Option ByteBuffer) (src : List UInt8) : Prop :=
  ∀ b : ByteBuffer, b.AtEnd → b.wpos + src.length < SIZE_LIMIT → f b = some (b.append src)

theorem appends_appendBytes (src : List UInt8) : Appends (appendBytes · src) src :=
  fun _ hb h => appendBytes_eq hb h

theorem Appends.bind {f g : ByteBuffer → Option ByteBuffer} (hf : Appends f xs)
    (hg : Appends g ys) : Appends (fun b => (f b).bind g) (xs ++ ys) := by
  intro b hb h
  rw [List.length_append] at h
  have hfirst : b.wpos + xs.length < SIZE_LIMIT := by omega
  have hsecond : (b.append xs).wpos + ys.length < SIZE_LIMIT := by
    rw [append_wpos]
    omega
  dsimp only
  rw [hf b hb hfirst, Option.bind_some, hg _ (hb.append xs) hsecond, append_append]

theorem Appends.foldlM {f : ByteBuffer → α → Option ByteBuffer} {enc : α → List UInt8}
    (l : List α) (hf : ∀ x ∈ l, Appends (f · x) (enc x)) :
    Appends (fun b => l.foldlM f b) (l.flatMap enc) := by
  induction l with
  | nil =>
    intro b _ _
    exact congrArg some append_nil.symm
  | cons x l ih =>
    have hrest := ih fun y hy => hf y (List.mem_cons_of_mem x hy)
    have hboth := (hf x List.mem_cons_self).bind hrest
    intro b hb h
    rw [List.flatMap_cons] at h ⊢
    change (x :: l).foldlM f b = _
    rw [List.foldlM_cons]
    exact hboth b hb h

/-- `operator<<` appends the bytes of the value. -/
theorem write_appends (t : Ty) (v : t.Val) : Appends (write t v) (t.encode v) := by
  induction t with
  | bool => exact appends_appendBytes _
  | integer w signed => exact appends_appendBytes _
  | float w => exact appends_appendBytes _
  | string => exact (appends_appendBytes _).bind (appends_appendBytes _)
  | guid => exact (appends_appendBytes [_]).bind (appends_appendBytes _)
  | sequence t ih => exact (appends_appendBytes _).bind (.foldlM _ fun x _ => ih x)
  | map k t ihk iht =>
    exact (appends_appendBytes _).bind (.foldlM _ fun e _ => (ihk e.1).bind (iht e.2))

/-! ## Reading back -/

/-- What takes a value from its bytes, whatever follows them. -/
def Reads (f : ByteBuffer → Option (α × ByteBuffer)) (x : α) (bytes : List UInt8) : Prop :=
  ∀ (b : ByteBuffer) (ys : List UInt8), b.Holds (bytes ++ ys) →
    f b = some (x, b.setRpos (b.rpos + bytes.length)) ∧
      (b.setRpos (b.rpos + bytes.length)).Holds ys

theorem reads_readNext (bytes : List UInt8) : Reads (readNext · bytes.length) bytes bytes :=
  fun _ _ h => h.readNext

theorem Reads.map {f : ByteBuffer → Option (α × ByteBuffer)} {x : α} (h : Reads f x xs)
    (k : α → β) : Reads (fun b => (f b).map fun r => (k r.1, r.2)) (k x) xs := by
  intro b zs hb
  obtain ⟨hread, hrest⟩ := h b zs hb
  refine ⟨?_, hrest⟩
  dsimp only
  rw [hread]
  rfl

/-- One reader after the other; the second may depend on what the first found. -/
theorem Reads.bind {f : ByteBuffer → Option (α × ByteBuffer)}
    {g : α → ByteBuffer → Option (β × ByteBuffer)} {x : α} {y : β} (hf : Reads f x xs)
    (hg : Reads (g x) y ys) : Reads (fun b => (f b).bind fun r => g r.1 r.2) y (xs ++ ys) := by
  intro b zs hb
  rw [List.append_assoc] at hb
  obtain ⟨hread, hrest⟩ := hf b (ys ++ zs) hb
  obtain ⟨hnext, hend⟩ := hg _ zs hrest
  rw [setRpos_rpos, Nat.add_assoc, ← List.length_append] at hnext hend
  refine ⟨?_, hend⟩
  dsimp only
  rw [hread]
  exact hnext

theorem reads_pure (x : α) : Reads (fun b => some (x, b)) x [] := by
  intro b ys h
  exact ⟨rfl, h⟩

theorem ofLeBytes_sizeBytes {n : Nat} (h : n < 2 ^ 32) : ofLeBytes (sizeBytes n) = n := by
  unfold sizeBytes
  rw [Nat.mod_eq_of_lt h]
  exact ofLeBytes_leBytes (by omega)

theorem reads_sizeBytes (n : Nat) : Reads (readNext · 4) (sizeBytes n) (sizeBytes n) := by
  have hread := reads_readNext (sizeBytes n)
  rwa [sizeBytes, length_leBytes] at hread

theorem readMany_reads {f : ByteBuffer → Option (α × ByteBuffer)} {enc : α → List UInt8}
    (l : List α) (hf : ∀ x ∈ l, Reads f x (enc x)) :
    Reads (readMany f l.length) l (l.flatMap enc) := by
  induction l with
  | nil => exact reads_pure []
  | cons x l ih =>
    have hrest := ih fun y hy => hf y (List.mem_cons_of_mem x hy)
    exact (hf x List.mem_cons_self).bind (g := fun x b => (readMany f l.length b).map
      fun s => (x :: s.1, s.2)) (hrest.map (x :: ·))

/-- A key that is behind all others goes to the end. -/
theorem insertKey_last {lt : α → α → Bool} {k : α} {v : β} {m : List (α × β)}
    (h : ∀ e ∈ m, lt e.1 k = true) : insertKey lt k v m = m ++ [(k, v)] := by
  induction m with
  | nil => rfl
  | cons e m ih =>
    rw [insertKey, if_pos (h e List.mem_cons_self),
      ih fun e' he' => h e' (List.mem_cons_of_mem e he')]
    rfl

theorem readPairs_reads (lt : α → α → Bool) {f : ByteBuffer → Option (α × ByteBuffer)}
    {g : ByteBuffer → Option (β × ByteBuffer)} {enc : α → List UInt8} {enc' : β → List UInt8}
    (l m : List (α × β)) (hf : ∀ e ∈ l, Reads f e.1 (enc e.1) ∧ Reads g e.2 (enc' e.2))
    (hlt : (m ++ l).Pairwise fun e e' => lt e.1 e'.1 = true) :
    Reads (readPairs lt f g l.length m) (m ++ l) (l.flatMap fun e => enc e.1 ++ enc' e.2) := by
  induction l generalizing m with
  | nil =>
    rw [List.append_nil]
    exact reads_pure m
  | cons e l ih =>
    obtain ⟨hkey, hvalue⟩ := hf e List.mem_cons_self
    have hlast : insertKey lt e.1 e.2 m = m ++ [e] :=
      insertKey_last fun e' he' =>
        (List.pairwise_append.1 hlt).2.2 e' he' e List.mem_cons_self
    rw [List.append_cons] at hlt
    have hrest := ih (m ++ [e]) (fun e' he' => hf e' (List.mem_cons_of_mem e he')) hlt
    rw [← hlast, hlast, ← List.append_cons] at hrest
    have hinner : Reads (fun b => (g b).bind fun s =>
        readPairs lt f g l.length (insertKey lt e.1 s.1 m) s.2) (m ++ e :: l)
        (enc' e.2 ++ l.flatMap fun e => enc e.1 ++ enc' e.2) := by
      refine hvalue.bind (g := fun y b => readPairs lt f g l.length (insertKey lt e.1 y m) b) ?_
      rw [hlast]
      exact hrest
    rw [List.flatMap_cons, List.append_assoc]
    exact hkey.bind (g := fun x b => (g b).bind fun s =>
      readPairs lt f g l.length (insertKey lt x s.1 m) s.2) hinner

theorem reads_word {w : Nat} (x : BitVec (8 * w)) :
    Reads (fun b => (b.readNext w).map fun r => (BitVec.ofNat (8 * w) (ofLeBytes r.1), r.2)) x
      (leBytes w x.toNat) := by
  have hread := (reads_readNext (leBytes w x.toNat)).map fun bytes =>
    BitVec.ofNat (8 * w) (ofLeBytes bytes)
  rw [length_leBytes, ofNat_ofLeBytes] at hread
  exact hread

theorem reads_string {s : List UInt8} (hs : 0 ∉ s) :
    Reads (fun b => readString (b.storage.length - b.rpos + 1) b) s (s ++ [0]) := by
  intro b ys hb
  obtain ⟨rest, hrest⟩ := hb
  have hdrop : b.storage.drop b.rpos = s ++ 0 :: (ys ++ rest) := by
    rw [← hrest]
    simp only [List.append_assoc, List.cons_append, List.nil_append]
  have htake : (b.storage.drop b.rpos).takeWhile (· ≠ 0) = s := by
    rw [hdrop, List.takeWhile_append_of_pos, List.takeWhile_cons_of_neg (by simp), List.append_nil]
    intro c hc
    refine decide_eq_true ?_
    rintro rfl
    exact hs hc
  refine ⟨?_, rest, ?_⟩
  · dsimp only
    rw [readString_eq _ (Nat.lt_succ_self _), htake, List.length_append, List.length_singleton,
      Nat.add_assoc]
  · dsimp only [setRpos]
    rw [← List.drop_drop, ← hrest, List.append_assoc (s ++ [0]), List.drop_left]

theorem reads_guid (g : UInt64) :
    Reads (fun b => b.takeGuid.map fun r => (r.1.oldguid, r.2)) g (WoWGuid.ofOld g).packed := by
  intro b ys hb
  have hfields : b.Holds (WoWGuid.ofOld g).packed := (List.prefix_append _ ys).trans hb
  obtain ⟨v, hread, hagrees, hpacked⟩ := readGuid_of_holds (length_newGuid (.ofOld g)) hfields
  refine ⟨?_, hb.readNext.2⟩
  dsimp only
  rw [takeGuid_eq, hread, Option.map_some, oldguid_eq hagrees hpacked]
  rfl

/-- `operator>>` takes a value from its bytes, by induction on its type. -/
theorem read_reads (t : Ty) (v : t.Val) (hv : t.Fits v) : Reads (read t) v (t.encode v) := by
  induction t with
  | bool =>
    intro b ys hb
    obtain ⟨hread, hrest⟩ := hb.readNext
    refine ⟨?_, hrest⟩
    change (b.readByte).map _ = _
    unfold readByte
    rw [show b.readNext 1 = _ from hread]
    cases (v : Bool) <;> rfl
  | integer w signed => exact reads_word _
  | float w => exact reads_word _
  | string => exact reads_string hv
  | guid => exact reads_guid v
  | sequence t ih =>
    obtain ⟨hlen, hall⟩ := hv
    have hmany := readMany_reads (v : List t.Val) fun x hx => ih x (hall x hx)
    refine (reads_sizeBytes _).bind (g := fun bytes => readMany (read t) (ofLeBytes bytes)) ?_
    rw [ofLeBytes_sizeBytes hlen]
    exact hmany
  | map k t ihk iht =>
    obtain ⟨hlen, hlt, hall⟩ := hv
    have hpairs := readPairs_reads k.lt (v : List (k.Val × t.Val)) []
      (fun e he => ⟨ihk e.1 (hall e he).1, iht e.2 (hall e he).2⟩) hlt
    refine (reads_sizeBytes _).bind
      (g := fun bytes => readPairs k.lt (read k) (read t) (ofLeBytes bytes) []) ?_
    rw [ofLeBytes_sizeBytes hlen]
    exact hpairs

/-! ## Any bytes -/

/-- What ends, and has moved the read position forward alone. A reader
that asked for a byte outside the storage would have no result. -/
def Total (f : ByteBuffer → Option (α × ByteBuffer)) : Prop :=
  ∀ b : ByteBuffer, ∃ x p, f b = some (x, b.setRpos p) ∧ b.rpos ≤ p

theorem total_readNext (n : Nat) : Total (readNext · n) := by
  intro b
  obtain ⟨bytes, hread⟩ := readNext_total b n
  exact ⟨bytes, _, hread, Nat.le_add_right _ _⟩

theorem total_readByte : Total readByte :=
  fun b => ⟨_, _, readByte_eq b, Nat.le_succ _⟩

theorem Total.map {f : ByteBuffer → Option (α × ByteBuffer)} (h : Total f) (k : α → β) :
    Total fun b => (f b).map fun r => (k r.1, r.2) := by
  intro b
  obtain ⟨x, p, hread, hle⟩ := h b
  refine ⟨k x, p, ?_, hle⟩
  dsimp only
  rw [hread]
  rfl

theorem Total.bind {f : ByteBuffer → Option (α × ByteBuffer)}
    {g : α → ByteBuffer → Option (β × ByteBuffer)} (hf : Total f) (hg : ∀ x, Total (g x)) :
    Total fun b => (f b).bind fun r => g r.1 r.2 := by
  intro b
  obtain ⟨x, p, hread, hle⟩ := hf b
  obtain ⟨y, q, hnext, hle'⟩ := hg x (b.setRpos p)
  refine ⟨y, q, ?_, Nat.le_trans hle hle'⟩
  dsimp only
  rw [hread]
  exact hnext

theorem total_pure (x : α) : Total fun b => some (x, b) := fun b => ⟨x, b.rpos, rfl, le_refl _⟩

theorem total_readMany {f : ByteBuffer → Option (α × ByteBuffer)} (hf : Total f) (n : Nat) :
    Total (readMany f n) := by
  induction n with
  | zero => exact total_pure []
  | succ n ih =>
    exact hf.bind (g := fun x b => (readMany f n b).map fun s => (x :: s.1, s.2))
      fun x => ih.map (x :: ·)

theorem total_readPairs {lt : α → α → Bool} {f : ByteBuffer → Option (α × ByteBuffer)}
    {g : ByteBuffer → Option (β × ByteBuffer)} (hf : Total f) (hg : Total g) (n : Nat)
    (m : List (α × β)) : Total (readPairs lt f g n m) := by
  induction n generalizing m with
  | zero => exact total_pure m
  | succ n ih =>
    exact hf.bind (g := fun x b => (g b).bind fun s => readPairs lt f g n (insertKey lt x s.1 m) s.2)
      fun x => hg.bind (g := fun y b => readPairs lt f g n (insertKey lt x y m) b)
        fun y => ih (insertKey lt x y m)

/-- `operator>>` ends on any bytes, by induction on the type. -/
theorem read_total (t : Ty) : Total (read t) := by
  induction t with
  | bool => exact total_readByte.map fun c => decide (0 < c.toInt8)
  | integer w signed => exact (total_readNext _).map fun bytes => BitVec.ofNat _ (ofLeBytes bytes)
  | float w => exact (total_readNext _).map fun bytes => BitVec.ofNat _ (ofLeBytes bytes)
  | string =>
    exact fun b => ⟨_, b.rpos + ((b.storage.drop b.rpos).takeWhile (· ≠ 0)).length + 1,
      readString_eq _ (Nat.lt_succ_self _), by omega⟩
  | guid =>
    intro b
    obtain ⟨v, hread⟩ := readGuid_total b
    refine ⟨v.oldguid, b.rpos + 1 + bitCount8 b.readUInt8.1, ?_, by omega⟩
    change (b.takeGuid).map _ = _
    rw [takeGuid_eq, hread]
    rfl
  | sequence t ih =>
    exact (total_readNext 4).bind (g := fun bytes => readMany (read t) (ofLeBytes bytes))
      fun bytes => total_readMany ih (ofLeBytes bytes)
  | map k t ihk iht =>
    exact (total_readNext 4).bind
      (g := fun bytes => readPairs k.lt (read k) (read t) (ofLeBytes bytes) [])
      fun bytes => total_readPairs ihk iht (ofLeBytes bytes) []

/-- A word that is not there in full is zero. -/
theorem readWord_outside {w : Nat} (h : b.storage.length < b.rpos + w) :
    ((b.readNext w).map fun r => (BitVec.ofNat (8 * w) (ofLeBytes r.1), r.2)) =
      some (0, b.setRpos (b.rpos + w)) := by
  rw [readNext_outside h, Option.map_some, ofLeBytes_replicate_zero]
  rfl

theorem readByte_outside (h : b.storage.length < b.rpos + 1) :
    b.readByte = some (0, b.setRpos (b.rpos + 1)) := by
  unfold readByte
  rw [readNext_outside h]
  rfl

/-- What is read at once is zero unless all of it is there. -/
theorem read_cut_off {t : Ty} (hsize : t.size = some n) (h : b.storage.length < b.rpos + n) :
    read t b = some (t.zero, b.setRpos (b.rpos + n)) := by
  cases t with
  | bool =>
    cases hsize
    change (b.readByte).map _ = _
    rw [readByte_outside h]
    rfl
  | integer w signed =>
    cases hsize
    exact readWord_outside h
  | float w =>
    cases hsize
    exact readWord_outside h
  | string => cases hsize
  | guid => cases hsize
  | sequence t => cases hsize
  | map k t => cases hsize

theorem readMany_behind {f : ByteBuffer → Option (α × ByteBuffer)}
    (h : b.storage.length ≤ b.rpos) :
    ((b.readNext 4).bind fun r => readMany f (ofLeBytes r.1) r.2) =
      some ([], b.setRpos (b.rpos + 4)) := by
  rw [readNext_outside (by omega), Option.bind_some, ofLeBytes_replicate_zero]
  rfl

theorem readPairs_behind {lt : α → α → Bool} {f : ByteBuffer → Option (α × ByteBuffer)}
    {g : ByteBuffer → Option (β × ByteBuffer)} (h : b.storage.length ≤ b.rpos) :
    ((b.readNext 4).bind fun r => readPairs lt f g (ofLeBytes r.1) [] r.2) =
      some ([], b.setRpos (b.rpos + 4)) := by
  rw [readNext_outside (by omega), Option.bind_some, ofLeBytes_replicate_zero]
  rfl

/-- Behind the end every value is zero or empty. -/
theorem read_behind (t : Ty) (h : b.storage.length ≤ b.rpos) :
    ∃ p, read t b = some (t.zero, b.setRpos p) := by
  cases t with
  | bool => exact ⟨_, read_cut_off rfl (by omega)⟩
  | integer w signed =>
    exact ⟨_, read_cut_off rfl (by cases w <;> simp only [IntWidth.bytes] <;> omega)⟩
  | float w =>
    exact ⟨_, read_cut_off rfl (by cases w <;> simp only [FloatWidth.bytes] <;> omega)⟩
  | string =>
    refine ⟨b.rpos + 1, ?_⟩
    change readString _ b = _
    rw [readString_eq _ (Nat.lt_succ_self _), List.drop_eq_nil_of_le h]
    rfl
  | guid =>
    refine ⟨b.rpos + 1, ?_⟩
    change (b.takeGuid).map _ = _
    have hcount : bitCount8 0 = 0 := rfl
    have hzero : (WoWGuid.ofMask 0).oldguid = 0 := by decide
    unfold takeGuid
    rw [readByte_outside (by omega), Option.bind_some]
    rw [hcount, List.range_zero, List.foldlM_nil]
    exact congrArg (fun g => some (g, b.setRpos (b.rpos + 1))) hzero
  | sequence t => exact ⟨_, readMany_behind h⟩
  | map k t => exact ⟨_, readPairs_behind h⟩

/-! ## Several values -/

def encodeAll (vs : List ((t : Ty) × t.Val)) : List UInt8 := vs.flatMap fun v => v.1.encode v.2

theorem writeAll_appends (vs : List ((t : Ty) × t.Val)) : Appends (writeAll vs) (encodeAll vs) :=
  .foldlM vs fun v _ => write_appends v.1 v.2

theorem readAll_reads (vs : List ((t : Ty) × t.Val)) (h : ∀ v ∈ vs, v.1.Fits v.2) :
    Reads (readAll (vs.map Sigma.fst)) vs (encodeAll vs) := by
  induction vs with
  | nil => exact reads_pure []
  | cons v vs ih =>
    have hfirst := read_reads v.1 v.2 (h v List.mem_cons_self)
    have hrest := (ih fun v' hv' => h v' (List.mem_cons_of_mem v hv')).map (v :: ·)
    exact hfirst.bind (g := fun x b => (readAll (vs.map Sigma.fst) b).map
      fun s => (⟨v.1, x⟩ :: s.1, s.2)) hrest

theorem readAll_total (ts : List Ty) : Total (readAll ts) := by
  induction ts with
  | nil => exact total_pure []
  | cons t ts ih =>
    exact (read_total t).bind (g := fun x b => (readAll ts b).map fun s => (⟨t, x⟩ :: s.1, s.2))
      fun x => ih.map (⟨t, x⟩ :: ·)

/-- Values whose bytes stay below the size limit are written, and read
back with the position at the end. On any bytes every sequence of reads
ends, with all accesses inside the storage; a value of fixed size that is
not there in full is zero, behind the end every value is, and the loop of
the strings ends however many more turns it may take. -/
theorem byte_buffer_faithful :
    (∀ vs : List ((t : Ty) × t.Val), (∀ v ∈ vs, v.1.Fits v.2) →
      (encodeAll vs).length < SIZE_LIMIT →
      ∃ b, writeAll vs empty = some b ∧
        readAll (vs.map Sigma.fst) b = some (vs, b.setRpos b.storage.length)) ∧
    (∀ (ts : List Ty) (b : ByteBuffer), ∃ vs p, readAll ts b = some (vs, b.setRpos p)) ∧
    (∀ (t : Ty) (n : Nat) (b : ByteBuffer), t.size = some n → b.storage.length < b.rpos + n →
      read t b = some (t.zero, b.setRpos (b.rpos + n))) ∧
    (∀ (t : Ty) (b : ByteBuffer), b.storage.length ≤ b.rpos →
      ∃ p, read t b = some (t.zero, b.setRpos p)) ∧
    ∀ (fuel : Nat) (b : ByteBuffer), b.storage.length - b.rpos < fuel →
      readString fuel b = read .string b := by
  refine ⟨?_, ?_, fun _ _ _ => read_cut_off, fun t _ => read_behind t, ?_⟩
  · intro vs hfits hsize
    have hend : empty.AtEnd := rfl
    have hbytes : empty.append (encodeAll vs) = ⟨0, (encodeAll vs).length, encodeAll vs⟩ := by
      rw [append_atEnd hend]
      simp [empty]
    refine ⟨⟨0, (encodeAll vs).length, encodeAll vs⟩, ?_, ?_⟩
    · rw [writeAll_appends vs empty hend (by simpa [empty] using hsize), hbytes]
    · have hholds : (ByteBuffer.mk 0 (encodeAll vs).length (encodeAll vs)).Holds
          (encodeAll vs ++ []) := by
        unfold Holds
        rw [List.append_nil, List.drop_zero]
      rw [(readAll_reads vs hfits _ [] hholds).1, Nat.zero_add]
  · intro ts b
    obtain ⟨vs, p, hread, -⟩ := readAll_total ts b
    exact ⟨vs, p, hread⟩
  · intro fuel b h
    rw [readString_eq fuel h]
    exact (readString_eq _ (Nat.lt_succ_self _)).symm

/-- A number, two names and a map from GUIDs. -/
def sampleValues : List ((t : Ty) × t.Val) :=
  [⟨.integer .w32 true, (7 : BitVec 32)⟩, ⟨.sequence .string, ([[72, 105], []] : List (List UInt8))⟩,
    ⟨.map .guid .bool, ([(0x700, true), (0x10000, false)] : List (UInt64 × Bool))⟩]

theorem byte_buffer_faithful_sample : ∃ b, writeAll sampleValues empty = some b ∧
    readAll (sampleValues.map Sigma.fst) b = some (sampleValues, b.setRpos b.storage.length) := by
  refine byte_buffer_faithful.1 sampleValues ?_ (by decide +kernel)
  intro v hv
  rcases List.mem_cons.1 hv with rfl | hv
  · exact trivial
  rcases List.mem_cons.1 hv with rfl | hv
  · have hnames : ∀ x ∈ ([[72, 105], []] : List (List UInt8)), (0 : UInt8) ∉ x := by decide
    exact ⟨by decide, hnames⟩
  rcases List.mem_cons.1 hv with rfl | hv
  · have hkeys : ([(0x700, true), (0x10000, false)] : List (UInt64 × Bool)).Pairwise
        fun e e' => decide (e.1 < e'.1) = true := by decide
    exact ⟨by decide, hkeys, fun _ _ => ⟨trivial, trivial⟩⟩
  · exact absurd hv List.not_mem_nil

end HearthStone.ByteBuffer
