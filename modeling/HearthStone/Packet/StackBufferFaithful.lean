/-
HearthStone.Packet.StackBufferFaithful — when a `StackBuffer` gives back
what was written.

* The fast operators read what is there and move over it
  (`readBack_fast`).
* `Read<T>` gives zero where there is something to read, and stays
  (`readBack_slow`); behind the end it leaves the packet.
* So the reads of a whole packet end where its fast items would
  (`readBackAll_moves`), and that is the end of the packet when all of
  them are fast.

`stack_buffer_faithful_iff` adds the writes.
-/
import HearthStone.Packet.RawStackBuffer

namespace HearthStone

open Lib

namespace RawStackBuffer

variable {b c : RawStackBuffer} {content : List UInt8}

/-! ## Inside the packet -/

theorem skip_skip (b : RawStackBuffer) (n m : Nat) : (b.skip n).skip m = b.skip (n + m) := by
  unfold skip
  rw [Nat.add_assoc]

/-- Reading moves nothing that was written. -/
theorem Holds.skip (h : b.Holds content) (n : Nat) : (b.skip n).Holds content :=
  ⟨h.pos, h.inside, h.bytes⟩

/-- A fast read of bytes that are there. -/
theorem readFast_inside {n : Nat} (h : b.Holds content) (hn : b.m_readPos + n ≤ content.length) :
    b.readFast n = some (ofLeBytes (load b.memory b.m_readPos n), b.skip n) := by
  have hpos := h.pos
  have hin := h.inside
  unfold readFast fetch
  rw [if_neg (by omega), if_pos (by omega)]
  rfl

/-- `Read<T>` of bytes that are there. -/
theorem read_inside {n : Nat} (h : b.Holds content) (hn : b.m_readPos + n ≤ content.length) :
    b.Read n = some (0, b) := by
  have hpos := h.pos
  unfold Read
  rw [if_pos (by omega)]

/-- A block that is there, byte by byte. -/
theorem readBlock_inside {n : Nat} (h : b.Holds content)
    (hn : b.m_readPos + n ≤ content.length) :
    readBlock n b = some (load b.memory b.m_readPos n, b.skip n) := by
  induction n generalizing b with
  | zero => rfl
  | succ n ih =>
    have hone : b.readFast 1 = some (ofLeBytes (load b.memory b.m_readPos 1), b.skip 1) :=
      readFast_inside h (by omega)
    have hrest : readBlock n (b.skip 1) = some (load b.memory (b.m_readPos + 1) n, b.skip (1 + n)) := by
      have hnext : (b.skip 1).m_readPos + n ≤ content.length := by
        show b.m_readPos + 1 + n ≤ content.length
        omega
      rw [ih (h.skip 1) hnext, skip_skip]
      rfl
    have hbyte : UInt8.ofNat (ofLeBytes (load b.memory b.m_readPos 1)) = b.memory b.m_readPos := by
      show UInt8.ofNat ((b.memory b.m_readPos).toNat + 256 * 0) = b.memory b.m_readPos
      simp
    show (b.readFast 1 >>= fun r => readBlock n r.2 >>= fun s =>
      some (UInt8.ofNat r.1 :: s.1, s.2)) = _
    rw [hone]
    show (readBlock n (b.skip 1) >>= fun s => some (UInt8.ofNat _ :: s.1, s.2)) = _
    rw [hrest, hbyte, Nat.add_comm n 1, load_add]
    rfl

/-! ## Behind the end -/

/-- A fast read at the end returns zero and stays. -/
theorem readFast_end {n : Nat} (hend : b.m_readPos = b.m_writePos) (hn : 0 < n) :
    b.readFast n = some (0, b) := by
  unfold readFast
  rw [if_pos (by omega)]

theorem read_le {n x : Nat} (hr : b.Read n = some (x, c)) : b.m_readPos ≤ c.m_readPos := by
  unfold Read at hr
  split_ifs at hr
  · cases hr
    exact Nat.le_refl _
  · obtain ⟨bytes, -, hb⟩ := Option.map_eq_some_iff.1 hr
    cases hb
    exact Nat.le_add_right _ _

/-- `Read<T>` at the end moves, if it does not fault. -/
theorem read_end {n x : Nat} (hend : b.m_readPos = b.m_writePos) (hn : 0 < n)
    (hr : b.Read n = some (x, c)) : b.m_readPos < c.m_readPos := by
  unfold Read at hr
  rw [if_neg (by omega)] at hr
  obtain ⟨bytes, -, hb⟩ := Option.map_eq_some_iff.1 hr
  cases hb
  exact Nat.lt_add_of_pos_right hn

/-- The fields of a guid are read forwards. -/
theorem appendFields_le {xs : List Nat} {s t : WoWGuid × RawStackBuffer}
    (hf : xs.foldlM (fun (s : WoWGuid × RawStackBuffer) _ => do
      let (field, b) ← s.2.Read 1
      let v ← s.1.appendField (UInt8.ofNat field)
      some (v, b)) s = some t) : s.2.m_readPos ≤ t.2.m_readPos := by
  induction xs generalizing s with
  | nil =>
    cases hf
    exact Nat.le_refl _
  | cons x xs ih =>
    rw [List.foldlM_cons] at hf
    obtain ⟨u, hu, hf⟩ := Option.bind_eq_some_iff.1 hf
    obtain ⟨r, hr, hu⟩ := Option.bind_eq_some_iff.1 hu
    obtain ⟨v, -, hv⟩ := Option.bind_eq_some_iff.1 hu
    cases hv
    exact Nat.le_trans (read_le hr) (ih hf)

/-- No read at the end but the fast ones returns zero and stays. -/
theorem readsZero_end (hend : b.m_readPos = b.m_writePos) (k : BufferRead) :
    b.ReadsZero k ↔ ∃ t, k = .fast t := by
  cases k with
  | fast t =>
    have hsize : 0 < t.size := by cases t <;> decide
    exact iff_of_true (readFast_end hend hsize) ⟨t, rfl⟩
  | viaRead t =>
    have hsize : 0 < t.size := by cases t <;> decide
    refine iff_of_false (fun hz => ?_) (fun ⟨t', ht⟩ => nomatch ht)
    exact Nat.lt_irrefl _ (read_end hend hsize hz)
  | bool =>
    refine iff_of_false (fun hz => ?_) (fun ⟨t, ht⟩ => nomatch ht)
    have hz' : b.readBool = some (false, b) := hz
    obtain ⟨r, hr, hb⟩ := Option.bind_eq_some_iff.1 hz'
    have hmove := read_end hend Nat.one_pos hr
    have hsame : r.2 = b := congrArg Prod.snd (Option.some.inj hb)
    rw [hsame] at hmove
    exact Nat.lt_irrefl _ hmove
  | string =>
    refine iff_of_false (fun hz => ?_) (fun ⟨t, ht⟩ => nomatch ht)
    have hz' : readChars (b.m_space + 1) b = some ([], b) := hz
    unfold readChars at hz'
    obtain ⟨⟨x, c⟩, hr, hb⟩ := Option.bind_eq_some_iff.1 hz'
    have hmove := read_end hend Nat.one_pos hr
    by_cases hx : x = 0
    · simp only [hx, if_true] at hb
      cases hb
      exact Nat.lt_irrefl _ hmove
    · simp only [hx, if_false] at hb
      obtain ⟨s, -, hs⟩ := Option.bind_eq_some_iff.1 hb
      cases hs
  | guid =>
    refine iff_of_false ?_ (fun ⟨t, ht⟩ => nomatch ht)
    rintro ⟨v, hz, -⟩
    unfold readGuid at hz
    obtain ⟨r, hr, hb⟩ := Option.bind_eq_some_iff.1 hz
    have hmove := read_end hend Nat.one_pos hr
    have hback := appendFields_le hb
    exact Nat.lt_irrefl _ (Nat.lt_of_lt_of_le hmove hback)
  | location =>
    refine iff_of_false (fun hz => ?_) (fun ⟨t, ht⟩ => nomatch ht)
    have hz' : b.readLocation = some ((0, 0, 0), b) := hz
    unfold readLocation at hz'
    obtain ⟨r₁, hr₁, hz'⟩ := Option.bind_eq_some_iff.1 hz'
    obtain ⟨r₂, hr₂, hz'⟩ := Option.bind_eq_some_iff.1 hz'
    obtain ⟨r₃, hr₃, hz'⟩ := Option.bind_eq_some_iff.1 hz'
    have hmove := read_end hend (by decide) hr₁
    have h2 := read_le hr₂
    have h3 := read_le hr₃
    have hsame : r₃.2 = b := congrArg Prod.snd (Option.some.inj hz')
    rw [hsame] at h3
    omega

end RawStackBuffer

/-! ## Items -/

namespace BufferItem

open RawStackBuffer

variable {b b' : RawStackBuffer} {content : List UInt8} {i : BufferItem} {items : List BufferItem}

/-- Read with an operator that tests the right way round. -/
def Fast : BufferItem → Prop
  | .fast _ _ => True
  | .block _ => True
  | _ => False

/-- How far the read of an item inside the packet moves. -/
def moves : BufferItem → Nat
  | .fast t _ => t.size
  | .block data => data.length
  | _ => 0

theorem moves_of_fast (hi : i.Fast) : i.moves = i.encode.length := by
  cases i with
  | fast t x => exact (length_leBytes _ _).symm
  | block data => rfl
  | _ => exact hi.elim

theorem moves_of_slow (hi : ¬ i.Fast) : i.moves < i.encode.length := by
  cases i with
  | fast t x => exact absurd trivial hi
  | block data => exact absurd trivial hi
  | viaRead t x =>
    show 0 < (leBytes t.size x.toNat).length
    rw [length_leBytes]
    cases t <;> decide
  | bool x => exact Nat.one_pos
  | string s => simp [moves, encode]
  | cstring s => simp [moves, encode]
  | guid v => simp [moves, encode, WoWGuid.packed]
  | location x y z => simp [moves, encode]

theorem moves_le (i : BufferItem) : i.moves ≤ i.encode.length := by
  by_cases hi : i.Fast
  · exact Nat.le_of_eq (moves_of_fast hi)
  · exact Nat.le_of_lt (moves_of_slow hi)

/-- A fast item is read back where its bytes are. -/
theorem readBack_fast (h : b.Holds content) (hi : i.Fast)
    (hn : b.m_readPos + i.encode.length ≤ content.length)
    (hbytes : load b.memory b.m_readPos i.encode.length = i.encode) :
    i.readBack b = some (true, b.skip i.moves) := by
  cases i with
  | fast t x =>
    have hlen : (BufferItem.fast t x).encode.length = t.size := length_leBytes _ _
    rw [hlen] at hn hbytes
    show (b.readFast t.size).map _ = _
    rw [readFast_inside h hn, hbytes]
    have hlt : x.toNat < 256 ^ t.size := by
      have hx := x.isLt
      rwa [pow_mul] at hx
    show some (decide (ofLeBytes (leBytes t.size x.toNat) = x.toNat), b.skip t.size) = _
    rw [ofLeBytes_leBytes hlt, decide_eq_true rfl]
    rfl
  | block data =>
    have hread : RawStackBuffer.readBlock data.length b = some (data, b.skip data.length) := by
      have hn' : b.m_readPos + data.length ≤ content.length := hn
      rw [readBlock_inside h hn']
      exact congrArg (fun bytes => some (bytes, b.skip data.length)) hbytes
    show (RawStackBuffer.readBlock data.length b).map _ = _
    rw [hread]
    show some (decide (data = data), b.skip data.length) = _
    rw [decide_eq_true rfl]
    rfl
  | _ => exact hi.elim

/-- Inside the packet the read of any item moves by what it should, if it
is fast, and not at all otherwise. -/
theorem readBack_moves (h : b.Holds content)
    (hn : b.m_readPos + i.encode.length ≤ content.length) :
    ∃ ok, i.readBack b = some (ok, b.skip i.moves) := by
  have hbyte : 1 ≤ i.encode.length → b.Read 1 = some (0, b) := by
    intro hle
    exact read_inside h (by omega)
  cases i with
  | fast t x =>
    have hlen : (BufferItem.fast t x).encode.length = t.size := length_leBytes _ _
    rw [hlen] at hn
    show ∃ ok, (b.readFast t.size).map _ = _
    rw [readFast_inside h hn]
    exact ⟨_, rfl⟩
  | viaRead t x =>
    have hlen : (BufferItem.viaRead t x).encode.length = t.size := length_leBytes _ _
    rw [hlen] at hn
    show ∃ ok, (b.Read t.size).map _ = _
    rw [read_inside h hn]
    exact ⟨_, rfl⟩
  | bool x =>
    have hread : b.readBool = some (false, b) := by
      unfold readBool
      rw [hbyte (Nat.le_refl 1)]
      rfl
    show ∃ ok, b.readBool.map _ = _
    rw [hread]
    exact ⟨_, rfl⟩
  | string s | cstring s =>
    have hread : b.readString = some ([], b) := by
      unfold readString readChars
      rw [hbyte (by simp [encode])]
      rfl
    show ∃ ok, b.readString.map _ = _
    rw [hread]
    exact ⟨_, rfl⟩
  | guid v =>
    have hread : b.readGuid = some (WoWGuid.ofMask 0, b) := by
      unfold readGuid
      rw [hbyte (by simp [encode, WoWGuid.packed])]
      rfl
    show ∃ ok, b.readGuid.map _ = _
    rw [hread]
    exact ⟨_, rfl⟩
  | location x y z =>
    have hlen : (BufferItem.location x y z).encode.length = 12 := by simp [encode]
    have hfour : b.Read 4 = some (0, b) := read_inside h (by omega)
    have hread : b.readLocation = some ((0, 0, 0), b) := by
      unfold readLocation
      simp only [hfour, Option.bind_eq_bind, Option.bind_some]
    show ∃ ok, b.readLocation.map _ = _
    rw [hread]
    exact ⟨_, rfl⟩
  | block data =>
    have hn' : b.m_readPos + data.length ≤ content.length := hn
    show ∃ ok, (RawStackBuffer.readBlock data.length b).map _ = _
    rw [readBlock_inside h hn']
    exact ⟨_, rfl⟩

/-- How far the reads of all items move. -/
def movesAll (items : List BufferItem) : Nat := (items.map moves).sum

theorem movesAll_le (items : List BufferItem) : movesAll items ≤ (items.flatMap encode).length := by
  induction items with
  | nil => exact Nat.le_refl _
  | cons i is ih =>
    have hi := moves_le i
    rw [List.flatMap_cons, List.length_append]
    show i.moves + movesAll is ≤ _
    omega

/-- The reads arrive at the end exactly when all items are fast. -/
theorem movesAll_eq_iff (items : List BufferItem) :
    movesAll items = (items.flatMap encode).length ↔ ∀ i ∈ items, i.Fast := by
  induction items with
  | nil => exact iff_of_true rfl (fun i hi => nomatch hi)
  | cons i is ih =>
    have hles := movesAll_le is
    rw [List.flatMap_cons, List.length_append, List.forall_mem_cons, ← ih]
    show i.moves + movesAll is = _ ↔ _
    by_cases hi : i.Fast
    · have heq := moves_of_fast hi
      constructor
      · intro hsum
        exact ⟨hi, by omega⟩
      · intro hall
        omega
    · have hlt := moves_of_slow hi
      constructor
      · intro hsum
        omega
      · intro hall
        exact absurd hall.1 hi

/-- The reads of a packet, from wherever they start early enough. -/
theorem readBackAll_moves (h : b.Holds content)
    (hn : b.m_readPos + (items.flatMap encode).length ≤ content.length) :
    ∃ ok, readBackAll items b = some (ok, b.skip (movesAll items)) := by
  induction items generalizing b with
  | nil => exact ⟨true, rfl⟩
  | cons i is ih =>
    rw [List.flatMap_cons, List.length_append] at hn
    have hle := moves_le i
    have hi : b.m_readPos + i.encode.length ≤ content.length := by omega
    have his : (b.skip i.moves).m_readPos + (is.flatMap encode).length ≤ content.length := by
      show b.m_readPos + i.moves + _ ≤ _
      omega
    obtain ⟨ok, hok⟩ := readBack_moves h hi
    obtain ⟨oks, hoks⟩ := ih (h.skip i.moves) his
    refine ⟨ok && oks, ?_⟩
    unfold readBackAll
    rw [hok]
    show (readBackAll is (b.skip i.moves) >>= fun r => some (ok && r.1, r.2)) = _
    rw [hoks, skip_skip]
    rfl

/-- The reads of a packet of fast items give back its values. -/
theorem readBackAll_fast (h : b.Holds content) (hfast : ∀ i ∈ items, i.Fast)
    (hn : b.m_readPos + (items.flatMap encode).length ≤ content.length)
    (hbytes : load b.memory b.m_readPos (items.flatMap encode).length = items.flatMap encode) :
    readBackAll items b = some (true, b.skip (movesAll items)) := by
  induction items generalizing b with
  | nil => rfl
  | cons i is ih =>
    obtain ⟨hi, his⟩ := List.forall_mem_cons.1 hfast
    rw [List.flatMap_cons, List.length_append] at hn hbytes
    rw [load_add] at hbytes
    obtain ⟨hhead, htail⟩ := List.append_inj hbytes length_load
    have heq := moves_of_fast hi
    have hfirst : i.readBack b = some (true, b.skip i.moves) := readBack_fast h hi (by omega) hhead
    have hrest : readBackAll is (b.skip i.moves) =
        some (true, (b.skip i.moves).skip (movesAll is)) := by
      refine ih (h.skip i.moves) his ?_ ?_
      · show b.m_readPos + i.moves + _ ≤ _
        omega
      · show load b.memory (b.m_readPos + i.moves) _ = _
        rw [heq]
        exact htail
    unfold readBackAll
    rw [hfirst]
    show (readBackAll is (b.skip i.moves) >>= fun r => some (true && r.1, r.2)) = _
    rw [hrest, skip_skip]
    rfl

end BufferItem

/-! ## The packet buffer -/

namespace BufferItem

open RawStackBuffer

variable {j : Nat → UInt8} {b b' : RawStackBuffer} {i : BufferItem} {items : List BufferItem}

theorem memcpy_readPos {data : List UInt8} (hw : b.memcpy data = some b') :
    b'.m_readPos = b.m_readPos := by
  unfold memcpy at hw
  split_ifs at hw
  cases hw
  rfl

theorem checked_readPos {data : List UInt8} {n k : Nat}
    (hw : ((b.EnsureBufferSize j n).memcpy data).map (fun b => b.advance k) = some b') :
    b'.m_readPos = b.m_readPos := by
  obtain ⟨c, hc, rfl⟩ := Option.map_eq_some_iff.1 hw
  show c.m_readPos = b.m_readPos
  rw [memcpy_readPos hc, ensure_readPos]

/-- Writing leaves the read position. -/
theorem item_readPos (hw : i.write j b = some b') : b'.m_readPos = b.m_readPos := by
  cases i with
  | guid v =>
    have hw' : b.writeGuid j v = some b' := hw
    unfold writeGuid at hw'
    obtain ⟨c, hc, hw'⟩ := Option.bind_eq_some_iff.1 hw'
    obtain ⟨d, hd, hw'⟩ := Option.bind_eq_some_iff.1 hw'
    cases hw'
    show d.m_readPos = b.m_readPos
    rw [memcpy_readPos hd, checked_readPos hc, ensure_readPos]
  | location x y z =>
    have hw' : b.writeLocation j x y z = some b' := hw
    unfold writeLocation at hw'
    obtain ⟨c, hc, hw'⟩ := Option.bind_eq_some_iff.1 hw'
    obtain ⟨d, hd, hw'⟩ := Option.bind_eq_some_iff.1 hw'
    rw [checked_readPos hw', checked_readPos hd, checked_readPos hc]
  | _ => exact checked_readPos hw

theorem writeAll_readPos (hw : writeAll j items b = some b') : b'.m_readPos = b.m_readPos := by
  induction items generalizing b with
  | nil =>
    cases hw
    rfl
  | cons i is ih =>
    rw [writeAll_cons] at hw
    obtain ⟨c, hc, hw⟩ := Option.bind_eq_some_iff.1 hw
    rw [ih hw, item_readPos hc]

end BufferItem

namespace RawStackBuffer

open BufferItem

variable (junk stack : Nat → UInt8) (sz : Nat) (items : List BufferItem) (past : List BufferRead)

/-- Every byte written is stored inside the allocated space. -/
def Stored : Prop :=
  ∃ b, writeAll junk items (RawStackBuffer.new stack sz) = some b ∧
    b.m_writePos ≤ b.m_space ∧ load b.memory 0 b.m_writePos = items.flatMap encode

/-- And the reads of the same types return the values and end where the
packet ends, where reads return zero without moving. -/
def Faithful : Prop :=
  ∃ b, writeAll junk items (RawStackBuffer.new stack sz) = some b ∧
    b.m_writePos ≤ b.m_space ∧ load b.memory 0 b.m_writePos = items.flatMap encode ∧
    ∃ b', readBackAll items b = some (true, b') ∧ b'.m_readPos = b'.m_writePos ∧
      ∀ k ∈ past, b'.ReadsZero k

theorem new_holds : (RawStackBuffer.new stack sz).Holds [] :=
  ⟨rfl, Nat.zero_le _, rfl⟩

theorem holds_of_load {b : RawStackBuffer} (hin : b.m_writePos ≤ b.m_space)
    (hload : load b.memory 0 b.m_writePos = items.flatMap encode) :
    b.Holds (items.flatMap encode) := by
  have hlen : b.m_writePos = (items.flatMap encode).length := by
    rw [← hload, length_load]
  refine ⟨hlen, hlen ▸ hin, ?_⟩
  rw [← hlen]
  exact hload

theorem stored_iff :
    Stored junk stack sz items ↔
      Fits sz 0 (items.flatMap chunks) ∧ ∀ i ∈ items, i.Short := by
  have hall : (∃ b, writeAll junk items (RawStackBuffer.new stack sz) = some b ∧
      b.Holds ([] ++ items.flatMap encode)) ↔ _ := writeAll_iff (new_holds stack sz)
  rw [List.nil_append] at hall
  refine Iff.trans ?_ hall
  constructor
  · rintro ⟨b, hw, hin, hload⟩
    exact ⟨b, hw, holds_of_load items hin hload⟩
  · rintro ⟨b, hw, hholds⟩
    refine ⟨b, hw, ?_, ?_⟩
    · rw [hholds.pos]
      exact hholds.inside
    · rw [hholds.pos]
      exact hholds.bytes

/-- The buffer stores what is written exactly when every checked write is
at most 200 bytes longer than the room that is left and no block has a
length that wraps; it is faithful exactly when moreover nothing is read
through `Read<T>`. -/
theorem stack_buffer_faithful_iff :
    (Stored junk stack sz items ↔
      Fits sz 0 (items.flatMap chunks) ∧ ∀ i ∈ items, i.Short) ∧
    (Faithful junk stack sz items past ↔
      (Fits sz 0 (items.flatMap chunks) ∧ ∀ i ∈ items, i.Short) ∧
        (∀ i ∈ items, i.Fast) ∧ ∀ k ∈ past, ∃ t, k = .fast t) := by
  refine ⟨stored_iff junk stack sz items, ?_⟩
  rw [← stored_iff junk stack sz items]
  constructor
  · rintro ⟨b, hw, hin, hload, b', hread, hend, hpast⟩
    have hholds := holds_of_load items hin hload
    have hstart : b.m_readPos = 0 := writeAll_readPos hw
    have hreach : b.m_readPos + (items.flatMap encode).length ≤ (items.flatMap encode).length := by
      omega
    obtain ⟨ok, hmoves⟩ := readBackAll_moves hholds hreach
    rw [hmoves] at hread
    cases hread
    have hpos := hholds.pos
    have hfast : ∀ i ∈ items, i.Fast := by
      rw [← movesAll_eq_iff, ← hpos]
      have hend' : b.m_readPos + movesAll items = b.m_writePos := hend
      omega
    exact ⟨⟨b, hw, hin, hload⟩, hfast, fun k hk => (readsZero_end hend k).1 (hpast k hk)⟩
  · rintro ⟨⟨b, hw, hin, hload⟩, hfast, hpast⟩
    have hholds := holds_of_load items hin hload
    have hstart : b.m_readPos = 0 := writeAll_readPos hw
    have hpos := hholds.pos
    have hend : (b.skip (movesAll items)).m_readPos = (b.skip (movesAll items)).m_writePos := by
      show b.m_readPos + movesAll items = b.m_writePos
      rw [hpos, (movesAll_eq_iff items).2 hfast]
      omega
    refine ⟨b, hw, hin, hload, _, readBackAll_fast hholds hfast (by omega) ?_, hend,
      fun k hk => (readsZero_end hend k).2 (hpast k hk)⟩
    rw [hstart, ← hpos]
    exact hload

/-- A value written to an empty buffer of 64 bytes, read back as zero. -/
theorem bool_not_read_back :
    ¬ Faithful (fun _ => 0) (fun _ => 0) 64 [.bool true] [] := by
  rintro ⟨b, hw, -, -, b', hread, -, -⟩
  have hzero : readBackAll [.bool true] b = some (false, b) := by
    cases hw
    rfl
  rw [hzero] at hread
  cases hread

end RawStackBuffer

end HearthStone
