/-
HearthStone.Object.UpdateBlock — the values block of an object update
(`Object::_BuildValuesUpdate`, `Object.cpp`).

A block is a count of mask blocks, the mask, and the values of the
fields whose bit is set. `readBlock` is what a client does with it.

* `dress` — a block that creates an object for a player is written with
  the dynamic flags that player has to see: who has tagged a creature,
  whether a game object is part of one of his quests. The fields are
  changed in the object itself, and `undress` takes the change back when
  the block is written.
* What of the player is read for that is a `Viewer`.

The indices of a type's fields are numbers below `valuesCount`, which is
what the assertions on them say.
-/
import HearthStone.Object.UnsignedValue
import HearthStone.Object.UpdateMask
import HearthStone.Packet.ByteBuffer

namespace HearthStone

open Lib

/-- `TYPEID`, of the objects a player is shown. -/
inductive TypeId
  | item
  | container
  | unit
  | player
  | gameobject
  | dynamicobject
  | corpse
  deriving DecidableEq

/-- `m_valuesCount`: `ITEM_END` and so on. -/
@[reducible] def TypeId.valuesCount : TypeId → Nat
  | .item => 6 + 0x3A
  | .container => 6 + 0x3A + 0x4A
  | .unit => 6 + 0x8E
  | .player => 6 + 0x8E + 0x47A
  | .gameobject => 6 + 0xC
  | .dynamicobject => 6 + 0xA
  | .corpse => 6 + 0x1E

theorem TypeId.valuesCount_pos (t : TypeId) : 0 < t.valuesCount := by
  cases t <;> decide

theorem TypeId.valuesCount_le (t : TypeId) : t.valuesCount ≤ 32 * 255 := by
  cases t <;> decide

/-- `OBJECT_FIELD_GUID`. -/
def objectFieldGuid (t : TypeId) : Fin t.valuesCount := ⟨0, t.valuesCount_pos⟩

def unitDynamicFlags : Fin TypeId.unit.valuesCount := ⟨6 + 0x48, by decide⟩
def gameobjectFlags : Fin TypeId.gameobject.valuesCount := ⟨6 + 3, by decide⟩
def gameobjectDynamic : Fin TypeId.gameobject.valuesCount := ⟨6 + 8, by decide⟩
def gameobjectBytes1 : Fin TypeId.gameobject.valuesCount := ⟨6 + 0xB, by decide⟩

/-- `U_DYN_FLAG_LOOTABLE` and its like. -/
def flagLootable : UInt32 := 0x01
def flagTaggedByOther : UInt32 := 0x04
def flagTappedByPlayer : UInt32 := 0x08

def goFlagInUse : UInt32 := 0x01
def goDynflagQuest : UInt32 := 0x09

/-- What a block reads of the player it is written for. -/
structure Viewer where
  lowGuid : UInt32
  /-- The id of his group. -/
  group : Option UInt32
  questLog : List UInt32
  /-- `m_loot.HasLoot` of the object, for him. -/
  hasLoot : Bool

structure Object (t : TypeId) where
  /-- `m_uint32Values`. -/
  values : Fin t.valuesCount → UInt32
  updateMask : UpdateMask t.valuesCount
  inWorld : Bool
  objectUpdated : Bool
  /-- It is in `_updates` of its map. -/
  queued : Bool
  /-- Of a creature. -/
  taggingPlayer : UInt32
  taggingGroup : UInt32
  /-- Of a game object, as far as they are counted. -/
  involvedQuestIds : List UInt32

namespace Object

variable {t : TypeId}

/-! ## The fields a player sees changed -/

/-- A field is written, and nothing marked. -/
def poke (o : Object t) (i : Fin t.valuesCount) (value : UInt32) : Object t :=
  { o with values := Function.update o.values i value }

/-- An object, and the mask of a block, as they are when the block is
written. -/
structure Dressed (t : TypeId) where
  object : Object t
  mask : UpdateMask t.valuesCount
  reset : Bool
  oldState : UInt32

/-- The group that has tagged the creature, or its player. -/
def taggedBy (o : Object t) (target : Viewer) : Bool :=
  decide ((o.taggingGroup ≠ 0 ∧ target.group = some o.taggingGroup) ∨
    o.taggingPlayer = target.lowGuid)

/-- The tagged visual. -/
def tagVisual (o : Object t) (target : Viewer) : UInt32 :=
  if o.taggedBy target then
    if target.hasLoot then flagTappedByPlayer ||| flagLootable else flagTappedByPlayer
  else flagTaggedByOther

def dressUnit (o : Object .unit) (mask : UpdateMask TypeId.unit.valuesCount) (target : Viewer) :
    Dressed .unit :=
  if o.taggingPlayer ≠ 0 then
    ⟨o.poke unitDynamicFlags (o.values unitDynamicFlags ||| o.tagVisual target),
      mask.setBit unitDynamicFlags, true, 0⟩
  else ⟨o, mask, false, 0⟩

/-- The first quest id decides whether there are any. -/
def questVisual (o : Object t) (target : Viewer) : Bool :=
  decide (o.involvedQuestIds.headD 0 ≠ 0 ∧ ∃ q ∈ o.involvedQuestIds, q ∈ target.questLog)

def dressGameobject (o : Object .gameobject)
    (mask : UpdateMask TypeId.gameobject.valuesCount) (target : Viewer) : Dressed .gameobject :=
  if o.questVisual target then
    let state := o.values gameobjectBytes1
    ⟨((o.poke gameobjectDynamic goDynflagQuest).poke gameobjectBytes1
        (state &&& 0xffffff00 ||| 1)).poke gameobjectFlags
        (o.values gameobjectFlags &&& ~~~goFlagInUse),
      ((mask.setBit gameobjectBytes1).setBit gameobjectDynamic).setBit gameobjectFlags, true,
      state⟩
  else ⟨o, mask, false, 0⟩

/-- The first part of `_BuildValuesUpdate`. -/
def dress (o : Object t) (mask : UpdateMask t.valuesCount) (target : Option Viewer) : Dressed t :=
  match target with
  | none => ⟨o, mask, false, 0⟩
  | some target =>
    if mask.getBit (objectFieldGuid t) then
      match t, o, mask with
      | .unit, o, mask => o.dressUnit mask target
      | .gameobject, o, mask => o.dressGameobject mask target
      | _, o, mask => ⟨o, mask, false, 0⟩
    else ⟨o, mask, false, 0⟩

/-- The last part of it. -/
def undress (o : Object t) (oldState : UInt32) : Object t :=
  match t, o with
  | .unit, o =>
    o.poke unitDynamicFlags (o.values unitDynamicFlags &&&
      ~~~(flagTaggedByOther ||| flagLootable ||| flagTappedByPlayer))
  | .gameobject, o =>
    ((o.poke gameobjectDynamic 0).poke gameobjectFlags
      (o.values gameobjectFlags ||| goFlagInUse)).poke gameobjectBytes1 oldState
  | _, o => o

/-! ## The block -/

/-- One turn of the loop over the fields. -/
def writeValue {n : Nat} (values : Fin n → UInt32) (s : ByteBuffer × UpdateMask n) (i : Fin n) :
    ByteBuffer × UpdateMask n :=
  if s.2.getBit i then (s.1.append (ByteBuffer.uint32Bytes (values i)), s.2.unsetBit i) else s

/-- The count of blocks, the mask and the values. -/
def writeBlock {n : Nat} (values : Fin n → UInt32) (data : ByteBuffer) (mask : UpdateMask n) :
    ByteBuffer × UpdateMask n :=
  let bc := if 2 * 0x20 < n then mask.getUpdateBlockCount else mask.getBlockCount
  let values_count := if 2 * 0x20 < n then min (bc * 32) n else n
  let head := (data.append [UInt8.ofNat bc]).append (mask.bytes.take (bc * 4))
  ((List.finRange n).take values_count).foldl (writeValue values) (head, mask)

/-- `_BuildValuesUpdate(data, updateMask, target)`: what is written, the
object and the mask afterwards. -/
def buildValuesUpdate (o : Object t) (data : ByteBuffer) (mask : UpdateMask t.valuesCount)
    (target : Option Viewer) : ByteBuffer × Object t × UpdateMask t.valuesCount :=
  let d := o.dress mask target
  let (data, mask) := writeBlock d.object.values data d.mask
  (data, if d.reset then d.object.undress d.oldState else d.object, mask)

end Object

/-! ## The reader -/

/-- The next value is that of field `i`. -/
def readValue {n : Nat} (s : (Fin n → UInt32) × ByteBuffer) (i : Fin n) :
    (Fin n → UInt32) × ByteBuffer :=
  let (value, b) := s.2.readUInt32
  (Function.update s.1 i value, b)

/-- A value for each bit that is set, in ascending order. -/
def readBlock {n : Nat} (replica : Fin n → UInt32) (b : ByteBuffer) :
    (Fin n → UInt32) × ByteBuffer :=
  let (bc, b) := b.readUInt8
  let (mask, b) := ByteBuffer.readBytes (bc.toNat * 4) b
  ((List.finRange n).filter fun i : Fin n => bitAt mask i).foldl readValue (replica, b)

end HearthStone

/-! ## Theorems

A values block is read back.

* `foldl_writeValue` / `foldl_readValue` — what the two loops do with any
  list of fields.
* `writeBlock_eq` — the bytes of a block. All set bits are in the blocks
  that are written.
* `readBlock_writeBlock` — the round trip.
* `dresses_dress`, `repainted_undress` — the dressing touches
  `dressedFields` only, and nothing at all without a player to write for
  (`dress_reset_eq_false`).
-/

namespace HearthStone

open Lib

variable {n : Nat} {t : TypeId}

/-- The values of some fields, one after the other. -/
def valueBytes (values : Fin n → UInt32) (l : List (Fin n)) : List UInt8 :=
  l.flatMap fun i => ByteBuffer.uint32Bytes (values i)

/-- A replica after the values of the fields `p` have been taken over. -/
def takeOver (values replica : Fin n → UInt32) (p : Fin n → Bool) : Fin n → UInt32 :=
  fun i => if p i then values i else replica i

/-! ## The loops -/

theorem foldl_writeValue (values : Fin n → UInt32) {l : List (Fin n)} (hl : l.Nodup)
    (data : ByteBuffer) (mask : UpdateMask n) :
    (l.foldl (Object.writeValue values) (data, mask)).1 =
        data.append (valueBytes values (l.filter mask.getBit)) ∧
      ∀ j, (l.foldl (Object.writeValue values) (data, mask)).2.getBit j =
        (mask.getBit j && decide (j ∉ l)) := by
  induction l generalizing data mask with
  | nil => exact ⟨ByteBuffer.append_nil.symm, fun j => by simp⟩
  | cons i l ih =>
    obtain ⟨hi, hl⟩ := List.nodup_cons.1 hl
    rw [List.foldl_cons]
    cases hbit : mask.getBit i with
    | false =>
      have hstep : Object.writeValue values (data, mask) i = (data, mask) := by
        simp [Object.writeValue, hbit]
      obtain ⟨hdata, hmask⟩ := ih hl data mask
      rw [hstep]
      refine ⟨by rw [hdata, List.filter_cons_of_neg (by simp [hbit])], ?_⟩
      intro j
      rw [hmask j]
      by_cases hj : j = i
      · rw [hj, hbit, Bool.false_and, Bool.false_and]
      · simp [hj]
    | true =>
      have hstep : Object.writeValue values (data, mask) i =
          (data.append (ByteBuffer.uint32Bytes (values i)), mask.unsetBit i) := by
        simp [Object.writeValue, hbit]
      obtain ⟨hdata, hmask⟩ := ih hl (data.append (ByteBuffer.uint32Bytes (values i)))
        (mask.unsetBit i)
      -- the bit that is unset is that of a field the rest of the loop does not come to
      have hrest : l.filter (mask.unsetBit i).getBit = l.filter mask.getBit := by
        refine List.filter_congr ?_
        intro j hj
        have hne : j ≠ i := by
          rintro rfl
          exact hi hj
        rw [UpdateMask.getBit_unsetBit, decide_eq_true hne, Bool.and_true]
      rw [hstep]
      refine ⟨?_, ?_⟩
      · rw [hdata, hrest, ByteBuffer.append_append, List.filter_cons_of_pos (by simp [hbit])]
        rfl
      · intro j
        rw [hmask j, UpdateMask.getBit_unsetBit]
        by_cases hj : j = i <;> simp [hj]

theorem foldl_readValue (values : Fin n → UInt32) {l : List (Fin n)} {b : ByteBuffer}
    (replica : Fin n → UInt32) (h : b.Holds (valueBytes values l)) :
    l.foldl readValue (replica, b) =
      (takeOver values replica fun i => decide (i ∈ l), b.setRpos (b.rpos + 4 * l.length)) := by
  induction l generalizing replica b with
  | nil => rfl
  | cons i l ih =>
    obtain ⟨hread, hrest⟩ := ByteBuffer.Holds.readUInt32 h
    have hstep : readValue (replica, b) i =
        (Function.update replica i (values i), b.setRpos (b.rpos + 4)) := by
      simp only [readValue, hread]
    rw [List.foldl_cons, hstep, ih _ hrest]
    refine Prod.ext ?_ ?_
    · funext j
      unfold takeOver
      by_cases hj : j = i
      · subst hj
        by_cases hl : j ∈ l <;> simp [hl]
      · simp [hj]
    · rw [ByteBuffer.setRpos_rpos, List.length_cons, Nat.mul_succ, Nat.add_assoc, Nat.add_comm 4]
      rfl

/-! ## The block -/

/-- The fields behind the last one that is set do not matter. -/
theorem filter_take_finRange {p : Fin n → Bool} {k : Nat} (h : ∀ i, p i = true → i.val < k) :
    ((List.finRange n).take k).filter p = (List.finRange n).filter p := by
  have hdrop : ((List.finRange n).drop k).filter p = [] := by
    rw [List.filter_eq_nil_iff]
    intro i hi hp
    obtain ⟨j, hj, rfl⟩ := List.mem_iff_getElem.1 hi
    have hlt := h _ hp
    rw [List.getElem_drop, List.getElem_finRange] at hlt
    simp at hlt
  rw [← List.take_append_drop k (List.finRange n), List.filter_append, hdrop, List.append_nil,
    List.take_append_drop]

/-- The blocks that are written hold every bit that is set. -/
structure Covers (mask : UpdateMask n) (bc : Nat) : Prop where
  lt_byte : bc < 256
  le_bytes : bc * 4 ≤ mask.bytes.length
  bits : ∀ i, mask.getBit i = true → i.val < bc * 32

theorem covers_blocks (hpos : 0 < n) (hn : n ≤ 32 * 255) (mask : UpdateMask n) :
    Covers mask (if 2 * 0x20 < n then mask.getUpdateBlockCount else mask.getBlockCount) := by
  have hblocks := maskBlocks_le hn
  have hupdate := mask.getUpdateBlockCount_le hpos
  have hbytes := mask.length_bytes
  split
  · refine ⟨by omega, by omega, ?_⟩
    intro i hi
    have hlt := UpdateMask.lt_of_getBit hi
    omega
  · unfold UpdateMask.getBlockCount
    refine ⟨by omega, by omega, ?_⟩
    intro i hi
    have hle := le_maskBlocks n
    omega

/-- What is written, and that no bit is left. -/
theorem writeBlock_eq (hpos : 0 < n) (hn : n ≤ 32 * 255) (values : Fin n → UInt32)
    (data : ByteBuffer) (mask : UpdateMask n) :
    ∃ bc, Covers mask bc ∧
      (Object.writeBlock values data mask).1 = data.append (UInt8.ofNat bc ::
        (mask.bytes.take (bc * 4) ++
          valueBytes values ((List.finRange n).filter mask.getBit))) ∧
      ∀ i, (Object.writeBlock values data mask).2.getBit i = false := by
  have hcovers := covers_blocks hpos hn mask
  refine ⟨_, hcovers, ?_⟩
  unfold Object.writeBlock
  set bc := if 2 * 0x20 < n then mask.getUpdateBlockCount else mask.getBlockCount with hbc
  set count := if 2 * 0x20 < n then min (bc * 32) n else n with hcount
  have hbits : ∀ i, mask.getBit i = true → i.val < count := by
    intro i hi
    have hlt := hcovers.bits i hi
    rw [hcount]
    split <;> omega
  obtain ⟨hdata, hmask⟩ := foldl_writeValue values
    ((List.nodup_finRange n).sublist (List.take_sublist count _))
    ((data.append [UInt8.ofNat bc]).append (mask.bytes.take (bc * 4))) mask
  refine ⟨?_, ?_⟩
  · rw [hdata, filter_take_finRange hbits, ByteBuffer.append_append, ByteBuffer.append_append]
    simp only [List.singleton_append]
  · intro i
    rw [hmask i]
    cases hi : mask.getBit i with
    | false => rfl
    | true =>
      have hmem : i ∈ (List.finRange n).take count := by
        have hlt : i.val < ((List.finRange n).take count).length := by
          rw [List.length_take, List.length_finRange]
          exact Nat.lt_min.2 ⟨hbits i hi, i.isLt⟩
        have hget : ((List.finRange n).take count)[i.val] = i := by
          rw [List.getElem_take, List.getElem_finRange]
          rfl
        rw [← hget]
        exact List.getElem_mem hlt
      rw [Bool.true_and]
      exact decide_eq_false (not_not_intro hmem)

/-- A block is read back: the fields that are set are taken over, and the
position is where the block ends. -/
theorem readBlock_writeBlock (hpos : 0 < n) (hn : n ≤ 32 * 255) (values replica : Fin n → UInt32)
    (data : ByteBuffer) (mask : UpdateMask n) :
    let out := (Object.writeBlock values data mask).1
    readBlock replica (out.setRpos data.wpos) =
      (takeOver values replica mask.getBit, out.setRpos out.wpos) := by
  obtain ⟨bc, hcovers, hout, -⟩ := writeBlock_eq hpos hn values data mask
  have hlt := hcovers.lt_byte
  rw [hout]
  set fields := (List.finRange n).filter mask.getBit with hfields
  have hholds := ByteBuffer.append_holds (b := data) (UInt8.ofNat bc ::
    (mask.bytes.take (bc * 4) ++ valueBytes values fields))
  have hlen : (mask.bytes.take (bc * 4)).length = bc * 4 := by
    rw [List.length_take]
    exact Nat.min_eq_left hcovers.le_bytes
  have hbc : (UInt8.ofNat bc).toNat = bc := by
    rw [UInt8.toNat_ofNat']
    exact Nat.mod_eq_of_lt hlt
  obtain ⟨hcount, hrest⟩ := hholds.readUInt8
  obtain ⟨hmask, hvalues⟩ := hrest.readBytes
  rw [hlen] at hmask hvalues
  -- the bits of the blocks that are read are those of the mask
  have hfilter : ((List.finRange n).filter fun i : Fin n => bitAt (mask.bytes.take (bc * 4)) i) =
      fields := by
    refine List.filter_congr ?_
    intro i _
    by_cases hi : i.val < 8 * (bc * 4)
    · exact bitAt_take hi
    · rw [bitAt_of_length_le (by rw [hlen]; omega)]
      cases hbit : mask.getBit i with
      | false => rfl
      | true =>
        have hin := hcovers.bits i hbit
        omega
  unfold readBlock
  simp only [hcount, hbc, hmask, hfilter]
  rw [foldl_readValue values replica hvalues]
  have hlength : (valueBytes values fields).length = 4 * fields.length := by
    unfold valueBytes
    simp [List.length_flatMap, Nat.mul_comm]
  refine Prod.ext ?_ ?_
  · funext i
    simp [takeOver, hfields]
  · simp only [ByteBuffer.setRpos_rpos, ByteBuffer.append_wpos, List.length_cons,
      List.length_append, hlen, hlength]
    unfold ByteBuffer.setRpos
    congr 1
    omega

/-! ## The dressing -/

/-- The fields a block may show a player changed. -/
def dressedFields : (t : TypeId) → List (Fin t.valuesCount)
  | .unit => [unitDynamicFlags]
  | .gameobject => [gameobjectBytes1, gameobjectDynamic, gameobjectFlags]
  | _ => []

namespace Object

/-- The object with some of these fields written. -/
def Repainted (o o' : Object t) : Prop :=
  ∃ values, o' = { o with values := values } ∧ ∀ i ∉ dressedFields t, values i = o.values i

theorem repainted_refl (o : Object t) : Repainted o o := ⟨o.values, rfl, fun _ _ => rfl⟩

theorem Repainted.trans {o o' o'' : Object t} (h : Repainted o o') (h' : Repainted o' o'') :
    Repainted o o'' := by
  obtain ⟨values, rfl, hvalues⟩ := h
  obtain ⟨values', rfl, hvalues'⟩ := h'
  exact ⟨values', rfl, fun i hi => (hvalues' i hi).trans (hvalues i hi)⟩

theorem repainted_poke (o : Object t) {i : Fin t.valuesCount} (hi : i ∈ dressedFields t)
    (value : UInt32) : Repainted o (o.poke i value) := by
  refine ⟨Function.update o.values i value, rfl, ?_⟩
  intro j hj
  have hne : j ≠ i := by
    rintro rfl
    exact hj hi
  exact Function.update_of_ne hne _ _

/-- What the first part does to the object and to the mask. -/
structure Dresses (o : Object t) (mask : UpdateMask t.valuesCount) (d : Dressed t) : Prop where
  object : Repainted o d.object
  bits : ∀ i, d.mask.getBit i = (mask.getBit i || (d.reset && decide (i ∈ dressedFields t)))
  plain : d.reset = false → d.object = o ∧ d.mask = mask

theorem dresses_plain (o : Object t) (mask : UpdateMask t.valuesCount) (oldState : UInt32) :
    Dresses o mask ⟨o, mask, false, oldState⟩ :=
  ⟨repainted_refl o, fun i => by simp, fun _ => ⟨rfl, rfl⟩⟩

theorem dresses_unit (o : Object .unit) (mask : UpdateMask TypeId.unit.valuesCount)
    (target : Viewer) : Dresses o mask (o.dressUnit mask target) := by
  unfold dressUnit
  split
  · refine ⟨repainted_poke o (by simp [dressedFields]) _, ?_, by simp⟩
    intro i
    simp [dressedFields]
  · exact dresses_plain o mask 0

theorem dresses_gameobject (o : Object .gameobject)
    (mask : UpdateMask TypeId.gameobject.valuesCount) (target : Viewer) :
    Dresses o mask (o.dressGameobject mask target) := by
  unfold dressGameobject
  split
  · refine ⟨?_, ?_, by simp⟩
    · exact ((repainted_poke o (by simp [dressedFields]) _).trans
        (repainted_poke _ (by simp [dressedFields]) _)).trans
        (repainted_poke _ (by simp [dressedFields]) _)
    · intro i
      simp [dressedFields, Bool.or_assoc]
  · exact dresses_plain o mask 0

theorem dresses_dress (o : Object t) (mask : UpdateMask t.valuesCount) (target : Option Viewer) :
    Dresses o mask (o.dress mask target) := by
  unfold dress
  cases target with
  | none => exact dresses_plain o mask 0
  | some target =>
    dsimp only
    split
    · cases t with
      | unit => exact dresses_unit o mask target
      | gameobject => exact dresses_gameobject o mask target
      | item => exact dresses_plain o mask 0
      | container => exact dresses_plain o mask 0
      | player => exact dresses_plain o mask 0
      | dynamicobject => exact dresses_plain o mask 0
      | corpse => exact dresses_plain o mask 0
    · exact dresses_plain o mask 0

theorem repainted_undress (o : Object t) (oldState : UInt32) :
    Repainted o (o.undress oldState) := by
  cases t with
  | unit => exact repainted_poke o (by simp [dressedFields]) _
  | gameobject =>
    exact ((repainted_poke o (by simp [dressedFields]) _).trans
      (repainted_poke _ (by simp [dressedFields]) _)).trans
      (repainted_poke _ (by simp [dressedFields]) _)
  | item => exact repainted_refl o
  | container => exact repainted_refl o
  | player => exact repainted_refl o
  | dynamicobject => exact repainted_refl o
  | corpse => exact repainted_refl o

/-- Without a player to write for, and for the other types, nothing is
changed. -/
theorem dress_reset_eq_false (o : Object t) (mask : UpdateMask t.valuesCount)
    {target : Option Viewer} (h : target = none ∨ dressedFields t = []) :
    (o.dress mask target).reset = false := by
  rcases h with rfl | hfields
  · rfl
  · unfold dress
    cases target with
    | none => rfl
    | some target =>
      dsimp only
      split
      · cases t with
        | unit => cases hfields
        | gameobject => cases hfields
        | item => rfl
        | container => rfl
        | player => rfl
        | dynamicobject => rfl
        | corpse => rfl
      · rfl

/-- The object a block leaves behind. -/
theorem repainted_buildValuesUpdate (o : Object t) (data : ByteBuffer)
    (mask : UpdateMask t.valuesCount) (target : Option Viewer) :
    Repainted o (o.buildValuesUpdate data mask target).2.1 := by
  have h := (dresses_dress o mask target).object
  unfold buildValuesUpdate
  dsimp only
  split
  · exact h.trans (repainted_undress _ _)
  · exact h

theorem buildValuesUpdate_plain {o : Object t} {data : ByteBuffer}
    {mask : UpdateMask t.valuesCount} {target : Option Viewer}
    (h : (o.dress mask target).reset = false) :
    (o.buildValuesUpdate data mask target).2.1 = o := by
  unfold buildValuesUpdate
  dsimp only
  rw [h]
  exact ((dresses_dress o mask target).plain h).1

/-- The values of the dressed object are written, where the mask is set
then. -/
theorem readBlock_buildValuesUpdate (o : Object t) (data : ByteBuffer)
    (mask : UpdateMask t.valuesCount) (target : Option Viewer)
    (replica : Fin t.valuesCount → UInt32) :
    let out := (o.buildValuesUpdate data mask target).1
    let d := o.dress mask target
    readBlock replica (out.setRpos data.wpos) =
      (takeOver d.object.values replica d.mask.getBit, out.setRpos out.wpos) :=
  readBlock_writeBlock t.valuesCount_pos t.valuesCount_le _ replica data _

end Object

end HearthStone
