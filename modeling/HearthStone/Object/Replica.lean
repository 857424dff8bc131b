/-
HearthStone.Object.Replica — the copy of an object's fields that a player
has, over any number of changes and updates (`Object.cpp`, `MapMgr.cpp`).

`Watched` is an object with the copy of one player, if he has been shown
the object. The setters mark what they change while the object is in the
world; `MapMgr::_UpdateObjects` sends the marked fields and clears the
marks; an object that is shown to a player is sent to him as a whole.

* `Sync` — the copy differs from the object only where the object is
  marked, or where a dressing has been left (`left`).
* `sync_step` — every step keeps it.
* `update_block_round_trip` — a block is read back, and the copy agrees
  after every update.

What is sent besides the values block (the kind of update, the GUID, the
movement) is left out, as are the groups, power updates and auras that
look at some of the fields.
-/
import HearthStone.Lib.Run
import HearthStone.Object.UpdateBlock

namespace HearthStone

open Lib

variable {t : TypeId}

/-! ## The setters -/

namespace Object

/-- `m_updateMask.SetBit` for these fields, and `ObjectUpdated`. -/
def mark (o : Object t) (fields : List (Fin t.valuesCount)) : Object t :=
  if o.inWorld then
    { o with
      updateMask := fields.foldl UpdateMask.setBit o.updateMask
      queued := if o.objectUpdated then o.queued else true
      objectUpdated := true }
  else o

def setUInt32Value (o : Object t) (index : Fin t.valuesCount) (value : UInt32) : Object t :=
  if o.values index = value then o else (o.poke index value).mark [index]

/-- The low half goes to the first of the two fields. -/
def setUInt64Value (o : Object t) (index : Fin t.valuesCount)
    (next : index.val + 1 < t.valuesCount) (value : UInt64) : Object t :=
  let index' : Fin t.valuesCount := ⟨index.val + 1, next⟩
  let low := value.toUInt32
  let high := (value >>> 32).toUInt32
  if o.values index = low ∧ o.values index' = high then o
  else ((o.poke index low).poke index' high).mark [index, index']

def setFlag (o : Object t) (index : Fin t.valuesCount) (newFlag : UInt32) : Object t :=
  if o.values index &&& newFlag = newFlag then o
  else (o.poke index (o.values index ||| newFlag)).mark [index]

def removeFlag (o : Object t) (index : Fin t.valuesCount) (oldFlag : UInt32) : Object t :=
  if o.values index &&& oldFlag = 0 then o
  else (o.poke index (o.values index &&& ~~~oldFlag)).mark [index]

def modUnsigned32Value (o : Object t) (index : Fin t.valuesCount) (mod : Int32) : Object t :=
  if mod = 0 then o
  else (o.poke index (HearthStone.modUnsigned32Value (o.values index) mod)).mark [index]

def clearUpdateMask (o : Object t) : Object t :=
  { o with updateMask := UpdateMask.clear _, objectUpdated := false }

/-- `RemoveFromWorld`, and `MapMgr::RemoveObject`. -/
def removeFromWorld (o : Object t) : Object t :=
  { o.clearUpdateMask with inWorld := false, queued := false }

/-! ## The masks of the blocks -/

/-- `_SetUpdateBits`: a player is shown to others through
`m_visibleUpdateMask`. -/
def setUpdateBits (o : Object t) (own : Bool) (visible : UpdateMask t.valuesCount) :
    UpdateMask t.valuesCount :=
  if t = .player ∧ own = false then o.updateMask.inter visible else o.updateMask

/-- `_SetCreateBits`. -/
def setCreateBits (o : Object t) (own : Bool) (visible : UpdateMask t.valuesCount) :
    UpdateMask t.valuesCount :=
  ((List.finRange t.valuesCount).filter fun i =>
    decide (o.values i ≠ 0) && (decide (t ≠ .player) || own || visible.getBit i)).foldl
    UpdateMask.setBit (UpdateMask.clear _)

/-- Whom `_UpdateObjects` writes the block for that reaches the player. -/
def updateTarget (t : TypeId) (own : Bool) (viewer : Viewer) : Option Viewer :=
  match t with
  | .item => some viewer
  | .container => some viewer
  | .player => if own then some viewer else none
  | _ => none

end Object

/-! ## An object and a copy of it -/

structure Watched (t : TypeId) where
  object : Object t
  replica : Option (Fin t.valuesCount → UInt32)
  /-- The fields a dressing has left different from the object. -/
  left : Fin t.valuesCount → Bool

namespace Watched

/-- The fields a dressing changes now. -/
def dressedNow (o : Object t) (mask : UpdateMask t.valuesCount) (target : Option Viewer)
    (i : Fin t.valuesCount) : Bool :=
  (o.dress mask target).reset && decide (i ∈ dressedFields t)

/-- A block arrives at the player. -/
def receive (replica : Fin t.valuesCount → UInt32) (data : ByteBuffer) :
    Fin t.valuesCount → UInt32 :=
  (readBlock replica (data.setRpos 0)).1

variable (own : Bool) (visible : UpdateMask t.valuesCount)

/-- `_UpdateObjects`, as far as it comes to this object. Nothing is sent
when no bit is set; an item is sent to its owner wherever it is. -/
def updateObjects (s : Watched t) (viewer : Viewer) : Watched t :=
  if s.object.queued then
    let mask := s.object.setUpdateBits own visible
    let sends := decide (t = .item) || decide (t = .container) || s.object.inWorld
    if sends && (List.finRange t.valuesCount).any mask.getBit then
      let out := s.object.buildValuesUpdate .empty mask (Object.updateTarget t own viewer)
      { object := out.2.1.clearUpdateMask
        replica := s.replica.map fun replica => receive replica out.1
        left := fun i => s.left i && !mask.getBit i }
    else { s with object := s.object.clearUpdateMask }
  else s

/-- `BuildCreateUpdateBlockForPlayer` for the player. -/
def create (s : Watched t) (viewer : Viewer) : Watched t :=
  if s.object.inWorld then
    let mask := s.object.setCreateBits own visible
    let out := s.object.buildValuesUpdate .empty mask (some viewer)
    { object := out.2.1
      replica := some (receive (fun _ => 0) out.1)
      left := dressedNow s.object mask (some viewer) }
  else s

/-- The same for another player, whose copy is not watched. -/
def createOther (s : Watched t) (own' : Bool) (viewer : Viewer) : Watched t :=
  if s.object.inWorld then
    let mask := s.object.setCreateBits own' visible
    { s with
      object := (s.object.buildValuesUpdate .empty mask (some viewer)).2.1
      left := fun i => s.left i || dressedNow s.object mask (some viewer) i }
  else s

inductive Action (t : TypeId)
  | setUInt32Value (index : Fin t.valuesCount) (value : UInt32)
  | setUInt64Value (index : Fin t.valuesCount) (next : index.val + 1 < t.valuesCount)
      (value : UInt64)
  | setFlag (index : Fin t.valuesCount) (newFlag : UInt32)
  | removeFlag (index : Fin t.valuesCount) (oldFlag : UInt32)
  | modUnsigned32Value (index : Fin t.valuesCount) (mod : Int32)
  | updateObjects (viewer : Viewer)
  | create (viewer : Viewer)
  | createOther (own' : Bool) (viewer : Viewer)
  | pushToWorld
  | removeFromWorld

/-- One step. The copy is gone when the object leaves the world. -/
def step (s : Watched t) : Action t → Watched t
  | .setUInt32Value index value => { s with object := s.object.setUInt32Value index value }
  | .setUInt64Value index next value =>
    { s with object := s.object.setUInt64Value index next value }
  | .setFlag index newFlag => { s with object := s.object.setFlag index newFlag }
  | .removeFlag index oldFlag => { s with object := s.object.removeFlag index oldFlag }
  | .modUnsigned32Value index mod => { s with object := s.object.modUnsigned32Value index mod }
  | .updateObjects viewer => s.updateObjects own visible viewer
  | .create viewer => s.create own visible viewer
  | .createOther own' viewer => s.createOther visible own' viewer
  | .pushToWorld => { s with object := { s.object with inWorld := true } }
  | .removeFromWorld => { s with object := s.object.removeFromWorld, replica := none }

/-- An object that has not been in the world yet. -/
def start (o : Object t) : Watched t :=
  { object := o.removeFromWorld, replica := none, left := fun _ => false }

/-- The fields the player is shown. -/
def Shown (i : Fin t.valuesCount) : Prop := t ≠ .player ∨ own = true ∨ visible.getBit i = true

/-- The copy and the object agree, but for what is marked or left. -/
structure Sync (s : Watched t) : Prop where
  outside : s.object.inWorld = false →
    s.replica = none ∧ s.object.objectUpdated = false
  marked : ∀ i, s.object.updateMask.getBit i = true → s.object.objectUpdated = true
  queued : s.object.objectUpdated = true → s.object.queued = true
  agree : ∀ replica, s.replica = some replica → ∀ i, Shown own visible i →
    s.object.updateMask.getBit i = false → s.left i = false → replica i = s.object.values i
  left_mem : ∀ i, s.left i = true → i ∈ dressedFields t

/-! ## The setters mark what they change -/

/-- Some fields are written and marked, or nothing happens. -/
def Writes (o o' : Object t) : Prop :=
  o' = o ∨ ∃ fields values, o' = { o with values := values }.mark fields ∧
    ∀ i ∉ fields, values i = o.values i

theorem writes_poke (o : Object t) (index : Fin t.valuesCount) (value : UInt32) :
    Writes o ((o.poke index value).mark [index]) := by
  refine Or.inr ⟨[index], _, rfl, ?_⟩
  intro i hi
  exact Function.update_of_ne (fun h => hi (List.mem_singleton.2 h)) _ _

theorem writes_setUInt32Value (o : Object t) (index : Fin t.valuesCount) (value : UInt32) :
    Writes o (o.setUInt32Value index value) := by
  unfold Object.setUInt32Value
  split
  · exact Or.inl rfl
  · exact writes_poke o index value

theorem writes_setUInt64Value (o : Object t) (index : Fin t.valuesCount)
    (next : index.val + 1 < t.valuesCount) (value : UInt64) :
    Writes o (o.setUInt64Value index next value) := by
  unfold Object.setUInt64Value
  dsimp only
  split
  · exact Or.inl rfl
  · refine Or.inr ⟨_, _, rfl, ?_⟩
    intro i hi
    rw [List.mem_cons, List.mem_singleton, not_or] at hi
    exact (Function.update_of_ne hi.2 _ _).trans (Function.update_of_ne hi.1 _ _)

theorem writes_setFlag (o : Object t) (index : Fin t.valuesCount) (newFlag : UInt32) :
    Writes o (o.setFlag index newFlag) := by
  unfold Object.setFlag
  split
  · exact Or.inl rfl
  · exact writes_poke o index _

theorem writes_removeFlag (o : Object t) (index : Fin t.valuesCount) (oldFlag : UInt32) :
    Writes o (o.removeFlag index oldFlag) := by
  unfold Object.removeFlag
  split
  · exact Or.inl rfl
  · exact writes_poke o index _

theorem writes_modUnsigned32Value (o : Object t) (index : Fin t.valuesCount) (mod : Int32) :
    Writes o (o.modUnsigned32Value index mod) := by
  unfold Object.modUnsigned32Value
  split
  · exact Or.inl rfl
  · exact writes_poke o index _

/-! ## Every step keeps the copy in step -/

variable {own visible} {s : Watched t}

theorem Sync.writes (h : Sync own visible s) {o' : Object t} (hw : Writes s.object o') :
    Sync own visible { s with object := o' } := by
  rcases hw with rfl | ⟨fields, values, rfl, hvalues⟩
  · exact h
  unfold Object.mark
  split
  · rename_i hin
    refine ⟨fun hout => absurd hin (by rw [hout]; decide), fun _ _ => rfl, ?_, ?_, h.left_mem⟩
    · intro _
      split
      · rename_i hupdated
        exact h.queued hupdated
      · rfl
    · intro replica hreplica i hshown hclean hleft
      rw [UpdateMask.getBit_foldl_setBit, Bool.or_eq_false_iff, decide_eq_false_iff_not] at hclean
      exact (h.agree replica hreplica i hshown hclean.1 hleft).trans (hvalues i hclean.2).symm
  · rename_i hin
    have hout := h.outside (Bool.eq_false_of_not_eq_true hin)
    refine ⟨fun _ => hout, h.marked, h.queued, ?_, h.left_mem⟩
    intro replica hreplica
    rw [hout.1] at hreplica
    cases hreplica

/-- A repainted object differs in the dressed fields only. -/
theorem Sync.repaint (h : Sync own visible s) {o' : Object t} (hp : Object.Repainted s.object o')
    {left : Fin t.valuesCount → Bool} (hleft : ∀ i, s.left i = true → left i = true)
    (hsame : ∀ i, left i = false → o'.values i = s.object.values i)
    (hmem : ∀ i, left i = true → i ∈ dressedFields t) :
    Sync own visible { s with object := o', left := left } := by
  obtain ⟨values, rfl, -⟩ := hp
  refine ⟨h.outside, h.marked, h.queued, ?_, hmem⟩
  intro replica hreplica i hshown hclean hi
  have hold : s.left i = false := by
    refine Bool.eq_false_of_not_eq_true ?_
    intro ht
    have hboth : true = false := (hleft i ht).symm.trans hi
    cases hboth
  exact (h.agree replica hreplica i hshown hclean hold).trans (hsame i hi).symm

/-- Where nothing is dressed, the object is not changed. -/
theorem values_buildValuesUpdate {o : Object t} (data : ByteBuffer)
    {mask : UpdateMask t.valuesCount} {target : Option Viewer} {i : Fin t.valuesCount}
    (h : dressedNow o mask target i = false) :
    (o.buildValuesUpdate data mask target).2.1.values i = o.values i ∧
      (o.dress mask target).object.values i = o.values i ∧
      (o.dress mask target).mask.getBit i = mask.getBit i := by
  have hd := Object.dresses_dress o mask target
  unfold dressedNow at h
  cases hreset : (o.dress mask target).reset with
  | false =>
    rw [Object.buildValuesUpdate_plain hreset, (hd.plain hreset).1, (hd.plain hreset).2]
    exact ⟨rfl, rfl, rfl⟩
  | true =>
    rw [hreset, Bool.true_and, decide_eq_false_iff_not] at h
    obtain ⟨_, hout, hvalues⟩ := Object.repainted_buildValuesUpdate o data mask target
    obtain ⟨_, hdress, hvalues'⟩ := hd.object
    refine ⟨?_, ?_, ?_⟩
    · rw [hout]
      exact hvalues i h
    · rw [hdress]
      exact hvalues' i h
    · rw [hd.bits i, hreset, decide_eq_false h, Bool.and_false, Bool.or_false]

theorem dressedNow_mem {o : Object t} {mask : UpdateMask t.valuesCount} {target : Option Viewer}
    {i : Fin t.valuesCount} (h : dressedNow o mask target i = true) : i ∈ dressedFields t :=
  of_decide_eq_true (Bool.and_eq_true_iff.1 h).2

/-- A block is received. -/
theorem receive_eq (o : Object t) (mask : UpdateMask t.valuesCount) (target : Option Viewer)
    (replica : Fin t.valuesCount → UInt32) :
    receive replica (o.buildValuesUpdate .empty mask target).1 =
      takeOver (o.dress mask target).object.values replica (o.dress mask target).mask.getBit :=
  congrArg Prod.fst (Object.readBlock_buildValuesUpdate o .empty mask target replica)

theorem getBit_setCreateBits (o : Object t) (i : Fin t.valuesCount) :
    (o.setCreateBits own visible).getBit i =
      (decide (o.values i ≠ 0) && (decide (t ≠ .player) || own || visible.getBit i)) := by
  unfold Object.setCreateBits
  rw [UpdateMask.getBit_foldl_setBit, UpdateMask.getBit_clear, Bool.false_or]
  simp [List.mem_finRange]

theorem shown_iff (i : Fin t.valuesCount) :
    Shown own visible i ↔ (decide (t ≠ .player) || own || visible.getBit i) = true := by
  unfold Shown
  simp [or_assoc]

theorem getBit_setUpdateBits (o : Object t) {i : Fin t.valuesCount}
    (h : Shown own visible i) :
    (o.setUpdateBits own visible).getBit i = o.updateMask.getBit i := by
  unfold Object.setUpdateBits
  split
  · rename_i hother
    rw [UpdateMask.getBit_inter]
    rcases h with h | h | h
    · exact absurd hother.1 h
    · rw [hother.2] at h
      cases h
    · rw [h, Bool.and_true]
  · rfl

theorem sync_create (h : Sync own visible s) (viewer : Viewer) :
    Sync own visible (s.create own visible viewer) := by
  unfold create
  split
  · rename_i hin
    obtain ⟨values, hout, -⟩ := Object.repainted_buildValuesUpdate s.object .empty
      (s.object.setCreateBits own visible) (some viewer)
    refine ⟨?_, ?_, ?_, ?_, fun i => dressedNow_mem⟩
    · intro hnot
      dsimp only at hnot
      rw [hout, hin] at hnot
      cases hnot
    · dsimp only
      rw [hout]
      exact h.marked
    · dsimp only
      rw [hout]
      exact h.queued
    · intro replica hreplica i hshown _ hleft
      cases hreplica
      obtain ⟨hvalue, hdress, hbit⟩ := values_buildValuesUpdate .empty hleft
      rw [receive_eq, hvalue]
      unfold takeOver
      rw [hbit, hdress, getBit_setCreateBits, (shown_iff i).1 hshown, Bool.and_true]
      split
      · rfl
      · rename_i hzero
        simpa using Eq.symm (by simpa using hzero)
  · exact h

theorem sync_createOther (h : Sync own visible s) (own' : Bool) (viewer : Viewer) :
    Sync own visible (s.createOther visible own' viewer) := by
  unfold createOther
  split
  · refine h.repaint (Object.repainted_buildValuesUpdate _ _ _ _) ?_ ?_ ?_
    · intro i hi
      rw [hi, Bool.true_or]
    · intro i hi
      exact (values_buildValuesUpdate .empty (Bool.or_eq_false_iff.1 hi).2).1
    · intro i hi
      rcases Bool.or_eq_true_iff.1 hi with hi | hi
      · exact h.left_mem i hi
      · exact dressedNow_mem hi
  · exact h

variable (own visible) in
/-- No update shows a player an object dressed. -/
theorem updateTarget_plain (o : Object t) (mask : UpdateMask t.valuesCount) (viewer : Viewer) :
    (o.dress mask (Object.updateTarget t own viewer)).reset = false := by
  refine Object.dress_reset_eq_false o mask ?_
  cases t with
  | item => exact Or.inr rfl
  | container => exact Or.inr rfl
  | player => exact Or.inr rfl
  | unit => exact Or.inl rfl
  | gameobject => exact Or.inl rfl
  | dynamicobject => exact Or.inl rfl
  | corpse => exact Or.inl rfl

/-- With the marks gone, everything has to agree. -/
theorem sync_clear {s' : Watched t} {o : Object t} (hout : s'.object = o.clearUpdateMask)
    (hin : o.inWorld = false → s'.replica = none)
    (hagree : ∀ replica, s'.replica = some replica → ∀ i, Shown own visible i →
      s'.left i = false → replica i = o.values i)
    (hmem : ∀ i, s'.left i = true → i ∈ dressedFields t) :
    Sync own visible s' ∧ ∀ i, s'.object.updateMask.getBit i = false := by
  have hclean : ∀ i, s'.object.updateMask.getBit i = false := by
    intro i
    rw [hout]
    exact UpdateMask.getBit_clear
  have hupdated : s'.object.objectUpdated = false := by
    rw [hout]
    rfl
  refine ⟨⟨?_, ?_, ?_, ?_, hmem⟩, hclean⟩
  · intro h
    rw [hout] at h
    exact ⟨hin h, hupdated⟩
  · intro i hi
    rw [hclean i] at hi
    cases hi
  · intro h
    rw [hupdated] at h
    cases h
  · intro replica hreplica i hshown _ hleft
    rw [hout]
    exact hagree replica hreplica i hshown hleft

/-- After an update nothing is marked, and what was marked has been taken
over. -/
theorem sync_updateObjects (h : Sync own visible s) (viewer : Viewer) :
    Sync own visible (s.updateObjects own visible viewer) ∧
      ∀ i, (s.updateObjects own visible viewer).object.updateMask.getBit i = false := by
  have hreset := updateTarget_plain own s.object (s.object.setUpdateBits own visible) viewer
  unfold updateObjects
  split
  · dsimp only
    rw [Object.buildValuesUpdate_plain hreset]
    split
    · refine sync_clear rfl ?_ ?_ ?_
      · intro hin
        rw [(h.outside hin).1]
        rfl
      · intro replica hreplica i hshown hleft
        obtain ⟨old, hold, rfl⟩ := Option.map_eq_some_iff.1 hreplica
        obtain ⟨hobject, hmask⟩ := (Object.dresses_dress _ _ _).plain hreset
        rw [receive_eq, hobject, hmask]
        unfold takeOver
        have hbit := getBit_setUpdateBits s.object hshown
        split
        · rfl
        · rename_i hunset
          have hunset := Bool.eq_false_of_not_eq_true hunset
          dsimp only at hleft
          rw [hunset, Bool.not_false, Bool.and_true] at hleft
          exact h.agree old hold i hshown (hbit.symm.trans hunset) hleft
      · intro i hi
        exact h.left_mem i (Bool.and_eq_true_iff.1 hi).1
    · rename_i hnone
      refine sync_clear rfl (fun hin => (h.outside hin).1) ?_ h.left_mem
      intro replica hreplica i hshown hleft
      have hbit := getBit_setUpdateBits s.object hshown
      refine h.agree replica hreplica i hshown ?_ hleft
      rw [← hbit]
      refine Bool.eq_false_of_not_eq_true ?_
      intro hset
      -- an object of the world with a mark is sent
      have hin : s.object.inWorld = true := by
        refine Bool.eq_true_of_not_eq_false ?_
        intro hout
        rw [(h.outside hout).1] at hreplica
        cases hreplica
      refine hnone ?_
      rw [hin, Bool.or_true, Bool.true_and]
      exact List.any_eq_true.2 ⟨i, List.mem_finRange i, hset⟩
  · rename_i hqueued
    refine ⟨h, ?_⟩
    intro i
    refine Bool.eq_false_of_not_eq_true ?_
    intro hi
    exact hqueued (h.queued (h.marked i hi))

theorem sync_step (h : Sync own visible s) (a : Action t) :
    Sync own visible (s.step own visible a) := by
  cases a with
  | setUInt32Value index value => exact h.writes (writes_setUInt32Value _ _ _)
  | setUInt64Value index next value => exact h.writes (writes_setUInt64Value _ _ _ _)
  | setFlag index newFlag => exact h.writes (writes_setFlag _ _ _)
  | removeFlag index oldFlag => exact h.writes (writes_removeFlag _ _ _)
  | modUnsigned32Value index mod => exact h.writes (writes_modUnsigned32Value _ _ _)
  | updateObjects viewer => exact (sync_updateObjects h viewer).1
  | create viewer => exact sync_create h viewer
  | createOther own' viewer => exact sync_createOther h own' viewer
  | pushToWorld => exact ⟨fun hout => Bool.noConfusion hout, h.marked, h.queued, h.agree, h.left_mem⟩
  | removeFromWorld =>
    have hgone : Sync own visible (s.step own visible .removeFromWorld) ∧
        ∀ i, (s.step own visible .removeFromWorld).object.updateMask.getBit i = false := by
      refine sync_clear (o := { s.object with inWorld := false, queued := false }) rfl
        (fun _ => rfl) ?_ h.left_mem
      intro replica hreplica
      cases hreplica
    exact hgone.1

theorem sync_start (o : Object t) : Sync own visible (start o) := by
  refine (sync_clear (o := { o with inWorld := false, queued := false }) rfl (fun _ => rfl)
    ?_ ?_).1
  · intro replica hreplica
    cases hreplica
  · intro i hi
    cases hi

variable (own visible) in
theorem sync_run (o : Object t) (as : List (Action t)) :
    Sync own visible (as.foldl (step own visible) (start o)) := by
  refine (Run.foldl _ _ as).invariant (Sync own visible) ?_ (sync_start o)
  intro s a s' h hstep
  unfold FunStep at hstep
  subst hstep
  exact sync_step h a

/-- What a block does, and that the copy agrees after an update. -/
theorem update_block_round_trip :
    (∀ (t : TypeId) (o : Object t) (data : ByteBuffer) (mask : UpdateMask t.valuesCount)
        (target : Option Viewer) (replica : Fin t.valuesCount → UInt32),
      let out := o.buildValuesUpdate data mask target
      let d := o.dress mask target
      readBlock replica (out.1.setRpos data.wpos) =
          (takeOver d.object.values replica d.mask.getBit, out.1.setRpos out.1.wpos) ∧
        (∀ i ∉ dressedFields t, d.object.values i = o.values i ∧
          d.mask.getBit i = mask.getBit i ∧ out.2.1.values i = o.values i) ∧
        (d.reset = false → d.object = o ∧ d.mask = mask ∧ out.2.1 = o)) ∧
      ∀ (t : TypeId) (own : Bool) (visible : UpdateMask t.valuesCount) (o : Object t)
        (as : List (Action t)) (viewer : Viewer),
        let s := (as.foldl (step own visible) (start o)).updateObjects own visible viewer
        (∀ replica, s.replica = some replica → ∀ i, Shown own visible i → s.left i = false →
          replica i = s.object.values i) ∧
        ∀ i, s.left i = true → i ∈ dressedFields t := by
  refine ⟨?_, ?_⟩
  · intro t o data mask target replica
    have hd := Object.dresses_dress o mask target
    refine ⟨Object.readBlock_buildValuesUpdate o data mask target replica, ?_, ?_⟩
    · intro i hi
      have hnow : dressedNow o mask target i = false := by
        unfold dressedNow
        rw [decide_eq_false hi, Bool.and_false]
      obtain ⟨hout, hdress, hbit⟩ := values_buildValuesUpdate data hnow
      exact ⟨hdress, hbit, hout⟩
    · intro hreset
      obtain ⟨hobject, hmask⟩ := hd.plain hreset
      exact ⟨hobject, hmask, Object.buildValuesUpdate_plain hreset⟩
  · intro t own visible o as viewer
    obtain ⟨hsync, hclean⟩ := sync_updateObjects (sync_run own visible o as) viewer
    refine ⟨?_, hsync.left_mem⟩
    intro replica hreplica i hshown hleft
    exact hsync.agree replica hreplica i hshown (hclean i) hleft

/-- A creature that player 7 has tagged. -/
def taggedCreature : Object .unit where
  values := fun i => if i = objectFieldGuid .unit then 1 else 0
  updateMask := UpdateMask.clear _
  inWorld := true
  objectUpdated := false
  queued := false
  taggingPlayer := 7
  taggingGroup := 0
  involvedQuestIds := []

def tagger : Viewer := { lowGuid := 7, group := none, questLog := [], hasLoot := false }

/-- Player 7 sees the creature as tapped by him: a field the mask does not
have is written, with a value the object has neither before nor after,
and the update that follows leaves it so. -/
theorem tagged_creature_dressed :
    (∃ replica : Fin TypeId.unit.valuesCount → UInt32,
      let mask := (UpdateMask.clear TypeId.unit.valuesCount).setBit (objectFieldGuid .unit)
      let out := taggedCreature.buildValuesUpdate .empty mask (some tagger)
      (readBlock replica (out.1.setRpos 0)).1 ≠ takeOver taggedCreature.values replica mask.getBit ∧
        (readBlock replica (out.1.setRpos 0)).1 ≠ takeOver out.2.1.values replica mask.getBit) ∧
      ∃ as : List (Action .unit),
        let s := (as.foldl (step false (UpdateMask.clear _)) (start taggedCreature)).updateObjects
          false (UpdateMask.clear _) tagger
        s.replica.map (fun replica => replica unitDynamicFlags) = some 8 ∧
          s.object.values unitDynamicFlags = 0 := by
  refine ⟨⟨fun _ => 0, ?_, ?_⟩, [.pushToWorld, .create tagger], ?_⟩
  · intro h
    exact absurd (congrFun h unitDynamicFlags) (by decide +kernel)
  · intro h
    exact absurd (congrFun h unitDynamicFlags) (by decide +kernel)
  · decide +kernel

end Watched

end HearthStone
