/-
HearthStone.Item.ProtectPointer — when `RemoveItemAmt_ProtectPointer`
does what `RemoveItemAmt` does and tells whether its item is left.

The two take the same stacks and return the same value whatever becomes
of the pointer. The pointer is set to null after the attempt to remove
its item, and an attempt on a bag with items in it fails. The loop over
the backpack leaves such bags out; the one over the key ring does not.

* `takeAll_agree` — the pointer decides nothing.
* `PointerLost` — the calls that null the pointer and leave the item.
* `removeItemAmt_protects` — in all others the pointer tells.
-/
import HearthStone.Item.RemovalLoops

namespace HearthStone

open Lib

namespace Removal

open ItemWorld

variable {s s' : Removal} {w v : ItemWorld} {me : PlayerGuid} {g x : Guid}
  {protect protect' : Guid → Option Guid → Option Guid} {st : Stack} {l : List Stack}

/-! ## The pointer decides nothing -/

/-- Everything but the pointer is the same. -/
structure Agree (s s' : Removal) : Prop where
  world : s.world = s'.world
  amt : s.amt = s'.amt
  result : s.result = s'.result

theorem take_agree (me : PlayerGuid) (protect protect' : Guid → Option Guid → Option Guid)
    (st : Stack) (h : s.Agree s') :
    (s.take me protect st).Agree (s'.take me protect' st) := by
  obtain ⟨world, amt, pointer, result⟩ := s
  obtain ⟨world', amt', pointer', result'⟩ := s'
  obtain ⟨hworld, hamt, hresult⟩ := h
  subst hworld hamt hresult
  unfold take takeStack
  dsimp only
  split
  · exact ⟨rfl, rfl, rfl⟩
  · split
    · exact ⟨rfl, rfl, rfl⟩
    · exact ⟨rfl, rfl, rfl⟩

theorem takeAll_agree (me : PlayerGuid)
    (protect protect' : Guid → Option Guid → Option Guid) (l : List Stack) (h : s.Agree s') :
    (s.takeAll me protect l).Agree (s'.takeAll me protect' l) := by
  induction l generalizing s s' with
  | nil => exact h
  | cons st l ih =>
    by_cases hres : s.result = none
    · rw [takeAll_cons hres, takeAll_cons (h.result ▸ hres)]
      exact ih (take_agree me protect protect' st h)
    · have hsome := Option.isSome_iff_ne_none.2 hres
      rw [takeAll_returned hsome, takeAll_returned (h.result ▸ hsome)]
      exact h

/-! ## What is left -/

/-- The stack goes when all of it is asked for and it can be removed. -/
theorem take_placed (hv : s.world.Orderly) (hst : s.world.Sits me st) :
    Placed (s.take me protect st).world.slots x ↔ Placed s.world.slots x ∧
      ¬ (x = st.guid ∧ s.world.stackCount st.guid ≤ s.amt ∧
        s.world.isFullBag st.guid = false) := by
  rcases take_cases protect hv hst with
    ⟨hlt, heq⟩ | ⟨-, hfull, heq⟩ | ⟨hle, hfull, v', hrem, heq⟩
  · rw [heq]
    simp [setStackCount, UInt32.not_le.2 hlt]
  · rw [heq]
    simp [hfull]
  · rw [heq]
    rw [hrem.placed hv]
    simp [hle, hfull, and_comm]

theorem takeAll_placed (protect : Guid → Option Guid → Option Guid) (h : w.Drained s.world)
    (hl : ∀ st ∈ l, s.world.Sits me st)
    (hnodup : (l.map Stack.place).Nodup) (hx : ∀ st ∈ l, st.guid ≠ x) :
    Placed (s.takeAll me protect l).world.slots x ↔ Placed s.world.slots x := by
  induction l generalizing s with
  | nil => rfl
  | cons st l ih =>
    by_cases hres : s.result = none
    · rw [takeAll_cons hres]
      rw [List.map_cons, List.nodup_cons] at hnodup
      have hst := hl st List.mem_cons_self
      rw [ih (take_drained protect h hst) (by
        intro st' hst'
        refine take_sits h.orderly hst (hl st' (List.mem_cons_of_mem st hst')) ?_
        intro hplace
        exact hnodup.1 (hplace ▸ List.mem_map_of_mem hst')) hnodup.2
        fun st' hst' => hx st' (List.mem_cons_of_mem st hst'), take_placed h.orderly hst]
      have hne := hx st List.mem_cons_self
      simp [Ne.symm hne]
    · rw [takeAll_returned (Option.isSome_iff_ne_none.2 hres)]

theorem takeAll_pointer_none (h : s.pointer = none) :
    (s.takeAll me nullIf l).pointer = none := by
  induction l generalizing s with
  | nil => exact h
  | cons st l ih =>
    by_cases hres : s.result = none
    · rw [takeAll_cons hres]
      refine ih ?_
      unfold take takeStack
      dsimp only
      split
      · exact h
      · rw [h]
        split
        · rfl
        · rfl
    · rw [takeAll_returned (Option.isSome_iff_ne_none.2 hres)]
      exact h

/-- The pointer is as it was, or null. -/
theorem takeAll_pointer_cases (me : PlayerGuid) (s : Removal) (l : List Stack) :
    (s.takeAll me nullIf l).pointer = s.pointer ∨ (s.takeAll me nullIf l).pointer = none := by
  induction l generalizing s with
  | nil => exact Or.inl rfl
  | cons st l ih =>
    by_cases hres : s.result = none
    · rw [takeAll_cons hres]
      have htake : (s.take me nullIf st).pointer = s.pointer ∨
          (s.take me nullIf st).pointer = none := by
        have hnull : nullIf st.guid s.pointer = s.pointer ∨ nullIf st.guid s.pointer = none := by
          unfold nullIf
          split
          · exact Or.inr rfl
          · exact Or.inl rfl
        unfold take takeStack
        dsimp only
        split
        · exact Or.inl rfl
        · split
          · exact hnull
          · exact hnull
      rcases htake with hsame | hnone
      · rw [← hsame]
        exact ih _
      · exact Or.inr (takeAll_pointer_none hnone)
    · rw [takeAll_returned (Option.isSome_iff_ne_none.2 hres)]
      exact Or.inl rfl

/-- The pointer is not touched by what is done with other items. -/
theorem takeAll_pointer_of_ne (me : PlayerGuid) (h : s.pointer = some g)
    (hl : ∀ st ∈ l, st.guid ≠ g) :
    (s.takeAll me nullIf l).pointer = some g := by
  induction l generalizing s with
  | nil => exact h
  | cons st l ih =>
    by_cases hres : s.result = none
    · rw [takeAll_cons hres]
      refine ih ?_ fun st' hst' => hl st' (List.mem_cons_of_mem st hst')
      have hkeep : nullIf st.guid s.pointer = some g := by
        unfold nullIf
        rw [h, if_neg]
        intro heq
        exact hl st List.mem_cons_self (Option.some.inj heq).symm
      unfold take takeStack
      dsimp only
      split
      · exact h
      · split
        · exact hkeep
        · exact hkeep
    · rw [takeAll_returned (Option.isSome_iff_ne_none.2 hres)]
      exact h

end Removal

/-! ## Calls that lose the pointer -/

namespace ItemWorld

variable {w v : ItemWorld} {me : PlayerGuid} {g : Guid} {st : Stack} {l : List Stack}
  {id amt : UInt32}

/-- The call comes to the item, which is a bag with items in it, with all
of it or more to remove. -/
def PointerLost (w : ItemWorld) (g : Guid) : UInt32 → List Stack → Prop
  | _, [] => False
  | amt, st :: l =>
    if st.guid = g then w.isFullBag g = true ∧ w.stackCount g ≤ amt
    else w.stackCount st.guid < amt ∧ PointerLost w g (amt - w.stackCount st.guid) l

instance (w : ItemWorld) (g : Guid) : ∀ amt l, Decidable (PointerLost w g amt l)
  | _, [] => inferInstanceAs (Decidable False)
  | amt, st :: l =>
    have := instDecidablePointerLost w g (amt - w.stackCount st.guid) l
    inferInstanceAs (Decidable (if st.guid = g then w.isFullBag g = true ∧ w.stackCount g ≤ amt
      else w.stackCount st.guid < amt ∧ PointerLost w g (amt - w.stackCount st.guid) l))

/-- It depends on the stacks of the list alone. -/
theorem pointerLost_congr (hcount : ∀ st ∈ l, v.stackCount st.guid = w.stackCount st.guid)
    (hfull : ∀ st ∈ l, v.isFullBag st.guid = w.isFullBag st.guid) (amt : UInt32) :
    PointerLost v g amt l ↔ PointerLost w g amt l := by
  induction l generalizing amt with
  | nil => rfl
  | cons st l ih =>
    unfold PointerLost
    rw [hcount st List.mem_cons_self]
    by_cases hg : st.guid = g
    · rw [if_pos hg, if_pos hg, ← hg, hcount st List.mem_cons_self, hfull st List.mem_cons_self]
    · rw [if_neg hg, if_neg hg, ih (fun st' hst' => hcount st' (List.mem_cons_of_mem st hst'))
        fun st' hst' => hfull st' (List.mem_cons_of_mem st hst')]

/-- No stack of the list is in a bag of the list: the bags with items in
them were left out. -/
theorem itemStacks_apart (hw : w.Orderly) {st st' : Stack} (h : st ∈ w.itemStacks me id)
    (h' : st' ∈ w.itemStacks me id) (j : Nat) : st.place ≠ .cell st'.guid j := by
  intro hplace
  have hheld := (sits_itemStacks h).held
  have hheld' := (sits_itemStacks h').held
  obtain ⟨i, hlt, hbag⟩ : ∃ i, i < INVENTORY_SLOT_ITEM_END ∧
      w.slots (.top me i) = some st'.guid := by
    rcases mem_itemStacks h with ⟨i, -, hst⟩ | ⟨i, bag, k, -, hlt, hbag, hst⟩ | ⟨i, -, -, hst⟩
    · rw [(topStack_spec hst).2.1] at hplace
      cases hplace
    · rw [(cellStack_spec hst).2.1] at hplace
      injection hplace with hbb _
      exact ⟨i, hlt.trans (by decide), hbb ▸ hbag⟩
    · rw [(topStack_spec hst).2.1] at hplace
      cases hplace
  have htop := hw.once _ _ _ hheld' hbag
  have hfull : w.isFullBag st'.guid = true := by
    rw [hplace] at hheld
    obtain ⟨hcont, hj⟩ := hw.cellRange _ _ _ hheld
    unfold isFullBag hasItems
    rw [hcont, Bool.and_true, Bool.and_eq_true, decide_eq_true_eq, List.any_eq_true]
    exact ⟨by omega, j, mem_slotRange.2 ⟨Nat.zero_le j, hj⟩, by rw [hheld]; rfl⟩
  rcases mem_itemStacks h' with ⟨k, -, hst⟩ | ⟨k, bag, m, -, -, -, hst⟩ | ⟨k, hge, -, hst⟩
  · have hskip := (topStack_spec hst).2.2.2.2
    rw [hfull] at hskip
    cases hskip
  · rw [(cellStack_spec hst).2.1] at htop
    cases htop
  · rw [(topStack_spec hst).2.1] at htop
    injection htop with _ hki
    unfold INVENTORY_SLOT_ITEM_END at hlt
    unfold INVENTORY_KEYRING_START at hge
    omega

theorem nodup_guids (hw : w.Orderly) (me : PlayerGuid) (id : UInt32) :
    ((w.itemStacks me id).map Stack.guid).Nodup := by
  have hnodup := nodup_itemStacks hw me id
  refine List.Nodup.map_on ?_ (List.Nodup.of_map _ hnodup)
  intro st hst st' hst' heq
  refine List.inj_on_of_nodup_map hnodup hst hst' ?_
  have hheld := (sits_itemStacks hst).held
  rw [heq] at hheld
  exact hw.once _ _ _ hheld (sits_itemStacks hst').held

end ItemWorld

namespace Removal

open ItemWorld

variable {s : Removal} {w : ItemWorld} {me : PlayerGuid} {g : Guid} {st : Stack} {l : List Stack}

/-- What `take` leaves of the other stacks. -/
theorem take_other (protect : Guid → Option Guid → Option Guid) (st' : Stack)
    (hv : s.world.Orderly) (hst : s.world.Sits me st)
    (hne : st'.guid ≠ st.guid) (hapart : ∀ j, st.place ≠ .cell st'.guid j) :
    (s.take me protect st).world.stackCount st'.guid = s.world.stackCount st'.guid ∧
      (s.take me protect st).world.isFullBag st'.guid = s.world.isFullBag st'.guid := by
  rcases take_cases protect hv hst with ⟨-, heq⟩ | ⟨-, -, heq⟩ | ⟨-, -, v', hrem, heq⟩
  · rw [heq]
    unfold stackCount isFullBag isContainer containerSlots hasItems containerSlots setStackCount
    rw [modify_item_of_ne hne]
    exact ⟨rfl, rfl⟩
  · rw [heq]
    exact ⟨rfl, rfl⟩
  · rw [heq]
    unfold stackCount isFullBag isContainer containerSlots hasItems containerSlots
    rw [hrem.others _ hne]
    refine ⟨rfl, ?_⟩
    simp only [hrem.keeps (hapart _).symm]

/-- Less than is asked for: the rest is taken from the next stacks. -/
theorem take_more (me : PlayerGuid) (protect : Guid → Option Guid → Option Guid)
    (hlt : s.world.stackCount st.guid < s.amt) :
    (s.take me protect st).result = s.result ∧
      (s.take me protect st).amt = s.amt - s.world.stackCount st.guid := by
  unfold take takeStack
  rw [if_neg (UInt32.lt_asymm hlt), if_neg (UInt32.ne_of_lt hlt)]
  exact ⟨rfl, rfl⟩

/-- Enough: the function returns. -/
theorem take_enough (protect : Guid → Option Guid → Option Guid)
    (hle : ¬ s.world.stackCount st.guid < s.amt) :
    (s.take me protect st).result.isSome = true := by
  unfold take takeStack
  dsimp only
  split
  · rfl
  · rename_i hngt
    rw [if_pos (UInt32.le_antisymm (UInt32.not_lt.1 hngt) (UInt32.not_lt.1 hle))]
    rfl

/-- The pointer tells what became of the item, unless it is lost. -/
theorem takeAll_pointer (h : w.Drained s.world) (hl : ∀ st ∈ l, s.world.Sits me st)
    (hplaces : (l.map Stack.place).Nodup) (hguids : (l.map Stack.guid).Nodup)
    (hapart : ∀ st ∈ l, ∀ st' ∈ l, ∀ j, st.place ≠ .cell st'.guid j)
    (hres : s.result = none) (hpointer : s.pointer = some g) :
    ((s.takeAll me nullIf l).pointer = some g ↔
        (Placed s.world.slots g → Placed (s.takeAll me nullIf l).world.slots g)) ↔
      ¬ PointerLost s.world g s.amt l := by
  induction l generalizing s with
  | nil => simp [hpointer, PointerLost]
  | cons st l ih =>
    have hst := hl st List.mem_cons_self
    rw [List.map_cons, List.nodup_cons] at hplaces hguids
    have hsits : ∀ st' ∈ l, (s.take me nullIf st).world.Sits me st' := by
      intro st' hst'
      refine take_sits h.orderly hst (hl st' (List.mem_cons_of_mem st hst')) ?_
      intro hplace
      exact hplaces.1 (hplace ▸ List.mem_map_of_mem hst')
    have hne : ∀ st' ∈ l, st'.guid ≠ st.guid := by
      intro st' hst' heq
      exact hguids.1 (heq ▸ List.mem_map_of_mem hst')
    have hdrained := take_drained nullIf h hst
    rw [takeAll_cons hres]
    unfold PointerLost
    by_cases hg : st.guid = g
    · -- the item itself: what follows neither brings it back nor takes it
      rw [if_pos hg]
      have hheld : Placed s.world.slots g := ⟨st.place, hg ▸ hst.held⟩
      have hafter := takeAll_placed (x := g) nullIf hdrained hsits hplaces.2
        fun st' hst' => hg ▸ hne st' hst'
      rw [hafter, take_placed h.orderly hst, hg]
      by_cases hle : s.world.stackCount g ≤ s.amt
      · have hnull : (s.take me nullIf st).pointer = none := by
          have hnot : ¬ s.world.stackCount st.guid > s.amt := by
            rw [hg]
            exact UInt32.not_lt.2 hle
          unfold take takeStack
          rw [if_neg hnot]
          have hif : nullIf st.guid s.pointer = none := by
            unfold nullIf
            rw [hpointer, hg, if_pos rfl]
          split
          · exact hif
          · exact hif
        rw [takeAll_pointer_none hnull]
        simp [hle, hheld]
      · have hkeep : (s.take me nullIf st).pointer = some g ∧
            (s.take me nullIf st).result.isSome = true := by
          have hgt : s.world.stackCount st.guid > s.amt := by
            rw [hg]
            exact UInt32.not_le.1 hle
          unfold take takeStack
          rw [if_pos hgt]
          exact ⟨hpointer, rfl⟩
        rw [takeAll_returned hkeep.2]
        simp [hle, hkeep.1]
    · rw [if_neg hg]
      have hsame : Placed (s.take me nullIf st).world.slots g ↔ Placed s.world.slots g := by
        rw [take_placed h.orderly hst]
        simp [Ne.symm hg]
      have hkeep : (s.take me nullIf st).pointer = some g := by
        have hone := takeAll_pointer_of_ne me (l := [st]) hpointer fun st' hst' => by
          rw [List.mem_singleton.1 hst']
          exact hg
        rwa [takeAll_cons hres, takeAll_nil] at hone
      by_cases hlt : s.world.stackCount st.guid < s.amt
      · obtain ⟨hresult, hamt⟩ := take_more me nullIf hlt
        have hrest := ih hdrained hsits hplaces.2 hguids.2
          (fun st' hst' st'' hst'' => hapart st' (List.mem_cons_of_mem st hst') st''
            (List.mem_cons_of_mem st hst'')) (hresult.trans hres) hkeep
        have hother : ∀ st' ∈ l, _ := fun st' hst' => take_other nullIf st' h.orderly hst
          (hne st' hst') (hapart st List.mem_cons_self st' (List.mem_cons_of_mem st hst'))
        rw [hsame, hamt, pointerLost_congr (fun st' hst' => (hother st' hst').1)
          fun st' hst' => (hother st' hst').2] at hrest
        rw [hrest]
        simp [hlt]
      · rw [takeAll_returned (take_enough nullIf hlt), hsame]
        simp [hlt, hkeep]

end Removal

namespace ItemWorld

open Removal

variable {w : ItemWorld} {me : PlayerGuid} {id amt : UInt32}

/-- The two functions leave the same inventory and return the same value,
and the pointer is not null exactly when its item has not been removed. -/
def Protects (w : ItemWorld) (me : PlayerGuid) (id amt : UInt32) (pointer : Option Guid) : Prop :=
  (w.removeItemAmt_ProtectPointer me id amt pointer).1 = (w.removeItemAmt me id amt).1 ∧
    (w.removeItemAmt_ProtectPointer me id amt pointer).2.1 = (w.removeItemAmt me id amt).2 ∧
    ∀ g ∈ pointer, ((w.removeItemAmt_ProtectPointer me id amt pointer).2.2.isSome = true ↔
      (Placed w.slots g →
        Placed (w.removeItemAmt_ProtectPointer me id amt pointer).2.1.slots g))

/-- It is so unless the call nulls the pointer and leaves the item. -/
theorem removeItemAmt_protects (hw : w.Orderly) (me : PlayerGuid) (id amt : UInt32)
    (pointer : Option Guid) : w.Protects me id amt pointer ↔
      ¬ (amt ≤ w.getItemCount me id false ∧
        ∃ g ∈ pointer, PointerLost w g amt (w.itemStacks me id)) := by
  unfold Protects removeItemAmt removeItemAmt_ProtectPointer
  by_cases hle : amt ≤ w.getItemCount me id false
  · rw [removeAmt_eq hw _ none hle, removeAmt_eq hw _ pointer hle]
    have hagree := takeAll_agree me nullIf (fun _ pointer => pointer) (w.itemStacks me id)
      (show Agree ⟨w, amt, pointer, none⟩ ⟨w, amt, none, none⟩ from ⟨rfl, rfl, rfl⟩)
    rw [and_iff_right (congrArg (·.getD 0) hagree.result), and_iff_right hagree.world]
    cases pointer with
    | none => simp
    | some g =>
      have hpointer := takeAll_pointer (s := ⟨w, amt, some g, none⟩) (g := g) (Drained.refl hw)
        (fun st hst => sits_itemStacks hst) (nodup_itemStacks hw me id)
        (nodup_guids hw me id) (fun st hst st' hst' => itemStacks_apart hw hst hst') rfl rfl
      have hsome : (takeAll me nullIf ⟨w, amt, some g, none⟩
          (w.itemStacks me id)).pointer.isSome = true ↔
          (takeAll me nullIf ⟨w, amt, some g, none⟩ (w.itemStacks me id)).pointer = some g := by
        rcases takeAll_pointer_cases me ⟨w, amt, some g, none⟩ (w.itemStacks me id) with h | h
        · rw [h]
          simp
        · rw [h]
          simp
      simp only [Option.mem_some_iff, forall_eq', exists_eq_left', hle, true_and]
      rw [hsome]
      exact hpointer
  · have hrefused : ∀ (protect : Guid → Option Guid → Option Guid) (pointer : Option Guid),
        w.removeAmt me protect id amt pointer = ⟨w, amt, pointer, some 0⟩ := by
      intro protect pointer
      unfold removeAmt
      rw [if_pos (UInt32.not_le.1 hle)]
    rw [hrefused, hrefused]
    cases pointer with
    | none => simp [hle]
    | some g => simp [hle]

/-! ## A full bag on the key ring -/

def keyOwner : PlayerGuid := ⟨61, by decide⟩

/-- A bag for keys on the key ring, with a key in it. -/
def keyBag : ItemWorld :=
  .ofPlaces (fun g => { newItem (if g = 1 then
      { ItemPrototype.plain 141 with
        bagFamily := ITEM_TYPE_KEYRING, containerSlots := 7, containerSlots_le := by decide }
    else .plain 142) (g = 1) with owner := some keyOwner })
    [(.top keyOwner 86, 1), (.cell 1 0, 2)] 3

/-- The key is not in the way. -/
theorem removeItemAmt_protects_key : keyBag.Protects keyOwner 142 0 (some 2) := by
  refine (removeItemAmt_protects (ItemWorld.orderly_ofPlaces keyOwner (by decide) (by decide))
    keyOwner 142 0 (some 2)).2 ?_
  decide +kernel

/-- The bag is asked for: it stays, and the pointer to it is nulled. -/
theorem keyBag_not_protects : ¬ ∀ w : ItemWorld, w.Orderly → ∀ me id amt pointer,
    w.Protects me id amt pointer := by
  intro hall
  have hw : keyBag.Orderly := ItemWorld.orderly_ofPlaces keyOwner (by decide) (by decide)
  obtain ⟨-, -, hpointer⟩ := hall keyBag hw keyOwner 141 1 (some 1)
  have hstays : (keyBag.removeItemAmt_ProtectPointer keyOwner 141 1 (some 1)).2.1.slots
      (.top keyOwner 86) = some 1 := by decide +kernel
  have hnull : (keyBag.removeItemAmt_ProtectPointer keyOwner 141 1 (some 1)).2.2.isSome =
      false := by decide +kernel
  have hsome := (hpointer 1 rfl).2 fun _ => ⟨_, hstays⟩
  rw [hnull] at hsome
  cases hsome

end ItemWorld

end HearthStone
