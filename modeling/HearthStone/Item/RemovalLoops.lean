/-
HearthStone.Item.RemovalLoops — what the loops of `RemoveItemAmt` come to.

The loops look at the world they change. Nothing they do puts an item
anywhere, so what they find is what was there at the start, less what
they have taken: the function takes its stacks from a list that is known
beforehand.

* `Stack`, `itemStacks` — the list, from the world before.
* `Drained` — a world that came from another by such calls.
* `takeAll` — `takeStack` over a list of stacks.
* `removeAmt_eq` — the loops are `takeAll` over `itemStacks`.
-/
import HearthStone.Item.RemoveItem
import HearthStone.Item.ItemInterfaceTheorems

namespace HearthStone

open Lib

/-- A stack, where it is, and the arguments that name the place. -/
structure Stack where
  arg : SlotResult
  place : Place
  guid : Guid

/-- Prototype, type, wrapping and entry are the same. -/
structure Item.Like (a b : Item) : Prop where
  proto : a.proto = b.proto
  isContainer : a.isContainer = b.isContainer
  wrappedItemId : a.wrappedItemId = b.wrappedItemId
  entry : a.entry = b.entry

theorem Item.SameKind.like {a b : Item} (h : a.SameKind b) : a.Like b :=
  ⟨h.proto, h.isContainer, h.wrappedItemId, h.entry⟩

theorem Item.Like.trans {a b c : Item} (h : a.Like b) (h' : b.Like c) : a.Like c :=
  ⟨h.proto.trans h'.proto, h.isContainer.trans h'.isContainer,
    h.wrappedItemId.trans h'.wrappedItemId, h.entry.trans h'.entry⟩

namespace ItemWorld

section

variable (w : ItemWorld) (me : PlayerGuid)

/-- The stack in a slot, if the loop over the slots takes it. -/
def topStack (test : Item → Bool) (skipFullBags : Bool) (i : Nat) : Option Stack :=
  match w.slots (.top me i) with
  | none => none
  | some g =>
    if test (w.item g) then
      if skipFullBags && w.isFullBag g then none
      else some ⟨⟨INVENTORY_SLOT_NOT_SET, i⟩, .top me i, g⟩
    else none

/-- The stack in a cell of the bag in slot `i`. -/
def cellStack (test : Item → Bool) (bag : Guid) (i j : Nat) : Option Stack :=
  match w.slots (.cell bag j) with
  | none => none
  | some g =>
    if test (w.item g) && (w.item bag).wrappedItemId = 0 then some ⟨⟨i, j⟩, .cell bag j, g⟩
    else none

def cellStacks (test : Item → Bool) (i : Nat) : List Stack :=
  match w.slots (.top me i) with
  | none => []
  | some bag =>
    if w.isContainer bag then
      (slotRange 0 (w.containerSlots bag)).filterMap (w.cellStack test bag i)
    else []

/-- The stacks `RemoveItemAmt` takes from, in its order. -/
def itemStacks (id : UInt32) : List Stack :=
  (slotRange EQUIPMENT_SLOT_START INVENTORY_SLOT_ITEM_END).filterMap
      (w.topStack me (·.isEntry id) true) ++
    ((slotRange INVENTORY_SLOT_BAG_START INVENTORY_SLOT_BAG_END).flatMap
        (w.cellStacks me (·.proto.itemId = id)) ++
      (slotRange INVENTORY_KEYRING_START INVENTORY_KEYRING_END).filterMap
        (w.topStack me (·.isProto id) false))

/-- The arguments name the place. -/
inductive Names : SlotResult → Place → Prop
  | top (i : Nat) : i < MAX_INVENTORY_SLOT → Names ⟨INVENTORY_SLOT_NOT_SET, i⟩ (.top me i)
  | cell (i j : Nat) (bag : Guid) : w.slots (.top me i) = some bag → Names ⟨i, j⟩ (.cell bag j)

/-- The stack is where it says. -/
structure Sits (st : Stack) : Prop where
  names : w.Names me st.arg st.place
  held : w.slots st.place = some st.guid

/-- `v` is what is left of `w`. -/
structure Drained (w v : ItemWorld) : Prop where
  orderly : v.Orderly
  like : ∀ g, (v.item g).Like (w.item g)
  sub : ∀ p g, v.slots p = some g → w.slots p = some g

end

variable {w v v' : ItemWorld} {me : PlayerGuid} {g bag : Guid} {p q : Place} {st st' : Stack}
  {test : Item → Bool}

theorem Drained.refl (hw : w.Orderly) : w.Drained w :=
  ⟨hw, fun _ => ⟨rfl, rfl, rfl, rfl⟩, fun _ _ h => h⟩

theorem Drained.isContainer (h : w.Drained v) (g : Guid) : v.isContainer g = w.isContainer g :=
  (h.like g).isContainer

theorem Drained.containerSlots (h : w.Drained v) (g : Guid) :
    v.containerSlots g = w.containerSlots g :=
  congrArg ItemPrototype.containerSlots (h.like g).proto

theorem Drained.isFullBag (h : w.Drained v)
    (hcells : ∀ j, v.slots (.cell g j) = w.slots (.cell g j)) : v.isFullBag g = w.isFullBag g := by
  unfold ItemWorld.isFullBag hasItems
  rw [h.isContainer, h.containerSlots]
  simp only [hcells]

/-- A bag that is gone had nothing in it, when no cell has changed. -/
theorem Drained.noItems (h : w.Drained v) (hw : w.Orderly)
    (hcells : ∀ b j, v.slots (.cell b j) = w.slots (.cell b j)) {s : Nat}
    (htop : w.slots (.top me s) = some bag) (hgone : v.slots (.top me s) = none) :
    w.NoItems bag := by
  intro j
  cases hj : w.slots (.cell bag j) with
  | none => rfl
  | some x =>
    rw [← hcells] at hj
    obtain ⟨q, t, ht⟩ := h.orderly.atTop bag j x hj
    have hplace := hw.once _ _ _ (h.sub _ _ ht) htop
    rw [hplace, hgone] at ht
    cases ht

theorem RemovesAt.drained (h : w.Drained v) (hrem : v.RemovesAt p g v') : w.Drained v' where
  orderly := hrem.orderly h.orderly
  like := fun x => (hrem.kinds x).like.trans (h.like x)
  sub := fun q x hq => h.sub q x (hrem.of hq).2

/-- `SetCount` is a change of the stack count alone. -/
theorem setStackCount_drained (h : w.Drained v) (g : Guid) (c : UInt32) :
    w.Drained (v.setStackCount g c) where
  orderly := by
    have hitem : ∀ x, ((v.setStackCount g c).item x).Like (v.item x) ∧
        ((v.setStackCount g c).item x).owner = (v.item x).owner := by
      intro x
      by_cases hx : x = g
      · subst hx
        unfold setStackCount
        rw [modify_item_self]
        exact ⟨⟨rfl, rfl, rfl, rfl⟩, rfl⟩
      · unfold setStackCount
        rw [modify_item_of_ne hx]
        exact ⟨⟨rfl, rfl, rfl, rfl⟩, rfl⟩
    exact h.orderly.congr rfl rfl (fun x _ => (hitem x).1.proto)
      (fun x _ => (hitem x).1.isContainer) fun x _ => (hitem x).2
  like := by
    intro x
    refine Item.Like.trans ?_ (h.like x)
    by_cases hx : x = g
    · subst hx
      unfold setStackCount
      rw [modify_item_self]
      exact ⟨rfl, rfl, rfl, rfl⟩
    · unfold setStackCount
      rw [modify_item_of_ne hx]
      exact ⟨rfl, rfl, rfl, rfl⟩
  sub := h.sub

/-! ## One removal -/

/-- Only a bag with items in it stays where it is. -/
theorem safeFullRemove_sits (hv : v.Orderly) (h : v.Sits me st) :
    (v.isFullBag st.guid = true ∧
        v.safeFullRemoveFromSlot me st.arg.containerSlot st.arg.slot = (false, v)) ∨
      (v.isFullBag st.guid = false ∧ ∃ v',
        v.safeFullRemoveFromSlot me st.arg.containerSlot st.arg.slot = (true, v') ∧
          v.RemovesAt st.place st.guid v') := by
  obtain ⟨⟨containerSlot, slot⟩, place, guid⟩ := st
  obtain ⟨hnames, hheld⟩ := h
  unfold safeFullRemoveFromSlot
  cases hnames with
  | top i hi =>
    rw [if_pos rfl, getInventoryItem_top hv hheld]
    dsimp only
    by_cases hfull : v.isFullBag guid = true
    · rw [if_pos hfull]
      exact Or.inl ⟨hfull, rfl⟩
    · rw [if_neg hfull, if_pos (hv.topOwner me i guid hheld)]
      refine Or.inr ⟨by simpa using hfull, _, rfl, ?_⟩
      rw [Int.toNat_natCast, ← modify_id (w := v.clear (.top me i)) (g := guid)]
      exact removesAt_destructor hheld (noItems_of_not_full hv hfull) ⟨rfl, rfl, rfl, rfl, rfl⟩
  | cell i j bag htop =>
    obtain ⟨hcont, hlt⟩ := hv.cellRange bag j guid hheld
    have hno := hv.noItems_of_cell hheld
    have hne : guid ≠ bag := by
      rintro rfl
      have heq := hv.once _ _ _ htop hheld
      cases heq
    have hfull : v.isFullBag guid = false := by
      unfold ItemWorld.isFullBag hasItems
      have hany : ((slotRange 0 (v.containerSlots guid)).any fun k =>
          (v.slots (.cell guid k)).isSome) = false := by
        rw [List.any_eq_false]
        intro k _
        rw [hno k]
        simp
      rw [hany, Bool.and_false]
    have hcell : v.containerSafeFullRemove bag j = some
        (((v.clear (.cell bag j)).modify guid fun it => { it with contained := 0 }).destructor
          guid) := by
      unfold containerSafeFullRemove
      rw [if_neg (by omega)]
      dsimp only
      rw [Int.toNat_natCast, hheld]
      dsimp only
      rw [if_neg hne]
    have hslot : (i : Int) ≠ INVENTORY_SLOT_NOT_SET := by
      unfold INVENTORY_SLOT_NOT_SET
      omega
    rw [if_neg hslot, getInventoryItem_top hv htop]
    dsimp only
    rw [if_pos hcont, hcell]
    exact Or.inr ⟨hfull, _, rfl, removesAt_destructor hheld hno ⟨rfl, rfl, rfl, rfl, rfl⟩⟩

/-- A stack elsewhere is still where it says. -/
theorem RemovesAt.sits (hrem : v.RemovesAt p g v') (h : v.Sits me st) (hne : st.place ≠ p) :
    v'.Sits me st := by
  obtain ⟨arg, place, guid⟩ := st
  obtain ⟨hnames, hheld⟩ := h
  refine ⟨?_, (hrem.keeps hne).trans hheld⟩
  cases hnames with
  | top i hi => exact .top i hi
  | cell i j bag htop =>
    refine .cell i j bag ?_
    have htopne : Place.top me i ≠ p := by
      rintro rfl
      obtain rfl := Option.some.inj (htop.symm.trans hrem.held)
      rw [hrem.noItems j] at hheld
      cases hheld
    exact (hrem.keeps htopne).trans htop

end ItemWorld

/-! ## A list of stacks -/

namespace Removal

open ItemWorld

variable {s : Removal} {w : ItemWorld} {me : PlayerGuid}
  {protect : Guid → Option Guid → Option Guid} {p : Place} {st : Stack} {l : List Stack}

def take (me : PlayerGuid) (protect : Guid → Option Guid → Option Guid) (s : Removal)
    (st : Stack) : Removal :=
  s.takeStack me protect st.guid st.arg.containerSlot st.arg.slot

/-- `takeStack` over a list, up to a `return`. -/
def takeAll (me : PlayerGuid) (protect : Guid → Option Guid → Option Guid) (s : Removal)
    (l : List Stack) : Removal :=
  l.foldl (fun s st => s.unlessReturned fun s => s.take me protect st) s

@[simp] theorem takeAll_nil : s.takeAll me protect [] = s := rfl

theorem takeAll_append (l' : List Stack) :
    s.takeAll me protect (l ++ l') = (s.takeAll me protect l).takeAll me protect l' :=
  List.foldl_append

theorem takeAll_returned (h : s.result.isSome = true) : s.takeAll me protect l = s := by
  induction l with
  | nil => rfl
  | cons st l ih =>
    have hstep : (s.unlessReturned fun s => s.take me protect st) = s := if_pos h
    unfold takeAll at ih ⊢
    rw [List.foldl_cons, hstep]
    exact ih

theorem takeAll_cons (h : s.result = none) :
    s.takeAll me protect (st :: l) = (s.take me protect st).takeAll me protect l := by
  have hstep : (s.unlessReturned fun s => s.take me protect st) = s.take me protect st := by
    unfold unlessReturned
    rw [h]
    rfl
  unfold takeAll
  rw [List.foldl_cons, hstep]

/-- A part of the stack is enough; the bag stays; or the stack goes. -/
theorem take_cases (protect : Guid → Option Guid → Option Guid) (hv : s.world.Orderly)
    (h : s.world.Sits me st) :
    let count := s.world.stackCount st.guid
    (s.amt < count ∧ s.take me protect st = { s with
        world := s.world.setStackCount st.guid (count - s.amt), result := some s.amt }) ∨
      (count ≤ s.amt ∧ s.world.isFullBag st.guid = true ∧
        s.take me protect st = { s with
          pointer := protect st.guid s.pointer
          amt := if count = s.amt then s.amt else s.amt - count
          result := if count = s.amt then some 0 else s.result }) ∨
      (count ≤ s.amt ∧ s.world.isFullBag st.guid = false ∧ ∃ v',
        s.world.RemovesAt st.place st.guid v' ∧ s.take me protect st = { s with
          world := v'
          pointer := protect st.guid s.pointer
          amt := if count = s.amt then s.amt else s.amt - count
          result := if count = s.amt then some s.amt else s.result }) := by
  unfold take takeStack
  by_cases hlt : s.world.stackCount st.guid > s.amt
  · rw [if_pos hlt]
    exact Or.inl ⟨hlt, rfl⟩
  · rw [if_neg hlt]
    have hle : s.world.stackCount st.guid ≤ s.amt := UInt32.not_lt.1 hlt
    rcases safeFullRemove_sits hv h with ⟨hfull, hr⟩ | ⟨hfull, v', hr, hrem⟩
    · refine Or.inr (Or.inl ⟨hle, hfull, ?_⟩)
      rw [hr]
      by_cases heq : s.world.stackCount st.guid = s.amt
      · rw [if_pos heq, if_pos heq, if_pos heq]
        rfl
      · rw [if_neg heq, if_neg heq, if_neg heq]
    · refine Or.inr (Or.inr ⟨hle, hfull, v', hrem, ?_⟩)
      rw [hr]
      by_cases heq : s.world.stackCount st.guid = s.amt
      · rw [if_pos heq, if_pos heq, if_pos heq]
        rfl
      · rw [if_neg heq, if_neg heq, if_neg heq]

/-- What one stack leaves of the world. -/
theorem take_drained (protect : Guid → Option Guid → Option Guid) (h : w.Drained s.world)
    (hst : s.world.Sits me st) :
    w.Drained (s.take me protect st).world := by
  rcases take_cases protect h.orderly hst with
    ⟨-, heq⟩ | ⟨-, -, heq⟩ | ⟨-, -, v', hrem, heq⟩
  · rw [heq]
    exact setStackCount_drained h _ _
  · rw [heq]
    exact h
  · rw [heq]
    exact hrem.drained h

theorem take_slots (hv : s.world.Orderly) (hst : s.world.Sits me st) (hp : p ≠ st.place) :
    (s.take me protect st).world.slots p = s.world.slots p := by
  rcases take_cases protect hv hst with ⟨-, heq⟩ | ⟨-, -, heq⟩ | ⟨-, -, v', hrem, heq⟩
  · rw [heq]
    rfl
  · rw [heq]
  · rw [heq]
    exact hrem.keeps hp

theorem take_sits {st' : Stack} (hv : s.world.Orderly) (hst : s.world.Sits me st)
    (hst' : s.world.Sits me st') (hne : st'.place ≠ st.place) :
    (s.take me protect st).world.Sits me st' := by
  rcases take_cases protect hv hst with ⟨-, heq⟩ | ⟨-, -, heq⟩ | ⟨-, -, v', hrem, heq⟩
  · rw [heq]
    obtain ⟨arg, place, guid⟩ := st'
    obtain ⟨hnames, hheld⟩ := hst'
    refine ⟨?_, hheld⟩
    cases hnames with
    | top i hi => exact .top i hi
    | cell i j bag htop => exact .cell i j bag htop
  · rw [heq]
    exact hst'
  · rw [heq]
    exact hrem.sits hst' hne

/-- What a list of stacks leaves. -/
theorem takeAll_drained (protect : Guid → Option Guid → Option Guid) (h : w.Drained s.world)
    (hl : ∀ st ∈ l, s.world.Sits me st)
    (hnodup : (l.map Stack.place).Nodup) :
    w.Drained (s.takeAll me protect l).world ∧
      ∀ p ∉ l.map Stack.place, (s.takeAll me protect l).world.slots p = s.world.slots p := by
  induction l generalizing s with
  | nil => exact ⟨h, fun _ _ => rfl⟩
  | cons st l ih =>
    by_cases hres : s.result = none
    · rw [takeAll_cons hres]
      rw [List.map_cons, List.nodup_cons] at hnodup
      have hst := hl st List.mem_cons_self
      obtain ⟨hdrained, hslots⟩ := ih (take_drained protect h hst) (by
        intro st' hst'
        refine take_sits h.orderly hst (hl st' (List.mem_cons_of_mem st hst')) ?_
        intro hplace
        exact hnodup.1 (hplace ▸ List.mem_map_of_mem hst')) hnodup.2
      refine ⟨hdrained, fun p hp => ?_⟩
      rw [List.map_cons, List.mem_cons, not_or] at hp
      rw [hslots p hp.2, take_slots h.orderly hst hp.1]
    · rw [takeAll_returned (Option.isSome_iff_ne_none.2 hres)]
      exact ⟨h, fun _ _ => rfl⟩

/-! ## The loops -/

theorem foldl_unlessReturned {α : Type} (f : Removal → α → Removal) (L : List α)
    (h : s.result.isSome = true) :
    L.foldl (fun s a => s.unlessReturned fun s => f s a) s = s := by
  induction L with
  | nil => rfl
  | cons a L ih =>
    have hstep : (s.unlessReturned fun s => f s a) = s := if_pos h
    rw [List.foldl_cons, hstep, ih]

theorem unlessReturned_of_none {f : Removal → Removal} (h : s.result = none) :
    s.unlessReturned f = f s := by
  unfold unlessReturned
  rw [h]
  rfl

/-- The loop over slots that are as they were. -/
theorem foldl_tops {test : Item → Bool} {skip : Bool} (L : List Nat) (hL : L.Nodup)
    (hlt : ∀ i ∈ L, i < MAX_INVENTORY_SLOT) (htest : ∀ a b : Item, a.Like b → test a = test b)
    (h : w.Drained s.world)
    (htops : ∀ i ∈ L, s.world.slots (.top me i) = w.slots (.top me i))
    (hcells : skip = true → ∀ b j, s.world.slots (.cell b j) = w.slots (.cell b j)) :
    L.foldl (fun s (i : Nat) => s.unlessReturned fun s =>
        match s.world.getInventoryItem me i with
        | none => s
        | some g =>
          if test (s.world.item g) then
            if skip && s.world.isFullBag g then s
            else s.takeStack me protect g INVENTORY_SLOT_NOT_SET i
          else s) s =
      s.takeAll me protect (L.filterMap (w.topStack me test skip)) := by
  induction L generalizing s with
  | nil => rfl
  | cons i L ih =>
    by_cases hres : s.result = none
    · rw [List.nodup_cons] at hL
      have hi := hlt i List.mem_cons_self
      have hget : s.world.getInventoryItem me (i : Int) = w.slots (.top me i) := by
        unfold getInventoryItem
        rw [if_neg (by omega), Int.toNat_natCast, htops i List.mem_cons_self]
      have hrest := fun j hj => htops j (List.mem_cons_of_mem i hj)
      have hlt' := fun j hj => hlt j (List.mem_cons_of_mem i hj)
      rw [List.foldl_cons, unlessReturned_of_none hres, hget, List.filterMap_cons]
      unfold ItemWorld.topStack
      cases hg : w.slots (.top me i) with
      | none => exact ih hL.2 hlt' h hrest hcells
      | some g =>
        dsimp only
        rw [htest _ _ (h.like g)]
        by_cases ht : test (w.item g) = true
        · rw [if_pos ht, if_pos ht]
          have hfull : (skip && s.world.isFullBag g) = (skip && w.isFullBag g) := by
            cases skip with
            | false => rfl
            | true => rw [h.isFullBag fun j => hcells rfl g j]
          rw [hfull]
          by_cases hskip : (skip && w.isFullBag g) = true
          · rw [if_pos hskip, if_pos hskip]
            exact ih hL.2 hlt' h hrest hcells
          · rw [if_neg hskip, if_neg hskip]
            rw [takeAll_cons hres]
            have hst : s.world.Sits me ⟨⟨INVENTORY_SLOT_NOT_SET, i⟩, .top me i, g⟩ :=
              ⟨.top i hi, (htops i List.mem_cons_self).trans hg⟩
            refine ih hL.2 hlt' (take_drained protect h hst) ?_ ?_
            · intro j hj
              have hne : Place.top me j ≠ .top me i := by
                intro heq
                injection heq with _ hji
                exact hL.1 (hji ▸ hj)
              exact (take_slots h.orderly hst hne).trans (hrest j hj)
            · intro hs b j
              exact (take_slots h.orderly hst (by simp)).trans (hcells hs b j)
        · rw [if_neg ht, if_neg ht]
          exact ih hL.2 hlt' h hrest hcells
    · have hsome := Option.isSome_iff_ne_none.2 hres
      rw [foldl_unlessReturned _ _ hsome, takeAll_returned hsome]

theorem removeTops_eq (test : Item → Bool) (skip : Bool) {a b : Nat} (hb : b ≤ MAX_INVENTORY_SLOT)
    (htest : ∀ a b : Item, a.Like b → test a = test b) (h : w.Drained s.world)
    (htops : ∀ i, a ≤ i → i < b → s.world.slots (.top me i) = w.slots (.top me i))
    (hcells : skip = true → ∀ b j, s.world.slots (.cell b j) = w.slots (.cell b j)) :
    s.removeTops me protect test skip a b =
      s.takeAll me protect ((slotRange a b).filterMap (w.topStack me test skip)) :=
  foldl_tops _ List.nodup_range' (fun _ hi => (mem_slotRange.1 hi).2.trans_le hb) htest h
    (fun i hi => htops i (mem_slotRange.1 hi).1 (mem_slotRange.1 hi).2) hcells

/-- The loop over the cells of a bag, with the cells as they were. -/
theorem foldl_cells {test : Item → Bool} {bag : Guid} {i : Nat} (L : List Nat) (hL : L.Nodup)
    (hlt : ∀ j ∈ L, j < w.containerSlots bag)
    (htest : ∀ a b : Item, a.Like b → test a = test b) (h : w.Drained s.world)
    (htop : s.world.slots (.top me i) = some bag)
    (hcells : ∀ j ∈ L, s.world.slots (.cell bag j) = w.slots (.cell bag j)) :
    L.foldl (fun s (j : Nat) => s.unlessReturned fun s =>
        match s.world.getItem bag j with
        | none => s
        | some g =>
          if test (s.world.item g) && (s.world.item bag).wrappedItemId = 0
          then s.takeStack me protect g i j else s) s =
      s.takeAll me protect (L.filterMap (w.cellStack test bag i)) := by
  induction L generalizing s with
  | nil => rfl
  | cons j L ih =>
    by_cases hres : s.result = none
    · rw [List.nodup_cons] at hL
      have hget : s.world.getItem bag (j : Int) = w.slots (.cell bag j) := by
        have hj : j < s.world.containerSlots bag := by
          rw [h.containerSlots]
          exact hlt j List.mem_cons_self
        rw [getItem_of_lt hj, hcells j List.mem_cons_self]
      have hrest := fun k hk => hcells k (List.mem_cons_of_mem j hk)
      have hlt' := fun k hk => hlt k (List.mem_cons_of_mem j hk)
      rw [List.foldl_cons, unlessReturned_of_none hres, hget, List.filterMap_cons]
      unfold cellStack
      cases hg : w.slots (.cell bag j) with
      | none => exact ih hL.2 hlt' h htop hrest
      | some g =>
        dsimp only
        rw [htest _ _ (h.like g), (h.like bag).wrappedItemId]
        by_cases ht : (test (w.item g) && decide ((w.item bag).wrappedItemId = 0)) = true
        · rw [if_pos ht, if_pos ht]
          rw [takeAll_cons hres]
          have hst : s.world.Sits me ⟨⟨i, j⟩, .cell bag j, g⟩ :=
            ⟨.cell i j bag htop, (hcells j List.mem_cons_self).trans hg⟩
          refine ih hL.2 hlt' (take_drained protect h hst) ?_ ?_
          · exact (take_slots h.orderly hst (by simp)).trans htop
          · intro k hk
            have hne : Place.cell bag k ≠ .cell bag j := by
              intro heq
              injection heq with _ hkj
              exact hL.1 (hkj ▸ hk)
            exact (take_slots h.orderly hst hne).trans (hrest k hk)
        · rw [if_neg ht, if_neg ht]
          exact ih hL.2 hlt' h htop hrest
    · have hsome := Option.isSome_iff_ne_none.2 hres
      rw [foldl_unlessReturned _ _ hsome, takeAll_returned hsome]

end Removal

/-! ## The places of the stacks -/

namespace ItemWorld

variable {w : ItemWorld} {me : PlayerGuid} {st : Stack} {test : Item → Bool} {skip : Bool}
  {i : Nat}

theorem map_place_sublist {f : Nat → Option Stack} (place : Nat → Place)
    (hf : ∀ i st, f i = some st → st.place = place i) (L : List Nat) :
    ((L.filterMap f).map Stack.place).Sublist (L.map place) := by
  induction L with
  | nil => exact List.Sublist.slnil
  | cons i L ih =>
    rw [List.filterMap_cons, List.map_cons]
    cases hi : f i with
    | none => exact ih.cons _
    | some st =>
      rw [List.map_cons, hf i st hi]
      exact ih.cons_cons _

theorem topStack_spec (h : w.topStack me test skip i = some st) :
    st.arg = ⟨INVENTORY_SLOT_NOT_SET, i⟩ ∧ st.place = .top me i ∧
      w.slots st.place = some st.guid ∧ test (w.item st.guid) = true ∧
      (skip && w.isFullBag st.guid) = false := by
  unfold topStack at h
  split at h
  · cases h
  · rename_i g hg
    split at h
    · rename_i ht
      split at h
      · cases h
      · rename_i hskip
        cases h
        exact ⟨rfl, rfl, hg, ht, by simpa using hskip⟩
    · cases h

theorem cellStack_spec {bag : Guid} {j : Nat} (h : w.cellStack test bag i j = some st) :
    st.arg = ⟨i, j⟩ ∧ st.place = .cell bag j ∧ w.slots st.place = some st.guid ∧
      test (w.item st.guid) = true ∧ (w.item bag).wrappedItemId = 0 := by
  unfold cellStack at h
  split at h
  · cases h
  · rename_i g hg
    split at h
    · rename_i ht
      cases h
      rw [Bool.and_eq_true, decide_eq_true_eq] at ht
      exact ⟨rfl, rfl, hg, ht⟩
    · cases h

theorem mem_cellStacks (h : st ∈ w.cellStacks me test i) : ∃ bag j,
    w.slots (.top me i) = some bag ∧ w.isContainer bag = true ∧ j < w.containerSlots bag ∧
      w.cellStack test bag i j = some st := by
  unfold cellStacks at h
  split at h
  · cases h
  · rename_i bag hbag
    split at h
    · rename_i hcont
      obtain ⟨j, hj, hst⟩ := List.mem_filterMap.1 h
      exact ⟨bag, j, hbag, hcont, (mem_slotRange.1 hj).2, hst⟩
    · cases h

theorem cellStacks_of_noItems {bag : Guid} (hbag : w.slots (.top me i) = some bag)
    (hno : w.NoItems bag) : w.cellStacks me test i = [] := by
  refine List.eq_nil_iff_forall_not_mem.2 fun st hst => ?_
  obtain ⟨bag', j, hbag', -, -, hcell⟩ := mem_cellStacks hst
  obtain rfl := Option.some.inj (hbag.symm.trans hbag')
  obtain ⟨-, hplace, hheld, -⟩ := cellStack_spec hcell
  rw [hplace, hno j] at hheld
  cases hheld

theorem nodup_topStacks (L : List Nat) (hL : L.Nodup) :
    ((L.filterMap (w.topStack me test skip)).map Stack.place).Nodup := by
  refine (map_place_sublist (fun i => .top me i) (fun i st h => (topStack_spec h).2.1)
    L).nodup (hL.map ?_)
  intro a b hab
  cases hab
  rfl

theorem nodup_cellStacks : ((w.cellStacks me test i).map Stack.place).Nodup := by
  unfold cellStacks
  split
  · exact List.nodup_nil
  · rename_i bag hbag
    split
    · refine (map_place_sublist (fun j => .cell bag j)
        (fun j st h => (cellStack_spec h).2.1) _).nodup (List.Nodup.map ?_ List.nodup_range')
      intro a b hab
      cases hab
      rfl
    · exact List.nodup_nil

end ItemWorld

namespace Removal

open ItemWorld

variable {s : Removal} {w : ItemWorld} {me : PlayerGuid}
  {protect : Guid → Option Guid → Option Guid} {p : Place} {st : Stack} {l : List Stack}

/-- The loop over the bags: their cells are as they were, and a bag that
is gone had nothing in it. -/
theorem foldl_bags (hw : w.Orderly) {test : Item → Bool} (L : List Nat) (hL : L.Nodup)
    (hlt : ∀ i ∈ L, i < MAX_INVENTORY_SLOT) (htest : ∀ a b : Item, a.Like b → test a = test b)
    (h : w.Drained s.world)
    (htops : ∀ i ∈ L, s.world.slots (.top me i) = w.slots (.top me i) ∨
      (s.world.slots (.top me i) = none ∧ ∀ b, w.slots (.top me i) = some b → w.NoItems b))
    (hcells : ∀ i ∈ L, ∀ b, w.slots (.top me i) = some b →
      ∀ j, s.world.slots (.cell b j) = w.slots (.cell b j)) :
    L.foldl (fun s (i : Nat) => s.unlessReturned fun s =>
        match s.world.getInventoryItem me i with
        | none => s
        | some bag =>
          if s.world.isContainer bag then s.removeCells me protect test bag i else s) s =
      s.takeAll me protect (L.flatMap (w.cellStacks me test)) := by
  induction L generalizing s with
  | nil => rfl
  | cons i L ih =>
    by_cases hres : s.result = none
    · rw [List.nodup_cons] at hL
      have hi := hlt i List.mem_cons_self
      have hget : s.world.getInventoryItem me (i : Int) = s.world.slots (.top me i) := by
        unfold getInventoryItem
        rw [if_neg (by omega), Int.toNat_natCast]
      have hlt' := fun k hk => hlt k (List.mem_cons_of_mem i hk)
      have htops' := fun k hk => htops k (List.mem_cons_of_mem i hk)
      have hcells' := fun k hk => hcells k (List.mem_cons_of_mem i hk)
      rw [List.foldl_cons, unlessReturned_of_none hres, hget, List.flatMap_cons]
      cases hbag : s.world.slots (.top me i) with
      | none =>
        have hnil : w.cellStacks me test i = [] := by
          rcases htops i List.mem_cons_self with hsame | ⟨-, hgone⟩
          · unfold cellStacks
            rw [← hsame, hbag]
          · cases hb : w.slots (.top me i) with
            | none =>
              unfold cellStacks
              rw [hb]
            | some b => exact cellStacks_of_noItems hb (hgone b hb)
        rw [hnil, List.nil_append]
        exact ih hL.2 hlt' h htops' hcells'
      | some bag =>
        have hwbag := h.sub _ _ hbag
        dsimp only
        rw [h.isContainer]
        by_cases hcont : w.isContainer bag = true
        · have hinner : s.removeCells me protect test bag i =
              s.takeAll me protect (w.cellStacks me test i) := by
            unfold removeCells cellStacks
            rw [hwbag]
            dsimp only
            rw [if_pos hcont, h.containerSlots]
            exact foldl_cells _ List.nodup_range' (fun j hj => (mem_slotRange.1 hj).2) htest h hbag
              fun j _ => hcells i List.mem_cons_self bag hwbag j
          have hplaces : ∀ st ∈ w.cellStacks me test i, ∃ j, st.place = .cell bag j := by
            intro st hst
            obtain ⟨bag', j, hbag', -, -, hcell⟩ := mem_cellStacks hst
            obtain rfl := Option.some.inj (hwbag.symm.trans hbag')
            exact ⟨j, (cellStack_spec hcell).2.1⟩
          have hsits : ∀ st ∈ w.cellStacks me test i, s.world.Sits me st := by
            intro st hst
            obtain ⟨bag', j, hbag', -, -, hcell⟩ := mem_cellStacks hst
            obtain rfl := Option.some.inj (hwbag.symm.trans hbag')
            obtain ⟨harg, hplace, hheld, -⟩ := cellStack_spec hcell
            refine ⟨?_, ?_⟩
            · rw [harg, hplace]
              exact .cell i j bag hbag
            · rw [hplace] at hheld ⊢
              exact (hcells i List.mem_cons_self bag hwbag j).trans hheld
          obtain ⟨hdrained, hslots⟩ := takeAll_drained protect h hsits
            nodup_cellStacks
          have hframe : ∀ q, (∀ j, q ≠ .cell bag j) →
              (s.takeAll me protect (w.cellStacks me test i)).world.slots q = s.world.slots q := by
            intro q hq
            refine hslots q fun hmem => ?_
            obtain ⟨st, hst, rfl⟩ := List.mem_map.1 hmem
            obtain ⟨j, hj⟩ := hplaces st hst
            exact hq j hj
          rw [if_pos hcont, hinner, takeAll_append]
          refine ih hL.2 hlt' hdrained ?_ ?_
          · intro k hk
            rw [hframe _ fun j => by simp]
            exact htops' k hk
          · intro k hk b hb j
            rw [hframe]
            · exact hcells' k hk b hb j
            · intro j' heq
              injection heq with hbb _
              rw [hbb] at hb
              have hki := hw.once _ _ _ hb hwbag
              injection hki with _ hki
              exact hL.1 (hki ▸ hk)
        · have hnil : w.cellStacks me test i = [] := by
            unfold cellStacks
            rw [hwbag]
            exact if_neg hcont
          rw [if_neg hcont, hnil, List.nil_append]
          exact ih hL.2 hlt' h htops' hcells'
    · have hsome := Option.isSome_iff_ne_none.2 hres
      rw [foldl_unlessReturned _ _ hsome, takeAll_returned hsome]

theorem removeBags_eq (hw : w.Orderly) (test : Item → Bool) {a b : Nat}
    (hb : b ≤ MAX_INVENTORY_SLOT) (htest : ∀ a b : Item, a.Like b → test a = test b)
    (h : w.Drained s.world)
    (hcells : ∀ b j, s.world.slots (.cell b j) = w.slots (.cell b j)) :
    s.removeBags me protect test a b =
      s.takeAll me protect ((slotRange a b).flatMap (w.cellStacks me test)) := by
  refine foldl_bags hw _ List.nodup_range' (fun _ hi => (mem_slotRange.1 hi).2.trans_le hb) htest h
    ?_ fun _ _ b _ j => hcells b j
  intro i _
  cases hv : s.world.slots (.top me i) with
  | none => exact Or.inr ⟨rfl, fun b hwb => h.noItems hw hcells hwb hv⟩
  | some g => exact Or.inl (h.sub _ _ hv).symm

end Removal

namespace ItemWorld

variable {w : ItemWorld} {me : PlayerGuid} {st st' : Stack} {id amt : UInt32}

theorem isEntry_like {a b : Item} (h : a.Like b) : a.isEntry id = b.isEntry id := by
  unfold Item.isEntry
  rw [h.entry, h.wrappedItemId]

theorem isProto_like {a b : Item} (h : a.Like b) : a.isProto id = b.isProto id := by
  unfold Item.isProto
  rw [h.proto, h.wrappedItemId]

theorem itemId_like {a b : Item} (h : a.Like b) :
    decide (a.proto.itemId = id) = decide (b.proto.itemId = id) := by
  rw [h.proto]

theorem mem_itemStacks (h : st ∈ w.itemStacks me id) :
    (∃ i, i < INVENTORY_SLOT_ITEM_END ∧ w.topStack me (·.isEntry id) true i = some st) ∨
      (∃ i bag j, INVENTORY_SLOT_BAG_START ≤ i ∧ i < INVENTORY_SLOT_BAG_END ∧
        w.slots (.top me i) = some bag ∧
        w.cellStack (·.proto.itemId = id) bag i j = some st) ∨
      ∃ i, INVENTORY_KEYRING_START ≤ i ∧ i < INVENTORY_KEYRING_END ∧
        w.topStack me (·.isProto id) false i = some st := by
  unfold itemStacks at h
  rw [List.mem_append, List.mem_append] at h
  rcases h with h | h | h
  · obtain ⟨i, hi, hst⟩ := List.mem_filterMap.1 h
    exact Or.inl ⟨i, (mem_slotRange.1 hi).2, hst⟩
  · obtain ⟨i, hi, hst⟩ := List.mem_flatMap.1 h
    obtain ⟨bag, j, hbag, -, -, hcell⟩ := mem_cellStacks hst
    obtain ⟨ha, hc⟩ := mem_slotRange.1 hi
    exact Or.inr (Or.inl ⟨i, bag, j, ha, hc, hbag, hcell⟩)
  · obtain ⟨i, hi, hst⟩ := List.mem_filterMap.1 h
    obtain ⟨ha, hc⟩ := mem_slotRange.1 hi
    exact Or.inr (Or.inr ⟨i, ha, hc, hst⟩)

theorem sits_itemStacks (h : st ∈ w.itemStacks me id) : w.Sits me st := by
  rcases mem_itemStacks h with ⟨i, hi, hst⟩ | ⟨i, bag, j, -, -, hbag, hst⟩ | ⟨i, -, hi, hst⟩
  · obtain ⟨harg, hplace, hheld, -⟩ := topStack_spec hst
    refine ⟨?_, hheld⟩
    rw [harg, hplace]
    exact .top i (hi.trans (by decide))
  · obtain ⟨harg, hplace, hheld, -⟩ := cellStack_spec hst
    refine ⟨?_, hheld⟩
    rw [harg, hplace]
    exact .cell i j bag hbag
  · obtain ⟨harg, hplace, hheld, -⟩ := topStack_spec hst
    refine ⟨?_, hheld⟩
    rw [harg, hplace]
    exact .top i hi

theorem nodup_itemStacks (hw : w.Orderly) (me : PlayerGuid) (id : UInt32) :
    ((w.itemStacks me id).map Stack.place).Nodup := by
  have hcells : (((slotRange INVENTORY_SLOT_BAG_START INVENTORY_SLOT_BAG_END).flatMap
      (w.cellStacks me (·.proto.itemId = id))).map Stack.place).Nodup := by
    rw [List.map_flatMap]
    refine List.nodup_flatMap.2 ⟨fun i _ => nodup_cellStacks, ?_⟩
    have hrange : (slotRange INVENTORY_SLOT_BAG_START INVENTORY_SLOT_BAG_END).Nodup :=
      List.nodup_range'
    refine hrange.pairwise_of_forall_ne ?_
    intro i _ k _ hik p hp hp'
    obtain ⟨st, hst, rfl⟩ := List.mem_map.1 hp
    obtain ⟨st', hst', heq⟩ := List.mem_map.1 hp'
    obtain ⟨bag, j, hbag, -, -, hcell⟩ := mem_cellStacks hst
    obtain ⟨bag', j', hbag', -, -, hcell'⟩ := mem_cellStacks hst'
    rw [(cellStack_spec hcell).2.1, (cellStack_spec hcell').2.1] at heq
    injection heq with hbb _
    rw [hbb] at hbag'
    have hplace := hw.once _ _ _ hbag hbag'
    injection hplace with _ hki
    exact hik hki
  unfold itemStacks
  rw [List.map_append, List.map_append]
  refine List.nodup_append'.2 ⟨nodup_topStacks _ List.nodup_range',
    List.nodup_append'.2 ⟨hcells, nodup_topStacks _ List.nodup_range', ?_⟩, ?_⟩
  · intro p hp hp'
    obtain ⟨st, hst, rfl⟩ := List.mem_map.1 hp
    obtain ⟨st', hst', heq⟩ := List.mem_map.1 hp'
    obtain ⟨i, -, hcell⟩ := List.mem_flatMap.1 hst
    obtain ⟨bag, j, -, -, -, hcell⟩ := mem_cellStacks hcell
    obtain ⟨k, -, htop⟩ := List.mem_filterMap.1 hst'
    rw [(cellStack_spec hcell).2.1, (topStack_spec htop).2.1] at heq
    cases heq
  · intro p hp hp'
    obtain ⟨st, hst, rfl⟩ := List.mem_map.1 hp
    obtain ⟨i, hi, htop⟩ := List.mem_filterMap.1 hst
    have hlt := (mem_slotRange.1 hi).2
    rw [(topStack_spec htop).2.1] at hp'
    rcases List.mem_append.1 hp' with hp' | hp'
    · obtain ⟨st', hst', heq⟩ := List.mem_map.1 hp'
      obtain ⟨k, -, hcell⟩ := List.mem_flatMap.1 hst'
      obtain ⟨bag, j, -, -, -, hcell⟩ := mem_cellStacks hcell
      rw [(cellStack_spec hcell).2.1] at heq
      cases heq
    · obtain ⟨st', hst', heq⟩ := List.mem_map.1 hp'
      obtain ⟨k, hk, htop'⟩ := List.mem_filterMap.1 hst'
      have hge := (mem_slotRange.1 hk).1
      rw [(topStack_spec htop').2.1] at heq
      injection heq with _ hki
      unfold INVENTORY_SLOT_ITEM_END at hlt
      unfold INVENTORY_KEYRING_START at hge
      omega

open Removal in
/-- The loops take from the stacks of the list, one after the other. -/
theorem removeAmt_eq (hw : w.Orderly) (protect : Guid → Option Guid → Option Guid)
    (pointer : Option Guid) (hle : amt ≤ w.getItemCount me id false) :
    w.removeAmt me protect id amt pointer =
      (⟨w, amt, pointer, none⟩ : Removal).takeAll me protect (w.itemStacks me id) := by
  have hnodup := nodup_itemStacks hw me id
  have hsits : ∀ st ∈ w.itemStacks me id, w.Sits me st := fun st hst => sits_itemStacks hst
  have hdrained : w.Drained (⟨w, amt, pointer, none⟩ : Removal).world := Drained.refl hw
  unfold itemStacks at hnodup hsits ⊢
  unfold removeAmt
  rw [if_neg (UInt32.not_lt.2 hle), takeAll_append, takeAll_append]
  dsimp only
  rw [← List.append_assoc, List.map_append] at hnodup
  have hnodup12 := (List.nodup_append'.1 hnodup).1
  have hnodup1 := (List.nodup_append'.1 ((List.map_append ▸ hnodup12 : _))).1
  rw [removeTops_eq (·.isEntry id) true (by decide) (fun a b => isEntry_like) hdrained
    (fun i _ _ => rfl) fun _ b j => rfl]
  obtain ⟨hdrained1, hslots1⟩ := takeAll_drained protect hdrained
    (fun st hst => hsits st (List.mem_append_left _ hst)) hnodup1
  -- the loop over the slots has left the cells alone
  have hcells1 : ∀ b j, (takeAll me protect ⟨w, amt, pointer, none⟩
      ((slotRange EQUIPMENT_SLOT_START INVENTORY_SLOT_ITEM_END).filterMap
        (w.topStack me (·.isEntry id) true))).world.slots (.cell b j) = w.slots (.cell b j) := by
    intro b j
    refine hslots1 _ fun hmem => ?_
    obtain ⟨st, hst, heq⟩ := List.mem_map.1 hmem
    obtain ⟨i, -, htop⟩ := List.mem_filterMap.1 hst
    rw [(topStack_spec htop).2.1] at heq
    cases heq
  rw [removeBags_eq hw (·.proto.itemId = id) (by decide) (fun a b => itemId_like) hdrained1 hcells1]
  obtain ⟨hdrained2, hslots2⟩ := takeAll_drained protect hdrained
    (fun st hst => hsits st (by
      rw [← List.append_assoc]
      exact List.mem_append_left _ hst)) hnodup12
  rw [takeAll_append] at hdrained2 hslots2
  refine removeTops_eq (·.isProto id) false le_rfl (fun a b => isProto_like) hdrained2 ?_
    fun hf => by cases hf
  -- and both have left the key ring alone
  intro i hge _
  refine hslots2 _ fun hmem => ?_
  obtain ⟨st, hst, heq⟩ := List.mem_map.1 hmem
  rcases List.mem_append.1 hst with hst | hst
  · obtain ⟨k, hk, htop⟩ := List.mem_filterMap.1 hst
    have hlt := (mem_slotRange.1 hk).2
    rw [(topStack_spec htop).2.1] at heq
    injection heq with _ hki
    unfold INVENTORY_SLOT_ITEM_END at hlt
    unfold INVENTORY_KEYRING_START at hge
    omega
  · obtain ⟨k, -, hcell⟩ := List.mem_flatMap.1 hst
    obtain ⟨bag, j, -, -, -, hcell⟩ := mem_cellStacks hcell
    rw [(cellStack_spec hcell).2.1] at heq
    cases heq

end ItemWorld

end HearthStone
