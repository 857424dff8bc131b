/-
HearthStone.Item.SwapTheorems — `SwapItemSlots` on a well-formed world.

With a bag in hand it takes every item out of the bag and puts it back,
while the bag is in both slots at once or in its new one. In that state
the world is not well formed, so the refills are followed cell by cell:
taking an item out of a cell and putting it back changes no place
(`refillMovedBag_samePlaces`, `refillSwappedBags_samePlaces`). What is
left is the exchange of the two slots (`exchangeTops_exchanges`).
-/
import HearthStone.Item.ItemInterfaceTheorems

namespace HearthStone

open Lib

namespace ItemWorld

variable {w w' u u' : ItemWorld} {me : PlayerGuid} {g b t : Guid}

/-! ## Taking out of a cell and putting back -/

/-- Every item keeps its kind and its owner. -/
def SameItems (w w' : ItemWorld) : Prop :=
  w'.nextGuid = w.nextGuid ∧
    ∀ x, (w'.item x).SameKind (w.item x) ∧ (w'.item x).owner = (w.item x).owner

theorem SameItems.refl (w : ItemWorld) : w.SameItems w :=
  ⟨rfl, fun _ => ⟨Item.SameKind.refl _, rfl⟩⟩

theorem SameItems.trans (h₁ : w.SameItems u) (h₂ : u.SameItems u') : w.SameItems u' :=
  ⟨h₂.1.trans h₁.1, fun x => ⟨(h₂.2 x).1.trans (h₁.2 x).1, (h₂.2 x).2.trans (h₁.2 x).2⟩⟩

theorem SameItems.containerSlots (h : w.SameItems u) (x : Guid) :
    u.containerSlots x = w.containerSlots x := by
  unfold ItemWorld.containerSlots
  rw [(h.2 x).1.proto]

theorem SameItems.isContainer (h : w.SameItems u) (x : Guid) :
    u.isContainer x = w.isContainer x := (h.2 x).1.isContainer

theorem sameItems_modify {f : Item → Item} (hk : (f (w.item g)).SameKind (w.item g))
    (ho : (f (w.item g)).owner = (w.item g).owner) : w.SameItems (w.modify g f) := by
  have h := samePlaces_modify (w := w) (g := g) hk ho
  exact ⟨h.nextGuid, fun x => ⟨h.kind x, h.owner x⟩⟩

theorem SamePlaces.sameItems (h : w.SamePlaces w') : w.SameItems w' :=
  ⟨h.nextGuid, fun x => ⟨h.kind x, h.owner x⟩⟩

/-- The cell `i` of a bag with an owner, and what it holds. -/
structure BagCell (w : ItemWorld) (b : Guid) (i : Nat) (t : Guid) : Prop where
  held : w.slots (.cell b i) = some t
  field : w.fields (.cell b i) = t
  range : i < w.containerSlots b
  ne : t ≠ b
  sameOwner : (w.item t).owner = (w.item b).owner
  owned : (w.item b).owner ≠ none

theorem WellFormed.bagCell {i : Nat} (hw : w.WellFormed) (h : w.slots (.cell b i) = some t) :
    w.BagCell b i t where
  held := h
  field := by
    rw [hw.fields, h]
    rfl
  range := (hw.cellRange b i t h).2
  ne := by
    rintro rfl
    obtain ⟨p, s, hs⟩ := hw.atTop t i t h
    have heq := hw.once _ _ _ hs h
    cases heq
  sameOwner := hw.cellOwner b i t h
  owned := by
    obtain ⟨p, s, -, hp⟩ := hw.bagOwner h
    rw [hp]
    simp

/-- Facts about a cell are facts about its bag, its item and the cell. -/
theorem BagCell.congr {i : Nat} (h : w.BagCell b i t) (hs : w.SameItems u)
    (hslots : u.slots (.cell b i) = w.slots (.cell b i))
    (hfields : u.fields (.cell b i) = w.fields (.cell b i)) : u.BagCell b i t where
  held := hslots.trans h.held
  field := hfields.trans h.field
  range := by
    rw [hs.containerSlots]
    exact h.range
  ne := h.ne
  sameOwner := by
    rw [(hs.2 t).2, (hs.2 b).2]
    exact h.sameOwner
  owned := by
    rw [(hs.2 b).2]
    exact h.owned

theorem BagCell.take {i : Nat} (h : w.BagCell b i t) :
    ∃ u, w.containerSafeRemove b i = (some t, u) ∧ w.SameItems u ∧
      u.slots = Function.update w.slots (.cell b i) none ∧
      u.fields = Function.update w.fields (.cell b i) 0 := by
  have hrange := h.range
  unfold containerSafeRemove
  rw [if_neg (by omega), Int.toNat_natCast]
  dsimp only
  rw [h.held]
  dsimp only
  rw [if_neg h.ne, if_pos h.sameOwner]
  exact ⟨_, rfl, sameItems_modify ⟨rfl, rfl, rfl, rfl, rfl⟩ rfl, rfl, rfl⟩

theorem containerSafeRemove_empty {i : Nat} (h : w.slots (.cell b i) = none) :
    w.containerSafeRemove b i = (none, w) := by
  unfold containerSafeRemove
  split
  · rfl
  · rw [Int.toNat_natCast]
    dsimp only
    rw [h]

/-- An item that belongs to the owner of the bag goes to an empty cell. -/
theorem containerAddItem_back {i : Nat} (hrange : i < w.containerSlots b)
    (hempty : w.slots (.cell b i) = none) (howner : (w.item t).owner = (w.item b).owner)
    (howned : (w.item b).owner ≠ none) :
    ∃ u, w.containerAddItem b i t = some u ∧ w.SameItems u ∧
      u.slots = Function.update w.slots (.cell b i) (some t) ∧
      u.fields = Function.update w.fields (.cell b i) t := by
  unfold containerAddItem
  rw [if_neg (by omega), Int.toNat_natCast, hempty, if_neg (by simp), if_neg howned]
  refine ⟨_, rfl, ?_, rfl, rfl⟩
  have hsame : w.SameItems ((w.intoBag b t).modify t Item.bindOnPickup) := by
    unfold intoBag
    rw [modify_modify]
    refine sameItems_modify ?_ ?_
    · exact (Item.sameKind_bindOnPickup _).trans ⟨rfl, rfl, rfl, rfl, rfl⟩
    · rw [Item.owner_bindOnPickup]
      exact howner.symm
  exact hsame

/-- Writing a place twice and what it held last. -/
theorem update_back {α : Type} (f : Place → α) (p : Place) (x : α) :
    Function.update (Function.update f p x) p (f p) = f := by
  rw [Function.update_idem, Function.update_eq_self]

/-- Taken out and put back, with nothing in between. -/
theorem BagCell.back {i : Nat} (h : w.BagCell b i t)
    (htake : u = (w.containerSafeRemove b i).2) :
    ∃ u', u.containerAddItem b i t = some u' ∧ w.SamePlaces u' := by
  obtain ⟨v, hv, hsame, hslots, hfields⟩ := h.take
  have huv : u = v := by rw [htake, hv]
  subst huv
  obtain ⟨u', hadd, hsame', hslots', hfields'⟩ := containerAddItem_back (w := u) (b := b) (t := t)
    (i := i) (by rw [hsame.containerSlots]; exact h.range)
    (by rw [hslots, Function.update_self])
    (by rw [(hsame.2 t).2, (hsame.2 b).2]; exact h.sameOwner)
    (by rw [(hsame.2 b).2]; exact h.owned)
  have hitems := hsame.trans hsame'
  refine ⟨u', hadd, ?_, ?_, hitems.1, fun x => (hitems.2 x).1, fun x => (hitems.2 x).2⟩
  · rw [hslots', hslots, ← h.held, update_back]
  · rw [hfields', hfields, ← h.field, update_back]

/-! ## The refills -/

/-- What holds of a bag that stands in slots of the player while its
cells are gone through: cells as in a well-formed world, and nothing of
it anywhere else. -/
structure BagAtHand (w : ItemWorld) (me : PlayerGuid) (b : Guid) : Prop where
  cells : ∀ i t, w.slots (.cell b i) = some t → w.BagCell b i t
  alone : ∀ i t, w.slots (.cell b i) = some t → ∀ p, w.slots p = some t → p = .cell b i
  isBag : w.isContainer b = true

theorem BagAtHand.congr (h : w.BagAtHand me b) (hs : w.SamePlaces u) : u.BagAtHand me b where
  cells := by
    intro i t ht
    rw [hs.slots] at ht
    exact (h.cells i t ht).congr hs.sameItems (by rw [hs.slots]) (by rw [hs.fields])
  alone := by
    rw [hs.slots]
    exact h.alone
  isBag := by
    rw [hs.sameItems.isContainer]
    exact h.isBag

theorem getInventoryItem_of {s : Nat} (hs : s < MAX_INVENTORY_SLOT) :
    w.getInventoryItem me s = w.slots (.top me s) := by
  unfold getInventoryItem
  rw [if_neg (by omega), Int.toNat_natCast]

/-- Taking out of a cell of the bag in a slot. -/
theorem safeRemoveFromSlot_cell {s : Nat} {j : Int} (hs : s < MAX_INVENTORY_SLOT)
    (htop : w.slots (.top me s) = some b) (hbag : w.isContainer b = true) :
    w.safeRemoveFromSlot me s j = w.containerSafeRemove b j := by
  unfold safeRemoveFromSlot
  rw [if_neg (by unfold INVENTORY_SLOT_NOT_SET; omega), getInventoryItem_of hs, htop]
  dsimp only
  rw [if_pos hbag]

/-- An item that is at no place is not in the inventory. -/
theorem inInventory_of_not_placed (h : ¬ Placed w.slots t) : w.inInventory me t = false := by
  unfold inInventory
  rw [List.any_eq_false]
  intro s _ hfound
  cases hs : w.slots (.top me s) with
  | none => simp [hs] at hfound
  | some x =>
    simp only [hs, Bool.or_eq_true, decide_eq_true_eq, Bool.and_eq_true, List.any_eq_true]
      at hfound
    rcases hfound with rfl | ⟨-, j, -, hj⟩
    · exact h ⟨_, hs⟩
    · obtain ⟨-, -, hj⟩ := getItem_eq_some hj
      exact h ⟨_, hj⟩

/-- Putting into a cell of the bag in a slot. -/
theorem m_AddItem_cell {s i : Nat} (hs : s < MAX_INVENTORY_SLOT)
    (htop : w.slots (.top me s) = some b) (hbag : w.isContainer b = true)
    (hi : i < w.containerSlots b) (hfree : ¬ Placed w.slots t)
    (hadd : w.containerAddItem b i t = some u) :
    w.m_AddItem me t s i = (.ok, u) := by
  have hle : w.containerSlots b ≤ 36 := (w.item b).proto.containerSlots_le
  unfold m_AddItem
  rw [if_neg (by unfold MAX_INVENTORY_SLOT; omega), if_neg (by omega)]
  rw [if_neg (by omega)]
  dsimp only
  rw [inInventory_of_not_placed hfree, if_neg (by simp)]
  unfold addItemAt
  rw [if_neg (by unfold INVENTORY_SLOT_NOT_SET; omega), getInventoryItem_of hs, htop]
  dsimp only
  rw [if_pos ⟨hbag, by exact_mod_cast hi⟩, hadd]

/-- One round: the cell ends up as it was. -/
theorem refillMovedBag_round {s d j : Nat} (h : w.BagAtHand me b) (hs : s < MAX_INVENTORY_SLOT)
    (hd : d < MAX_INVENTORY_SLOT) (hsrc : w.slots (.top me s) = some b)
    (hdst : w.slots (.top me d) = some b) (hj : j < w.containerSlots b) :
    w.SamePlaces
      (match w.getItem b j with
      | none => (w.safeRemoveFromSlot me s j).2
      | some t => ((w.safeRemoveFromSlot me s j).2.m_AddItem me t d j).2) := by
  rw [getItem_of_lt hj, safeRemoveFromSlot_cell hs hsrc h.isBag]
  cases ht : w.slots (.cell b j) with
  | none =>
    rw [containerSafeRemove_empty ht]
    exact SamePlaces.refl w
  | some t =>
    dsimp only
    have hcell := h.cells j t ht
    obtain ⟨u, htake, hsame, hslots, -⟩ := hcell.take
    obtain ⟨u', hadd, hplaces⟩ := hcell.back rfl
    rw [htake] at hadd ⊢
    have hdst' : u.slots (.top me d) = some b := by
      rw [hslots, Function.update_of_ne (by simp), hdst]
    have hfree : ¬ Placed u.slots t := by
      rintro ⟨p, hp⟩
      rw [hslots] at hp
      obtain ⟨hne, hp⟩ := of_clear hp
      exact hne (h.alone j t ht p hp)
    rw [m_AddItem_cell hd hdst' (by rw [hsame.isContainer]; exact h.isBag)
      (by rw [hsame.containerSlots]; exact hj) hfree hadd]
    exact hplaces

/-- "Moving a bag with items to an empty bag slot" moves nothing in it. -/
theorem refillMovedBag_samePlaces {s d : Nat} (h : w.BagAtHand me b)
    (hs : s < MAX_INVENTORY_SLOT) (hd : d < MAX_INVENTORY_SLOT)
    (hsrc : w.slots (.top me s) = some b) (hdst : w.slots (.top me d) = some b) :
    w.SamePlaces (w.refillMovedBag me b s d) := by
  -- over the cells gone through so far the places are those of `w`
  have hloop : ∀ (l : List Nat), (∀ j ∈ l, j < w.containerSlots b) → ∀ u, w.SamePlaces u →
      w.SamePlaces (l.foldl (fun (w : ItemWorld) (j : Nat) =>
        let t := w.getItem b j
        let w := (w.safeRemoveFromSlot me s j).2
        match t with
        | none => w
        | some t => (w.m_AddItem me t d j).2) u) := by
    intro l
    induction l with
    | nil => exact fun _ u hu => hu
    | cons j l ih =>
      intro hl u hu
      rw [List.foldl_cons]
      refine ih (fun i hi => hl i (List.mem_cons_of_mem j hi)) _ (hu.trans ?_)
      have hj : j < u.containerSlots b := by
        rw [hu.sameItems.containerSlots]
        exact hl j List.mem_cons_self
      exact refillMovedBag_round (h.congr hu) hs hd (by rw [hu.slots, hsrc])
        (by rw [hu.slots, hdst]) hj
  exact hloop _ (fun j hj => (mem_slotRange.1 hj).2) w (SamePlaces.refl w)

/-- Two places cleared and written with what they held. -/
theorem update_back_two {α : Type} (f : Place → α) (p q : Place) (x y : α) :
    Function.update (Function.update (Function.update (Function.update f p x) q y) p (f p)) q
      (f q) = f := by
  funext r
  by_cases hrq : r = q
  · rw [hrq, Function.update_self]
  · rw [Function.update_of_ne hrq]
    by_cases hrp : r = p
    · rw [hrp, Function.update_self]
    · rw [Function.update_of_ne hrp, Function.update_of_ne hrq, Function.update_of_ne hrp]

/-- Two items taken out of two cells and put back in that order. -/
theorem BagCell.back_two {a : Guid} {i j : Nat} {x : Guid} (hx : w.BagCell a i x)
    (ht : w.BagCell b j t) (hne : Place.cell a i ≠ .cell b j) :
    ∃ u₃ u₄, ((w.containerSafeRemove a i).2.containerSafeRemove b j).2.containerAddItem a i x =
        some u₃ ∧ u₃.containerAddItem b j t = some u₄ ∧ w.SamePlaces u₄ := by
  obtain ⟨u₁, htake₁, hsame₁, hslots₁, hfields₁⟩ := hx.take
  have ht₁ : u₁.BagCell b j t := ht.congr hsame₁ (by rw [hslots₁, Function.update_of_ne hne.symm])
    (by rw [hfields₁, Function.update_of_ne hne.symm])
  obtain ⟨u₂, htake₂, hsame₂, hslots₂, hfields₂⟩ := ht₁.take
  have hsame := hsame₁.trans hsame₂
  obtain ⟨u₃, hadd₃, hsame₃, hslots₃, hfields₃⟩ := containerAddItem_back (w := u₂) (b := a)
    (t := x) (i := i) (by rw [hsame.containerSlots]; exact hx.range)
    (by rw [hslots₂, Function.update_of_ne hne, hslots₁, Function.update_self])
    (by rw [(hsame.2 x).2, (hsame.2 a).2]; exact hx.sameOwner)
    (by rw [(hsame.2 a).2]; exact hx.owned)
  have hsame' := hsame.trans hsame₃
  obtain ⟨u₄, hadd₄, hsame₄, hslots₄, hfields₄⟩ := containerAddItem_back (w := u₃) (b := b)
    (t := t) (i := j) (by rw [hsame'.containerSlots]; exact ht.range)
    (by rw [hslots₃, Function.update_of_ne hne.symm, hslots₂, Function.update_self])
    (by rw [(hsame'.2 t).2, (hsame'.2 b).2]; exact ht.sameOwner)
    (by rw [(hsame'.2 b).2]; exact ht.owned)
  have hitems := hsame'.trans hsame₄
  refine ⟨u₃, u₄, ?_, hadd₄, ?_, ?_, hitems.1, fun y => (hitems.2 y).1, fun y => (hitems.2 y).2⟩
  · rw [htake₁]
    rw [htake₂]
    exact hadd₃
  · rw [hslots₄, hslots₃, hslots₂, hslots₁, ← hx.held, ← ht.held, update_back_two]
  · rw [hfields₄, hfields₃, hfields₂, hfields₁, ← hx.field, ← ht.field, update_back_two]

/-- An occupied cell takes nothing. -/
theorem containerAddItem_occupied {i : Nat} (h : w.slots (.cell b i) ≠ none) :
    w.containerAddItem b i t = none := by
  unfold containerAddItem
  split
  · rfl
  · rw [Int.toNat_natCast, if_pos (Option.isSome_iff_ne_none.2 h)]

/-- One round over the cells of two bags, or of one bag with itself. -/
theorem refillSwappedBags_round {src dst : Guid} {s d j : Nat} (hsrc : w.BagAtHand me src)
    (hdst : w.BagAtHand me dst) (hs : s < MAX_INVENTORY_SLOT) (hd : d < MAX_INVENTORY_SLOT)
    (htopS : w.slots (.top me s) = some dst) (htopD : w.slots (.top me d) = some src) :
    w.SamePlaces
      (let tSrc := (w.slots (.top me s)).bind fun b => w.getItem b j
      let tDst := (w.slots (.top me d)).bind fun b => w.getItem b j
      let w := if tSrc.isSome then (w.safeRemoveFromSlot me s j).2 else w
      let w := if tDst.isSome then (w.safeRemoveFromSlot me d j).2 else w
      let w := match tSrc with
        | none => w
        | some t => (w.containerAddItem dst j t).getD w
      match tDst with
      | none => w
      | some t => (w.containerAddItem src j t).getD w) := by
  have hholds : ∀ {a t}, w.getItem a j = some t → w.slots (.cell a j) = some t := by
    intro a t h
    obtain ⟨-, -, h⟩ := getItem_eq_some h
    rw [Int.toNat_natCast] at h
    exact h
  rw [htopS, htopD, Option.bind_some, Option.bind_some]
  cases hS : w.getItem dst j with
  | none =>
    cases hD : w.getItem src j with
    | none => exact SamePlaces.refl w
    | some t =>
      obtain ⟨u', hadd, hplaces⟩ := (hsrc.cells j t (hholds hD)).back rfl
      simp only [Option.isSome_none, Option.isSome_some, if_true, Bool.false_eq_true, if_false]
      rw [safeRemoveFromSlot_cell hd htopD hsrc.isBag, hadd]
      exact hplaces
  | some x =>
    have hx := hdst.cells j x (hholds hS)
    cases hD : w.getItem src j with
    | none =>
      obtain ⟨u', hadd, hplaces⟩ := hx.back rfl
      simp only [Option.isSome_none, Option.isSome_some, if_true, Bool.false_eq_true, if_false]
      rw [safeRemoveFromSlot_cell hs htopS hdst.isBag, hadd]
      exact hplaces
    | some t =>
      have ht := hsrc.cells j t (hholds hD)
      obtain ⟨u, htake, hsame, hslots, -⟩ := hx.take
      have htopD' : u.slots (.top me d) = some src := by
        rw [hslots, Function.update_of_ne (by simp), htopD]
      have hbag' : u.isContainer src = true := by
        rw [hsame.isContainer]
        exact hsrc.isBag
      simp only [Option.isSome_some, if_true]
      rw [safeRemoveFromSlot_cell hs htopS hdst.isBag, htake]
      rw [safeRemoveFromSlot_cell hd htopD' hbag']
      by_cases hne : Place.cell dst j = .cell src j
      · -- one bag in both slots: the second removal finds the cell empty
        injection hne with hbags _
        subst hbags
        obtain ⟨u', hadd, hplaces⟩ := hx.back rfl
        rw [htake] at hadd
        rw [containerSafeRemove_empty (by rw [hslots, Function.update_self])]
        rw [hadd]
        dsimp only [Option.getD_some]
        rw [containerAddItem_occupied (by rw [hplaces.slots, hx.held]; simp)]
        exact hplaces
      · obtain ⟨u₃, u₄, hadd₃, hadd₄, hplaces⟩ := hx.back_two ht hne
        rw [htake] at hadd₃
        rw [hadd₃]
        dsimp only [Option.getD_some]
        rw [hadd₄]
        exact hplaces

/-- "Swapping 2 bags filled with items" moves nothing in them. -/
theorem refillSwappedBags_samePlaces {src dst : Guid} {s d : Nat} (hsrc : w.BagAtHand me src)
    (hdst : w.BagAtHand me dst) (hs : s < MAX_INVENTORY_SLOT) (hd : d < MAX_INVENTORY_SLOT)
    (htopS : w.slots (.top me s) = some dst) (htopD : w.slots (.top me d) = some src) :
    w.SamePlaces (w.refillSwappedBags me src dst s d) := by
  have hloop : ∀ (l : List Nat) (u : ItemWorld), w.SamePlaces u →
      w.SamePlaces (l.foldl (fun (w : ItemWorld) (j : Nat) =>
        let tSrc := (w.slots (.top me s)).bind fun b => w.getItem b j
        let tDst := (w.slots (.top me d)).bind fun b => w.getItem b j
        let w := if tSrc.isSome then (w.safeRemoveFromSlot me s j).2 else w
        let w := if tDst.isSome then (w.safeRemoveFromSlot me d j).2 else w
        let w := match tSrc with
          | none => w
          | some t => (w.containerAddItem dst j t).getD w
        match tDst with
        | none => w
        | some t => (w.containerAddItem src j t).getD w) u) := by
    intro l
    induction l with
    | nil => exact fun u hu => hu
    | cons j l ih =>
      intro u hu
      rw [List.foldl_cons]
      exact ih _ (hu.trans (refillSwappedBags_round (hsrc.congr hu) (hdst.congr hu) hs hd
        (by rw [hu.slots, htopS]) (by rw [hu.slots, htopD])))
  exact hloop _ w (SamePlaces.refl w)

/-! ## The exchange of two slots -/

/-- A bag whose cells are those of a well-formed world. -/
theorem bagAtHand_of {src : Guid} (hw : w.WellFormed) (hs : w.SameItems u)
    (hcells : ∀ i, u.slots (.cell src i) = w.slots (.cell src i)) (hfields : u.fields = w.fields)
    (halone : ∀ i t, w.slots (.cell src i) = some t → ∀ p, u.slots p = some t → p = .cell src i)
    (hbag : w.isContainer src = true) : u.BagAtHand me src where
  cells := by
    intro i t ht
    rw [hcells] at ht
    exact (hw.bagCell ht).congr hs (hcells i) (by rw [hfields])
  alone := by
    intro i t ht
    rw [hcells] at ht
    exact halone i t ht
  isBag := by
    rw [hs.isContainer]
    exact hbag

theorem samePlaces_bindEquipped (s : Nat) : w.SamePlaces (w.bindEquipped me s) := by
  unfold bindEquipped
  split
  · split
    · exact samePlaces_modify (Item.sameKind_bindOnEquip _) (Item.owner_bindOnEquip _)
    · exact SamePlaces.refl w
  · exact SamePlaces.refl w

/-- The bag stands in its new slot too, and the old one still has it. -/
theorem samePlaces_moved {src : Guid} (dst : Option Guid) {s d : Nat} (hw : w.WellFormed)
    (hs : s < MAX_INVENTORY_SLOT) (hd : d < MAX_INVENTORY_SLOT)
    (hsrc : w.slots (.top me s) = some src) :
    (w.setTop me d (some src)).SamePlaces
      (if dst.isNone ∧ (w.setTop me d (some src)).isContainer src
        then (w.setTop me d (some src)).refillMovedBag me src s d
        else w.setTop me d (some src)) := by
  split
  · rename_i hbag
    have hsame : w.SameItems (w.setTop me d (some src)) := SameItems.refl w
    refine refillMovedBag_samePlaces (bagAtHand_of hw hsame ?_ rfl ?_ hbag.2) hs hd ?_ ?_
    · intro i
      change Function.update w.slots (.top me d) (some src) (.cell src i) = _
      rw [Function.update_of_ne (by simp)]
    · intro i t ht p hp
      change Function.update w.slots (.top me d) (some src) p = some t at hp
      by_cases hpd : p = .top me d
      · rw [hpd, Function.update_self] at hp
        exact absurd (Option.some.inj hp).symm (hw.bagCell ht).ne
      · rw [Function.update_of_ne hpd] at hp
        exact hw.once _ _ _ hp ht
    · change Function.update w.slots (.top me d) (some src) (.top me s) = some src
      by_cases hsd : Place.top me s = .top me d
      · rw [hsd, Function.update_self]
      · rw [Function.update_of_ne hsd, hsrc]
    · change Function.update w.slots (.top me d) (some src) (.top me d) = some src
      rw [Function.update_self]
  · exact SamePlaces.refl _

/-- Both bags stand in each other's slot. -/
theorem samePlaces_swapped {src : Guid} {dst : Option Guid} {s d : Nat} (hw : w.WellFormed)
    (hs : s < MAX_INVENTORY_SLOT) (hd : d < MAX_INVENTORY_SLOT) (hitems : w.SameItems u)
    (hslots : u.slots = w.slots ∘ Equiv.swap (.top me d) (.top me s))
    (hfields : u.fields = w.fields) (hsrc : w.slots (.top me s) = some src)
    (hdst : w.slots (.top me d) = dst) : u.SamePlaces (u.refillExchanged me src dst s d) := by
  unfold refillExchanged
  cases dst with
  | none => exact SamePlaces.refl u
  | some dst =>
    dsimp only
    split
    · rename_i hbags
      have hcell : ∀ (b : Guid) (i : Nat),
          Equiv.swap (Place.top me d) (.top me s) (.cell b i) = .cell b i :=
        fun b i => Equiv.swap_apply_of_ne_of_ne (by simp) (by simp)
      have hat : ∀ b, w.isContainer b = true → u.BagAtHand me b := by
        intro b hb
        refine bagAtHand_of hw hitems ?_ hfields ?_ hb
        · intro i
          rw [hslots, Function.comp_apply, hcell]
        · intro i t ht p hp
          rw [hslots, Function.comp_apply] at hp
          rw [← Equiv.swap_apply_self (Place.top me d) (.top me s) p, hw.once _ _ _ hp ht, hcell]
      rw [hitems.isContainer, hitems.isContainer] at hbags
      refine refillSwappedBags_samePlaces (hat src hbags.1) (hat dst hbags.2) hs hd ?_ ?_
      · rw [hslots, Function.comp_apply, Equiv.swap_apply_right, hdst]
      · rw [hslots, Function.comp_apply, Equiv.swap_apply_left, hsrc]
    · exact SamePlaces.refl u

/-- The exchange of two slots is one, whatever is refilled on the way. -/
theorem exchangeTops_exchanges {src : Guid} {dst : Option Guid} {s d : Nat} (hw : w.WellFormed)
    (hs : s < MAX_INVENTORY_SLOT) (hd : d < MAX_INVENTORY_SLOT)
    (hsrc : w.slots (.top me s) = some src) (hdst : w.slots (.top me d) = dst) :
    w.Exchanges (.top me s) (.top me d) (w.exchangeTops me src dst s d) := by
  have hmoved := samePlaces_moved dst hw hs hd hsrc
  unfold exchangeTops
  dsimp only
  generalize (if dst.isNone ∧ (w.setTop me d (some src)).isContainer src
    then (w.setTop me d (some src)).refillMovedBag me src s d
    else w.setTop me d (some src)) = v at hmoved ⊢
  have hslots : (v.setTop me s dst).slots = w.slots ∘ Equiv.swap (.top me d) (.top me s) := by
    change Function.update v.slots (.top me s) dst = _
    rw [hmoved.slots, ← hdst]
    change Function.update (Function.update w.slots (.top me d) (some src)) _ _ = _
    rw [← hsrc]
    exact update_update_eq_swap w.slots (.top me d) (.top me s)
  have hitems : w.SameItems (v.setTop me s dst) := hmoved.sameItems
  have hfields : (v.setTop me s dst).fields = w.fields := hmoved.fields
  generalize v.setTop me s dst = v' at hslots hitems hfields ⊢
  have hswapped := samePlaces_swapped hw hs hd hitems hslots hfields hsrc hdst
  generalize v'.refillExchanged me src dst s d = u at hswapped ⊢
  have hbind : ((u.syncField (.top me d)).syncField (.top me s)).SamePlaces
      ((((u.syncField (.top me d)).syncField (.top me s)).bindEquipped me s).bindEquipped me d) :=
    (samePlaces_bindEquipped s).trans (samePlaces_bindEquipped d)
  have hkeeps := hitems.trans hswapped.sameItems
  refine ⟨.tops me s d hs hd, ?_, ?_, hbind.nextGuid.trans hkeeps.1, ?_, ?_⟩
  · rw [hbind.slots, Equiv.swap_comm]
    exact hswapped.slots.trans hslots
  · rw [hbind.fields, Equiv.swap_comm]
    change Function.update (Function.update u.fields (.top me d) ((u.slots (.top me d)).getD 0))
      (.top me s) ((u.slots (.top me s)).getD 0) = _
    rw [hswapped.fields, hfields, hswapped.slots, hslots, Function.comp_apply,
      Function.comp_apply, Equiv.swap_apply_left, Equiv.swap_apply_right, ← hw.fields,
      ← hw.fields]
    exact update_update_eq_swap w.fields (.top me d) (.top me s)
  · exact fun x => (hbind.kind x).trans (hkeeps.2 x).1
  · exact fun x => (hbind.owner x).trans (hkeeps.2 x).2

/-! ## The whole of `SwapItemSlots` -/

/-- The exchange puts no other item into a slot for bags. -/
def BagsStay (w : ItemWorld) (me : PlayerGuid) (s d : Nat) : Prop :=
  (IsBagSlot d → ∀ x, w.slots (.top me s) = some x → w.isContainer x = true) ∧
    (IsBagSlot s → ∀ x, w.slots (.top me d) = some x → w.isContainer x = true)

theorem exchangeTops_wellFormed {src : Guid} {dst : Option Guid} {s d : Nat} (hw : w.WellFormed)
    (hs : s < MAX_INVENTORY_SLOT) (hd : d < MAX_INVENTORY_SLOT)
    (hsrc : w.slots (.top me s) = some src) (hdst : w.slots (.top me d) = dst)
    (hbags : w.BagsStay me s d) : (w.exchangeTops me src dst s d).WellFormed := by
  refine (exchangeTops_exchanges hw hs hd hsrc hdst).wellFormed hw ?_ ?_
  · intro a t x ha ht hx
    injection ha with _ hst
    exact hbags.2 (hst ▸ ht) x hx
  · intro a t x ha ht hx
    injection ha with _ hdt
    exact hbags.1 (hdt ▸ ht) x hx

end ItemWorld

end HearthStone
