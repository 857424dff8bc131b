/-
HearthStone.Item.Inventory — when the places and the fields of all
players describe one set of items.

`WellFormed` is the representation invariant: an item is at one place at
most, every field shows what its place holds, the item belongs to whom
the place belongs to, only bags have cells, only bags are in the slots
for bags, and only a bag that is in a player's slot holds anything.
`Orderly` is all of it but the clause on the slots for bags.

Three steps make up the operations on it, each with one lemma:

* `AddsAt` — an item that is nowhere goes to an empty place.
* `RemovesAt` — a place is emptied.
* `Exchanges` — two places of one player or of one bag change contents.

Writes to an item alone are `SameKind` on it when its prototype, type
and stack stay what they were.
-/
import Mathlib.Data.List.Nodup
import HearthStone.Lib.Placement
import HearthStone.Item.ItemInterface

namespace HearthStone

open Lib

/-- The slots for bags, of the player and of the bank. -/
def IsBagSlot (s : Nat) : Prop := isBagSlot s = true

instance : DecidablePred IsBagSlot := fun s => inferInstanceAs (Decidable (isBagSlot s = true))

/-- Prototype, type, stack and wrapping are the same. -/
structure Item.SameKind (a b : Item) : Prop where
  proto : a.proto = b.proto
  isContainer : a.isContainer = b.isContainer
  stackCount : a.stackCount = b.stackCount
  wrappedItemId : a.wrappedItemId = b.wrappedItemId
  entry : a.entry = b.entry

theorem Item.SameKind.refl (a : Item) : a.SameKind a := ⟨rfl, rfl, rfl, rfl, rfl⟩

theorem Item.SameKind.trans {a b c : Item} (h₁ : a.SameKind b) (h₂ : b.SameKind c) :
    a.SameKind c where
  proto := h₁.proto.trans h₂.proto
  isContainer := h₁.isContainer.trans h₂.isContainer
  stackCount := h₁.stackCount.trans h₂.stackCount
  wrappedItemId := h₁.wrappedItemId.trans h₂.wrappedItemId
  entry := h₁.entry.trans h₂.entry

theorem Item.sameKind_soulBind (it : Item) : it.soulBind.SameKind it := ⟨rfl, rfl, rfl, rfl, rfl⟩

theorem Item.sameKind_bindOnPickup (it : Item) : it.bindOnPickup.SameKind it := by
  unfold Item.bindOnPickup
  split
  · exact it.sameKind_soulBind
  · exact Item.SameKind.refl it

theorem Item.sameKind_bindOnEquip (it : Item) : it.bindOnEquip.SameKind it := by
  unfold Item.bindOnEquip
  split
  · exact it.sameKind_soulBind
  · exact Item.SameKind.refl it

theorem Item.owner_bindOnPickup (it : Item) : it.bindOnPickup.owner = it.owner := by
  unfold Item.bindOnPickup
  split <;> rfl

theorem Item.owner_bindOnEquip (it : Item) : it.bindOnEquip.owner = it.owner := by
  unfold Item.bindOnEquip
  split <;> rfl

namespace ItemWorld

variable {w w' w'' : ItemWorld} {me : PlayerGuid} {p q : Place} {g x b : Guid} {s i : Nat}

/-- The representation invariant. -/
structure WellFormed (w : ItemWorld) : Prop where
  once : AtMostOnce w.slots
  fields : ∀ p, w.fields p = (w.slots p).getD 0
  topRange : ∀ p s g, w.slots (.top p s) = some g → s < MAX_INVENTORY_SLOT
  topOwner : ∀ p s g, w.slots (.top p s) = some g → (w.item g).owner = some p
  bags : ∀ p s g, w.slots (.top p s) = some g → IsBagSlot s → w.isContainer g = true
  cellRange : ∀ b i g, w.slots (.cell b i) = some g →
    w.isContainer b = true ∧ i < w.containerSlots b
  cellOwner : ∀ b i g, w.slots (.cell b i) = some g → (w.item g).owner = (w.item b).owner
  atTop : ∀ b i g, w.slots (.cell b i) = some g → ∃ p s, w.slots (.top p s) = some b

/-- The same without the clause on the slots for bags: an insertion at a
place the client names may break that one alone. -/
structure Orderly (w : ItemWorld) : Prop where
  once : AtMostOnce w.slots
  fields : ∀ p, w.fields p = (w.slots p).getD 0
  topRange : ∀ p s g, w.slots (.top p s) = some g → s < MAX_INVENTORY_SLOT
  topOwner : ∀ p s g, w.slots (.top p s) = some g → (w.item g).owner = some p
  cellRange : ∀ b i g, w.slots (.cell b i) = some g →
    w.isContainer b = true ∧ i < w.containerSlots b
  cellOwner : ∀ b i g, w.slots (.cell b i) = some g → (w.item g).owner = (w.item b).owner
  atTop : ∀ b i g, w.slots (.cell b i) = some g → ∃ p s, w.slots (.top p s) = some b

theorem WellFormed.orderly (h : w.WellFormed) : w.Orderly :=
  ⟨h.once, h.fields, h.topRange, h.topOwner, h.cellRange, h.cellOwner, h.atTop⟩

theorem Orderly.wellFormed (h : w.Orderly)
    (hbags : ∀ p s g, w.slots (.top p s) = some g → IsBagSlot s → w.isContainer g = true) :
    w.WellFormed :=
  ⟨h.once, h.fields, h.topRange, h.topOwner, hbags, h.cellRange, h.cellOwner, h.atTop⟩

/-- The bag holds nothing. -/
def NoItems (w : ItemWorld) (g : Guid) : Prop := ∀ i, w.slots (.cell g i) = none

theorem wellFormed_empty (item : Guid → Item) (n : Guid) :
    WellFormed ⟨item, fun _ => none, fun _ => 0, n⟩ where
  once := fun _ _ _ h => by cases h
  fields := fun _ => rfl
  topRange := fun _ _ _ h => by cases h
  topOwner := fun _ _ _ h => by cases h
  bags := fun _ _ _ h => by cases h
  cellRange := fun _ _ _ h => by cases h
  cellOwner := fun _ _ _ h => by cases h
  atTop := fun _ _ _ h => by cases h

/-- Only what is in a player's slot holds items. -/
theorem Orderly.noItems_of_not_placed (h : w.Orderly) (hg : ¬ Placed w.slots g) :
    w.NoItems g := by
  intro i
  cases hi : w.slots (.cell g i) with
  | none => rfl
  | some x =>
    obtain ⟨p, s, hs⟩ := h.atTop g i x hi
    exact absurd ⟨_, hs⟩ hg

/-- An item in a bag holds nothing itself. -/
theorem Orderly.noItems_of_cell (h : w.Orderly) (hb : w.slots (.cell b i) = some g) :
    w.NoItems g := by
  intro j
  cases hj : w.slots (.cell g j) with
  | none => rfl
  | some x =>
    obtain ⟨p, s, hs⟩ := h.atTop g j x hj
    have heq := h.once _ _ _ hs hb
    cases heq

/-- The owner of a bag that holds something is the player who has it. -/
theorem WellFormed.bagOwner (h : w.WellFormed) (hg : w.slots (.cell b i) = some g) :
    ∃ p s, w.slots (.top p s) = some b ∧ (w.item b).owner = some p := by
  obtain ⟨p, s, hs⟩ := h.atTop b i g hg
  exact ⟨p, s, hs, h.topOwner p s b hs⟩

/-! ## Writes to the items alone -/

/-- Places and fields are the same, and the items but for their bindings
and what they are contained in. -/
structure SamePlaces (w w' : ItemWorld) : Prop where
  slots : w'.slots = w.slots
  fields : w'.fields = w.fields
  nextGuid : w'.nextGuid = w.nextGuid
  kind : ∀ x, (w'.item x).SameKind (w.item x)
  owner : ∀ x, (w'.item x).owner = (w.item x).owner

theorem SamePlaces.refl (w : ItemWorld) : w.SamePlaces w :=
  ⟨rfl, rfl, rfl, fun _ => Item.SameKind.refl _, fun _ => rfl⟩

theorem SamePlaces.trans (h₁ : w.SamePlaces w') (h₂ : w'.SamePlaces w'') : w.SamePlaces w'' where
  slots := h₂.slots.trans h₁.slots
  fields := h₂.fields.trans h₁.fields
  nextGuid := h₂.nextGuid.trans h₁.nextGuid
  kind := fun x => (h₂.kind x).trans (h₁.kind x)
  owner := fun x => (h₂.owner x).trans (h₁.owner x)

theorem samePlaces_modify {f : Item → Item} (hk : (f (w.item g)).SameKind (w.item g))
    (ho : (f (w.item g)).owner = (w.item g).owner) : w.SamePlaces (w.modify g f) where
  slots := rfl
  fields := rfl
  nextGuid := rfl
  kind := by
    intro x
    by_cases hx : x = g
    · rw [hx, modify_item_self]
      exact hk
    · rw [modify_item_of_ne hx]
      exact Item.SameKind.refl _
  owner := by
    intro x
    by_cases hx : x = g
    · rw [hx, modify_item_self]
      exact ho
    · rw [modify_item_of_ne hx]

/-- The invariant reads the places, the fields, and of each item its
owner, its type and its prototype. -/
theorem Orderly.congr (h : w.Orderly) (hslots : w'.slots = w.slots)
    (hfields : w'.fields = w.fields)
    (hproto : ∀ x, Placed w.slots x → (w'.item x).proto = (w.item x).proto)
    (htype : ∀ x, Placed w.slots x → (w'.item x).isContainer = (w.item x).isContainer)
    (howner : ∀ x, Placed w.slots x → (w'.item x).owner = (w.item x).owner) : w'.Orderly where
  once := by
    rw [hslots]
    exact h.once
  fields := by
    rw [hslots, hfields]
    exact h.fields
  topRange := by
    rw [hslots]
    exact h.topRange
  topOwner := by
    rw [hslots]
    intro p s g hg
    rw [howner g ⟨_, hg⟩]
    exact h.topOwner p s g hg
  cellRange := by
    rw [hslots]
    intro b i g hg
    obtain ⟨p, s, hs⟩ := h.atTop b i g hg
    unfold isContainer containerSlots
    rw [htype b ⟨_, hs⟩, hproto b ⟨_, hs⟩]
    exact h.cellRange b i g hg
  cellOwner := by
    rw [hslots]
    intro b i g hg
    obtain ⟨p, s, hs⟩ := h.atTop b i g hg
    rw [howner g ⟨_, hg⟩, howner b ⟨_, hs⟩]
    exact h.cellOwner b i g hg
  atTop := by
    rw [hslots]
    exact h.atTop

theorem WellFormed.congr (h : w.WellFormed) (hslots : w'.slots = w.slots)
    (hfields : w'.fields = w.fields)
    (hproto : ∀ x, (w'.item x).proto = (w.item x).proto)
    (htype : ∀ x, (w'.item x).isContainer = (w.item x).isContainer)
    (howner : ∀ x, Placed w.slots x → (w'.item x).owner = (w.item x).owner) : w'.WellFormed := by
  refine (h.orderly.congr hslots hfields (fun x _ => hproto x) (fun x _ => htype x)
    howner).wellFormed ?_
  rw [hslots]
  intro p s g hg hs
  unfold isContainer
  rw [htype]
  exact h.bags p s g hg hs

/-- A write to an item that is nowhere. -/
theorem Orderly.modify_of_not_placed (h : w.Orderly) (hg : ¬ Placed w.slots g)
    {f : Item → Item} : (w.modify g f).Orderly := by
  have hitem : ∀ x, Placed w.slots x → (w.modify g f).item x = w.item x := by
    intro x hx
    refine modify_item_of_ne ?_
    rintro rfl
    exact hg hx
  refine h.congr rfl rfl ?_ ?_ ?_
  · intro x hx
    rw [hitem x hx]
  · intro x hx
    rw [hitem x hx]
  · intro x hx
    rw [hitem x hx]

theorem WellFormed.modify_of_not_placed (h : w.WellFormed) (hg : ¬ Placed w.slots g)
    {f : Item → Item} : (w.modify g f).WellFormed := by
  refine (h.orderly.modify_of_not_placed hg).wellFormed ?_
  intro p s x hx hs
  have hxg : x ≠ g := by
    rintro rfl
    exact hg ⟨_, hx⟩
  unfold isContainer
  rw [modify_item_of_ne hxg]
  exact h.bags p s x hx hs

/-! ## Adding an item -/

/-- A place of the player: a slot, or a cell of a bag in one. -/
inductive PlaceOf (w : ItemWorld) (me : PlayerGuid) : Place → Prop
  | top (s : Nat) : s < MAX_INVENTORY_SLOT → PlaceOf w me (.top me s)
  | cell (s : Nat) (b : Guid) (i : Nat) : w.slots (.top me s) = some b →
      w.isContainer b = true → i < w.containerSlots b → PlaceOf w me (.cell b i)

/-- `w'` is `w` with the item `g` at the empty place `p` of the player. -/
structure AddsAt (w : ItemWorld) (me : PlayerGuid) (g : Guid) (p : Place) (w' : ItemWorld) :
    Prop where
  place : w.PlaceOf me p
  empty : w.slots p = none
  slots : w'.slots = Function.update w.slots p (some g)
  fields : w'.fields = Function.update w.fields p g
  nextGuid : w'.nextGuid = w.nextGuid
  others : ∀ x, x ≠ g → w'.item x = w.item x
  kind : (w'.item g).SameKind (w.item g)
  owner : (w'.item g).owner = some me

theorem AddsAt.kinds (h : w.AddsAt me g p w') (x : Guid) : (w'.item x).SameKind (w.item x) := by
  by_cases hx : x = g
  · rw [hx]
    exact h.kind
  · rw [h.others x hx]
    exact Item.SameKind.refl _

theorem AddsAt.isContainer (h : w.AddsAt me g p w') (x : Guid) :
    w'.isContainer x = w.isContainer x := (h.kinds x).isContainer

theorem AddsAt.containerSlots (h : w.AddsAt me g p w') (x : Guid) :
    w'.containerSlots x = w.containerSlots x := by
  unfold ItemWorld.containerSlots
  rw [(h.kinds x).proto]

/-- What is at a place after the addition. -/
theorem AddsAt.cases (h : w.AddsAt me g p w') (hq : w'.slots q = some x) :
    (q = p ∧ x = g) ∨ (q ≠ p ∧ w.slots q = some x) := by
  rw [h.slots] at hq
  by_cases hqp : q = p
  · rw [hqp, Function.update_self] at hq
    exact Or.inl ⟨hqp, (Option.some.inj hq).symm⟩
  · rw [Function.update_of_ne hqp] at hq
    exact Or.inr ⟨hqp, hq⟩

/-- What was there is still there. -/
theorem AddsAt.keeps (h : w.AddsAt me g p w') (hq : w.slots q = some x) :
    w'.slots q = some x := by
  have hqp : q ≠ p := by
    rintro rfl
    rw [h.empty] at hq
    cases hq
  rw [h.slots, Function.update_of_ne hqp, hq]

theorem AddsAt.at (h : w.AddsAt me g p w') : w'.slots p = some g := by
  rw [h.slots, Function.update_self]

theorem AddsAt.placed (h : w.AddsAt me g p w') :
    Placed w'.slots x ↔ x = g ∨ Placed w.slots x := by
  rw [h.slots]
  exact placed_put h.empty

theorem AddsAt.orderly (h : w.AddsAt me g p w') (hw : w.Orderly) (hg : ¬ Placed w.slots g) :
    w'.Orderly where
  once := by
    rw [h.slots]
    exact hw.once.put hg
  fields := by
    intro q
    rw [h.slots, h.fields]
    by_cases hqp : q = p
    · rw [hqp, Function.update_self, Function.update_self]
      rfl
    · rw [Function.update_of_ne hqp, Function.update_of_ne hqp]
      exact hw.fields q
  topRange := by
    intro p' s x hx
    rcases h.cases hx with ⟨hp, -⟩ | ⟨-, hold⟩
    · have hplace := h.place
      rw [← hp] at hplace
      cases hplace with
      | top _ hs => exact hs
    · exact hw.topRange p' s x hold
  topOwner := by
    intro p' s x hx
    rcases h.cases hx with ⟨hp, rfl⟩ | ⟨-, hold⟩
    · have hplace := h.place
      rw [← hp] at hplace
      cases hplace with
      | top _ hs => exact h.owner
    · have hxg : x ≠ g := by
        rintro rfl
        exact hg ⟨_, hold⟩
      rw [h.others x hxg]
      exact hw.topOwner p' s x hold
  cellRange := by
    intro b i x hx
    rw [h.isContainer, h.containerSlots]
    rcases h.cases hx with ⟨hp, -⟩ | ⟨-, hold⟩
    · have hplace := h.place
      rw [← hp] at hplace
      cases hplace with
      | cell s _ _ _ hb hi => exact ⟨hb, hi⟩
    · exact hw.cellRange b i x hold
  cellOwner := by
    intro b i x hx
    rcases h.cases hx with ⟨hp, rfl⟩ | ⟨-, hold⟩
    · have hplace := h.place
      rw [← hp] at hplace
      cases hplace with
      | cell s _ _ hs hb hi =>
        have hbx : b ≠ x := by
          rintro rfl
          exact hg ⟨_, hs⟩
        rw [h.owner, h.others b hbx]
        exact (hw.topOwner me s b hs).symm
    · obtain ⟨p', s, hs⟩ := hw.atTop b i x hold
      have hxg : x ≠ g := by
        rintro rfl
        exact hg ⟨_, hold⟩
      have hbg : b ≠ g := by
        rintro rfl
        exact hg ⟨_, hs⟩
      rw [h.others x hxg, h.others b hbg]
      exact hw.cellOwner b i x hold
  atTop := by
    intro b i x hx
    rcases h.cases hx with ⟨hp, rfl⟩ | ⟨-, hold⟩
    · have hplace := h.place
      rw [← hp] at hplace
      cases hplace with
      | cell s _ _ hs _ _ => exact ⟨me, s, h.keeps hs⟩
    · obtain ⟨p', s, hs⟩ := hw.atTop b i x hold
      exact ⟨p', s, h.keeps hs⟩

theorem AddsAt.wellFormed (h : w.AddsAt me g p w') (hw : w.WellFormed)
    (hg : ¬ Placed w.slots g)
    (hbag : ∀ s, p = .top me s → IsBagSlot s → w.isContainer g = true) : w'.WellFormed := by
  refine (h.orderly hw.orderly hg).wellFormed ?_
  intro p' s x hx hs
  rw [h.isContainer]
  rcases h.cases hx with ⟨hp, rfl⟩ | ⟨-, hold⟩
  · have hplace := h.place
    rw [← hp] at hplace
    cases hplace with
    | top _ _ => exact hbag s hp.symm hs
  · exact hw.bags p' s x hold hs

/-! ## Removing an item -/

/-- `w'` is `w` with the place `p` of the item `g` emptied. -/
structure RemovesAt (w : ItemWorld) (p : Place) (g : Guid) (w' : ItemWorld) : Prop where
  held : w.slots p = some g
  noItems : w.NoItems g
  slots : w'.slots = Function.update w.slots p none
  fields : w'.fields = Function.update w.fields p 0
  nextGuid : w'.nextGuid = w.nextGuid
  others : ∀ x, x ≠ g → w'.item x = w.item x
  kind : (w'.item g).SameKind (w.item g)

theorem RemovesAt.kinds (h : w.RemovesAt p g w') (x : Guid) :
    (w'.item x).SameKind (w.item x) := by
  by_cases hx : x = g
  · rw [hx]
    exact h.kind
  · rw [h.others x hx]
    exact Item.SameKind.refl _

/-- What a place holds afterwards it held before. -/
theorem RemovesAt.of (h : w.RemovesAt p g w') (hq : w'.slots q = some x) :
    q ≠ p ∧ w.slots q = some x := by
  rw [h.slots] at hq
  exact of_clear hq

theorem RemovesAt.keeps (h : w.RemovesAt p g w') (hqp : q ≠ p) : w'.slots q = w.slots q := by
  rw [h.slots, Function.update_of_ne hqp]

theorem RemovesAt.placed (h : w.RemovesAt p g w') (hw : w.Orderly) :
    Placed w'.slots x ↔ x ≠ g ∧ Placed w.slots x := by
  rw [h.slots]
  exact placed_clear hw.once h.held

theorem RemovesAt.not_placed (h : w.RemovesAt p g w') (hw : w.Orderly) :
    ¬ Placed w'.slots g := by
  intro hg
  exact ((h.placed hw).1 hg).1 rfl

/-- The other items that were there, at a place or as a bag. -/
theorem RemovesAt.ne (h : w.RemovesAt p g w') (hw : w.Orderly) (hq : w'.slots q = some x) :
    x ≠ g := by
  rintro rfl
  exact h.not_placed hw ⟨q, hq⟩

theorem RemovesAt.orderly (h : w.RemovesAt p g w') (hw : w.Orderly) : w'.Orderly where
  once := by
    rw [h.slots]
    exact hw.once.clear
  fields := by
    intro q
    rw [h.slots, h.fields]
    by_cases hqp : q = p
    · rw [hqp, Function.update_self, Function.update_self]
      rfl
    · rw [Function.update_of_ne hqp, Function.update_of_ne hqp]
      exact hw.fields q
  topRange := fun p' s x hx => hw.topRange p' s x (h.of hx).2
  topOwner := by
    intro p' s x hx
    rw [h.others x (h.ne hw hx)]
    exact hw.topOwner p' s x (h.of hx).2
  cellRange := by
    intro b i x hx
    unfold isContainer containerSlots
    rw [(h.kinds b).isContainer, (h.kinds b).proto]
    exact hw.cellRange b i x (h.of hx).2
  cellOwner := by
    intro b i x hx
    have hold := (h.of hx).2
    have hbg : b ≠ g := by
      rintro rfl
      rw [h.noItems i] at hold
      cases hold
    rw [h.others x (h.ne hw hx), h.others b hbg]
    exact hw.cellOwner b i x hold
  atTop := by
    intro b i x hx
    have hold := (h.of hx).2
    obtain ⟨p', s, hs⟩ := hw.atTop b i x hold
    have hne : (Place.top p' s) ≠ p := by
      rintro rfl
      obtain rfl := Option.some.inj (hs.symm.trans h.held)
      rw [h.noItems i] at hold
      cases hold
    exact ⟨p', s, (h.keeps hne).trans hs⟩

theorem RemovesAt.wellFormed (h : w.RemovesAt p g w') (hw : w.WellFormed) : w'.WellFormed := by
  refine (h.orderly hw.orderly).wellFormed ?_
  intro p' s x hx hs
  unfold isContainer
  rw [(h.kinds x).isContainer]
  exact hw.bags p' s x (h.of hx).2 hs

/-! ## Exchanging two places -/

/-- Two slots of one player, or two cells of one bag. -/
inductive Siblings (w : ItemWorld) : Place → Place → Prop
  | tops (p : PlayerGuid) (s t : Nat) : s < MAX_INVENTORY_SLOT → t < MAX_INVENTORY_SLOT →
      Siblings w (.top p s) (.top p t)
  | cells (b : Guid) (i j : Nat) : i < w.containerSlots b → j < w.containerSlots b →
      Siblings w (.cell b i) (.cell b j)

/-- `w'` is `w` with the contents of two places exchanged. -/
structure Exchanges (w : ItemWorld) (p q : Place) (w' : ItemWorld) : Prop where
  siblings : w.Siblings p q
  slots : w'.slots = w.slots ∘ Equiv.swap p q
  fields : w'.fields = w.fields ∘ Equiv.swap p q
  nextGuid : w'.nextGuid = w.nextGuid
  kind : ∀ x, (w'.item x).SameKind (w.item x)
  owner : ∀ x, (w'.item x).owner = (w.item x).owner

/-- An exchange takes a slot of a player to a slot of that player. -/
theorem Siblings.swap_top (h : w.Siblings p q) (a : PlayerGuid) (s : Nat) :
    ∃ t, Equiv.swap p q (.top a s) = .top a t ∧
      (t < MAX_INVENTORY_SLOT → s < MAX_INVENTORY_SLOT) := by
  cases h with
  | tops a' s' t' hs ht =>
    by_cases h₁ : Place.top a s = .top a' s'
    · injection h₁ with ha hs'
      refine ⟨t', by rw [ha, hs', Equiv.swap_apply_left], fun _ => hs' ▸ hs⟩
    · by_cases h₂ : Place.top a s = .top a' t'
      · injection h₂ with ha ht'
        refine ⟨s', by rw [ha, ht', Equiv.swap_apply_right], fun _ => ht' ▸ ht⟩
      · exact ⟨s, Equiv.swap_apply_of_ne_of_ne h₁ h₂, id⟩
  | cells b i j _ _ =>
    exact ⟨s, Equiv.swap_apply_of_ne_of_ne (by simp) (by simp), id⟩

/-- And a cell of a bag to a cell of that bag. -/
theorem Siblings.swap_cell (h : w.Siblings p q) (b : Guid) (i : Nat) :
    ∃ j, Equiv.swap p q (.cell b i) = .cell b j ∧
      (j < w.containerSlots b → i < w.containerSlots b) := by
  cases h with
  | tops a s t _ _ =>
    exact ⟨i, Equiv.swap_apply_of_ne_of_ne (by simp) (by simp), id⟩
  | cells b' i' j' hi hj =>
    by_cases h₁ : Place.cell b i = .cell b' i'
    · injection h₁ with hb hi'
      subst hb hi'
      exact ⟨j', by rw [Equiv.swap_apply_left], fun _ => hi⟩
    · by_cases h₂ : Place.cell b i = .cell b' j'
      · injection h₂ with hb hj'
        subst hb hj'
        exact ⟨i', by rw [Equiv.swap_apply_right], fun _ => hj⟩
      · exact ⟨i, Equiv.swap_apply_of_ne_of_ne h₁ h₂, id⟩

theorem Exchanges.at (h : w.Exchanges p q w') (r : Place) :
    w'.slots r = w.slots (Equiv.swap p q r) := by
  rw [h.slots]
  rfl

theorem Exchanges.wellFormed (h : w.Exchanges p q w') (hw : w.WellFormed)
    (hp : ∀ a s x, p = .top a s → IsBagSlot s → w.slots q = some x → w.isContainer x = true)
    (hq : ∀ a s x, q = .top a s → IsBagSlot s → w.slots p = some x → w.isContainer x = true) :
    w'.WellFormed where
  once := by
    rw [h.slots]
    exact hw.once.comp _
  fields := by
    intro r
    rw [h.slots, h.fields]
    exact hw.fields _
  topRange := by
    intro a s x hx
    obtain ⟨t, ht, hrange⟩ := h.siblings.swap_top a s
    rw [h.at, ht] at hx
    exact hrange (hw.topRange a t x hx)
  topOwner := by
    intro a s x hx
    obtain ⟨t, ht, -⟩ := h.siblings.swap_top a s
    rw [h.at, ht] at hx
    rw [h.owner]
    exact hw.topOwner a t x hx
  bags := by
    intro a s x hx hs
    rw [h.at] at hx
    unfold isContainer
    rw [(h.kind x).isContainer]
    by_cases h₁ : Place.top a s = p
    · rw [h₁, Equiv.swap_apply_left] at hx
      exact hp a s x h₁.symm hs hx
    · by_cases h₂ : Place.top a s = q
      · rw [h₂, Equiv.swap_apply_right] at hx
        exact hq a s x h₂.symm hs hx
      · rw [Equiv.swap_apply_of_ne_of_ne h₁ h₂] at hx
        exact hw.bags a s x hx hs
  cellRange := by
    intro b i x hx
    obtain ⟨j, hj, hrange⟩ := h.siblings.swap_cell b i
    rw [h.at, hj] at hx
    unfold isContainer containerSlots
    rw [(h.kind b).isContainer, (h.kind b).proto]
    obtain ⟨hb, hlt⟩ := hw.cellRange b j x hx
    exact ⟨hb, hrange hlt⟩
  cellOwner := by
    intro b i x hx
    obtain ⟨j, hj, -⟩ := h.siblings.swap_cell b i
    rw [h.at, hj] at hx
    rw [h.owner, h.owner]
    exact hw.cellOwner b j x hx
  atTop := by
    intro b i x hx
    obtain ⟨j, hj, -⟩ := h.siblings.swap_cell b i
    rw [h.at, hj] at hx
    obtain ⟨a, s, hs⟩ := hw.atTop b j x hx
    obtain ⟨t, ht, -⟩ := h.siblings.swap_top a s
    refine ⟨a, t, ?_⟩
    rw [h.at, ← ht, Equiv.swap_apply_self, hs]

/-! ## Inventories written down -/

/-- The world in which the items are at the listed places. -/
def ofPlaces (item : Guid → Item) (l : List (Place × Guid)) (nextGuid : Guid) : ItemWorld where
  item := item
  slots := fun p => (l.find? fun e => e.1 = p).map Prod.snd
  fields := fun p => ((l.find? fun e => e.1 = p).map Prod.snd).getD 0
  nextGuid := nextGuid

/-- The place exists: a slot of the player, or a cell of a bag in one. -/
def Listed (item : Guid → Item) (me : PlayerGuid) (l : List (Place × Guid)) : Place → Prop
  | .top p s => p = me ∧ s < MAX_INVENTORY_SLOT
  | .cell b i => (item b).isContainer = true ∧ i < (item b).proto.containerSlots ∧
      (item b).owner = some me ∧
      ∃ s ∈ List.range MAX_INVENTORY_SLOT, (ofPlaces item l 0).slots (.top me s) = some b

instance (item : Guid → Item) (me : PlayerGuid) (l : List (Place × Guid)) :
    DecidablePred (Listed item me l)
  | .top p s => inferInstanceAs (Decidable (p = me ∧ s < MAX_INVENTORY_SLOT))
  | .cell b i => inferInstanceAs (Decidable ((item b).isContainer = true ∧
      i < (item b).proto.containerSlots ∧ (item b).owner = some me ∧
      ∃ s ∈ List.range MAX_INVENTORY_SLOT, (ofPlaces item l 0).slots (.top me s) = some b))

theorem slots_ofPlaces {item : Guid → Item} {l : List (Place × Guid)} {n : Guid}
    (h : (ofPlaces item l n).slots p = some g) : (p, g) ∈ l := by
  obtain ⟨e, he, rfl⟩ := Option.map_eq_some_iff.1 h
  have hp : e.1 = p := by simpa using List.find?_some he
  rw [← hp]
  exact List.mem_of_find?_eq_some he

theorem numbered_ofPlaces {item : Guid → Item} {l : List (Place × Guid)} {n : Guid}
    (hl : ∀ e ∈ l, e.2 < n) (g : Guid) (h : Placed (ofPlaces item l n).slots g) : g < n := by
  obtain ⟨p, hp⟩ := h
  exact hl _ (slots_ofPlaces hp)

theorem orderly_ofPlaces (me : PlayerGuid) {item : Guid → Item} {l : List (Place × Guid)} {n : Guid}
    (hl : (l.map Prod.snd).Nodup)
    (hplaces : ∀ e ∈ l, Listed item me l e.1 ∧ (item e.2).owner = some me) :
    (ofPlaces item l n).Orderly where
  once := by
    intro p q g hp hq
    have heq := List.inj_on_of_nodup_map hl (slots_ofPlaces hp) (slots_ofPlaces hq) rfl
    exact congrArg Prod.fst heq
  fields := fun _ => rfl
  topRange := fun _ _ _ h => (hplaces _ (slots_ofPlaces h)).1.2
  topOwner := by
    intro a s g h
    obtain ⟨⟨rfl, -⟩, howner⟩ := hplaces _ (slots_ofPlaces h)
    exact howner
  cellRange := by
    intro b i g h
    obtain ⟨⟨hcont, hi, -⟩, -⟩ := hplaces _ (slots_ofPlaces h)
    exact ⟨hcont, hi⟩
  cellOwner := by
    intro b i g h
    obtain ⟨⟨-, -, hb, -⟩, hg⟩ := hplaces _ (slots_ofPlaces h)
    exact hg.trans hb.symm
  atTop := by
    intro b i g h
    obtain ⟨⟨-, -, -, s, -, hs⟩, -⟩ := hplaces _ (slots_ofPlaces h)
    exact ⟨me, s, hs⟩

end ItemWorld

end HearthStone
