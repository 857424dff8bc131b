/-
HearthStone.Item.ItemCount — what `GetItemCount` counts.

* `unitsAt`, `total` — the units at a place, and over all places.
* `getItemCount_eq` — `GetItemCount` is the total, in 32 bits; a stack of
  none counts as one.
* `Drained.total_eq`, `sum_at_one` — the total of what is left, over the
  places of the world before.
-/
import Mathlib
import HearthStone.Item.FreeSlotCount
import HearthStone.Item.RemovalLoops

namespace HearthStone

open Lib

namespace ItemWorld

variable {w v : ItemWorld} {me : PlayerGuid} {id amt : UInt32} {g : Guid} {p : Place}

/-! ## Units -/

/-- The item counts for the entry where it is: a gift does not, nor does
what is in a bag that is one. -/
def Counts (w : ItemWorld) (id : UInt32) (p : Place) (g : Guid) : Bool :=
  match p with
  | .top _ _ => (w.item g).isEntry id
  | .cell bag _ => (w.item g).entry = id && (w.item bag).wrappedItemId = 0

def unitsAt (w : ItemWorld) (id : UInt32) (p : Place) : Nat :=
  match w.slots p with
  | none => 0
  | some g => if w.Counts id p g then (w.units g).toNat else 0

/-- The places `GetItemCount` looks at without the bank. -/
def countPlaces (w : ItemWorld) (me : PlayerGuid) : List Place :=
  topPlaces me EQUIPMENT_SLOT_START INVENTORY_SLOT_ITEM_END ++
    (w.bagPlaces me (fun _ => true) ++ topPlaces me INVENTORY_KEYRING_START INVENTORY_KEYRING_END)

def total (w : ItemWorld) (me : PlayerGuid) (id : UInt32) : Nat :=
  ∑ p ∈ (w.countPlaces me).toFinset, w.unitsAt id p

theorem nodup_countPlaces (hw : w.Orderly) : (w.countPlaces me).Nodup := by
  refine List.nodup_append'.2 ⟨nodup_topPlaces,
    List.nodup_append'.2 ⟨nodup_bagPlaces hw, nodup_topPlaces, ?_⟩, ?_⟩
  · intro p hp hp'
    obtain ⟨i, b, j, -, -, -, -, rfl⟩ := mem_bagPlaces.1 hp
    obtain ⟨s, -, -, heq⟩ := mem_topPlaces.1 hp'
    cases heq
  · intro p hp hp'
    obtain ⟨s, -, hlt, rfl⟩ := mem_topPlaces.1 hp
    rcases List.mem_append.1 hp' with hp' | hp'
    · obtain ⟨i, b, j, -, -, -, -, heq⟩ := mem_bagPlaces.1 hp'
      cases heq
    · obtain ⟨t, hge, -, heq⟩ := mem_topPlaces.1 hp'
      injection heq with _ hst
      unfold INVENTORY_SLOT_ITEM_END at hlt
      unfold INVENTORY_KEYRING_START at hge
      omega

/-! ## `GetItemCount` -/

theorem foldl_count {α : Type} (f : α → Nat) (l : List α) (cnt : UInt32) :
    l.foldl (fun cnt a => cnt + UInt32.ofNat (f a)) cnt = cnt + UInt32.ofNat (l.map f).sum := by
  induction l generalizing cnt with
  | nil => simp
  | cons a l ih =>
    rw [List.foldl_cons, ih, List.map_cons, List.sum_cons, UInt32.ofNat_add, UInt32.add_assoc]

theorem ofNat_units (g : Guid) : UInt32.ofNat (w.units g).toNat = w.units g :=
  UInt32.ofNat_toNat

theorem countTops_eq (test : Item → Bool) (htest : ∀ it : Item, test it = it.isEntry id) {a b : Nat}
    (hb : b ≤ MAX_INVENTORY_SLOT) (cnt : UInt32) : w.countTops me test a b cnt =
      cnt + UInt32.ofNat ((topPlaces me a b).map (w.unitsAt id)).sum := by
  unfold countTops topPlaces
  rw [List.map_map, ← foldl_count]
  refine List.foldl_ext _ _ _ fun cnt i hi => ?_
  have hlt := (mem_slotRange.1 hi).2
  unfold getInventoryItem
  rw [if_neg (by omega), Int.toNat_natCast]
  dsimp only [Function.comp_apply]
  unfold unitsAt Counts
  cases w.slots (.top me i) with
  | none => simp
  | some g =>
    dsimp only
    rw [htest]
    by_cases ht : (w.item g).isEntry id = true
    · rw [if_pos ht, if_pos ht, ofNat_units]
    · rw [if_neg ht, if_neg ht]
      simp

theorem sum_flatMap {α : Type} (f : α → List Place) (h : Place → Nat) (l : List α) :
    ((l.flatMap f).map h).sum = (l.map fun a => ((f a).map h).sum).sum := by
  induction l with
  | nil => rfl
  | cons a l ih => simp [ih]

/-- A count of the cells of the bags in a range, with what the count makes
of a cell. -/
theorem countBags_sum (test : Item → Bool) {u : Place → Nat}
    (hu : ∀ bag (j : Nat), u (.cell bag j) =
      match w.slots (.cell bag j) with
      | none => 0
      | some g => if test (w.item g) && decide ((w.item bag).wrappedItemId = 0)
          then (w.units g).toNat else 0)
    {a b : Nat} (hb : b ≤ MAX_INVENTORY_SLOT) (cnt : UInt32) :
    w.countBags me test a b cnt = cnt + UInt32.ofNat
      (((slotRange a b).flatMap (w.cellPlaces me fun _ => true)).map u).sum := by
  rw [sum_flatMap, ← foldl_count]
  refine List.foldl_ext _ _ _ fun cnt i hi => ?_
  have hlt := (mem_slotRange.1 hi).2
  unfold getInventoryItem
  rw [if_neg (by omega), Int.toNat_natCast]
  unfold cellPlaces bagAt
  cases w.slots (.top me i) with
  | none => simp
  | some bag =>
    dsimp only
    by_cases hcont : w.isContainer bag = true
    · rw [if_pos hcont, hcont]
      simp only [Bool.and_self, if_true]
      rw [List.map_map, ← foldl_count]
      refine List.foldl_ext _ _ _ fun cnt j hj => ?_
      rw [getItem_of_lt (mem_slotRange.1 hj).2]
      dsimp only [Function.comp_apply]
      rw [hu]
      cases w.slots (.cell bag j) with
      | none => simp
      | some g =>
        dsimp only
        by_cases ht : (test (w.item g) && decide ((w.item bag).wrappedItemId = 0)) = true
        · rw [if_pos ht, if_pos ht, ofNat_units]
        · rw [if_neg ht, if_neg ht]
          simp
    · rw [if_neg hcont]
      simp [hcont]

theorem countBags_eq {a b : Nat} (hb : b ≤ MAX_INVENTORY_SLOT) (cnt : UInt32) :
    w.countBags me (·.entry = id) a b cnt = cnt + UInt32.ofNat
      (((slotRange a b).flatMap (w.cellPlaces me fun _ => true)).map (w.unitsAt id)).sum :=
  countBags_sum _ (fun _ _ => rfl) hb cnt

/-- `GetItemCount` is the total, and what does not fit into 32 bits is
lost. -/
theorem getItemCount_eq (hw : w.Orderly) :
    w.getItemCount me id false = UInt32.ofNat (w.total me id) := by
  unfold getItemCount
  rw [if_neg Bool.false_ne_true, countTops_eq (·.isEntry id) (fun _ => rfl) (by decide),
    countBags_eq (by decide), countTops_eq (·.isProto id) (Item.isProto_eq id) (by decide)]
  unfold total
  rw [List.sum_toFinset _ (nodup_countPlaces hw)]
  unfold countPlaces bagPlaces
  rw [List.map_append, List.map_append, List.sum_append, List.sum_append, UInt32.ofNat_add,
    UInt32.ofNat_add, ← UInt32.add_assoc]
  simp

/-! ## What is left of the units -/

theorem Drained.counts (h : w.Drained v) (p : Place) (g : Guid) :
    v.Counts id p g = w.Counts id p g := by
  unfold Counts
  cases p with
  | top _ _ => exact isEntry_like (h.like g)
  | cell bag _ =>
    dsimp only
    rw [(h.like g).entry, (h.like bag).wrappedItemId]

theorem mem_countPlaces : p ∈ w.countPlaces me ↔
    (∃ s, (s < INVENTORY_SLOT_ITEM_END ∨ INVENTORY_KEYRING_START ≤ s ∧ s < INVENTORY_KEYRING_END) ∧
        p = .top me s) ∨
      ∃ i b j, INVENTORY_SLOT_BAG_START ≤ i ∧ i < INVENTORY_SLOT_BAG_END ∧
        w.slots (.top me i) = some b ∧ w.isContainer b = true ∧ j < w.containerSlots b ∧
        p = .cell b j := by
  unfold countPlaces
  rw [List.mem_append, List.mem_append, mem_topPlaces, mem_topPlaces, mem_bagPlaces]
  constructor
  · rintro (⟨s, -, hlt, rfl⟩ | ⟨i, b, j, hge, hlt, hb, hj, rfl⟩ | ⟨s, hge, hlt, rfl⟩)
    · exact Or.inl ⟨s, Or.inl hlt, rfl⟩
    · obtain ⟨htop, hcont, -⟩ := bagAt_spec hb
      exact Or.inr ⟨i, b, j, hge, hlt, htop, hcont, hj, rfl⟩
    · exact Or.inl ⟨s, Or.inr ⟨hge, hlt⟩, rfl⟩
  · rintro (⟨s, hlt | ⟨hge, hlt⟩, rfl⟩ | ⟨i, b, j, hge, hlt, htop, hcont, hj, rfl⟩)
    · exact Or.inl ⟨s, Nat.zero_le s, hlt, rfl⟩
    · exact Or.inr (Or.inr ⟨s, hge, hlt, rfl⟩)
    · refine Or.inr (Or.inl ⟨i, b, j, hge, hlt, ?_, hj, rfl⟩)
      unfold bagAt
      rw [htop]
      simp [hcont]

theorem Drained.mem_countPlaces (h : w.Drained v) (hp : p ∈ v.countPlaces me) :
    p ∈ w.countPlaces me := by
  rw [ItemWorld.mem_countPlaces] at hp ⊢
  rcases hp with hp | ⟨i, b, j, hge, hlt, htop, hcont, hj, rfl⟩
  · exact Or.inl hp
  · rw [h.isContainer] at hcont
    rw [h.containerSlots] at hj
    exact Or.inr ⟨i, b, j, hge, hlt, h.sub _ _ htop, hcont, hj, rfl⟩

/-- A bag that has gone had nothing in it. -/
theorem Drained.mem_countPlaces_of (h : w.Drained v) (hw : w.Orderly)
    (hp : p ∈ w.countPlaces me) (hv : v.slots p = some g) : p ∈ v.countPlaces me := by
  rw [ItemWorld.mem_countPlaces] at hp ⊢
  rcases hp with hp | ⟨i, b, j, hge, hlt, htop, hcont, hj, rfl⟩
  · exact Or.inl hp
  · -- the bag is still at some place, and that was its place before
    obtain ⟨q, t, ht⟩ := h.orderly.atTop b j g hv
    have hplace := hw.once _ _ _ (h.sub _ _ ht) htop
    rw [hplace] at ht
    rw [← h.isContainer] at hcont
    rw [← h.containerSlots] at hj
    exact Or.inr ⟨i, b, j, hge, hlt, ht, hcont, hj, rfl⟩

/-- The total may be taken over the places of the world before. -/
theorem Drained.total_eq (h : w.Drained v) (hw : w.Orderly) (me : PlayerGuid) (id : UInt32) :
    v.total me id = ∑ p ∈ (w.countPlaces me).toFinset, v.unitsAt id p := by
  refine Finset.sum_subset ?_ ?_
  · intro p hp
    rw [List.mem_toFinset] at hp ⊢
    exact h.mem_countPlaces hp
  · intro p hp hp'
    rw [List.mem_toFinset] at hp hp'
    unfold unitsAt
    cases hv : v.slots p with
    | none => rfl
    | some g => exact absurd (h.mem_countPlaces_of hw hp hv) hp'

theorem unitsAt_congr (h : w.Drained v) (hslots : v.slots p = w.slots p)
    (hcount : ∀ x, w.slots p = some x → v.stackCount x = w.stackCount x) :
    v.unitsAt id p = w.unitsAt id p := by
  unfold unitsAt
  rw [hslots]
  cases hx : w.slots p with
  | none => rfl
  | some x =>
    dsimp only
    rw [h.counts]
    unfold units
    rw [hcount x hx]

theorem unitsAt_of_counts (hg : w.slots p = some g) (hc : w.Counts id p g = true)
    (hne : w.stackCount g ≠ 0) : w.unitsAt id p = (w.stackCount g).toNat := by
  unfold unitsAt
  rw [hg]
  dsimp only
  rw [if_pos hc]
  unfold units
  rw [if_pos hne]

/-- Sums that differ at one place. -/
theorem sum_at_one {F : Finset Place} {f f' : Place → Nat} (hp : p ∈ F)
    (h : ∀ q, q ≠ p → f q = f' q) : ∑ q ∈ F, f q + f' p = ∑ q ∈ F, f' q + f p := by
  have hf := Finset.add_sum_erase F f hp
  have hf' := Finset.add_sum_erase F f' hp
  have hrest : ∑ q ∈ F.erase p, f q = ∑ q ∈ F.erase p, f' q :=
    Finset.sum_congr rfl fun q hq => h q (Finset.ne_of_mem_erase hq)
  omega

end ItemWorld

end HearthStone
