/-
HearthStone.Item.OwnedCount — what `GetItemCount` counts with the bank,
and what a change at one place makes of it.

* `owned`, `getItemCount_bank` — the units of an entry, and that they are
  what `GetItemCount` counts, in 32 bits.
* `Counted` — a place whose items count.
* `AltersAt` — a world differs from another at one place.
* `AltersAt.owned` — the counts differ by what lies there.
-/
import HearthStone.Item.ItemCount

namespace HearthStone

open Lib

namespace ItemWorld

section

variable (w : ItemWorld) (me : PlayerGuid) (id : UInt32)

/-- The cells of the bags in a range of slots. -/
def bagCells (a b : Nat) : List Place := (slotRange a b).flatMap (w.cellPlaces me fun _ => true)

/-- The places in the bank that `GetItemCount` looks at. -/
def bankPlaces : List Place :=
  topPlaces me BANK_SLOT_ITEM_START BANK_SLOT_BAG_END ++
    w.bagCells me BANK_SLOT_BAG_START BANK_SLOT_BAG_END

/-- In a bag in the bank an item counts for its prototype, a gift too. -/
def BankCounts (p : Place) (g : Guid) : Bool :=
  match p with
  | .top _ _ => (w.item g).isEntry id
  | .cell bag _ => (w.item g).proto.itemId = id && (w.item bag).wrappedItemId = 0

def bankUnitsAt (p : Place) : Nat :=
  match w.slots p with
  | none => 0
  | some g => if w.BankCounts id p g then (w.units g).toNat else 0

/-- The units of an entry, in the inventory and in the bank. -/
def owned : Nat :=
  ((w.countPlaces me).map (w.unitsAt id)).sum + ((w.bankPlaces me).map (w.bankUnitsAt id)).sum

/-- The place is not in a bag that is a gift. -/
def inPlainBag : Place → Bool
  | .top _ _ => true
  | .cell bag _ => (w.item bag).wrappedItemId = 0

/-- What lies at the place counts. -/
def Counted (p : Place) : Prop :=
  (p ∈ w.countPlaces me ∨ p ∈ w.bankPlaces me) ∧ w.inPlainBag p = true

instance (p : Place) : Decidable (w.Counted me p) :=
  inferInstanceAs (Decidable ((_ ∨ _) ∧ _ = true))

/-- What a place contributes. -/
def ownedAt (p : Place) : Nat :=
  (if p ∈ w.countPlaces me then w.unitsAt id p else 0) +
    if p ∈ w.bankPlaces me then w.bankUnitsAt id p else 0

end

variable {w d : ItemWorld} {me : PlayerGuid} {id : UInt32} {p q : Place} {g x : Guid} {a b : Nat}

/-! ## The count -/

theorem mem_bagCells : p ∈ w.bagCells me a b ↔ ∃ i bag j, a ≤ i ∧ i < b ∧
    w.slots (.top me i) = some bag ∧ w.isContainer bag = true ∧ j < w.containerSlots bag ∧
    p = .cell bag j := by
  unfold bagCells
  rw [List.mem_flatMap]
  constructor
  · rintro ⟨i, hi, hp⟩
    obtain ⟨ha, hb⟩ := mem_slotRange.1 hi
    obtain ⟨bag, j, hbag, hj, rfl⟩ := mem_cellPlaces.1 hp
    obtain ⟨htop, hcont, -⟩ := bagAt_spec hbag
    exact ⟨i, bag, j, ha, hb, htop, hcont, hj, rfl⟩
  · rintro ⟨i, bag, j, ha, hb, htop, hcont, hj, rfl⟩
    refine ⟨i, mem_slotRange.2 ⟨ha, hb⟩, mem_cellPlaces.2 ⟨bag, j, ?_, hj, rfl⟩⟩
    unfold bagAt
    rw [htop]
    simp [hcont]

theorem nodup_bankPlaces (hw : w.Orderly) : (w.bankPlaces me).Nodup := by
  refine List.nodup_append'.2 ⟨nodup_topPlaces, nodup_cells hw, ?_⟩
  intro p hp hp'
  obtain ⟨s, -, -, rfl⟩ := mem_topPlaces.1 hp
  obtain ⟨i, bag, j, -, -, -, -, -, heq⟩ := mem_bagCells.1 hp'
  cases heq

/-- No place is looked at twice. -/
theorem not_mem_bankPlaces (hw : w.Orderly) (hp : p ∈ w.countPlaces me) :
    p ∉ w.bankPlaces me := by
  intro hp'
  rcases mem_countPlaces.1 hp with ⟨s, hs, rfl⟩ | ⟨i, bag, j, -, hlt, htop, -, -, rfl⟩
  · rcases List.mem_append.1 hp' with hbank | hbank
    · obtain ⟨t, hge, hlt, heq⟩ := mem_topPlaces.1 hbank
      injection heq with _ hst
      unfold INVENTORY_SLOT_ITEM_END INVENTORY_KEYRING_START at hs
      unfold BANK_SLOT_ITEM_START at hge
      unfold BANK_SLOT_BAG_END at hlt
      omega
    · obtain ⟨i, bag, j, -, -, -, -, -, heq⟩ := mem_bagCells.1 hbank
      cases heq
  · rcases List.mem_append.1 hp' with hbank | hbank
    · obtain ⟨t, -, -, heq⟩ := mem_topPlaces.1 hbank
      cases heq
    · obtain ⟨k, bag', j', hge, -, htop', -, -, heq⟩ := mem_bagCells.1 hbank
      injection heq with hbag _
      subst hbag
      have hsame := hw.once _ _ _ htop htop'
      injection hsame with _ hik
      unfold INVENTORY_SLOT_BAG_END at hlt
      unfold BANK_SLOT_BAG_START at hge
      omega

/-! ## A change at one place -/

/-- `d` is `w` but for what lies at `p`, which is no slot for bags. -/
structure AltersAt (w d : ItemWorld) (p : Place) : Prop where
  slots : ∀ q, q ≠ p → d.slots q = w.slots q
  tops : ∀ me s, p = .top me s → ¬ IsBagSlot s
  kinds : ∀ q x, q ≠ p → w.slots q = some x → (d.item x).SameKind (w.item x)

/-- The bag in a slot for bags is the same. -/
theorem AltersAt.bag (h : w.AltersAt d p) {s : Nat} (hs : IsBagSlot s) (me : PlayerGuid) :
    d.slots (.top me s) = w.slots (.top me s) ∧
      ∀ bag, w.slots (.top me s) = some bag → (d.item bag).SameKind (w.item bag) := by
  have hne : Place.top me s ≠ p := fun heq => h.tops me s heq.symm hs
  exact ⟨h.slots _ hne, fun bag hbag => h.kinds _ bag hne hbag⟩

theorem AltersAt.bagCells (h : w.AltersAt d p) (hrange : ∀ s, a ≤ s → s < b → IsBagSlot s) :
    d.bagCells me a b = w.bagCells me a b := by
  refine List.flatMap_congr fun s hs => ?_
  obtain ⟨ha, hb⟩ := mem_slotRange.1 hs
  obtain ⟨hslot, hkind⟩ := h.bag (hrange s ha hb) me
  unfold cellPlaces bagAt
  rw [hslot]
  cases hbag : w.slots (.top me s) with
  | none => rfl
  | some bag =>
    have hk := hkind bag hbag
    unfold isContainer containerSlots
    dsimp only
    rw [hk.isContainer, hk.proto]
    simp only [Bool.and_true]
    cases (w.item bag).isContainer with
    | false => rfl
    | true =>
      simp only [if_true]
      rw [hk.proto]

theorem isBagSlot_bank {s : Nat} (ha : BANK_SLOT_BAG_START ≤ s) (hb : s < BANK_SLOT_BAG_END) :
    IsBagSlot s := by
  rw [isBagSlot_iff]
  unfold BANK_SLOT_BAG_START at ha
  unfold BANK_SLOT_BAG_END at hb
  omega

theorem AltersAt.countPlaces (h : w.AltersAt d p) : d.countPlaces me = w.countPlaces me := by
  have hcells : d.bagPlaces me (fun _ => true) = w.bagPlaces me fun _ => true :=
    h.bagCells fun _ => isBagSlot_bags
  unfold ItemWorld.countPlaces
  rw [hcells]

theorem AltersAt.bankPlaces (h : w.AltersAt d p) : d.bankPlaces me = w.bankPlaces me := by
  unfold ItemWorld.bankPlaces
  rw [h.bagCells fun _ => isBagSlot_bank]

/-- The bag of a cell that is looked at is in a slot for bags. -/
theorem wrapped_of_mem (h : w.AltersAt d p) {bag : Guid} {j : Nat}
    (hq : .cell bag j ∈ w.countPlaces me ∨ .cell bag j ∈ w.bankPlaces me) :
    (d.item bag).wrappedItemId = (w.item bag).wrappedItemId := by
  rcases hq with hq | hq
  · rcases mem_countPlaces.1 hq with ⟨s, -, heq⟩ | ⟨i, b, j', hge, hlt, htop, -, -, heq⟩
    · cases heq
    · cases heq
      exact ((h.bag (isBagSlot_bags hge hlt) me).2 bag htop).wrappedItemId
  · rcases List.mem_append.1 hq with hq | hq
    · obtain ⟨s, -, -, heq⟩ := mem_topPlaces.1 hq
      cases heq
    · obtain ⟨i, b, j', hge, hlt, htop, -, -, heq⟩ := mem_bagCells.1 hq
      cases heq
      exact ((h.bag (isBagSlot_bank hge hlt) me).2 bag htop).wrappedItemId

theorem AltersAt.counted (h : w.AltersAt d p) : d.Counted me q ↔ w.Counted me q := by
  unfold Counted
  rw [h.countPlaces, h.bankPlaces]
  refine and_congr_right fun hq => ?_
  unfold inPlainBag
  cases q with
  | top _ _ => rfl
  | cell bag j =>
    dsimp only
    rw [wrapped_of_mem h hq]

theorem units_sameKind (h : (d.item x).SameKind (w.item x)) : d.units x = w.units x := by
  unfold units stackCount
  rw [h.stackCount]

theorem AltersAt.unitsAt (h : w.AltersAt d p) (hq : q ∈ w.countPlaces me) (hne : q ≠ p) :
    d.unitsAt id q = w.unitsAt id q := by
  unfold ItemWorld.unitsAt
  rw [h.slots q hne]
  cases hx : w.slots q with
  | none => rfl
  | some x =>
    have hk := h.kinds q x hne hx
    dsimp only
    rw [units_sameKind hk]
    congr 2
    unfold Counts
    cases q with
    | top _ _ =>
      unfold Item.isEntry
      rw [hk.entry, hk.wrappedItemId]
    | cell bag j =>
      dsimp only
      rw [hk.entry, wrapped_of_mem h (Or.inl hq)]

theorem AltersAt.bankUnitsAt (h : w.AltersAt d p) (hq : q ∈ w.bankPlaces me) (hne : q ≠ p) :
    d.bankUnitsAt id q = w.bankUnitsAt id q := by
  unfold ItemWorld.bankUnitsAt
  rw [h.slots q hne]
  cases hx : w.slots q with
  | none => rfl
  | some x =>
    have hk := h.kinds q x hne hx
    dsimp only
    rw [units_sameKind hk]
    congr 2
    unfold BankCounts
    cases q with
    | top _ _ =>
      unfold Item.isEntry
      rw [hk.entry, hk.wrappedItemId]
    | cell bag j =>
      dsimp only
      rw [hk.proto, wrapped_of_mem h (Or.inr hq)]

/-- Sums over a list that differ at one place. -/
theorem sum_map_at_one {l : List Place} (hl : l.Nodup) {f f' : Place → Nat}
    (h : ∀ q ∈ l, q ≠ p → f q = f' q) :
    (l.map f).sum + (if p ∈ l then f' p else 0) = (l.map f').sum + if p ∈ l then f p else 0 := by
  induction l with
  | nil => rfl
  | cons q l ih =>
    obtain ⟨hnot, hl⟩ := List.nodup_cons.1 hl
    have hrest := ih hl fun q hq => h q (List.mem_cons_of_mem _ hq)
    rw [List.map_cons, List.map_cons, List.sum_cons, List.sum_cons]
    by_cases hqp : q = p
    · subst hqp
      rw [if_neg hnot, if_neg hnot] at hrest
      rw [if_pos List.mem_cons_self, if_pos List.mem_cons_self]
      omega
    · have hhead := h q List.mem_cons_self hqp
      have hmem : p ∈ q :: l ↔ p ∈ l := by
        rw [List.mem_cons]
        exact or_iff_right fun heq => hqp heq.symm
      simp only [hmem]
      omega

/-- The counts differ by what lies at the place. -/
theorem AltersAt.owned (h : w.AltersAt d p) (hw : w.Orderly) (me : PlayerGuid) (id : UInt32) :
    d.owned me id + w.ownedAt me id p = w.owned me id + d.ownedAt me id p := by
  have hcount : ∀ q ∈ w.countPlaces me, q ≠ p → d.unitsAt id q = w.unitsAt id q :=
    fun _ hq hne => h.unitsAt hq hne
  have hbank : ∀ q ∈ w.bankPlaces me, q ≠ p → d.bankUnitsAt id q = w.bankUnitsAt id q :=
    fun _ hq hne => h.bankUnitsAt hq hne
  have hcounts := sum_map_at_one (nodup_countPlaces hw) hcount
  have hbanks := sum_map_at_one (nodup_bankPlaces hw) hbank
  unfold ItemWorld.owned ownedAt
  rw [h.countPlaces, h.bankPlaces]
  omega

/-! ## What lies at the place -/

theorem ownedAt_of_empty (h : w.slots p = none) : w.ownedAt me id p = 0 := by
  unfold ownedAt unitsAt bankUnitsAt
  rw [h]
  simp

/-- An item of the entry, which is no gift. -/
theorem ownedAt_of_some (hw : w.Orderly) (h : w.slots p = some g)
    (hplain : (w.item g).wrappedItemId = 0) (hentry : (w.item g).entry = id) :
    w.ownedAt me id p = if w.Counted me p then (w.units g).toNat else 0 := by
  have hproto : (w.item g).proto.itemId = id := by rw [← hentry, (w.item g).entry_eq hplain]
  have hin : w.unitsAt id p = if w.inPlainBag p then (w.units g).toNat else 0 := by
    unfold unitsAt Counts Item.isEntry inPlainBag
    rw [h]
    cases p with
    | top _ _ => simp [hplain, hentry]
    | cell bag j => simp [hentry]
  have hbank : w.bankUnitsAt id p = if w.inPlainBag p then (w.units g).toNat else 0 := by
    unfold bankUnitsAt BankCounts Item.isEntry inPlainBag
    rw [h]
    cases p with
    | top _ _ => simp [hplain, hentry]
    | cell bag j => simp [hproto]
  unfold ownedAt Counted
  rw [hin, hbank]
  by_cases hp : p ∈ w.countPlaces me
  · simp [hp, not_mem_bankPlaces hw hp]
  · simp [hp, ite_and]

end ItemWorld

end HearthStone
