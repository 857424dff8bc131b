/-
HearthStone.Vendor.Delivery — what comes of the units that a vendor's item
brings into the inventory.

* `Receives` — so many units have come, and no limit is broken.
* `WrittenAt` — units are at a place, as a new item or on a stack.
* `Fits`, `receives_iff` — the condition, of the place and what lay
  there, and that it is one.
* `TakesAt`, `dropInSlot_cases` — where an item goes that is dragged.
* `StowsAt`, `stow_cases` — where one goes that is clicked on.
-/
import HearthStone.Item.OwnedCount
import HearthStone.Vendor.BuyItemOpcode

namespace HearthStone

open Lib

namespace ItemWorld

section

variable (w d : ItemWorld) (me : PlayerGuid) (it : ItemPrototype)

/-! ## What is expected -/

/-- Every stack keeps to its `MaxCount`, or is as it was. -/
def KeepsMaxCount : Prop := ∀ p g, d.slots p = some g →
  d.stackCount g ≤ (d.item g).proto.maxCount ∨
    w.slots p = some g ∧ d.stackCount g = w.stackCount g

/-- The units have come, and no limit is broken. -/
structure Receives (n : Nat) : Prop where
  count : d.owned me it.itemId = w.owned me it.itemId + n
  unique : it.unique ≠ 0 → d.owned me it.itemId ≤ it.unique.toNat
  maxCount : w.KeepsMaxCount d

/-- The places are the same, and what lies there. -/
structure SameInventory : Prop where
  slots : d.slots = w.slots
  fields : d.fields = w.fields
  items : ∀ p g, w.slots p = some g → d.item g = w.item g

/-! ## The condition -/

/-- The units fit at the place: a new item is within `MaxCount`, and a
stack that there are some of stays below 2^32; the place counts, or there
is nothing to come; and `Unique` has room for them. -/
def Fits (n : Nat) (p : Place) : Prop :=
  (match w.slots p with
    | none => if w.Counted me p then 0 < n ∧ n ≤ it.maxCount.toNat else n = 0
    | some g =>
      n = 0 ∨ w.Counted me p ∧ w.stackCount g ≠ 0 ∧ (w.stackCount g).toNat + n < 2 ^ 32) ∧
    (it.unique ≠ 0 → w.owned me it.itemId + n ≤ it.unique.toNat)

/-- Some units are at the place: a new item of them, or a stack of the
item with so many more. -/
inductive WrittenAt (t : UInt32) (p : Place) : ItemWorld → Prop
  | new (d : ItemWorld) : w.slots p = none → (w.createItem me it t).AddsAt me w.nextGuid p d →
      WrittenAt t p d
  | stack (g : Guid) : w.slots p = some g → (w.item g).isEntry it.itemId = true →
      w.stackCount g + t ≤ (w.item g).proto.maxCount →
      WrittenAt t p (w.setStackCount g (credit (w.stackCount g) t))

end

variable {w d : ItemWorld} {me : PlayerGuid} {it : ItemPrototype} {t : UInt32} {n : Nat}
  {p : Place} {g : Guid}

theorem isEntry_iff {i : Item} {id : UInt32} :
    i.isEntry id = true ↔ i.entry = id ∧ i.wrappedItemId = 0 := by
  unfold Item.isEntry
  simp

/-- A stack within a `MaxCount` is credited exactly. -/
theorem credit_of_le {v x m : UInt32} (hm : m.toNat < 2 ^ 31) (h : v + x ≤ m) :
    credit v x = v + x := by
  by_cases hx : x = 0
  · subst hx
    simp
  · have hle := UInt32.le_iff_toNat_le.1 h
    rw [UInt32.toNat_add] at hle
    apply UInt32.toNat.inj
    rw [toNat_credit hx, UInt32.toNat_add, if_pos (by omega)]

/-! ## The units written -/

theorem WrittenAt.altersAt (hw : w.Orderly) (hnew : ¬ Placed w.slots w.nextGuid)
    (hp : ∀ me s, p = .top me s → ¬ IsBagSlot s) (h : w.WrittenAt me it t p d) :
    w.AltersAt d p := by
  cases h with
  | new d hempty hadds =>
    refine ⟨fun q hq => ?_, hp, fun q x hq hx => ?_⟩
    · rw [hadds.slots, Function.update_of_ne hq]
      rfl
    · have hne : x ≠ w.nextGuid := by
        rintro rfl
        exact hnew ⟨q, hx⟩
      rw [hadds.others x hne, createItem_item_of_ne hne]
      exact Item.SameKind.refl _
  | stack g hg hentry hroom =>
    refine ⟨fun q _ => rfl, hp, fun q x hq hx => ?_⟩
    have hne : x ≠ g := by
      rintro rfl
      exact hq (hw.once _ _ _ hx hg)
    unfold setStackCount
    rw [modify_item_of_ne hne]
    exact Item.SameKind.refl _

/-- What lies at the place afterwards. -/
structure LiesAt (d : ItemWorld) (it : ItemPrototype) (c : UInt32) (p : Place) (g : Guid) :
    Prop where
  slot : d.slots p = some g
  entry : (d.item g).entry = it.itemId
  plain : (d.item g).wrappedItemId = 0
  count : d.stackCount g = c

theorem liesAt_new (hadds : (w.createItem me it t).AddsAt me w.nextGuid p d) :
    d.LiesAt it t p w.nextGuid ∧ (d.item w.nextGuid).proto = it := by
  have hitem : (w.createItem me it t).item w.nextGuid =
      { newItem it (decide (it.inventoryType = INVTYPE_BAG)) with
        stackCount := t, owner := some me, contained := me.val.toNat } :=
    Function.update_self _ _ _
  have hkind := hadds.kind
  rw [hitem] at hkind
  exact ⟨⟨hadds.at, hkind.entry, hkind.wrappedItemId, hkind.stackCount⟩, hkind.proto⟩

theorem liesAt_stack (hg : w.slots p = some g) (hentry : (w.item g).isEntry it.itemId = true)
    (hroom : w.stackCount g + t ≤ (w.item g).proto.maxCount) :
    (w.setStackCount g (credit (w.stackCount g) t)).LiesAt it (w.stackCount g + t) p g := by
  have hitem : (w.setStackCount g (credit (w.stackCount g) t)).item g =
      { w.item g with stackCount := credit (w.stackCount g) t } := by
    unfold setStackCount
    rw [modify_item_self]
  obtain ⟨hid, hplain⟩ := isEntry_iff.1 hentry
  refine ⟨hg, ?_, ?_, ?_⟩
  · rw [hitem]
    exact hid
  · rw [hitem]
    exact hplain
  · exact (congrArg Item.stackCount hitem).trans
      (credit_of_le (w.item g).proto.maxCount_lt hroom)

theorem WrittenAt.orderly (hw : w.Orderly) (hnew : ¬ Placed w.slots w.nextGuid)
    (h : w.WrittenAt me it t p d) : d.Orderly := by
  cases h with
  | new d hempty hadds => exact hadds.orderly (createItem_orderly hw hnew) hnew
  | stack g hg hentry hroom => exact setStackCount_orderly hw

/-- The count afterwards, by what lies at the place. -/
theorem LiesAt.owned {c : UInt32} (h : d.LiesAt it c p g) (hw : w.Orderly) (hd : d.Orderly)
    (halters : w.AltersAt d p) (me : PlayerGuid) :
    d.owned me it.itemId + w.ownedAt me it.itemId p =
      w.owned me it.itemId + if w.Counted me p then (if c ≠ 0 then c.toNat else 1) else 0 := by
  rw [halters.owned hw, ownedAt_of_some hd h.slot h.plain h.entry]
  simp only [halters.counted]
  unfold units
  rw [h.count, apply_ite UInt32.toNat]
  rfl

/-- The stacks elsewhere are as they were. -/
theorem AltersAt.keepsMaxCount {c : UInt32} (h : w.AltersAt d p) (hlies : d.LiesAt it c p g)
    (hchanged : w.slots p ≠ some g ∨ c ≤ (d.item g).proto.maxCount) :
    w.KeepsMaxCount d ↔ c ≤ (d.item g).proto.maxCount := by
  constructor
  · intro hkeeps
    rcases hkeeps p g hlies.slot with hle | ⟨hsame, -⟩
    · rwa [hlies.count] at hle
    · exact hchanged.resolve_left (not_not.2 hsame)
  · intro hle q x hx
    by_cases hq : q = p
    · subst hq
      obtain rfl := Option.some.inj (hlies.slot.symm.trans hx)
      rw [hlies.count]
      exact Or.inl hle
    · rw [h.slots q hq] at hx
      exact Or.inr ⟨hx, (h.kinds q x hq hx).stackCount⟩

/-- A new item. -/
theorem receives_new (hw : w.Orderly) (hnew : ¬ Placed w.slots w.nextGuid)
    (hp : ∀ me s, p = .top me s → ¬ IsBagSlot s) (hempty : w.slots p = none)
    (hadds : (w.createItem me it t).AddsAt me w.nextGuid p d)
    (hexact : n ≤ it.maxCount.toNat → t.toNat = n) (hone : t = 0 → n ≠ 1) :
    w.Receives d me it n ↔ w.Fits me it n p := by
  have hwritten : w.WrittenAt me it t p d := .new d hempty hadds
  have halters := hwritten.altersAt hw hnew hp
  have hd := hwritten.orderly hw hnew
  obtain ⟨hlies, hproto⟩ := liesAt_new hadds
  have howned := hlies.owned hw hd halters me
  have hkeeps := halters.keepsMaxCount hlies (Or.inl (by simp [hempty]))
  rw [ownedAt_of_empty hempty, Nat.add_zero] at howned
  rw [hproto, UInt32.le_iff_toNat_le] at hkeeps
  have hzero : t = 0 ↔ t.toNat = 0 := ⟨fun h => by rw [h]; rfl, fun h => UInt32.toNat.inj h⟩
  unfold Fits
  rw [hempty]
  constructor
  · rintro ⟨hcount, hunique, hmax⟩
    have hle := hkeeps.1 hmax
    refine ⟨?_, fun hu => hcount ▸ hunique hu⟩
    split at howned
    · rename_i hc
      rw [if_pos hc]
      split at howned
      · rename_i ht
        have hpos := Nat.pos_of_ne_zero fun h => ht (hzero.2 h)
        omega
      · rename_i ht
        have hne := hone (not_not.1 ht)
        omega
    · rename_i hc
      rw [if_neg hc]
      omega
  · rintro ⟨hfits, hunique⟩
    have hcount : d.owned me it.itemId = w.owned me it.itemId + n ∧ n ≤ it.maxCount.toNat := by
      split at howned
      · rename_i hc
        rw [if_pos hc] at hfits
        rw [if_pos fun h => by have := hzero.1 h; omega] at howned
        omega
      · rename_i hc
        rw [if_neg hc] at hfits
        omega
    refine ⟨hcount.1, fun hu => hcount.1 ▸ hunique hu, hkeeps.2 ?_⟩
    rw [hexact hcount.2]
    exact hcount.2

/-- A stack that grows. -/
theorem receives_stack (hw : w.Orderly) (hnew : ¬ Placed w.slots w.nextGuid)
    (hp : ∀ me s, p = .top me s → ¬ IsBagSlot s) (hg : w.slots p = some g)
    (hentry : (w.item g).isEntry it.itemId = true)
    (hroom : w.stackCount g + t ≤ (w.item g).proto.maxCount) (ht : t.toNat = n % 2 ^ 32) :
    w.Receives (w.setStackCount g (credit (w.stackCount g) t)) me it n ↔ w.Fits me it n p := by
  have hwritten : w.WrittenAt me it t p _ := .stack g hg hentry hroom
  have halters := hwritten.altersAt hw hnew hp
  have hd := hwritten.orderly hw hnew
  have hlies := liesAt_stack hg hentry hroom
  have howned := hlies.owned hw hd halters me
  obtain ⟨hid, hplain⟩ := isEntry_iff.1 hentry
  rw [ownedAt_of_some hw hg hplain hid] at howned
  have hmax : w.KeepsMaxCount (w.setStackCount g (credit (w.stackCount g) t)) := by
    have hle : w.stackCount g + t ≤
        ((w.setStackCount g (credit (w.stackCount g) t)).item g).proto.maxCount := by
      unfold setStackCount
      rw [modify_item_self]
      exact hroom
    exact (halters.keepsMaxCount hlies (Or.inr hle)).2 hle
  have hsum := UInt32.toNat_add (w.stackCount g) t
  have hlt := (w.stackCount g).toNat_lt
  have hzero : ∀ c : UInt32, c = 0 ↔ c.toNat = 0 :=
    fun c => ⟨fun h => by rw [h]; rfl, fun h => UInt32.toNat.inj h⟩
  unfold units at howned
  rw [apply_ite UInt32.toNat] at howned
  simp only [ne_eq, hzero] at howned
  have hcount : (w.setStackCount g (credit (w.stackCount g) t)).owned me it.itemId =
      w.owned me it.itemId + n ↔
      n = 0 ∨ w.Counted me p ∧ w.stackCount g ≠ 0 ∧ (w.stackCount g).toNat + n < 2 ^ 32 := by
    rw [ne_eq, hzero]
    by_cases hc : w.Counted me p
    · simp only [hc, if_true, true_and] at howned ⊢
      have hone : (1 : UInt32).toNat = 1 := rfl
      split at howned <;> split at howned <;> omega
    · simp only [hc, if_false, false_and, or_false] at howned ⊢
      omega
  unfold Fits
  rw [hg]
  dsimp only
  rw [← hcount]
  constructor
  · rintro ⟨hn, hunique, -⟩
    exact ⟨hn, fun hu => hn ▸ hunique hu⟩
  · rintro ⟨hn, hunique⟩
    exact ⟨hn, fun hu => hn ▸ hunique hu, hmax⟩

/-! ## Dragging -/

theorem tryAddItem_bag_eq {c i : Nat} (hc : c < MAX_INVENTORY_SLOT) (hi : i < MAX_INVENTORY_SLOT)
    (hg : ¬ Placed w.slots g) :
    w.tryAddItem me g c i =
      match w.slots (.top me c) with
      | none => none
      | some b =>
        if w.isContainer b ∧ (i : Int) < w.containerSlots b then w.containerAddItem b i g
        else none := by
  unfold tryAddItem m_AddItem
  rw [if_neg (by omega), if_neg (by omega)]
  rw [if_neg (by omega)]
  dsimp only
  rw [inInventory_of_not_placed hg, if_neg (by simp)]
  unfold addItemAt
  rw [if_neg (by unfold INVENTORY_SLOT_NOT_SET; omega), getInventoryItem_of hc]
  cases w.slots (.top me c) with
  | none => rfl
  | some b =>
    dsimp only
    by_cases hin : w.isContainer b ∧ (i : Int) < w.containerSlots b
    · rw [if_pos hin, if_pos hin]
      cases w.containerAddItem b i g with
      | none => rfl
      | some d => rfl
    · rw [if_neg hin, if_neg hin]

/-- The slots of a request: a slot that is none for bags, or a cell of
what is in some slot. -/
inductive Dragged : Int → Int → Prop
  | top (s : Nat) : s < MAX_INVENTORY_SLOT → ¬ IsBagSlot s → Dragged INVENTORY_SLOT_NOT_SET s
  | cell (c i : Nat) : c < MAX_INVENTORY_SLOT → i < MAX_INVENTORY_SLOT → Dragged c i

theorem Target.not_bag {bagslot slot : Int} (h : w.Target me bagslot slot p)
    (hd : Dragged bagslot slot) (me' : PlayerGuid) (s : Nat) (hp : p = .top me' s) :
    ¬ IsBagSlot s := by
  cases h with
  | top t ht =>
    cases hp
    generalize hbag : INVENTORY_SLOT_NOT_SET = bagslot at hd
    generalize hslot : (s : Int) = slot at hd
    cases hd with
    | top s' hs' hnot =>
      obtain rfl := Int.ofNat.inj hslot
      exact hnot
    | cell c i hc hi => cases hbag
  | cell c b i htop hcont hi => cases hp

theorem Target.unique {bagslot slot : Int} {q : Place} (h : w.Target me bagslot slot p)
    (h' : w.Target me bagslot slot q) : p = q := by
  cases h with
  | top s hs =>
    generalize hbag : INVENTORY_SLOT_NOT_SET = bagslot at h'
    generalize hslot : (s : Int) = slot at h'
    cases h' with
    | top s' hs' =>
      obtain rfl := Int.ofNat.inj hslot
      rfl
    | cell c b i htop hcont hi => cases hbag
  | cell c b i htop hcont hi =>
    generalize hbag : (c : Int) = bagslot at h'
    generalize hslot : (i : Int) = slot at h'
    cases h' with
    | top s' hs' => cases hbag
    | cell c' b' i' htop' hcont' hi' =>
      obtain rfl := Int.ofNat.inj hbag
      obtain rfl := Int.ofNat.inj hslot
      rw [htop] at htop'
      cases htop'
      rfl

/-- The attempt to add an item that is nowhere, at the slots of a request. -/
theorem tryAddItem_dragged {bagslot slot : Int} (hw : w.Orderly) (hg : ¬ Placed w.slots g)
    (hd : Dragged bagslot slot) (hnone : w.getInventoryItemIn me bagslot slot = none) :
    (∃ p d, w.tryAddItem me g bagslot slot = some d ∧ w.Target me bagslot slot p ∧
        w.slots p = none ∧ w.AddsAt me g p d) ∨
      (w.tryAddItem me g bagslot slot = none ∧
        ∀ p, w.Target me bagslot slot p → w.slots p ≠ none) := by
  cases hd with
  | top s hs hnot =>
    have hslot : w.slots (.top me s) = none := by
      unfold getInventoryItemIn at hnone
      rwa [if_pos le_rfl, getInventoryItem_of hs] at hnone
    exact Or.inl ⟨_, _, tryAddItem_top_eq hs hslot hg, .top s hs, hslot, addsAt_intoTop hs hslot⟩
  | cell c i hc hi =>
    rw [tryAddItem_bag_eq hc hi hg]
    cases htop : w.slots (.top me c) with
    | none =>
      refine Or.inr ⟨rfl, fun p hp => ?_⟩
      generalize hbag : (c : Int) = bagslot at hp
      cases hp with
      | top s hs => cases hbag
      | cell c' b i' htop' hcont' hi' =>
        obtain rfl := Int.ofNat.inj hbag
        rw [htop] at htop'
        cases htop'
    | some b =>
      dsimp only
      by_cases hin : w.isContainer b = true ∧ i < w.containerSlots b
      · have htarget : w.Target me c i (.cell b i) := .cell c b i htop hin.1 hin.2
        rw [if_pos ⟨hin.1, by omega⟩]
        cases hcell : w.slots (.cell b i) with
        | none =>
          obtain ⟨d, hadd⟩ := containerAddItem_some (g := g) hw htop hin.2 hcell
          obtain ⟨j, hj, hadds⟩ := containerAddItem_spec hw htop hin.1 hadd
          obtain rfl := Int.ofNat.inj hj
          exact Or.inl ⟨_, d, hadd, htarget, hcell, hadds⟩
        | some x =>
          refine Or.inr ⟨?_, fun p hp => ?_⟩
          · exact containerAddItem_occupied (by simp [hcell])
          · rw [hp.unique htarget]
            simp [hcell]
      · rw [if_neg fun hboth => hin ⟨hboth.1, by omega⟩]
        refine Or.inr ⟨rfl, fun p hp => ?_⟩
        generalize hbag : (c : Int) = bagslot at hp
        generalize hslot : (i : Int) = slot at hp
        cases hp with
        | top s hs => cases hbag
        | cell c' b' i' htop' hcont' hi' =>
          obtain rfl := Int.ofNat.inj hbag
          obtain rfl := Int.ofNat.inj hslot
          rw [htop] at htop'
          cases htop'
          exact absurd ⟨hcont', hi'⟩ hin

/-- A new item is none of those at a place. -/
theorem createItem_item_placed (hnew : ¬ Placed w.slots w.nextGuid) (hg : w.slots p = some g) :
    (w.createItem me it t).item g = w.item g := by
  refine createItem_item_of_ne ?_
  rintro rfl
  exact hnew ⟨p, hg⟩

/-- A new item at no place changes no place. -/
theorem createItem_target {bagslot slot : Int} (hnew : ¬ Placed w.slots w.nextGuid) :
    (w.createItem me it t).Target me bagslot slot p ↔ w.Target me bagslot slot p := by
  constructor
  · intro h
    cases h with
    | top s hs => exact .top s hs
    | cell c b i htop hcont hi =>
      have hitem : (w.createItem me it t).item b = w.item b := createItem_item_placed hnew htop
      unfold isContainer at hcont
      unfold containerSlots at hi
      rw [hitem] at hcont hi
      exact .cell c b i htop hcont hi
  · intro h
    cases h with
    | top s hs => exact .top s hs
    | cell c b i htop hcont hi =>
      have hitem : (w.createItem me it t).item b = w.item b := createItem_item_placed hnew htop
      refine .cell c b i htop ?_ ?_
      · unfold isContainer
        rw [hitem]
        exact hcont
      · unfold containerSlots
        rw [hitem]
        exact hi

/-- The place at the slots takes the units: it is empty, or what the slots
show is a stack of the item with room. -/
def TakesAt (w : ItemWorld) (me : PlayerGuid) (it : ItemPrototype) (t : UInt32)
    (bagslot slot : Int) (p : Place) : Prop :=
  w.Target me bagslot slot p ∧
    match w.getInventoryItemIn me bagslot slot with
    | none => w.slots p = none
    | some g => (w.item g).proto = it ∧ (w.item g).wrappedItemId = 0 ∧
        w.stackCount g + t ≤ it.maxCount

/-- What the slots show lies at their place. -/
theorem target_of_shown {bagslot slot : Int} (hw : w.Orderly) (hd : Dragged bagslot slot)
    (h : w.getInventoryItemIn me bagslot slot = some g) :
    ∃ p, w.Target me bagslot slot p ∧ w.slots p = some g := by
  unfold getInventoryItemIn at h
  cases hd with
  | top s hs hnot =>
    rw [if_pos le_rfl, getInventoryItem_of hs] at h
    exact ⟨_, .top s hs, h⟩
  | cell c i hc hi =>
    rw [if_neg (by unfold INVENTORY_SLOT_NOT_SET; omega), Int.toNat_natCast] at h
    split at h
    · cases htop : w.slots (.top me c) with
      | none =>
        rw [htop] at h
        cases h
      | some b =>
        rw [htop] at h
        obtain ⟨-, hlt, hcell⟩ := getItem_eq_some h
        rw [Int.toNat_natCast] at hlt hcell
        exact ⟨_, .cell c b i htop (hw.cellRange b i g hcell).1 hlt, hcell⟩
    · cases h

theorem sameInventory_destructor (hw : w.Orderly) (hnew : ¬ Placed w.slots w.nextGuid) :
    w.SameInventory ((w.createItem me it t).destructor w.nextGuid) := by
  have hnone : (w.createItem me it t).NoItems w.nextGuid :=
    (createItem_orderly hw hnew).noItems_of_not_placed hnew
  rw [destructor_of_noItems hnone]
  refine ⟨rfl, rfl, fun p g hg => ?_⟩
  have hne : g ≠ w.nextGuid := by
    rintro rfl
    exact hnew ⟨p, hg⟩
  rw [modify_item_of_ne hne, createItem_item_placed hnew hg]

/-- A new item at no place is not seen. -/
theorem createItem_shown {bagslot slot : Int} (hnew : ¬ Placed w.slots w.nextGuid) :
    (w.createItem me it t).getInventoryItemIn me bagslot slot =
      w.getInventoryItemIn me bagslot slot := by
  have hcell : ∀ c b, w.slots (.top me c) = some b →
      (w.createItem me it t).getItem b slot = w.getItem b slot := by
    intro c b hb
    unfold getItem containerSlots
    rw [createItem_item_placed hnew hb]
    rfl
  unfold getInventoryItemIn
  split
  · rfl
  · split
    · have hsame : (w.createItem me it t).slots (.top me bagslot.toNat) =
          w.slots (.top me bagslot.toNat) := rfl
      rw [hsame]
      cases hb : w.slots (.top me bagslot.toNat) with
      | none => rfl
      | some b => exact hcell _ b hb
    · rfl

theorem SameInventory.refl (w : ItemWorld) : w.SameInventory w := ⟨rfl, rfl, fun _ _ _ => rfl⟩

/-- The units are written where the slots take them, or nothing is. -/
theorem dropInSlot_cases {bagslot slot : Int} (hw : w.Orderly)
    (hnew : ¬ Placed w.slots w.nextGuid) (hd : Dragged bagslot slot) (it : ItemPrototype)
    (t : UInt32) :
    (∃ p d, w.dropInSlot me it t bagslot slot = .ok d ∧ w.TakesAt me it t bagslot slot p ∧
        w.WrittenAt me it t p d) ∨
      ∃ answer d, w.dropInSlot me it t bagslot slot = .error (answer, d) ∧
        w.SameInventory d ∧ ∀ p, ¬ w.TakesAt me it t bagslot slot p := by
  unfold dropInSlot TakesAt
  cases hshown : w.getInventoryItemIn me bagslot slot with
  | some g =>
    dsimp only
    by_cases hplain : (w.item g).wrappedItemId = 0
    · rw [if_neg (not_not.2 hplain)]
      by_cases hproto : (w.item g).proto = it
      · rw [if_neg (by simp [hproto, hplain])]
        by_cases hroom : w.stackCount g + t ≤ it.maxCount
        · rw [if_neg (UInt32.not_lt.2 hroom)]
          obtain ⟨p, htarget, hslot⟩ := target_of_shown hw hd hshown
          refine Or.inl ⟨p, _, rfl, ⟨htarget, hproto, hplain, hroom⟩, .stack g hslot ?_ ?_⟩
          · exact isEntry_iff.2 ⟨by rw [(w.item g).entry_eq hplain, hproto], hplain⟩
          · rw [hproto]
            exact hroom
        · rw [if_pos (UInt32.not_le.1 hroom)]
          exact Or.inr ⟨_, _, rfl, SameInventory.refl w, fun p hp => hroom hp.2.2.2⟩
      · rw [if_pos (Or.inl hproto)]
        exact Or.inr ⟨_, _, rfl, SameInventory.refl w, fun p hp => hproto hp.2.1⟩
    · rw [if_pos hplain]
      exact Or.inr ⟨_, _, rfl, SameInventory.refl w, fun p hp => hplain hp.2.2.1⟩
  | none =>
    dsimp only
    have hgone : ¬ Placed (w.createItem me it t).slots w.nextGuid := hnew
    have hshown' : (w.createItem me it t).getInventoryItemIn me bagslot slot = none := by
      rw [createItem_shown hnew, hshown]
    rcases tryAddItem_dragged (createItem_orderly hw hnew) hgone hd hshown' with
      ⟨p, d, hadd, htarget, hempty, hadds⟩ | ⟨hadd, hfull⟩
    · rw [hadd]
      exact Or.inl ⟨p, d, rfl, ⟨(createItem_target hnew).1 htarget, hempty⟩, .new d hempty hadds⟩
    · rw [hadd]
      refine Or.inr ⟨_, _, rfl, sameInventory_destructor hw hnew, fun p hp => ?_⟩
      exact hfull p ((createItem_target hnew).2 hp.1) hp.2

/-! ## The slots of a request -/

/-- An item that `GetItemByGUID` finds is in a slot, or in a bag in one. -/
theorem getBagSlotByGuid_of_found {c : Guid} (h : w.getItemByGUID me g = some c) :
    ∃ i : Nat, w.getBagSlotByGuid me g = i ∧ i < MAX_INVENTORY_SLOT := by
  unfold getBagSlotByGuid
  dsimp only
  split
  · rename_i i hi
    rcases List.mem_append.1 (List.mem_of_find?_eq_some hi) with hmem | hmem
    · have hlt := (mem_slotRange.1 hmem).2
      exact ⟨i, rfl, hlt.trans (by decide)⟩
    · exact ⟨i, rfl, (mem_slotRange.1 hmem).2⟩
  · rename_i htops
    split
    · rename_i i hi
      have hlt := (mem_slotRange.1 (List.mem_of_find?_eq_some hi)).2
      exact ⟨i, rfl, hlt.trans (by decide)⟩
    · rename_i hbags
      have hnot : ∀ i, (i < INVENTORY_SLOT_ITEM_END ∨
          INVENTORY_KEYRING_START ≤ i ∧ i < INVENTORY_KEYRING_END) →
          w.slots (.top me i) ≠ some g := by
        intro i hi hslot
        have hfalse := List.find?_eq_none.1 htops i (List.mem_append.2 (by
          rw [mem_slotRange, mem_slotRange]
          exact hi.imp (fun hlt => ⟨Nat.zero_le i, hlt⟩) fun hboth => hboth))
        simp [hslot] at hfalse
      have hlocate : ∀ a b, (∀ i, a ≤ i → i < b → i < INVENTORY_SLOT_ITEM_END ∨
          INVENTORY_KEYRING_START ≤ i ∧ i < INVENTORY_KEYRING_END) →
          ¬ (w.locateTop me g a b).isSome = true := by
        intro a b hrange hsome
        obtain ⟨p, hp⟩ := Option.isSome_iff_exists.1 hsome
        obtain ⟨s, ha, hb, -, hslot⟩ := locateTop_spec hp
        exact hnot s (hrange s ha hb) hslot
      unfold getItemByGUID at h
      dsimp only at h
      split at h
      · rename_i hfound
        rcases hfound with hequip | hbag | hpack | hkeys
        · refine absurd hequip (hlocate _ _ fun i _ hlt => Or.inl (hlt.trans (by decide)))
        · obtain ⟨i, hi, hin⟩ := List.any_eq_true.1 hbag
          obtain ⟨ha, hlt⟩ := mem_slotRange.1 hi
          split at hin
          · cases hin
          · rename_i b hb
            obtain ⟨htop, hcont, -⟩ := bagAt_spec hb
            rw [Bool.or_eq_true, decide_eq_true_eq] at hin
            rcases hin with rfl | hany
            · exact absurd htop (hnot i (Or.inl (hlt.trans (by decide))))
            · refine absurd ?_ (List.find?_eq_none.1 hbags i hi)
              rw [htop]
              rw [Bool.and_eq_true]
              exact ⟨hcont, hany⟩
        · refine absurd hpack (hlocate _ _ fun i _ hlt => Or.inl hlt)
        · refine absurd hkeys (hlocate _ _ fun i ha hlt => Or.inr ⟨ha, hlt⟩)
      · cases h

/-- A request that is not turned away names a slot, or none is free. -/
theorem dragTarget_spec {bag : Option Guid} {slot bagslot slot' : Int}
    (h : w.dragTarget me bag slot = .ok (bagslot, slot')) (hset : slot' ≠ INVENTORY_SLOT_NOT_SET) :
    Dragged bagslot slot' := by
  have hpack : ∀ i : Nat, INVENTORY_SLOT_ITEM_START ≤ i → i ≤ INVENTORY_SLOT_ITEM_END →
      Dragged INVENTORY_SLOT_NOT_SET i := by
    intro i ha hb
    unfold INVENTORY_SLOT_ITEM_START at ha
    unfold INVENTORY_SLOT_ITEM_END at hb
    refine .top i ?_ ?_
    · unfold MAX_INVENTORY_SLOT
      omega
    · rw [isBagSlot_iff]
      omega
  unfold dragTarget at h
  cases bag with
  | none =>
    dsimp only at h
    split at h
    · split at h
      · cases h
      · rename_i hrange
        cases h
        obtain ⟨i, rfl⟩ := Int.eq_ofNat_of_zero_le
          (show 0 ≤ slot by unfold INVENTORY_SLOT_ITEM_START at hrange; omega)
        exact hpack i (by omega) (by omega)
    · cases h
      unfold findFreeBackPackSlot at hset ⊢
      cases hfree : w.freeTop me INVENTORY_SLOT_ITEM_START INVENTORY_SLOT_ITEM_END with
      | none =>
        rw [hfree] at hset
        exact absurd rfl hset
      | some i =>
        obtain ⟨ha, hb, -⟩ := freeTop_spec hfree
        exact hpack i ha hb.le
  | some g =>
    dsimp only at h
    cases hfound : w.getItemByGUID me g with
    | none =>
      rw [hfound] at h
      dsimp only at h
      split at h
      · cases h
      · cases h
    | some c =>
      obtain ⟨i, hi, hlt⟩ := getBagSlotByGuid_of_found hfound
      have hmax : w.containerSlots c ≤ 36 := (w.item c).proto.containerSlots_le
      rw [hfound, hi] at h
      dsimp only at h
      split at h
      · split at h
        · cases h
        · rename_i hrange
          cases h
          obtain ⟨j, rfl⟩ := Int.eq_ofNat_of_zero_le (show 0 ≤ slot by omega)
          exact .cell i j hlt (by unfold MAX_INVENTORY_SLOT; omega)
      · cases h
        obtain ⟨j, hj, hjlt, -⟩ := findFreeSlot_spec hset
        rw [hj]
        exact .cell i j hlt (by unfold MAX_INVENTORY_SLOT; omega)

/-! ## Clicking -/

/-- Where the units go: onto the stack that is found, or else to the slots
of the search. -/
def StowsAt (w : ItemWorld) (me : PlayerGuid) (it : ItemPrototype) (itemid t : UInt32)
    (p : Place) : Prop :=
  match w.findItemLessMax me itemid t false with
  | some g => w.slots p = some g
  | none => ∃ r, w.findFreeInventorySlot me it = some r ∧ w.Target me r.containerSlot r.slot p

/-- The stack that is found is in no slot for bags. -/
theorem findItemLessMax_place {id cnt : UInt32} (h : w.findItemLessMax me id cnt false = some g) :
    ∃ p, w.slots p = some g ∧ ∀ me s, p = .top me s → ¬ IsBagSlot s := by
  rcases findItemLessMax_cases h with htop | hcell
  · obtain ⟨i, ha, hb, hslot, -⟩ := findTop_slot htop
    refine ⟨_, hslot, fun me' s hp => ?_⟩
    cases hp
    exact (not_isBagSlot_backpack ha hb).2
  · obtain ⟨i, bag, j, -, -, -, hslot, -⟩ := findCell_slot hcell
    exact ⟨_, hslot, fun me' s hp => by cases hp⟩

/-- The slots of a search name a free place, in no slot for bags. -/
theorem FreePlace.target {r : SlotResult} (h : w.FreePlace me r) :
    ∃ p, w.Target me r.containerSlot r.slot p ∧ w.slots p = none ∧
      ∀ me s, p = .top me s → ¬ IsBagSlot s := by
  cases h with
  | top s hs hnot hempty =>
    refine ⟨_, .top s hs, hempty, fun me' s' hp => ?_⟩
    cases hp
    exact hnot
  | cell c b i _ htop hcont hi hempty =>
    exact ⟨_, .cell c b i htop hcont hi, hempty, fun me' s hp => by cases hp⟩

/-- The new item gets to the slots of the search. -/
theorem placeNew_spec {r : SlotResult} (hw : w.Orderly) (hnew : ¬ Placed w.slots w.nextGuid)
    (hr : w.FreePlace me r) (hp : w.Target me r.containerSlot r.slot p) :
    (w.createItem me it (if t ≤ it.maxCount then t else it.maxCount)).AddsAt me w.nextGuid p
      (w.placeNew me it t r) := by
  generalize hu : (if t ≤ it.maxCount then t else it.maxCount) = u
  have hw' : (w.createItem me it u).Orderly := createItem_orderly hw hnew
  have hgone : ¬ Placed (w.createItem me it u).slots w.nextGuid := hnew
  unfold placeNew
  rw [hu]
  cases hr with
  | top s hs _ hempty =>
    have hempty' : (w.createItem me it u).slots (.top me s) = none := hempty
    rw [if_pos rfl, tryAddItem_top_eq hs hempty' hgone, hp.unique (.top s hs)]
    exact addsAt_intoTop hs hempty'
  | cell c b i _ htop hcont hi hempty =>
    have hne : (c : Int) ≠ INVENTORY_SLOT_NOT_SET := by
      unfold INVENTORY_SLOT_NOT_SET
      omega
    have hshown : (w.createItem me it u).getInventoryItem me c = some b := by
      rw [getInventoryItem_of (hw.topRange me c b htop)]
      exact htop
    have hitem : (w.createItem me it u).item b = w.item b := createItem_item_placed hnew htop
    have hcont' : (w.createItem me it u).isContainer b = true := by
      unfold isContainer
      rw [hitem]
      exact hcont
    have hi' : i < (w.createItem me it u).containerSlots b := by
      unfold containerSlots
      rw [hitem]
      exact hi
    obtain ⟨d, hadd⟩ := containerAddItem_some (g := w.nextGuid) hw' htop hi' hempty
    obtain ⟨k, hk, hadds⟩ := containerAddItem_spec hw' htop hcont' hadd
    obtain rfl := Int.ofNat.inj hk
    rw [if_neg hne, hshown]
    dsimp only
    rw [hadd, hp.unique (.cell c b i htop hcont hi)]
    exact hadds

/-- The units come to the place of the search, if there is one. -/
theorem stow_cases {itemid : UInt32} (hw : w.Orderly) (hnew : ¬ Placed w.slots w.nextGuid)
    (hid : it.itemId = itemid) (t : UInt32) :
    (∃ p d u, w.stow me it itemid t = some d ∧ w.StowsAt me it itemid t p ∧
        (∀ me s, p = .top me s → ¬ IsBagSlot s) ∧ w.WrittenAt me it u p d ∧
        u = if (w.slots p).isSome ∨ t ≤ it.maxCount then t else it.maxCount) ∨
      (w.stow me it itemid t = none ∧ ∀ p, ¬ w.StowsAt me it itemid t p) := by
  unfold stow StowsAt
  cases hfind : w.findItemLessMax me itemid t false with
  | some g =>
    obtain ⟨p, hslot, hbag⟩ := findItemLessMax_place hfind
    have hless := findItemLessMax_spec hw hfind
    subst hid
    exact Or.inl ⟨p, _, t, rfl, hslot, hbag, .stack g hslot hless.entry hless.room,
      (if_pos (Or.inl (by simp [hslot]))).symm⟩
  | none =>
    cases hfree : w.findFreeInventorySlot me it with
    | none => exact Or.inr ⟨rfl, fun p hp => by obtain ⟨r, hr, -⟩ := hp; cases hr⟩
    | some r =>
      have hplace := findFreeInventorySlot_spec hfree
      obtain ⟨p, htarget, hempty, hbag⟩ := hplace.target
      refine Or.inl ⟨p, _, _, rfl, ⟨r, rfl, htarget⟩, hbag,
        .new _ hempty (placeNew_spec hw hnew hplace htarget), ?_⟩
      simp [hempty]

/-- The units written are those that come, cut for a new item. -/
theorem receives_iff {u : UInt32} (hw : w.Orderly) (hnew : ¬ Placed w.slots w.nextGuid)
    (hp : ∀ me s, p = .top me s → ¬ IsBagSlot s) (h : w.WrittenAt me it u p d)
    (hexact : w.slots p = none → n ≤ it.maxCount.toNat → u.toNat = n)
    (hone : w.slots p = none → u = 0 → n ≠ 1)
    (hstack : w.slots p ≠ none → u.toNat = n % 2 ^ 32) :
    w.Receives d me it n ↔ w.Fits me it n p := by
  cases h with
  | new d hempty hadds => exact receives_new hw hnew hp hempty hadds (hexact hempty) (hone hempty)
  | stack g hg hentry hroom =>
    exact receives_stack hw hnew hp hg hentry hroom (hstack (by simp [hg]))

end ItemWorld

end HearthStone
