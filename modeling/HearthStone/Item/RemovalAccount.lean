/-
HearthStone.Item.RemovalAccount — what the loops of `RemoveItemAmt` take
away, to the unit.

The loops take stacks that the counting passes over and pass over some
that it counts, and a stack of none counts as one and is taken for
nothing. `taken` and `AllCount` say from the stacks beforehand how many
units go and whether other items go with them.

* `Exact` — so many units of the entry are gone, and nothing else.
* `Exact.trans`, `Exact.cancel` — the account of one stack and the rest.
* `takeAll_exact_iff` — when the loops take exactly so many units.
-/
import HearthStone.Item.ItemCount
import HearthStone.Item.ProtectPointer

namespace HearthStone

open Lib

namespace ItemWorld

variable {u w v : ItemWorld} {me : PlayerGuid} {id amt : UInt32} {g : Guid} {p : Place}
  {m n : Nat} {l : List Stack}

/-! ## Exactly what is asked for -/

/-- `n` units of the entry are gone: all other items are as they were,
and so are the stacks but those that are smaller now. -/
structure Exact (w v : ItemWorld) (me : PlayerGuid) (id : UInt32) (n : Nat) : Prop where
  units : v.total me id + n = w.total me id
  others : ∀ p g, w.slots p = some g → ¬ (p ∈ w.countPlaces me ∧ w.Counts id p g = true) →
    v.slots p = some g ∧ v.item g = w.item g
  kept : ∀ p g, v.slots p = some g →
    w.slots p = some g ∧ (v.item g = w.item g ∨ v.stackCount g ≠ 0)

theorem exact_refl : w.Exact w me id 0 where
  units := Nat.add_zero _
  others := fun _ _ hg _ => ⟨hg, rfl⟩
  kept := fun _ _ hg => ⟨hg, Or.inl rfl⟩

/-- One stack gives it all. -/
theorem exact_of_one (hw : w.Orderly) (hdrained : w.Drained v) (hg : w.slots p = some g)
    (hp : p ∈ w.countPlaces me) (hc : w.Counts id p g = true)
    (hslots : ∀ q, q ≠ p → v.slots q = w.slots q) (hother : ∀ x, x ≠ g → v.item x = w.item x)
    (hunits : v.unitsAt id p + n = w.unitsAt id p)
    (hkept : v.slots p = some g → v.stackCount g ≠ 0) : w.Exact v me id n where
  units := by
    have hrest : ∀ q, q ≠ p → v.unitsAt id q = w.unitsAt id q := by
      intro q hq
      refine unitsAt_congr hdrained (hslots q hq) fun x hx => ?_
      have hxg : x ≠ g := by
        rintro rfl
        exact hq (hw.once _ _ _ hx hg)
      exact congrArg Item.stackCount (hother x hxg)
    have hsum := sum_at_one (List.mem_toFinset.2 hp) hrest
    rw [hdrained.total_eq hw]
    unfold total
    omega
  others := by
    intro q x hx hnot
    have hxg : x ≠ g := by
      rintro rfl
      have hqp := hw.once _ _ _ hx hg
      exact hnot ⟨hqp ▸ hp, hqp ▸ hc⟩
    have hqp : q ≠ p := by
      rintro rfl
      exact hxg (Option.some.inj (hx.symm.trans hg))
    exact ⟨(hslots q hqp).trans hx, hother x hxg⟩
  kept := by
    intro q x hx
    have hwx := hdrained.sub q x hx
    refine ⟨hwx, ?_⟩
    by_cases hxg : x = g
    · subst hxg
      exact Or.inr (hkept (hw.once _ _ _ hwx hg ▸ hx))
    · exact Or.inl (hother x hxg)

theorem setStackCount_self (c : UInt32) : (w.setStackCount g c).stackCount g = c := by
  unfold setStackCount stackCount
  rw [modify_item_self]

/-- Taking none of a stack. -/
theorem setStackCount_same : w.setStackCount g (w.stackCount g - 0) = w := by
  unfold setStackCount modify stackCount
  rw [UInt32.sub_zero, Function.update_eq_self]

theorem left_toNat (hlt : amt < w.stackCount g) :
    (w.stackCount g - amt).toNat + amt.toNat = (w.stackCount g).toNat ∧
      w.stackCount g - amt ≠ 0 := by
  have hsub := UInt32.toNat_sub_of_le _ _ (UInt32.le_of_lt hlt)
  have hltNat := UInt32.lt_iff_toNat_lt.1 hlt
  refine ⟨by omega, fun hz => ?_⟩
  rw [hz] at hsub
  have hzero : (0 : UInt32).toNat = 0 := rfl
  omega

/-- A part of a stack. -/
theorem exact_part (hw : w.Orderly) (hg : w.slots p = some g) (hp : p ∈ w.countPlaces me)
    (hc : w.Counts id p g = true) (hlt : amt < w.stackCount g) :
    w.Exact (w.setStackCount g (w.stackCount g - amt)) me id amt.toNat := by
  obtain ⟨hleft, hne⟩ := left_toNat hlt
  have hdrained := setStackCount_drained (Drained.refl hw) g (w.stackCount g - amt)
  have hself := setStackCount_self (w := w) (g := g) (w.stackCount g - amt)
  have hne' : w.stackCount g ≠ 0 := fun hz => UInt32.not_lt_zero (hz ▸ hlt)
  refine exact_of_one hw hdrained hg hp hc (fun _ _ => rfl)
    (fun x hx => modify_item_of_ne hx) ?_ fun _ => ?_
  · have hg' : (w.setStackCount g (w.stackCount g - amt)).slots p = some g := hg
    have hc' := (hdrained.counts p g).trans hc
    rw [unitsAt_of_counts hg hc hne', unitsAt_of_counts hg' hc' (by rw [hself]; exact hne), hself]
    exact hleft
  · rw [hself]
    exact hne

/-- A whole stack. -/
theorem exact_whole (hw : w.Orderly) (hrem : w.RemovesAt p g v) (hp : p ∈ w.countPlaces me)
    (hc : w.Counts id p g = true) : w.Exact v me id (w.units g).toNat := by
  have hempty : v.slots p = none := by
    rw [hrem.slots, Function.update_self]
  refine exact_of_one hw (hrem.drained (Drained.refl hw)) hrem.held hp hc
    (fun q hq => hrem.keeps hq) hrem.others ?_ fun hv => ?_
  · unfold unitsAt
    rw [hempty, hrem.held]
    dsimp only
    rw [if_pos hc, Nat.zero_add]
  · rw [hempty] at hv
    cases hv

/-- Only stacks of the entry change. -/
theorem Exact.changed (h : w.Exact v me id n) (hg : w.slots p = some g)
    (hch : v.slots p ≠ some g ∨ v.item g ≠ w.item g) : w.Counts id p g = true := by
  by_contra hc
  obtain ⟨hslot, hitem⟩ := h.others p g hg fun hboth => hc hboth.2
  rcases hch with hch | hch
  · exact hch hslot
  · exact hch hitem

theorem part_changed (hlt : amt < w.stackCount g) (hz : amt ≠ 0) :
    (w.setStackCount g (w.stackCount g - amt)).item g ≠ w.item g := by
  intro heq
  have hcount : w.stackCount g - amt = w.stackCount g := by
    rw [← setStackCount_self (w := w) (g := g) (w.stackCount g - amt)]
    exact congrArg Item.stackCount heq
  have hleft := (left_toNat hlt).1
  rw [hcount] at hleft
  exact hz (UInt32.toNat.inj (by rw [UInt32.toNat_zero]; omega))

theorem exact_part_iff (hw : w.Orderly) (hg : w.slots p = some g) (hp : p ∈ w.countPlaces me)
    (hlt : amt < w.stackCount g) :
    w.Exact (w.setStackCount g (w.stackCount g - amt)) me id amt.toNat ↔
      amt = 0 ∨ w.Counts id p g = true := by
  by_cases hz : amt = 0
  · rw [hz, setStackCount_same]
    simp [exact_refl]
  · rw [or_iff_right hz]
    exact ⟨fun h => h.changed hg (Or.inr (part_changed hlt hz)),
      fun hc => exact_part hw hg hp hc hlt⟩

theorem Exact.unique (h : w.Exact v me id n) (h' : w.Exact v me id m) : n = m :=
  Nat.add_left_cancel (h.units.trans h'.units.symm)

/-- The accounts of two steps add up. -/
theorem Exact.trans (hdrained : w.Drained v) (h : w.Exact v me id n) (h' : v.Exact u me id m) :
    w.Exact u me id (n + m) where
  units := by
    have hunits := h.units
    have hunits' := h'.units
    omega
  others := by
    intro p g hg hnot
    obtain ⟨hslot, hitem⟩ := h.others p g hg hnot
    obtain ⟨hslot', hitem'⟩ := h'.others p g hslot fun hboth =>
      hnot ⟨hdrained.mem_countPlaces hboth.1, (hdrained.counts p g).symm.trans hboth.2⟩
    exact ⟨hslot', hitem'.trans hitem⟩
  kept := by
    intro p g hg
    obtain ⟨hslot, hleft⟩ := h'.kept p g hg
    obtain ⟨hslot', hleft'⟩ := h.kept p g hslot
    refine ⟨hslot', ?_⟩
    rcases hleft with hsame | hne
    · rw [hsame]
      rcases hleft' with hsame' | hne'
      · exact Or.inl hsame'
      · refine Or.inr ?_
        unfold stackCount
        rw [hsame]
        exact hne'
    · exact Or.inr hne

/-- What is left of an account when one stack is off. -/
theorem Exact.cancel (hw : w.Orderly) (hrem : w.RemovesAt p g v) (hdrained : v.Drained u)
    (h : w.Exact u me id (m + n)) (h' : w.Exact v me id m) : v.Exact u me id n where
  units := by
    have hunits := h.units
    have hunits' := h'.units
    omega
  others := by
    intro q x hx hnot
    have hback := hrem.of hx
    have hv := hrem.drained (Drained.refl hw)
    obtain ⟨hslot, hitem⟩ := h.others q x hback.2 fun hboth =>
      hnot ⟨hv.mem_countPlaces_of hw hboth.1 hx, (hv.counts q x).trans hboth.2⟩
    exact ⟨hslot, hitem.trans (hrem.others x (hrem.ne hw hx)).symm⟩
  kept := by
    intro q x hx
    have hvx := hdrained.sub q x hx
    refine ⟨hvx, ?_⟩
    rw [hrem.others x (hrem.ne hw hvx)]
    exact (h.kept q x hx).2

/-! ## What a list of stacks gives -/

/-- A stack that is left is as it was, or smaller and not empty. -/
def Smaller (w v : ItemWorld) : Prop :=
  ∀ g, v.stackCount g = w.stackCount g ∨ v.stackCount g ≠ 0 ∧ v.stackCount g ≤ w.stackCount g

theorem Smaller.trans (h : Smaller w v) (h' : Smaller v u) : Smaller w u := by
  intro g
  rcases h' g with heq | ⟨hne, hle⟩
  · rw [heq]
    exact h g
  · refine Or.inr ⟨hne, ?_⟩
    rcases h g with heq | ⟨-, hle'⟩
    · exact heq ▸ hle
    · exact UInt32.le_trans hle hle'

theorem unitsAt_le (h : w.Drained v) (hs : Smaller w v) (p : Place) :
    v.unitsAt id p ≤ w.unitsAt id p := by
  unfold unitsAt
  cases hv : v.slots p with
  | none => exact Nat.zero_le _
  | some g =>
    rw [h.sub p g hv]
    dsimp only
    rw [h.counts]
    split
    · rcases hs g with heq | ⟨hne, hle⟩
      · unfold units
        rw [heq]
      · have hne' : w.stackCount g ≠ 0 := by
          intro hz
          rw [hz] at hle
          exact hne (UInt32.le_antisymm hle UInt32.zero_le)
        unfold units
        rw [if_pos hne, if_pos hne']
        exact UInt32.le_iff_toNat_le.1 hle
    · exact Nat.le_refl 0

theorem total_le (h : w.Drained v) (hw : w.Orderly) (hs : Smaller w v) (me : PlayerGuid)
    (id : UInt32) : v.total me id ≤ w.total me id := by
  rw [h.total_eq hw]
  exact Finset.sum_le_sum fun p _ => unitsAt_le h hs p

/-- The units the loops take from the stacks of a list. -/
def taken (w : ItemWorld) : UInt32 → List Stack → Nat
  | _, [] => 0
  | amt, st :: l =>
    if amt < w.stackCount st.guid then amt.toNat
    else
      (if w.isFullBag st.guid = true then 0 else (w.units st.guid).toNat) +
        if w.stackCount st.guid = amt then 0 else taken w (amt - w.stackCount st.guid) l

/-- Every stack that they change or take away counts for the entry. -/
def AllCount (w : ItemWorld) (id : UInt32) : UInt32 → List Stack → Prop
  | _, [] => True
  | amt, st :: l =>
    if amt < w.stackCount st.guid then amt = 0 ∨ w.Counts id st.place st.guid = true
    else
      (w.isFullBag st.guid = true ∨ w.Counts id st.place st.guid = true) ∧
        (w.stackCount st.guid = amt ∨ AllCount w id (amt - w.stackCount st.guid) l)

instance (w : ItemWorld) (id : UInt32) : ∀ amt l, Decidable (AllCount w id amt l)
  | _, [] => inferInstanceAs (Decidable True)
  | amt, st :: l =>
    have := instDecidableAllCount w id (amt - w.stackCount st.guid) l
    inferInstanceAs (Decidable (if amt < w.stackCount st.guid then
      amt = 0 ∨ w.Counts id st.place st.guid = true
    else (w.isFullBag st.guid = true ∨ w.Counts id st.place st.guid = true) ∧
      (w.stackCount st.guid = amt ∨ AllCount w id (amt - w.stackCount st.guid) l)))

/-- Two worlds have the same stacks of a list. -/
structure SameStacks (w v : ItemWorld) (id : UInt32) (l : List Stack) : Prop where
  count : ∀ st ∈ l, v.stackCount st.guid = w.stackCount st.guid
  full : ∀ st ∈ l, v.isFullBag st.guid = w.isFullBag st.guid
  counts : ∀ st ∈ l, v.Counts id st.place st.guid = w.Counts id st.place st.guid

theorem SameStacks.tail {st : Stack} (h : SameStacks w v id (st :: l)) : SameStacks w v id l where
  count := fun st' hst' => h.count st' (List.mem_cons_of_mem st hst')
  full := fun st' hst' => h.full st' (List.mem_cons_of_mem st hst')
  counts := fun st' hst' => h.counts st' (List.mem_cons_of_mem st hst')

theorem SameStacks.taken (h : SameStacks w v id l) (amt : UInt32) :
    ItemWorld.taken v amt l = ItemWorld.taken w amt l := by
  induction l generalizing amt with
  | nil => rfl
  | cons st l ih =>
    unfold ItemWorld.taken units
    rw [h.count st List.mem_cons_self, h.full st List.mem_cons_self, ih h.tail]

theorem SameStacks.allCount (h : SameStacks w v id l) (amt : UInt32) :
    AllCount v id amt l ↔ AllCount w id amt l := by
  induction l generalizing amt with
  | nil => rfl
  | cons st l ih =>
    unfold AllCount
    rw [h.count st List.mem_cons_self, h.full st List.mem_cons_self,
      h.counts st List.mem_cons_self, ih h.tail]

end ItemWorld

namespace Removal

open ItemWorld

variable {s : Removal} {w : ItemWorld} {me : PlayerGuid} {id : UInt32} {n : Nat}
  {protect : Guid → Option Guid → Option Guid} {st : Stack} {l : List Stack}

theorem take_smaller (hv : s.world.Orderly) (hst : s.world.Sits me st) :
    Smaller s.world (s.take me protect st).world := by
  intro g
  rcases take_cases protect hv hst with ⟨hlt, heq⟩ | ⟨-, -, heq⟩ | ⟨-, -, v', hrem, heq⟩
  · rw [heq]
    dsimp only
    by_cases hg : g = st.guid
    · subst hg
      rw [setStackCount_self]
      exact Or.inr ⟨(left_toNat hlt).2, UInt32.sub_le (UInt32.le_of_lt hlt)⟩
    · exact Or.inl (congrArg Item.stackCount (modify_item_of_ne hg))
  · rw [heq]
    exact Or.inl rfl
  · rw [heq]
    exact Or.inl (hrem.kinds g).stackCount

/-- A list of stacks that are where they say, each once, and none of them
in another. -/
structure Arranged (me : PlayerGuid) (w : ItemWorld) (l : List Stack) : Prop where
  sits : ∀ st ∈ l, w.Sits me st
  places : (l.map Stack.place).Nodup
  guids : (l.map Stack.guid).Nodup
  apart : ∀ st ∈ l, ∀ st' ∈ l, ∀ j, st.place ≠ .cell st'.guid j

theorem Arranged.ne (h : Arranged me w (st :: l)) {st' : Stack} (hst' : st' ∈ l) :
    st'.place ≠ st.place ∧ st'.guid ≠ st.guid := by
  have hplaces := h.places
  have hguids := h.guids
  rw [List.map_cons, List.nodup_cons] at hplaces hguids
  exact ⟨fun heq => hplaces.1 (heq ▸ List.mem_map_of_mem hst'),
    fun heq => hguids.1 (heq ▸ List.mem_map_of_mem hst')⟩

/-- The rest of the list, in the same world. -/
theorem Arranged.tail (h : Arranged me w (st :: l)) : Arranged me w l where
  sits := fun st' hst' => h.sits st' (List.mem_cons_of_mem st hst')
  places := (List.nodup_cons.1 (List.map_cons ▸ h.places)).2
  guids := (List.nodup_cons.1 (List.map_cons ▸ h.guids)).2
  apart := fun st' hst' st'' hst'' => h.apart st' (List.mem_cons_of_mem st hst') st''
    (List.mem_cons_of_mem st hst'')

/-- The rest of the list, when the first has been dealt with. -/
theorem Arranged.take (protect : Guid → Option Guid → Option Guid) (hv : s.world.Orderly)
    (h : Arranged me s.world (st :: l)) :
    Arranged me (s.take me protect st).world l where
  sits := fun st' hst' => take_sits hv (h.sits st List.mem_cons_self)
    (h.sits st' (List.mem_cons_of_mem st hst')) (h.ne hst').1
  places := h.tail.places
  guids := h.tail.guids
  apart := h.tail.apart

theorem arranged_itemStacks (hw : w.Orderly) (me : PlayerGuid) (id : UInt32) :
    Arranged me w (w.itemStacks me id) where
  sits := fun _ hst => sits_itemStacks hst
  places := nodup_itemStacks hw me id
  guids := nodup_guids hw me id
  apart := fun _ hst _ hst' => itemStacks_apart hw hst hst'

theorem takeAll_smaller (h : w.Drained s.world) (hl : Arranged me s.world l) :
    Smaller s.world (s.takeAll me protect l).world := by
  induction l generalizing s with
  | nil => exact fun _ => Or.inl rfl
  | cons st l ih =>
    by_cases hres : s.result = none
    · rw [takeAll_cons hres]
      have hst := hl.sits st List.mem_cons_self
      exact (take_smaller h.orderly hst).trans
        (ih (take_drained protect h hst) (hl.take protect h.orderly))
    · rw [takeAll_returned (Option.isSome_iff_ne_none.2 hres)]
      exact fun _ => Or.inl rfl

theorem take_sameStacks (protect : Guid → Option Guid → Option Guid) (hv : s.world.Orderly)
    (h : Arranged me s.world (st :: l)) (id : UInt32) :
    SameStacks s.world (s.take me protect st).world id l := by
  have hst := h.sits st List.mem_cons_self
  have hother : ∀ st' ∈ l, _ := fun st' hst' => take_other protect st' hv hst (h.ne hst').2
    (h.apart st List.mem_cons_self st' (List.mem_cons_of_mem st hst'))
  exact {
    count := fun st' hst' => (hother st' hst').1
    full := fun st' hst' => (hother st' hst').2
    counts := fun st' _ => (take_drained protect (Drained.refl hv) hst).counts _ _ }

/-- The loops take exactly `n` units when what they take is `n` units. -/
theorem takeAll_exact_iff (protect : Guid → Option Guid → Option Guid) (hv : s.world.Orderly)
    (hl : Arranged me s.world l) (hmem : ∀ st ∈ l, st.place ∈ s.world.countPlaces me)
    (hres : s.result = none) :
    s.world.Exact (s.takeAll me protect l).world me id n ↔
      AllCount s.world id s.amt l ∧ taken s.world s.amt l = n := by
  induction l generalizing s n with
  | nil =>
    unfold AllCount taken
    rw [true_and]
    constructor
    · exact fun h => exact_refl.unique h
    · rintro rfl
      exact exact_refl
  | cons st l ih =>
    have hst := hl.sits st List.mem_cons_self
    have hp := hmem st List.mem_cons_self
    have hdrained := take_drained protect (Drained.refl hv) hst
    have hsame := take_sameStacks protect hv hl id
    have hrest := hl.take protect hv
    rw [takeAll_cons hres]
    unfold AllCount taken
    rcases take_cases protect hv hst with ⟨hlt, heq⟩ | ⟨hle, hf, heq⟩ | ⟨hle, hf, v, hrem, heq⟩
    · -- a part of the stack
      rw [if_pos hlt, if_pos hlt, heq, takeAll_returned rfl]
      rw [← exact_part_iff hv hst.held hp hlt]
      constructor
      · intro h
        by_cases hz : s.amt = 0
        · have hnone : s.world.Exact (s.world.setStackCount st.guid
              (s.world.stackCount st.guid - s.amt)) me id s.amt.toNat :=
            (exact_part_iff hv hst.held hp hlt).2 (Or.inl hz)
          exact ⟨hnone, hnone.unique h⟩
        · have hpart : s.world.Exact (s.world.setStackCount st.guid
              (s.world.stackCount st.guid - s.amt)) me id s.amt.toNat :=
            exact_part hv hst.held hp (h.changed hst.held (Or.inr (part_changed hlt hz))) hlt
          exact ⟨hpart, hpart.unique h⟩
      · rintro ⟨h, rfl⟩
        exact h
    · -- a bag that stays
      have hnot : ¬ s.amt < s.world.stackCount st.guid := UInt32.not_lt.2 hle
      rw [if_neg hnot, if_neg hnot, if_pos hf, Nat.zero_add, and_iff_right (Or.inl hf)]
      by_cases hcount : s.world.stackCount st.guid = s.amt
      · rw [heq, if_pos hcount, if_pos hcount, if_pos hcount, takeAll_returned rfl]
        rw [and_iff_right (Or.inl hcount)]
        constructor
        · exact fun h => exact_refl.unique h
        · rintro rfl
          exact exact_refl
      · have hih := ih (n := n) hdrained.orderly hrest
        rw [heq, if_neg hcount, if_neg hcount] at hih ⊢
        rw [if_neg hcount, or_iff_right hcount]
        exact hih (fun st' hst' => hmem st' (List.mem_cons_of_mem st hst')) hres
    · -- a stack that goes
      have hnot : ¬ s.amt < s.world.stackCount st.guid := UInt32.not_lt.2 hle
      rw [if_neg hnot, if_neg hnot, if_neg (by simp [hf]), or_iff_right (by simp [hf])]
      have hwhole : s.world.Counts id st.place st.guid = true →
          s.world.Exact v me id (s.world.units st.guid).toNat := exact_whole hv hrem hp
      have hempty : v.slots st.place = none := by
        rw [hrem.slots, Function.update_self]
      by_cases hcount : s.world.stackCount st.guid = s.amt
      · rw [heq, if_pos hcount, if_pos hcount, if_pos hcount, takeAll_returned rfl, Nat.add_zero]
        rw [or_iff_left_of_imp (fun _ => hcount), and_iff_left hcount]
        constructor
        · intro h
          have hc := h.changed hst.held (Or.inl (by rw [hempty]; simp))
          exact ⟨hc, (hwhole hc).unique h⟩
        · rintro ⟨hc, rfl⟩
          exact hwhole hc
      · have hih := fun k => ih (n := k) hdrained.orderly hrest
        rw [heq, if_neg hcount, if_neg hcount] at hih hsame hrest ⊢
        have hv' := hrem.drained (Drained.refl hv)
        have hmem' : ∀ st' ∈ l, st'.place ∈ v.countPlaces me := fun st' hst' =>
          hv'.mem_countPlaces_of hv (hmem st' (List.mem_cons_of_mem st hst'))
            (hrest.sits st' hst').held
        have hih := fun k => hih k hmem' hres
        simp only [hsame.allCount, hsame.taken] at hih
        rw [if_neg hcount, or_iff_right hcount]
        set s' : Removal := ⟨v, s.amt - s.world.stackCount st.guid, protect st.guid s.pointer,
          s.result⟩
        have hend : v.Drained (s'.takeAll me protect l).world :=
          (takeAll_drained (s := s') protect (Drained.refl hv'.orderly) hrest.sits
            hrest.places).1
        have hsmall : Smaller v (s'.takeAll me protect l).world :=
          takeAll_smaller (s := s') (Drained.refl hv'.orderly) hrest
        constructor
        · intro h
          have hc : s.world.Counts id st.place st.guid = true := by
            refine h.changed hst.held (Or.inl fun hstays => ?_)
            have hback := hend.sub _ _ hstays
            rw [hempty] at hback
            cases hback
          have hunits := h.units
          have hunits' := (hwhole hc).units
          have htotal := total_le hend hv'.orderly hsmall me id
          obtain ⟨k, rfl⟩ := Nat.exists_eq_add_of_le
            (show (s.world.units st.guid).toNat ≤ n by omega)
          obtain ⟨hall, htaken⟩ := (hih k).1 (Exact.cancel hv hrem hend h (hwhole hc))
          exact ⟨⟨hc, hall⟩, by rw [htaken]⟩
        · rintro ⟨⟨hc, hall⟩, rfl⟩
          exact (hwhole hc).trans hv' ((hih _).2 ⟨hall, rfl⟩)

end Removal

/-! ## The function -/

namespace ItemWorld

open Removal

variable {w : ItemWorld} {me : PlayerGuid} {id amt : UInt32}

theorem mem_countPlaces_itemStacks (hw : w.Orderly) {st : Stack} (h : st ∈ w.itemStacks me id) :
    st.place ∈ w.countPlaces me := by
  have hheld := (sits_itemStacks h).held
  rw [mem_countPlaces]
  rcases mem_itemStacks h with ⟨i, hlt, hst⟩ | ⟨i, bag, j, hge, hlt, hbag, hst⟩ | ⟨i, hge, hlt, hst⟩
  · exact Or.inl ⟨i, Or.inl hlt, (topStack_spec hst).2.1⟩
  · have hplace := (cellStack_spec hst).2.1
    rw [hplace] at hheld
    obtain ⟨hcont, hj⟩ := hw.cellRange bag j _ hheld
    exact Or.inr ⟨i, bag, j, hge, hlt, hbag, hcont, hj, hplace⟩
  · exact Or.inl ⟨i, Or.inr ⟨hge, hlt⟩, (topStack_spec hst).2.1⟩

/-- The stacks the loops come to count for the entry, and what is taken of
them is what is asked for. -/
def Yields (w : ItemWorld) (me : PlayerGuid) (id amt : UInt32) : Prop :=
  AllCount w id amt (w.itemStacks me id) ∧ taken w amt (w.itemStacks me id) = amt.toNat

instance (w : ItemWorld) (me : PlayerGuid) (id amt : UInt32) : Decidable (w.Yields me id amt) :=
  inferInstanceAs (Decidable (_ ∧ _))

/-- What `RemoveItemAmt` takes, its value aside. -/
theorem removeItemAmt_takes (hw : w.Orderly) (hle : amt ≤ w.getItemCount me id false) :
    w.Exact (w.removeItemAmt me id amt).2 me id amt.toNat ↔ w.Yields me id amt := by
  unfold removeItemAmt
  rw [removeAmt_eq hw _ none hle]
  exact takeAll_exact_iff (s := ⟨w, amt, none, none⟩) _ hw (arranged_itemStacks hw me id)
    (fun st hst => mem_countPlaces_itemStacks hw hst) rfl

/-- It leaves an orderly world of the same items. -/
theorem removeItemAmt_drained (hw : w.Orderly) (me : PlayerGuid) (id amt : UInt32) :
    w.Drained (w.removeItemAmt me id amt).2 := by
  unfold removeItemAmt
  by_cases hle : amt ≤ w.getItemCount me id false
  · rw [removeAmt_eq hw _ none hle]
    exact (takeAll_drained (s := ⟨w, amt, none, none⟩) _ (Drained.refl hw)
      (fun st hst => sits_itemStacks hst) (nodup_itemStacks hw me id)).1
  · unfold removeAmt
    rw [if_pos (UInt32.not_le.1 hle)]
    exact Drained.refl hw

/-! ## What is left to count -/

theorem not_counts_of_ne {id' : UInt32} {p : Place} {g : Guid} (hne : id' ≠ id)
    (h : w.Counts id p g = true) : w.Counts id' p g = false := by
  have hentry : (w.item g).entry = id → decide ((w.item g).entry = id') = false := by
    intro heq
    rw [heq]
    exact decide_eq_false (Ne.symm hne)
  unfold Counts at h ⊢
  cases p with
  | top _ _ =>
    unfold Item.isEntry at h ⊢
    rw [Bool.and_eq_true, decide_eq_true_eq] at h
    rw [hentry h.1, Bool.false_and]
  | cell _ _ =>
    dsimp only at h ⊢
    rw [Bool.and_eq_true, decide_eq_true_eq] at h
    rw [hentry h.1, Bool.false_and]

/-- The units of other entries are as they were. -/
theorem Exact.total_of_ne {v : ItemWorld} {n : Nat} {id' : UInt32} (hw : w.Orderly)
    (hdrained : w.Drained v) (h : w.Exact v me id n) (hne : id' ≠ id) :
    v.total me id' = w.total me id' := by
  rw [hdrained.total_eq hw]
  refine Finset.sum_congr rfl fun p _ => ?_
  cases hg : w.slots p with
  | none =>
    have hv : v.slots p = none := by
      cases hx : v.slots p with
      | none => rfl
      | some x =>
        have hback := hdrained.sub p x hx
        rw [hg] at hback
        cases hback
    unfold unitsAt
    rw [hg, hv]
  | some g =>
    by_cases hc : w.Counts id p g = true
    · have hother := not_counts_of_ne hne hc
      have hzero : ∀ u : ItemWorld, w.Drained u → u.unitsAt id' p = 0 := by
        intro u hu
        unfold unitsAt
        cases hx : u.slots p with
        | none => rfl
        | some x =>
          obtain rfl := Option.some.inj ((hu.sub p x hx).symm.trans hg)
          dsimp only
          rw [hu.counts, hother]
          rfl
      rw [hzero v hdrained, hzero w (Drained.refl hw)]
    · obtain ⟨hslot, hitem⟩ := h.others p g hg fun hboth => hc hboth.2
      refine unitsAt_congr hdrained (hslot.trans hg.symm) fun x hx => ?_
      obtain rfl := Option.some.inj (hx.symm.trans hg)
      exact congrArg Item.stackCount hitem

/-- What `GetItemCount` counts afterwards. -/
theorem Exact.getItemCount {v : ItemWorld} {n : Nat} (hw : w.Orderly) (hdrained : w.Drained v)
    (h : w.Exact v me id n) (hle : n ≤ (w.getItemCount me id false).toNat) :
    (v.getItemCount me id false).toNat + n = (w.getItemCount me id false).toNat := by
  rw [getItemCount_eq hw] at hle ⊢
  rw [getItemCount_eq hdrained.orderly]
  rw [UInt32.toNat_ofNat'] at hle ⊢
  rw [UInt32.toNat_ofNat']
  have hunits := h.units
  omega

theorem Exact.getItemCount_of_ne {v : ItemWorld} {n : Nat} {id' : UInt32} (hw : w.Orderly)
    (hdrained : w.Drained v) (h : w.Exact v me id n) (hne : id' ≠ id) :
    v.getItemCount me id' false = w.getItemCount me id' false := by
  rw [getItemCount_eq hw, getItemCount_eq hdrained.orderly, h.total_of_ne hw hdrained hne]

end ItemWorld

end HearthStone
