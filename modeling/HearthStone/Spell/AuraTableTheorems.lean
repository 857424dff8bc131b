/-
HearthStone.Spell.AuraTableTheorems — every aura that was added is in its
slot, and the clients see what is in the visible ones.

`Table u` is the table's own invariant and `Seen u` says that a client that
has seen all updates shows the visible slots. Both survive

* a removal (`Table.remove`, `Seen.remove`), unless the slot is 256 or more
  and the byte that is sent names a visible one,
* the walk of a new aura over the others (`law_scan`), unless an icon would
  show the number 0, which hides it,
* a new aura (`law_place`), unless the hidden slot it gets is the 255 that
  stands for none, no slot is left for an aura that is applied already, or
  a passive aura is announced in a slot where it is not put.

`Bearer.table_run` says it of runs.
-/
import HearthStone.Lib.Run
import HearthStone.Spell.AuraTable

namespace HearthStone.AuraTable

open Lib

/-! ## The invariant -/

/-- Added and not deleted. -/
def Aura.Live (a : Aura) : Prop := a.m_added = true ∧ a.m_deleted = false

instance (a : Aura) : Decidable a.Live := inferInstanceAs (Decidable (_ ∧ _))

namespace Bearer

/-- What is in a visible slot. -/
def icon (u : Bearer) (k : Nat) : UInt32 :=
  if k < MAX_AURAS then ((u.m_auras k).bind u.aura).elim 0 Aura.spellId else 0

/-- The slots and the auras agree. -/
structure Table (u : Bearer) : Prop where
  slot : ∀ p a, u.aura p = some a → a.Live → ∀ x, u.m_auras x = some p ↔ x = a.m_auraSlot
  held : ∀ x p, u.m_auras x = some p →
    x < MAX_AURAS + MAX_PASSIVE_AURAS ∧ ∃ a, u.aura p = some a ∧ a.Live
  applied : ∀ p a, u.aura p = some a → a.m_applied = true → a.Live
  new : ∀ p a, u.aura p = some a → a.m_added = false → a.m_deleted = false →
    a.m_auraSlot = NEW_SLOT
  active : ∀ x p a, x < MAX_AURAS → u.m_auras x = some p → u.aura p = some a →
    a.isPassive = false

/-- A client that has seen all updates shows the visible slots. -/
def Seen (u : Bearer) : Prop := ∀ k, shown u.sent k = u.icon k

variable {u u' : Bearer} {p q x k : Nat} {a a' cur : Aura} {env : Surroundings} {w : UInt32}

/-- An aura that is not live is in no slot. -/
theorem Table.apart (h : Table u) (ha : u.aura p = some a) (hdead : ¬ a.Live) (x : Nat) :
    u.m_auras x ≠ some p := by
  intro hx
  obtain ⟨-, b, hb, hlive⟩ := h.held x p hx
  rw [ha] at hb
  cases hb
  exact hdead hlive

/-! ## Updates -/

theorem shown_append (sent : List (Nat × UInt32)) (k : Nat) (w : UInt32) :
    shown (sent ++ [(k, w)]) = Function.update (shown sent) k w := by
  rw [shown, List.foldl_append]
  rfl

@[simp] theorem buildAuraUpdate_m_auras : (u.buildAuraUpdate a).m_auras = u.m_auras := by
  unfold buildAuraUpdate
  split <;> rfl

@[simp] theorem buildAuraUpdate_aura : (u.buildAuraUpdate a).aura = u.aura := by
  unfold buildAuraUpdate
  split <;> rfl

@[simp] theorem buildAuraUpdate_icon : (u.buildAuraUpdate a).icon = u.icon := by
  funext k
  simp [icon]

theorem Table.of_eq (h : Table u) (hslots : u'.m_auras = u.m_auras) (haura : u'.aura = u.aura) :
    Table u' := by
  constructor
  · rw [hslots, haura]
    exact h.slot
  · rw [hslots, haura]
    exact h.held
  · rw [haura]
    exact h.applied
  · rw [haura]
    exact h.new
  · rw [hslots, haura]
    exact h.active

theorem Table.buildAuraUpdate (h : Table u) : Table (u.buildAuraUpdate a) :=
  h.of_eq buildAuraUpdate_m_auras buildAuraUpdate_aura

/-- The icons of a client after an update. -/
theorem shown_buildAuraUpdate (hid : a.spellId ≠ 0) : shown (u.buildAuraUpdate a).sent =
    Function.update (shown u.sent) (a.m_auraSlot % 256) (if a.stack = 0 then 0 else a.spellId) := by
  rw [Bearer.buildAuraUpdate, if_neg hid]
  exact shown_append _ _ _

/-- An update about an aura that is in its visible slot changes nothing. -/
theorem Seen.announce (h : Seen u) (hicon : u.icon a.m_auraSlot = a.spellId)
    (hslot : a.m_auraSlot < MAX_AURAS) (hstack : a.stack ≠ 0) : Seen (u.buildAuraUpdate a) := by
  intro k
  rw [buildAuraUpdate_icon]
  by_cases hid : a.spellId = 0
  · rw [Bearer.buildAuraUpdate, if_pos hid]
    exact h k
  · have hmod : a.m_auraSlot % 256 = a.m_auraSlot :=
      Nat.mod_eq_of_lt (hslot.trans (by decide))
    rw [shown_buildAuraUpdate hid, hmod, if_neg hstack]
    by_cases hk : k = a.m_auraSlot
    · subst hk
      rw [Function.update_self, hicon]
    · rw [Function.update_of_ne hk]
      exact h k

/-! ## Auras that are written -/

theorem put_self : (u.put p a).aura p = some a := Function.update_self ..

theorem put_ne (hq : q ≠ p) : (u.put p a).aura q = u.aura q := Function.update_of_ne hq ..

/-- One aura is written, and only its own slots change. -/
theorem Table.change (h : Table u) (haura : u'.aura = Function.update u.aura q (some a))
    (hothers : ∀ x p, p ≠ q → (u'.m_auras x = some p ↔ u.m_auras x = some p))
    (hslot : a.Live → ∀ x, u'.m_auras x = some q ↔ x = a.m_auraSlot)
    (hheld : ∀ x, u'.m_auras x = some q →
      x < MAX_AURAS + MAX_PASSIVE_AURAS ∧ a.Live ∧ (x < MAX_AURAS → a.isPassive = false))
    (happlied : a.m_applied = true → a.Live)
    (hnew : a.m_added = false → a.m_deleted = false → a.m_auraSlot = NEW_SLOT) : Table u' := by
  have hself : ∀ b, u'.aura q = some b → a = b := by
    intro b hb
    rw [haura, Function.update_self] at hb
    exact Option.some.inj hb
  have hother : ∀ p, p ≠ q → u'.aura p = u.aura p := by
    intro p hp
    rw [haura, Function.update_of_ne hp]
  constructor
  case slot =>
    intro p b hb hb_live x
    by_cases hp : p = q
    · subst hp
      cases hself b hb
      exact hslot hb_live x
    · rw [hother p hp] at hb
      exact (hothers x p hp).trans (h.slot p b hb hb_live x)
  case held =>
    intro x p hx
    by_cases hp : p = q
    · subst hp
      obtain ⟨hlt, hlive, -⟩ := hheld x hx
      exact ⟨hlt, a, by rw [haura, Function.update_self], hlive⟩
    · rw [hother p hp]
      exact h.held x p ((hothers x p hp).1 hx)
  case applied =>
    intro p b hb
    by_cases hp : p = q
    · subst hp
      cases hself b hb
      exact happlied
    · rw [hother p hp] at hb
      exact h.applied p b hb
  case new =>
    intro p b hb
    by_cases hp : p = q
    · subst hp
      cases hself b hb
      exact hnew
    · rw [hother p hp] at hb
      exact h.new p b hb
  case active =>
    intro x p b hlt hx hb
    by_cases hp : p = q
    · subst hp
      cases hself b hb
      exact (hheld x hx).2.2 hlt
    · rw [hother p hp] at hb
      exact h.active x p b hlt ((hothers x p hp).1 hx) hb

/-- A live aura keeps its slot. -/
theorem Table.rewrite (h : Table u) (hq : u.aura q = some cur) (hcur : cur.Live)
    (hslot : a.m_auraSlot = cur.m_auraSlot) (hlive : a.Live)
    (hpassive : a.isPassive = cur.isPassive) : Table (u.put q a) := by
  refine h.change rfl (fun _ _ _ => Iff.rfl) ?_ ?_ (fun _ => hlive) ?_
  · intro _ x
    rw [hslot]
    exact h.slot q cur hq hcur x
  · intro x hx
    refine ⟨(h.held x q hx).1, hlive, fun hlt => ?_⟩
    rw [hpassive]
    exact h.active x q cur hlt hx hq
  · intro hadded
    rw [hlive.1] at hadded
    cases hadded

/-- An aura in no slot is written as one that is not live. -/
theorem Table.putApart (h : Table u) (hapart : ∀ x, u.m_auras x ≠ some q) (hdead : ¬ a.Live)
    (happlied : a.m_applied = false)
    (hnew : a.m_added = false → a.m_deleted = false → a.m_auraSlot = NEW_SLOT) :
    Table (u.put q a) := by
  refine h.change rfl (fun _ _ _ => Iff.rfl) (fun hlive => absurd hlive hdead)
    (fun x hx => absurd hx (hapart x)) ?_ hnew
  intro hset
  rw [happlied] at hset
  cases hset

/-- What a slot shows depends on the spell of its aura only. -/
theorem icon_put (cur : Aura)
    (hspell : ∀ x, u.m_auras x = some q → u.aura q = some cur ∧ a.spellId = cur.spellId) :
    (u.put q a).icon = u.icon := by
  funext k
  unfold icon
  split
  case isFalse => rfl
  case isTrue =>
    have hslots : (u.put q a).m_auras = u.m_auras := rfl
    rw [hslots]
    cases hk : u.m_auras k with
    | none => rfl
    | some p =>
      rw [Option.bind_some, Option.bind_some]
      by_cases hp : p = q
      · subst hp
        obtain ⟨hcur, hid⟩ := hspell k hk
        rw [put_self, hcur]
        exact hid
      · rw [put_ne hp]

theorem Seen.of_eq (h : Seen u) (hsent : u'.sent = u.sent) (hicon : u'.icon = u.icon) : Seen u' := by
  intro k
  rw [hsent, hicon]
  exact h k

theorem icon_putApart (hapart : ∀ x, u.m_auras x ≠ some q) : (u.put q a).icon = u.icon :=
  icon_put a fun x hx => absurd hx (hapart x)

/-! ## Removal -/

/-- The byte that says which slot is empty does not name a visible one. -/
def Removable (u : Bearer) (p : Nat) : Prop :=
  ∀ a ∈ u.aura p, a.Live → (!a.isPassive || a.m_spellProto.visual) = true →
    256 ≤ a.m_auraSlot → u.icon (a.m_auraSlot - 256) = 0

instance : Decidable (Removable u p) :=
  inferInstanceAs (Decidable (∀ a ∈ _, _ → _ → _ → _))

/-- What is known of a live aura. -/
theorem Table.of_live (h : Table u) (ha : u.aura p = some a) (hlive : a.Live) :
    u.m_auras a.m_auraSlot = some p ∧ a.m_auraSlot < MAX_AURAS + MAX_PASSIVE_AURAS := by
  have hstored := (h.slot p a ha hlive a.m_auraSlot).2 rfl
  exact ⟨hstored, (h.held _ p hstored).1⟩

/-- An aura after its removal. -/
def gone (a : Aura) : Aura := { a with m_deleted := true, stackSize := 0, m_applied := false }

/-- What is sent about a removal. -/
def told (u : Bearer) (a : Aura) : Bearer :=
  if !a.isPassive || a.m_spellProto.visual then
    u.buildAuraUpdate { a with m_deleted := true, stackSize := 0 }
  else u

@[simp] theorem told_m_auras : (told u a).m_auras = u.m_auras := by
  unfold told
  split
  · exact buildAuraUpdate_m_auras
  · rfl

@[simp] theorem told_aura : (told u a).aura = u.aura := by
  unfold told
  split
  · exact buildAuraUpdate_aura
  · rfl

/-- The table without a live aura. -/
def without (u : Bearer) (p : Nat) (a : Aura) : Bearer :=
  ⟨Function.update u.m_auras a.m_auraSlot none, Function.update u.aura p (some (gone a)),
    (told u a).sent⟩

theorem without_self : (u.without p a).m_auras a.m_auraSlot = none := Function.update_self ..

theorem without_ne (hx : x ≠ a.m_auraSlot) : (u.without p a).m_auras x = u.m_auras x :=
  Function.update_of_ne hx ..

theorem removeAura_live (h : Table u) (ha : u.aura p = some a) (hlive : a.Live) :
    u.removeAura p a = u.without p a := by
  obtain ⟨hstored, hlt⟩ := h.of_live ha hlive
  have hleave : (told u a).leaveSlot p { a with m_deleted := true, stackSize := 0 } =
      { told u a with m_auras := Function.update u.m_auras a.m_auraSlot none } := by
    unfold leaveSlot
    rw [told_m_auras, if_pos ⟨hlt, hstored⟩]
  have hunfold : u.removeAura p a =
      ((told u a).leaveSlot p { a with m_deleted := true, stackSize := 0 }).put p (gone a) :=
    if_neg (by simp [hlive.1])
  rw [hunfold, hleave, put, told_aura]
  rfl

/-- A removal, case by case: nothing is there, the aura was not added yet,
or it is a live one. -/
theorem remove_cases (h : Table u) :
    (u.remove p = u) ∨
    (∃ a, u.aura p = some a ∧ a.m_added = false ∧
      u.remove p = u.put p { a with m_deleted := true, stackSize := 0 }) ∨
    (∃ a, u.aura p = some a ∧ a.Live ∧ u.remove p = u.without p a) := by
  cases ha : u.aura p with
  | none => exact .inl (by rw [remove, ha])
  | some a =>
    cases hdeleted : a.m_deleted with
    | true => exact .inl (by simp [remove, ha, hdeleted])
    | false =>
      have hremove : u.remove p = u.removeAura p a := by simp [remove, ha, hdeleted]
      cases hadded : a.m_added with
      | false =>
        refine .inr (.inl ⟨a, rfl, hadded, ?_⟩)
        rw [hremove]
        exact if_pos (by simp [hadded])
      | true =>
        have hlive : a.Live := ⟨hadded, hdeleted⟩
        exact .inr (.inr ⟨a, rfl, hlive, hremove.trans (removeAura_live h ha hlive)⟩)

@[simp] theorem leaveSlot_aura : (u.leaveSlot p a).aura = u.aura := by
  unfold leaveSlot
  split <;> rfl

theorem remove_aura_ne (hq : q ≠ p) : (u.remove p).aura q = u.aura q := by
  unfold remove
  cases u.aura p with
  | none => rfl
  | some a =>
    simp only [removeAura]
    split
    · rfl
    · split
      · exact put_ne hq
      · rw [put_ne hq, leaveSlot_aura]
        split
        · rw [buildAuraUpdate_aura]
        · rfl

/-- What the client is told about a removal. -/
theorem shown_removed (h : Seen u) (hremovable : Removable u p) (ha : u.aura p = some a)
    (hlive : a.Live) (hlt : a.m_auraSlot < MAX_AURAS + MAX_PASSIVE_AURAS)
    (hactive : a.m_auraSlot < MAX_AURAS → a.isPassive = false)
    (hicon : a.m_auraSlot < MAX_AURAS → u.icon a.m_auraSlot = a.spellId) :
    shown (told u a).sent = Function.update u.icon a.m_auraSlot 0 := by
  unfold told
  have hshown : shown u.sent = u.icon := funext h
  -- a hidden slot shows nothing
  have hhidden : MAX_AURAS ≤ a.m_auraSlot → Function.update u.icon a.m_auraSlot 0 = u.icon := by
    intro hle
    rw [Function.update_eq_self_iff, icon, if_neg (not_lt.2 hle)]
  cases htold : !a.isPassive || a.m_spellProto.visual with
  | false =>
    have hle : MAX_AURAS ≤ a.m_auraSlot := by
      by_contra hvisible
      rw [hactive (not_le.1 hvisible)] at htold
      cases htold
    rw [if_neg Bool.false_ne_true, hshown, hhidden hle]
  | true =>
    rw [if_pos rfl]
    by_cases hid : a.spellId = 0
    · have hsame : u.buildAuraUpdate { a with m_deleted := true, stackSize := 0 } = u := if_pos hid
      rw [hsame, hshown]
      by_cases hvisible : a.m_auraSlot < MAX_AURAS
      · rw [eq_comm, Function.update_eq_self_iff, hicon hvisible, hid]
      · rw [hhidden (not_lt.1 hvisible)]
    · have hstack : Aura.stack { a with m_deleted := true, stackSize := 0 } = 0 := by
        simp [Aura.stack]
      have hupdate := shown_buildAuraUpdate (u := u)
        (a := { a with m_deleted := true, stackSize := 0 }) hid
      rw [hupdate, if_pos hstack, hshown]
      by_cases hbyte : a.m_auraSlot < 256
      · rw [Nat.mod_eq_of_lt hbyte]
      · have hmod : a.m_auraSlot % 256 = a.m_auraSlot - 256 := by
          unfold MAX_AURAS MAX_PASSIVE_AURAS at hlt
          omega
        have hzero := hremovable a ha hlive htold (not_lt.1 hbyte)
        rw [hmod, hhidden ((by decide : MAX_AURAS ≤ 256).trans (not_lt.1 hbyte)),
          Function.update_eq_self_iff, hzero]

/-- What the visible slots show after the removal of a live aura. -/
theorem icon_without (h : Table u) (ha : u.aura p = some a) (hlive : a.Live) :
    (u.without p a).icon = Function.update u.icon a.m_auraSlot 0 := by
  funext k
  by_cases hk : k = a.m_auraSlot
  · subst hk
    rw [Function.update_self, icon, without_self]
    split <;> rfl
  · rw [Function.update_of_ne hk, icon, icon, without_ne hk]
    cases hx : u.m_auras k with
    | none => rfl
    | some q =>
      have hq : q ≠ p := by
        rintro rfl
        exact hk ((h.slot q a ha hlive k).1 hx)
      have haura : (u.without p a).aura q = u.aura q := Function.update_of_ne hq ..
      rw [Option.bind_some, Option.bind_some, haura]

theorem Table.remove (h : Table u) : Table (u.remove p) := by
  obtain heq | ⟨a, ha, hadded, heq⟩ | ⟨a, ha, hlive, heq⟩ := remove_cases (p := p) h
  · rw [heq]
    exact h
  · have hdead : ¬ a.Live := fun hlive => by
      rw [hlive.1] at hadded
      cases hadded
    have happlied : a.m_applied = false := by
      cases hset : a.m_applied with
      | false => rfl
      | true => exact absurd (h.applied p a ha hset) hdead
    rw [heq]
    refine h.putApart (h.apart ha hdead) ?_ happlied ?_
    · rintro ⟨-, hdeleted⟩
      cases hdeleted
    · intro _ hdeleted
      cases hdeleted
  · have hgone : ¬ (gone a).Live := by
      rintro ⟨-, hdeleted⟩
      cases hdeleted
    obtain ⟨hstored, -⟩ := h.of_live ha hlive
    rw [heq]
    refine h.change (q := p) rfl ?_ (fun hlive => absurd hlive hgone) ?_ ?_ ?_
    · intro x q hq
      by_cases hx : x = a.m_auraSlot
      · subst hx
        rw [without_self, hstored]
        exact ⟨(nomatch ·), fun hsome => absurd (Option.some.inj hsome).symm hq⟩
      · rw [without_ne hx]
    · intro x hx
      by_cases hself : x = a.m_auraSlot
      · subst hself
        rw [without_self] at hx
        cases hx
      · rw [without_ne hself] at hx
        exact absurd ((h.slot p a ha hlive x).1 hx) hself
    · intro happlied
      cases happlied
    · intro _ hdeleted
      cases hdeleted

theorem Seen.remove (h : Seen u) (htable : Table u) (hremovable : Removable u p) :
    Seen (u.remove p) := by
  obtain heq | ⟨a, ha, hadded, heq⟩ | ⟨a, ha, hlive, heq⟩ := remove_cases (p := p) htable
  · rw [heq]
    exact h
  · have hdead : ¬ a.Live := fun hlive => by
      rw [hlive.1] at hadded
      cases hadded
    rw [heq]
    exact h.of_eq rfl (icon_putApart (htable.apart ha hdead))
  · obtain ⟨hstored, hlt⟩ := htable.of_live ha hlive
    have hicon : a.m_auraSlot < MAX_AURAS → u.icon a.m_auraSlot = a.spellId := fun hvisible => by
      rw [icon, if_pos hvisible, hstored, Option.bind_some, ha]
      rfl
    intro k
    rw [heq, icon_without htable ha hlive]
    exact congrFun (shown_removed h hremovable ha hlive hlt
      (fun hvisible => htable.active _ _ _ hvisible hstored ha) hicon) k

/-! ## The walk over the others -/

/-- The aura after one more of its kind. -/
def grown (env : Surroundings) (cur : Aura) : Aura :=
  let most := maxStack env cur.m_spellProto
  { cur with stackSize := if most < cur.stackSize + 1 then most else cur.stackSize + 1 }

/-- The stack does not grow: it would be too large for a number, or it is
full. -/
def Full (env : Surroundings) (cur : Aura) : Prop :=
  (cur.stackSize + 1 = 0 ∨ 2 ^ 31 ≤ (cur.stackSize + 1).toNat) ∨
  (maxStack env cur.m_spellProto ≤ cur.stackSize + 1 ∧
    (cur.stackSize = maxStack env cur.m_spellProto ∨ maxStack env cur.m_spellProto = 0))

instance : Decidable (Full env cur) := inferInstanceAs (Decidable ((_ ∨ _) ∨ (_ ∧ (_ ∨ _))))

/-- No update that renews an aura shows the number 0. -/
def Renewable (env : Surroundings) (cur : Aura) : Prop :=
  (cur.isPassive = false → cur.stack ≠ 0) ∧
  (¬ Full env cur → (grown env { cur with procCharges := env.maxProcCharges }).stack ≠ 0)

instance : Decidable (Renewable env cur) := inferInstanceAs (Decidable ((_ → _) ∧ (_ → _)))

/-- Both parts of the law. -/
def Good (u : Bearer) : Prop := Table u ∧ Seen u

/-- A removal of an aura in a visible slot. -/
theorem Good.removeVisible (h : Good u) (hslot : u.m_auras x = some q) (hx : x < MAX_AURAS) :
    Good (u.remove q) := by
  refine ⟨h.1.remove, h.2.remove h.1 ?_⟩
  intro a ha hlive _ hle
  have heq := (h.1.slot q a ha hlive x).1 hslot
  unfold MAX_AURAS at hx
  omega

theorem icon_visible (hx : x < MAX_AURAS) (hslot : u.m_auras x = some q)
    (hcur : u.aura q = some cur) : u.icon x = cur.spellId := by
  rw [icon, if_pos hx, hslot, Option.bind_some, hcur]
  rfl

/-- A live aura in a visible slot is written with other numbers. -/
theorem Good.rewrite (h : Good u) (hslot : u.m_auras x = some q)
    (hcur : u.aura q = some cur) (hlive : a.Live) (hspell : a.m_spellProto = cur.m_spellProto)
    (harea : a.m_areaAura = cur.m_areaAura) (haslot : a.m_auraSlot = cur.m_auraSlot) :
    Good (u.put q a) := by
  obtain ⟨-, b, hb, hb_live⟩ := h.1.held x q hslot
  rw [hcur] at hb
  cases hb
  refine ⟨h.1.rewrite hcur hb_live haslot hlive ?_, h.2.of_eq rfl (icon_put cur ?_)⟩
  · rw [Aura.isPassive, Aura.isPassive, hspell, harea]
  · intro y _
    exact ⟨hcur, by rw [Aura.spellId, Aura.spellId, hspell]⟩

theorem Good.announce (h : Good u) (hx : x < MAX_AURAS) (hslot : u.m_auras x = some q)
    (hcur : u.aura q = some cur) (haslot : a.m_auraSlot = x) (hspell : a.spellId = cur.spellId)
    (hstack : a.stack ≠ 0) : Good (u.buildAuraUpdate a) := by
  subst haslot
  exact ⟨h.1.buildAuraUpdate,
    h.2.announce ((icon_visible hx hslot hcur).trans hspell.symm) hx hstack⟩

theorem Good.modStackSize (h : Good u) (hx : x < MAX_AURAS) (hslot : u.m_auras x = some q)
    (hcur : u.aura q = some cur)
    (hok : ¬ Full env cur → (grown env cur).stack ≠ 0) : Good (u.modStackSize env q cur) := by
  obtain ⟨-, b, hb, hlive⟩ := h.1.held x q hslot
  rw [hcur] at hb
  cases hb
  simp only [Bearer.modStackSize]
  split
  case isTrue =>
    have hput := h.rewrite (a := { cur with stackSize := 0 }) hslot hcur hlive rfl rfl rfl
    exact hput.removeVisible hslot hx
  case isFalse hwrap =>
    split
    case isTrue => exact h
    case isFalse hfull =>
      have hown := (h.1.slot q cur hcur hlive x).1 hslot
      have hannounce := h.announce (a := grown env cur) hx hslot hcur hown.symm rfl
        (hok (not_or.2 ⟨hwrap, hfull⟩))
      have htold_slot := (congrFun (buildAuraUpdate_m_auras (a := grown env cur)) x).trans hslot
      have htold_cur := (congrFun (buildAuraUpdate_aura (a := grown env cur)) q).trans hcur
      exact hannounce.rewrite (a := { grown env cur with m_applied := !env.lacksAuraState })
        htold_slot htold_cur hlive rfl rfl rfl

theorem Good.refresh (h : Good u) (hx : x < MAX_AURAS) (hslot : u.m_auras x = some q)
    (hcur : u.aura q = some cur) (hok : Renewable env cur) : Good (u.refresh env q cur) := by
  obtain ⟨-, b, hb, hlive⟩ := h.1.held x q hslot
  rw [hcur] at hb
  cases hb
  have hown := (h.1.slot q cur hcur hlive x).1 hslot
  have htold : Good (if cur.isPassive then u else u.buildAuraUpdate cur) := by
    cases hpassive : cur.isPassive with
    | true => exact h
    | false => exact h.announce hx hslot hcur hown.symm rfl (hok.1 hpassive)
  have hslots : (if cur.isPassive then u else u.buildAuraUpdate cur).m_auras = u.m_auras := by
    split
    · rfl
    · exact buildAuraUpdate_m_auras
  have haura : (if cur.isPassive then u else u.buildAuraUpdate cur).aura = u.aura := by
    split
    · rfl
    · exact buildAuraUpdate_aura
  have htold_slot := (congrFun hslots x).trans hslot
  have htold_cur := (congrFun haura q).trans hcur
  have hput := htold.rewrite (a := { cur with procCharges := env.maxProcCharges })
    htold_slot htold_cur hlive rfl rfl rfl
  exact hput.modStackSize hx (by rw [← hslot, ← hslots]; rfl) put_self hok.2

theorem modStackSize_aura_ne (hp : p ≠ q) :
    (u.modStackSize env q cur).aura p = u.aura p := by
  simp only [Bearer.modStackSize]
  split
  · rw [remove_aura_ne hp, put_ne hp]
  · split
    · rfl
    · rw [put_ne hp, buildAuraUpdate_aura]

theorem refresh_aura_ne (hp : p ≠ q) : (u.refresh env q cur).aura p = u.aura p := by
  simp only [Bearer.refresh]
  rw [modStackSize_aura_ne hp, put_ne hp]
  split
  · rfl
  · rw [buildAuraUpdate_aura]

/-- The aura that the walk renews. -/
def renewed (env : Surroundings) (aur : Aura) (u : Bearer) : List Nat → Option Aura
  | [] => none
  | x :: xs =>
    match (u.m_auras x).bind fun q => (u.aura q).map (q, ·) with
    | none => renewed env aur u xs
    | some (q, cur) =>
      if cur.m_deleted then renewed env aur u xs
      else
        match clash env aur cur with
        | .keep => renewed env aur u xs
        | .replace => renewed env aur (u.remove q) xs
        | .refuse => none
        | .refresh => some cur

/-- The walk keeps the law, and an aura that is not live stays as it is. -/
theorem Good.scan {aur : Aura} (h : Good u) {xs : List Nat} (hvisible : ∀ x ∈ xs, x < MAX_AURAS)
    (hok : ∀ cur ∈ renewed env aur u xs, Renewable env cur) :
    Good (scan env aur u xs).1 ∧
      ∀ p a, u.aura p = some a → ¬ a.Live → (scan env aur u xs).1.aura p = some a := by
  induction xs generalizing u with
  | nil => exact ⟨h, fun _ _ ha _ => ha⟩
  | cons x xs ih =>
    have hx := hvisible x List.mem_cons_self
    have hrest : ∀ y ∈ xs, y < MAX_AURAS := fun y hy => hvisible y (List.mem_cons_of_mem _ hy)
    unfold Bearer.scan
    unfold renewed at hok
    cases hslot : u.m_auras x with
    | none =>
      rw [hslot] at hok
      exact ih h hrest hok
    | some q =>
      obtain ⟨-, cur, hcur, hlive⟩ := h.1.held x q hslot
      have hother : ∀ p a, u.aura p = some a → ¬ a.Live → p ≠ q := by
        rintro p a ha hdead rfl
        rw [hcur] at ha
        cases ha
        exact hdead hlive
      rw [hslot] at hok
      simp only [hcur, Option.bind_some, Option.map_some, hlive.2, Bool.false_eq_true,
        if_false] at hok ⊢
      cases hclash : clash env aur cur with
      | keep =>
        rw [hclash] at hok
        exact ih h hrest hok
      | replace =>
        rw [hclash] at hok
        obtain ⟨hgood, hframe⟩ := ih (h.removeVisible hslot hx) hrest hok
        refine ⟨hgood, fun p a ha hdead => hframe p a ?_ hdead⟩
        rw [remove_aura_ne (hother p a ha hdead), ha]
      | refuse => exact ⟨h, fun _ _ ha _ => ha⟩
      | refresh =>
        rw [hclash] at hok
        refine ⟨h.refresh hx hslot hcur (hok cur rfl), fun p a ha hdead => ?_⟩
        rw [refresh_aura_ne (hother p a ha hdead), ha]

/-! ## A new aura -/

/-- The hidden slot an aura gets is not the one that stands for none, and
an aura that gets none is not applied. -/
def Hidable (u : Bearer) (a : Aura) : Prop :=
  (∀ x ∈ u.hiddenSlot, x ≠ NO_SLOT) ∧ (u.hiddenSlot = none → a.m_applied = false)

instance : Decidable (Hidable u a) := inferInstanceAs (Decidable ((∀ x ∈ _, _) ∧ (_ → _)))

/-- An active aura is announced with a number other than 0; a passive one
is not announced. -/
def Placeable (u : Bearer) (a : Aura) : Prop :=
  (a.isPassive = false → u.visibleSlot a ≠ none → a.stack ≠ 0) ∧
  (a.isPassive = true → a.m_spellProto.visual = true → u.visibleSlot a = none) ∧
  (a.isPassive = true ∨ u.visibleSlot a = none → Hidable u a)

instance : Decidable (Placeable u a) :=
  inferInstanceAs (Decidable ((_ → _ → _) ∧ (_ → _ → _) ∧ (_ ∨ _ → _)))

theorem firstFree_spec {lo count : Nat} (h : u.firstFree lo count = some x) :
    lo ≤ x ∧ x < lo + count ∧ u.m_auras x = none := by
  have hfree : (u.m_auras x).isNone = true := 
    List.find?_some (p := fun y => (u.m_auras y).isNone) h
  obtain ⟨hlo, hlt⟩ := List.mem_range'_1.1 (List.mem_of_find?_eq_some h)
  exact ⟨hlo, hlt, Option.isNone_iff_eq_none.1 hfree⟩

theorem visibleSlot_spec (h : u.visibleSlot a = some x) : x < MAX_AURAS ∧ u.m_auras x = none := by
  unfold visibleSlot at h
  split at h
  · obtain ⟨-, hlt, hfree⟩ := firstFree_spec h
    exact ⟨hlt.trans (by decide), hfree⟩
  · obtain ⟨-, hlt, hfree⟩ := firstFree_spec h
    exact ⟨hlt, hfree⟩

theorem hiddenSlot_spec (h : u.hiddenSlot = some x) :
    MAX_AURAS ≤ x ∧ x < MAX_AURAS + MAX_PASSIVE_AURAS ∧ u.m_auras x = none :=
  firstFree_spec h

/-- An aura is put in a free slot. -/
theorem Table.store (h : Table u) (hfree : u.m_auras x = none) (hapart : ∀ y, u.m_auras y ≠ some p)
    (hlt : x < MAX_AURAS + MAX_PASSIVE_AURAS) (hslot : a.m_auraSlot = x) (hlive : a.Live)
    (hactive : x < MAX_AURAS → a.isPassive = false) : Table ((u.take x p).put p a) := by
  have hself : ((u.take x p).put p a).m_auras x = some p := Function.update_self ..
  have hne : ∀ y, y ≠ x → ((u.take x p).put p a).m_auras y = u.m_auras y :=
    fun y hy => Function.update_of_ne hy ..
  have honly : ∀ y, ((u.take x p).put p a).m_auras y = some p → y = x := by
    intro y hy
    by_contra hyx
    rw [hne y hyx] at hy
    exact hapart y hy
  refine h.change (q := p) rfl ?_ ?_ ?_ (fun _ => hlive) ?_
  · intro y q hq
    by_cases hy : y = x
    · subst hy
      rw [hself, hfree]
      exact ⟨fun hsome => absurd (Option.some.inj hsome).symm hq, (nomatch ·)⟩
    · rw [hne y hy]
  · intro _ y
    rw [hslot]
    refine ⟨honly y, ?_⟩
    rintro rfl
    exact hself
  · intro y hy
    obtain rfl := honly y hy
    exact ⟨hlt, hlive, hactive⟩
  · intro hadded
    rw [hlive.1] at hadded
    cases hadded

theorem icon_store (hapart : ∀ y, u.m_auras y ≠ some p) : ((u.take x p).put p a).icon =
    if x < MAX_AURAS then Function.update u.icon x a.spellId else u.icon := by
  funext k
  by_cases hk : k = x
  · subst hk
    have hslot : ((u.take k p).put p a).m_auras k = some p := Function.update_self ..
    by_cases hlt : k < MAX_AURAS
    · rw [if_pos hlt, Function.update_self, icon_visible hlt hslot put_self]
    · rw [if_neg hlt, icon, icon, if_neg hlt, if_neg hlt]
  · have hslot : ((u.take x p).put p a).m_auras k = u.m_auras k := Function.update_of_ne hk ..
    have hsame : ((u.take x p).put p a).icon k = u.icon k := by
      rw [icon, icon, hslot]
      cases hq : u.m_auras k with
      | none => rfl
      | some q =>
        have hqp : q ≠ p := by
          rintro rfl
          exact hapart k hq
        have haura : ((u.take x p).put p a).aura q = u.aura q := Function.update_of_ne hqp ..
        rw [Option.bind_some, Option.bind_some, haura]
    rw [hsame]
    split
    · rw [Function.update_of_ne hk]
    · rfl

/-- A hidden slot, or a removal that nobody notices. -/
theorem Good.hide (h : Good u) (hapart : ∀ y, u.m_auras y ≠ some p) (hslot : a.m_auraSlot = NO_SLOT)
    (hadded : a.m_added = false) (hdeleted : a.m_deleted = false) (hok : Hidable u a) :
    Good (u.hide p a) := by
  unfold Bearer.hide
  cases hhidden : u.hiddenSlot with
  | some x =>
    obtain ⟨hle, hlt, hfree⟩ := hiddenSlot_spec hhidden
    have hne : x ≠ NO_SLOT := hok.1 x hhidden
    simp only [hne, if_false]
    constructor
    · exact h.1.store hfree hapart hlt rfl ⟨rfl, hdeleted⟩ fun hvisible => absurd hvisible
        (not_lt.2 hle)
    · refine h.2.of_eq rfl ?_
      rw [icon_store hapart, if_neg (not_lt.2 hle)]
  | none =>
    have hput : (u.put p a).remove p = (u.put p a).put p { a with m_deleted := true, stackSize := 0 } := by
      simp [Bearer.remove, put_self, hdeleted, removeAura, hadded]
    simp only [hslot, if_true]
    rw [hput]
    have hput_put : (u.put p a).put p { a with m_deleted := true, stackSize := 0 } =
        u.put p { a with m_deleted := true, stackSize := 0 } := by
      rw [put, put, put, Function.update_idem]
    rw [hput_put]
    constructor
    · refine h.1.putApart hapart ?_ (hok.2 hhidden) ?_
      · rintro ⟨-, hlive⟩
        cases hlive
      · intro _ hlive
        cases hlive
    · exact h.2.of_eq rfl (icon_putApart hapart)

theorem addAuraVisual_some (hx : u.visibleSlot a = some x) : u.addAuraVisual a =
    (u.buildAuraUpdate { a with m_auraSlot := x }, { a with m_auraSlot := x }) := by
  rw [addAuraVisual, hx]

theorem addAuraVisual_none (hx : u.visibleSlot a = none) : u.addAuraVisual a = (u, a) := by
  rw [addAuraVisual, hx]

/-- An active aura in a visible slot. -/
theorem Good.show (h : Good u) (hapart : ∀ y, u.m_auras y ≠ some p) (hx : x < MAX_AURAS)
    (hfree : u.m_auras x = none) (hslot : a.m_auraSlot = x) (hpassive : a.isPassive = false)
    (hstack : a.stack ≠ 0) (hdeleted : a.m_deleted = false) :
    Good (((u.buildAuraUpdate a).take x p).put p { a with m_added := true }) := by
  have hactive : Aura.isPassive { a with m_added := true } = false := hpassive
  have hapart' : ∀ y, (u.buildAuraUpdate a).m_auras y ≠ some p := by
    intro y
    rw [buildAuraUpdate_m_auras]
    exact hapart y
  constructor
  · refine h.1.buildAuraUpdate.store ?_ hapart' (hx.trans (by decide)) hslot ⟨rfl, hdeleted⟩
      fun _ => hactive
    rw [buildAuraUpdate_m_auras]
    exact hfree
  · intro k
    rw [icon_store hapart', if_pos hx, buildAuraUpdate_icon]
    have hsent : (((u.buildAuraUpdate a).take x p).put p { a with m_added := true }).sent =
        (u.buildAuraUpdate a).sent := rfl
    have hspell : Aura.spellId { a with m_added := true } = a.spellId := rfl
    rw [hsent, hspell]
    have hshown : shown u.sent = u.icon := funext h.2
    by_cases hid : a.spellId = 0
    · have hsame : u.buildAuraUpdate a = u := if_pos hid
      have hicon : u.icon x = 0 := by
        rw [icon, if_pos hx, hfree]
        rfl
      have hupdate : Function.update u.icon x a.spellId = u.icon := by
        rw [Function.update_eq_self_iff, hicon, hid]
      rw [hsame, hshown, hupdate]
    · have hmod : a.m_auraSlot % 256 = x := by
        rw [hslot]
        exact Nat.mod_eq_of_lt (hx.trans (by decide))
      rw [shown_buildAuraUpdate hid, hmod, if_neg hstack, hshown]

theorem Good.place (h : Good u) (hapart : ∀ y, u.m_auras y ≠ some p) (hslot : a.m_auraSlot = NO_SLOT)
    (hadded : a.m_added = false) (hdeleted : a.m_deleted = false) (hok : Placeable u a) :
    Good (u.place p a) := by
  unfold Bearer.place
  cases hpassive : a.isPassive with
  | true =>
    have hhide := h.hide hapart hslot hadded hdeleted (hok.2.2 (.inl hpassive))
    have hquiet : (if a.m_spellProto.visual then u.addAuraVisual a else (u, a)) = (u, a) := by
      split
      case isTrue hvisual => exact addAuraVisual_none (hok.2.1 hpassive hvisual)
      case isFalse => rfl
    simp only [Bool.not_true, Bool.false_eq_true, if_false, hquiet]
    exact hhide
  | false =>
    simp only [Bool.not_false, if_true]
    cases hvisible : u.visibleSlot a with
    | none =>
      simp only [addAuraVisual_none hvisible, hslot, if_true]
      exact h.hide hapart hslot hadded hdeleted (hok.2.2 (.inr hvisible))
    | some x =>
      obtain ⟨hx, hfree⟩ := visibleSlot_spec hvisible
      have hne : x ≠ NO_SLOT := ne_of_lt (hx.trans (by decide))
      simp only [addAuraVisual_some hvisible, hne, if_false]
      exact h.show (a := { a with m_auraSlot := x }) hapart hx hfree rfl hpassive
        (hok.1 hpassive (by rw [hvisible]; exact Option.some_ne_none x)) hdeleted

/-- What is asked of a new aura: an icon that it renews is not hidden by
its number, and it can be placed. -/
def Addable (u : Bearer) (env : Surroundings) (a : Aura) : Prop :=
  let walked :=
    if a.isPassive || a.m_spellProto.always_apply then (u, false)
    else scan env a u (List.range MAX_AURAS)
  ((a.isPassive || a.m_spellProto.always_apply) = false →
    ∀ cur ∈ renewed env a u (List.range MAX_AURAS), Renewable env cur) ∧
  (walked.2 = false →
    Placeable walked.1 (applyModifiers env { a with m_auraSlot := NO_SLOT }))

instance : Decidable (Addable u env a) :=
  inferInstanceAs (Decidable ((_ → ∀ cur ∈ _, _) ∧ (_ → _)))

theorem applyModifiers_spec (env : Surroundings) (a : Aura) :
    (applyModifiers env a).m_auraSlot = a.m_auraSlot ∧
    (applyModifiers env a).m_added = a.m_added ∧
    (applyModifiers env a).m_deleted = a.m_deleted := by
  unfold applyModifiers
  split
  · exact ⟨rfl, rfl, rfl⟩
  · exact ⟨rfl, rfl, rfl⟩

theorem Good.addAura (h : Good u) (ha : u.aura p = some a) (hadded : a.m_added = false)
    (hdeleted : a.m_deleted = false) (hok : Addable u env a) : Good (u.addAura env p a) := by
  have hdead : ¬ a.Live := fun hlive => by
    rw [hlive.1] at hadded
    cases hadded
  obtain ⟨hrenew, hplace⟩ := hok
  have hwalk : Good (if a.isPassive || a.m_spellProto.always_apply then (u, false)
        else Bearer.scan env a u (List.range MAX_AURAS)).1 ∧
      (if a.isPassive || a.m_spellProto.always_apply then (u, false)
        else Bearer.scan env a u (List.range MAX_AURAS)).1.aura p = some a := by
    cases hskip : a.isPassive || a.m_spellProto.always_apply with
    | true => exact ⟨h, ha⟩
    | false =>
      obtain ⟨hgood, hframe⟩ := h.scan (fun x hx => List.mem_range.1 hx) (hrenew hskip)
      exact ⟨hgood, hframe p a ha hdead⟩
  unfold Bearer.addAura
  generalize (if a.isPassive || a.m_spellProto.always_apply then (u, false)
    else Bearer.scan env a u (List.range MAX_AURAS)) = walked at hwalk hplace
  obtain ⟨v, deleteAur⟩ := walked
  obtain ⟨hgood, hv⟩ := hwalk
  have hapart := hgood.1.apart hv hdead
  have hnew : a.m_auraSlot = NEW_SLOT := hgood.1.new p a hv hadded hdeleted
  cases deleteAur with
  | true =>
    have happlied : a.m_applied = false := by
      cases hset : a.m_applied with
      | false => rfl
      | true => exact absurd (hgood.1.applied p a hv hset) hdead
    refine ⟨hgood.1.putApart hapart ?_ happlied ?_, hgood.2.of_eq rfl (icon_putApart hapart)⟩
    · rintro ⟨-, hlive⟩
      cases hlive
    · intro _ hlive
      cases hlive
  | false =>
    have hevict : v.evict a = v := if_neg (not_not.2 hnew)
    simp only [Bool.false_eq_true, if_false, hevict]
    obtain ⟨hslot, hadd, hdel⟩ := applyModifiers_spec env { a with m_auraSlot := NO_SLOT }
    exact hgood.place hapart hslot (hadd.trans hadded) (hdel.trans hdeleted) (hplace rfl)

/-! ## Runs -/

/-- The condition of a step. -/
def Ok (u : Bearer) : Op → Prop
  | .create _ _ => True
  | .addAura p env => ∀ a ∈ u.aura p, Addable u env a
  | .remove p => Removable u p

instance (u : Bearer) : (op : Op) → Decidable (Ok u op)
  | .create _ _ => isTrue trivial
  | .addAura _ _ => inferInstanceAs (Decidable (∀ a ∈ _, _))
  | .remove _ => inferInstanceAs (Decidable (Removable _ _))

variable {op : Op} {ops : List Op}

theorem good_start : Good start := by
  refine ⟨⟨?_, ?_, ?_, ?_, ?_⟩, fun k => ?_⟩
  · intro _ _ ha
    cases ha
  · intro _ _ hx
    cases hx
  · intro _ _ ha
    cases ha
  · intro _ _ ha
    cases ha
  · intro _ _ _ _ hx
    cases hx
  · rw [icon]
    split <;> rfl

theorem Good.step (h : Good u) (hok : Ok u op) (hstep : u.step op = some u') : Good u' := by
  cases op with
  | create p a =>
    simp only [Bearer.step] at hstep
    split at hstep
    case isFalse => cases hstep
    case isTrue hnew =>
      cases hstep
      obtain ⟨hnone, hslot, happlied, hadded, hdeleted⟩ := hnew
      have hapart : ∀ x, u.m_auras x ≠ some p := by
        intro x hx
        obtain ⟨-, b, hb, -⟩ := h.1.held x p hx
        rw [hb] at hnone
        cases hnone
      refine ⟨h.1.putApart hapart ?_ happlied fun _ _ => hslot,
        h.2.of_eq rfl (icon_putApart hapart)⟩
      rintro ⟨hlive, -⟩
      rw [hadded] at hlive
      cases hlive
  | addAura p env =>
    simp only [Bearer.step] at hstep
    cases ha : u.aura p with
    | none =>
      rw [ha] at hstep
      cases hstep
    | some a =>
      rw [ha] at hstep
      obtain ⟨hfresh, hu⟩ := Option.ite_none_left_eq_some.1 hstep
      cases hu
      rw [Bool.or_eq_true, not_or, Bool.not_eq_true, Bool.not_eq_true] at hfresh
      exact h.addAura ha hfresh.1 hfresh.2 (hok a ha)
  | remove p =>
    cases hstep
    exact ⟨h.1.remove, h.2.remove h.1 hok⟩

/-- Every aura that was added and not deleted is in the one slot it names,
every aura in a slot was added and is not deleted, all others are in no
slot and not applied, and the clients see what is in the visible slots. -/
structure Law (u : Bearer) : Prop where
  slot : ∀ p a, u.aura p = some a → a.m_added = true → a.m_deleted = false →
    ∀ x, u.m_auras x = some p ↔ x = a.m_auraSlot
  stored : ∀ x p, u.m_auras x = some p →
    ∃ a, u.aura p = some a ∧ a.m_added = true ∧ a.m_deleted = false
  refused : ∀ p a, u.aura p = some a → ¬ (a.m_added = true ∧ a.m_deleted = false) →
    (∀ x, u.m_auras x ≠ some p) ∧ a.m_applied = false
  seen : ∀ k, shown u.sent k =
    if k < MAX_AURAS then ((u.m_auras k).bind u.aura).elim 0 Aura.spellId else 0

theorem Good.law (h : Good u) : Law u where
  slot p a ha hadded hdeleted := h.1.slot p a ha ⟨hadded, hdeleted⟩
  stored x p hx := (h.1.held x p hx).2
  refused p a ha hdead := by
    refine ⟨h.1.apart ha hdead, ?_⟩
    cases hset : a.m_applied with
    | false => rfl
    | true => exact absurd (h.1.applied p a ha hset) hdead
  seen := h.2

/-- In every state of a run whose steps meet the condition. -/
theorem table_run (hrun : Run (Guarded Ok (PartialStep step)) start ops u) : Law u :=
  Good.law (hrun.invariant Good (fun _ _ _ h hstep => h.step hstep.1 hstep.2) good_start)

/-- A spell that clashes with none. -/
def someSpell (id : UInt32) (passive visual : Bool) : SpellEntry :=
  ⟨id, 3, false, 0, 0, id, 1, false, passive, visual⟩

def newAura (info : SpellEntry) (caster : Nat) (positive : Int) : Aura :=
  ⟨info, caster, 0, false, positive, 1, 0, NEW_SLOT, false, false, false⟩

def anywhere : Surroundings := ⟨fun _ => true, false, false, 0, 0⟩

/-- Two blessings of which the second replaces the first, a curse that is
stacked, and a passive aura. -/
def blessed : List Op :=
  [.create 0 (newAura ⟨21, 0, false, 4, 0, 0x469BC36D, 1, false, false, false⟩ 5 1),
    .addAura 0 anywhere, .create 1 (newAura (someSpell 22 false false) 6 (-1)),
    .addAura 1 anywhere, .create 2 (newAura (someSpell 23 true false) 5 1), .addAura 2 anywhere,
    .create 3 (newAura ⟨24, 0, false, 4, 0, 0xEBC3D961, 1, false, false, false⟩ 7 1),
    .addAura 3 anywhere, .create 4 (newAura (someSpell 22 false false) 6 (-1)),
    .addAura 4 anywhere, .remove 2, .remove 1]

theorem table_run_blessed :
    (blessed.foldlM (fun u op => if Ok u op then step u op else none) start).isSome = true ∧
    ∀ u ∈ blessed.foldlM (fun u op => if Ok u op then step u op else none) start, Law u :=
  ⟨by decide +kernel, fun _ hu => table_run (Run.of_foldlM hu)⟩

/-- A passive aura with a visual comes and goes. -/
def announced : List Op :=
  [.create 0 (newAura (someSpell 9 true true) 5 1), .addAura 0 anywhere, .remove 0]

theorem announced_some : (announced.foldlM (fun u op => if True then step u op else none)
    start).isSome = true := by
  decide +kernel

theorem announced_shown : shown ((announced.foldlM (fun u op => if True then step u op else none)
      start).get announced_some).sent 0 = 9 ∧
    ((announced.foldlM (fun u op => if True then step u op else none)
      start).get announced_some).m_auras 0 = none := by
  decide +kernel

/-- The client shows it for good. -/
theorem not_table_run : ¬ ∀ (ops : List Op) (u : Bearer),
    Run (PartialStep step) start ops u → Law u := by
  intro hall
  have hguarded : Run (Guarded (fun _ _ => True) (PartialStep step)) start announced
      (Option.get _ announced_some) :=
    Run.of_foldlM (Option.some_get announced_some).symm
  have hseen := (hall _ _ (hguarded.mono fun _ _ _ h => h.2)).seen 0
  rw [announced_shown.1, announced_shown.2, if_pos (by decide)] at hseen
  cases hseen

end Bearer

end HearthStone.AuraTable
