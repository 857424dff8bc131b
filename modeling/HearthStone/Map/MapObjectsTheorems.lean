/-
HearthStone.Map.MapObjectsTheorems — when the ids of a map are unique.

A number goes back to the list once, when its object leaves for good, and
a counter goes up by one; so ids are unique as long as the counters name
numbers that are free. The counters do not look: that of the game objects
starts again after 2^24 of them, whoever is still in the world, and the
others run into the entry.

* `own` — the numbers in use, of which the list is free (`FreeList`).
* `Inv` — with the storages, kept by entering, leaving and being made.
* `NumbersFresh` — a new number is nobody's.
* `map_ids_unique` — runs of such steps; `gameObject_ids_wrap` is one of
  the others.
-/
import Mathlib
import HearthStone.Lib.FreeList
import HearthStone.Map.MapObjects

namespace HearthStone

open Lib
open Lib.FreeList (Sound sound_empty update_eq_some)

/-! ## GUIDs -/

theorem newGuid_toNat (kind : ObjectKind) (entry low : UInt32) :
    (newGuid kind entry low).toNat =
      kind.highGuid.toNat <<< 32 ||| entry.toNat <<< 24 ||| low.toNat := by
  unfold newGuid
  generalize kind.highGuid = type
  have htype := type.toNat_lt
  have hentry := entry.toNat_lt
  simp only [UInt64.toNat_or, UInt64.toNat_shiftLeft, UInt32.toNat_toUInt64, Nat.shiftLeft_eq]
  change type.toNat * 2 ^ 32 % 2 ^ 64 ||| entry.toNat * 2 ^ 24 % 2 ^ 64 ||| low.toNat = _
  rw [Nat.mod_eq_of_lt (by omega), Nat.mod_eq_of_lt (by omega)]

/-- The number can be read back if it has 24 bits; otherwise its low bits. -/
theorem uidFromGuid_newGuid (kind : ObjectKind) (entry low : UInt32) :
    uidFromGuid (newGuid kind entry low) = low &&& LOWGUID_ENTRY_MASK := by
  apply UInt32.toNat.inj
  unfold uidFromGuid LOWGUID_ENTRY_MASK
  rw [UInt32.toNat_and, UInt32.toNat_and, UInt64.toNat_toUInt32, newGuid_toNat]
  refine Nat.eq_of_testBit_eq fun i => ?_
  have hmask : (16777215 : UInt32).toNat = 2 ^ 24 - 1 := rfl
  rw [hmask, Nat.testBit_and, Nat.testBit_and, Nat.testBit_two_pow_sub_one, Nat.testBit_mod_two_pow,
    Nat.testBit_or, Nat.testBit_or, Nat.testBit_shiftLeft, Nat.testBit_shiftLeft]
  by_cases hi : i < 24
  · simp [hi, show ¬ 32 ≤ i by omega, show ¬ 24 ≤ i by omega, show i < 32 by omega]
  · simp [hi]

/-- The number does not reach the type. -/
theorem typeFromGuid_low (kind : ObjectKind) (entry low : UInt32) :
    typeFromGuid (newGuid kind entry low) = typeFromGuid (newGuid kind entry 0) := by
  apply UInt32.toNat.inj
  unfold typeFromGuid
  rw [UInt32.toNat_and, UInt32.toNat_and, UInt64.toNat_toUInt32, UInt64.toNat_toUInt32,
    UInt64.toNat_shiftRight, UInt64.toNat_shiftRight, newGuid_toNat, newGuid_toNat]
  refine Nat.eq_of_testBit_eq fun i => ?_
  have hlow : low.toNat.testBit (UInt64.toNat 32 % 64 + i) = false :=
    Nat.testBit_lt_two_pow (lt_of_lt_of_le low.toNat_lt
      (Nat.pow_le_pow_right (by omega) (Nat.le_add_right 32 i)))
  simp only [Nat.testBit_and, Nat.testBit_mod_two_pow, Nat.testBit_shiftRight, Nat.testBit_or, hlow,
    UInt32.toNat_zero, Nat.zero_testBit]

/-- The entry leaves the type of the GUID as it is. -/
def Typed (kind : ObjectKind) (entry : UInt32) : Prop :=
  typeFromGuid (newGuid kind entry 0) = kind.highGuid

instance (kind : ObjectKind) (entry : UInt32) : Decidable (Typed kind entry) :=
  inferInstanceAs (Decidable (typeFromGuid (newGuid kind entry 0) = kind.highGuid))

/-- As every entry of 28 bits does. -/
theorem typed_of_lt (kind : ObjectKind) {entry : UInt32} (hentry : entry.toNat < 2 ^ 28) :
    Typed kind entry := by
  have hmask : HIGHGUID_TYPE_MASK.toNat = (2 ^ 12 - 1) <<< 20 := rfl
  have hhigh : kind.highGuid.toNat &&& HIGHGUID_TYPE_MASK.toNat = kind.highGuid.toNat := by
    cases kind <;> rfl
  apply UInt32.toNat.inj
  rw [← hhigh]
  unfold typeFromGuid
  rw [UInt32.toNat_and, UInt64.toNat_toUInt32, UInt64.toNat_shiftRight, newGuid_toNat, hmask]
  refine Nat.eq_of_testBit_eq fun i => ?_
  simp only [Nat.testBit_and, Nat.testBit_mod_two_pow, Nat.testBit_shiftRight, Nat.testBit_or,
    Nat.testBit_shiftLeft, Nat.testBit_two_pow_sub_one]
  by_cases hi : 20 ≤ i ∧ i < 32
  · have he : entry.toNat.testBit (i + 8) = false :=
      Nat.testBit_lt_two_pow (lt_of_lt_of_le hentry (Nat.pow_le_pow_right (by omega) (by omega)))
    simp [hi.1, hi.2, Nat.add_comm 32 i, he]
  · rcases not_and_or.1 hi with h | h
    · simp [h]
    · simp [show ¬ i - 20 < 12 by omega]

/-- An object has its number from its creation until it has left. -/
def Whereabouts.holds : Whereabouts → Bool
  | .created => true
  | .inWorld _ => true
  | .respawning _ => true
  | _ => false

theorem MapObject.holds_of_live {x : MapObject} (h : x.live = true) : x.place.holds = true := by
  unfold MapObject.live at h
  unfold Whereabouts.holds
  cases hp : x.place <;> simp_all

namespace MapObjects

variable {s s' : MapObjects} {o o' : Nat} {x : MapObject} {kind : ObjectKind} {entry u : UInt32}
  {db free : Bool} {p : Whereabouts} {cell : Nat × Nat}

/-! ## Numbers in use -/

def own (s : MapObjects) (kind : ObjectKind) (o : Nat) : Option UInt32 :=
  match s.object o with
  | some x => if x.kind = kind ∧ x.place.holds = true then some x.uid else none
  | none => none

theorem own_eq_some : s.own kind o = some u ↔
    ∃ x, s.object o = some x ∧ x.kind = kind ∧ x.place.holds = true ∧ x.uid = u := by
  unfold own
  cases s.object o with
  | none => simp
  | some x => simp [and_assoc]

@[simp] theorem setIds_own {ids : ObjectIds} : (s.setIds kind ids).own = s.own := rfl
@[simp] theorem setIds_object {ids : ObjectIds} : (s.setIds kind ids).object = s.object := rfl
@[simp] theorem setIds_next {ids : ObjectIds} : (s.setIds kind ids).next = s.next := rfl
@[simp] theorem setPlace_ids : (s.setPlace o p).ids = s.ids := rfl
@[simp] theorem addObject_ids {guid : UInt64} : (s.addObject kind guid db).ids = s.ids := rfl

theorem setIds_ids_self {ids : ObjectIds} : (s.setIds kind ids).ids kind = ids :=
  Function.update_self _ _ _

theorem setIds_ids_of_ne {k : ObjectKind} {ids : ObjectIds} (h : k ≠ kind) :
    (s.setIds kind ids).ids k = s.ids k := Function.update_of_ne h _ _

theorem setPlace_object_self (hx : s.object o = some x) :
    (s.setPlace o p).object o = some { x with place := p } := by
  unfold setPlace
  simp [hx]

theorem setPlace_object_of_ne (h : o' ≠ o) : (s.setPlace o p).object o' = s.object o' :=
  Function.update_of_ne h _ _

/-- What is at an object after it has gone to another place. -/
theorem setPlace_object {y : MapObject} (hx : s.object o = some x)
    (h : (s.setPlace o p).object o' = some y) :
    (o' = o ∧ y = { x with place := p }) ∨ (o' ≠ o ∧ s.object o' = some y) := by
  by_cases ho : o' = o
  · rw [ho, setPlace_object_self hx] at h
    exact Or.inl ⟨ho, (Option.some.inj h).symm⟩
  · rw [setPlace_object_of_ne ho] at h
    exact Or.inr ⟨ho, h⟩

theorem setPlace_own (hx : s.object o = some x) (k : ObjectKind) :
    (s.setPlace o p).own k = Function.update (s.own k) o
      (if x.kind = k ∧ p.holds = true then some x.uid else none) := by
  funext i
  by_cases hi : i = o
  · subst hi
    rw [Function.update_self]
    unfold own
    rw [setPlace_object_self hx]
    rfl
  · rw [Function.update_of_ne hi]
    unfold own
    rw [setPlace_object_of_ne hi]

/-! ## The invariant -/

/-- What the code keeps of ids and storages. -/
structure Inv (s : MapObjects) : Prop where
  sound : ∀ k, Sound (s.own k) (s.ids k).reusable
  numbered : ∀ o x, s.object o = some x → o < s.next
  typed : ∀ o x, s.object o = some x → storedAs x = some (some x.kind)
  below : ∀ k o u, k ≠ .gameObject → s.own k o = some u → u ≤ (s.ids k).highGuid
  returned : ∀ k, ∀ u ∈ (s.ids k).reusable, u ≤ (s.ids k).highGuid ∧ u &&& LOWGUID_ENTRY_MASK = u
  fromWorld : (s.ids .gameObject).reusable = []
  stored : ∀ o x cell, s.object o = some x → x.place = .inWorld cell →
    (s.ids x.kind).storage x.uid = some (some o)
  storing : ∀ u v, (s.ids .gameObject).storage u = some v →
    ∃ o x cell, s.object o = some x ∧ x.kind = .gameObject ∧ x.place = .inWorld cell ∧ x.uid = u

theorem inv_start : start.Inv where
  sound := fun _ => sound_empty
  numbered := fun _ _ h => by cases h
  typed := fun _ _ h => by cases h
  below := fun _ _ _ _ h => by cases h
  returned := fun _ _ h => by cases h
  fromWorld := rfl
  stored := fun _ _ _ h => by cases h
  storing := fun _ _ h => by cases h

theorem Inv.own_at (_ : s.Inv) (hx : s.object o = some x) (hh : x.place.holds = true) :
    s.own x.kind o = some x.uid := own_eq_some.2 ⟨x, hx, rfl, hh, rfl⟩

/-- Two objects with their numbers, of one kind and with one number, are
one. -/
theorem Inv.eq_of_uid {y : MapObject} (h : s.Inv) (hx : s.object o = some x)
    (hy : s.object o' = some y) (hhx : x.place.holds = true) (hhy : y.place.holds = true)
    (hkind : x.kind = y.kind) (huid : x.uid = y.uid) : o = o' := by
  refine (h.sound x.kind).apart o o' x.uid (h.own_at hx hhx) ?_
  rw [hkind, huid]
  exact h.own_at hy hhy

theorem uid_and_mask (x : MapObject) : x.uid &&& LOWGUID_ENTRY_MASK = x.uid := by
  unfold MapObject.uid uidFromGuid
  rw [UInt32.and_assoc, UInt32.and_self]

/-- An object goes to another place, and its kind's numbers and storage
change with it. -/
theorem Inv.moved (h : s.Inv) (hx : s.object o = some x) (ids : ObjectIds)
    (hhigh : ids.highGuid = (s.ids x.kind).highGuid)
    (hholds : p.holds = true → x.place.holds = true)
    (hsound : Sound (Function.update (s.own x.kind) o
      (if p.holds = true then some x.uid else none)) ids.reusable)
    (hreturned : ∀ u ∈ ids.reusable,
      u ∈ (s.ids x.kind).reusable ∨ (x.place.holds = true ∧ u = x.uid))
    (hgame : x.kind = .gameObject → ids.reusable = [])
    (hstored : ∀ o' y c, o' ≠ o → s.object o' = some y → y.kind = x.kind →
      y.place = .inWorld c → ids.storage y.uid = some (some o'))
    (hself : ∀ c, p = .inWorld c → ids.storage x.uid = some (some o))
    (hstoring : x.kind = .gameObject → ∀ u v, ids.storage u = some v →
      (u = x.uid ∧ ∃ c, p = .inWorld c) ∨ ∃ o' y c, o' ≠ o ∧ s.object o' = some y ∧
        y.kind = .gameObject ∧ y.place = .inWorld c ∧ y.uid = u) :
    ((s.setIds x.kind ids).setPlace o p).Inv where
  sound := by
    intro k
    rw [setPlace_own (s := s.setIds x.kind ids) hx, setPlace_ids, setIds_own]
    by_cases hk : x.kind = k
    · subst hk
      rw [setIds_ids_self]
      simpa using hsound
    · rw [setIds_ids_of_ne (Ne.symm hk), if_neg (fun hand => hk hand.1)]
      exact (h.sound k).drop
  numbered := by
    intro o' y hy
    rcases setPlace_object (s := s.setIds x.kind ids) hx hy with ⟨rfl, -⟩ | ⟨-, hy⟩
    · exact h.numbered o' x hx
    · exact h.numbered o' y hy
  typed := by
    intro o' y hy
    rcases setPlace_object (s := s.setIds x.kind ids) hx hy with ⟨rfl, rfl⟩ | ⟨-, hy⟩
    · exact h.typed o' x hx
    · exact h.typed o' y hy
  below := by
    intro k o' u hk hu
    rw [setPlace_ids]
    have hle : u ≤ (s.ids k).highGuid := by
      obtain ⟨y, hy, rfl, hhy, rfl⟩ := own_eq_some.1 hu
      rcases setPlace_object (s := s.setIds x.kind ids) hx hy with ⟨rfl, rfl⟩ | ⟨-, hy⟩
      · exact h.below x.kind o' x.uid hk (h.own_at hx (hholds hhy))
      · exact h.below y.kind o' y.uid hk (h.own_at hy hhy)
    by_cases hkx : k = x.kind
    · subst hkx
      rw [setIds_ids_self, hhigh]
      exact hle
    · rw [setIds_ids_of_ne hkx]
      exact hle
  returned := by
    intro k u hu
    rw [setPlace_ids] at hu ⊢
    by_cases hkx : k = x.kind
    · subst hkx
      rw [setIds_ids_self] at hu ⊢
      rw [hhigh]
      rcases hreturned u hu with hold | ⟨hhx, rfl⟩
      · exact h.returned x.kind u hold
      · refine ⟨?_, uid_and_mask x⟩
        by_cases hgo : x.kind = .gameObject
        · rw [hgame hgo] at hu
          cases hu
        · exact h.below x.kind o x.uid hgo (h.own_at hx hhx)
    · rw [setIds_ids_of_ne hkx] at hu ⊢
      exact h.returned k u hu
  fromWorld := by
    rw [setPlace_ids]
    by_cases hgo : x.kind = .gameObject
    · rw [← hgo, setIds_ids_self]
      exact hgame hgo
    · rw [setIds_ids_of_ne (Ne.symm hgo)]
      exact h.fromWorld
  stored := by
    intro o' y c hy hc
    rw [setPlace_ids]
    rcases setPlace_object (s := s.setIds x.kind ids) hx hy with ⟨rfl, rfl⟩ | ⟨hne, hy⟩
    · rw [setIds_ids_self]
      exact hself c hc
    · by_cases hkind : y.kind = x.kind
      · rw [hkind, setIds_ids_self]
        exact hstored o' y c hne hy hkind hc
      · rw [setIds_ids_of_ne hkind]
        exact h.stored o' y c hy hc
  storing := by
    intro u v hv
    rw [setPlace_ids] at hv
    have hback : ∀ {o' : Nat} {y : MapObject}, o' ≠ o → s.object o' = some y →
        ((s.setIds x.kind ids).setPlace o p).object o' = some y := by
      intro o' y hne hy
      rw [setPlace_object_of_ne hne]
      exact hy
    by_cases hgo : x.kind = .gameObject
    · rw [← hgo, setIds_ids_self] at hv
      rcases hstoring hgo u v hv with ⟨rfl, c, hc⟩ | ⟨o', y, c, hne, hy, hkind, hplace, huid⟩
      · exact ⟨o, _, c, setPlace_object_self (s := s.setIds x.kind ids) hx, hgo, hc, rfl⟩
      · exact ⟨o', y, c, hback hne hy, hkind, hplace, huid⟩
    · rw [setIds_ids_of_ne (Ne.symm hgo)] at hv
      obtain ⟨o', y, c, hy, hkind, hplace, huid⟩ := h.storing u v hv
      have hne : o' ≠ o := by
        rintro rfl
        obtain rfl := Option.some.inj (hx.symm.trans hy)
        exact hgo hkind
      exact ⟨o', y, c, hback hne hy, hkind, hplace, huid⟩

/-! ## Entering and leaving -/

/-- `own` is the same when an object keeps its number. -/
theorem Inv.own_update (h : s.Inv) (hx : s.object o = some x) (hh : x.place.holds = true) :
    Function.update (s.own x.kind) o (some x.uid) = s.own x.kind := by
  rw [← h.own_at hx hh, Function.update_eq_self]

theorem Inv.uid_ne {y : MapObject} (h : s.Inv) (hx : s.object o = some x)
    (hy : s.object o' = some y) (hne : o' ≠ o) (hhx : x.place.holds = true)
    (hhy : y.place.holds = true) (hkind : y.kind = x.kind) : y.uid ≠ x.uid :=
  fun huid => hne (h.eq_of_uid hy hx hhy hhx hkind huid)

/-- A change at this number leaves the other objects stored. -/
theorem Inv.stored_update (h : s.Inv) (hx : s.object o = some x) (hh : x.place.holds = true)
    (v : Option (Option Nat)) : ∀ o' y c, o' ≠ o → s.object o' = some y → y.kind = x.kind →
      y.place = .inWorld c →
      Function.update (s.ids x.kind).storage x.uid v y.uid = some (some o') := by
  intro o' y c hne hy hkind hc
  have huid : y.uid ≠ x.uid := h.uid_ne hx hy hne hh (by rw [hc]; rfl) hkind
  rw [Function.update_of_ne huid, ← hkind]
  exact h.stored o' y c hy hc

/-- A stored game object that is not this one. -/
theorem Inv.storing_other (h : s.Inv) (hx : s.object o = some x) {v : Option Nat}
    (hv : (s.ids .gameObject).storage u = some v) (hno : ∀ c, x.place = .inWorld c → u ≠ x.uid) :
    ∃ o' y c, o' ≠ o ∧ s.object o' = some y ∧ y.kind = .gameObject ∧ y.place = .inWorld c ∧
      y.uid = u := by
  obtain ⟨o', y, c, hy, hkind, hplace, huid⟩ := h.storing u v hv
  refine ⟨o', y, c, ?_, hy, hkind, hplace, huid⟩
  rintro rfl
  obtain rfl := Option.some.inj (hx.symm.trans hy)
  exact hno c hplace huid.symm

/-- The numbers that are returned afterwards. -/
theorem mem_returned {l : List UInt32} (hh : free = true → x.place.holds = true) :
    ∀ u ∈ (if free = true then l ++ [x.uid] else l), u ∈ l ∨ (x.place.holds = true ∧ u = x.uid) := by
  intro u hu
  cases free with
  | false => exact Or.inl hu
  | true =>
    rcases List.mem_append.1 hu with hu | hu
    · exact Or.inl hu
    · exact Or.inr ⟨hh rfl, List.mem_singleton.1 hu⟩

/-- An object that has its number goes to the world. -/
theorem Inv.enter (h : s.Inv) (hx : s.object o = some x) (hh : x.place.holds = true)
    (hout : ∀ c, x.place ≠ .inWorld c) {t : MapObjects} (ht : s.pushObject o x = some t) :
    (t.setPlace o (.inWorld cell)).Inv := by
  unfold pushObject at ht
  rw [h.typed o x hx] at ht
  have hsound : Sound (Function.update (s.own x.kind) o
      (if (Whereabouts.inWorld cell).holds = true then some x.uid else none))
      (s.ids x.kind).reusable := by
    rw [if_pos (show (Whereabouts.inWorld cell).holds = true from rfl), h.own_update hx hh]
    exact h.sound x.kind
  dsimp only at ht
  split at ht
  · rename_i hgo
    obtain rfl := Option.some.inj ht
    -- no other game object has the number, so the storage has room for it
    have hempty : (s.ids x.kind).storage x.uid = none := by
      cases hv : (s.ids x.kind).storage x.uid with
      | none => rfl
      | some v =>
        rw [hgo] at hv
        obtain ⟨o', y, c, hne, hy, hkind, hplace, huid⟩ :=
          h.storing_other hx hv fun c hc => absurd hc (hout c)
        exact absurd huid (h.uid_ne hx hy hne hh (by rw [hplace]; rfl) (hkind.trans hgo.symm))
    have hinsert : insertNew (s.ids x.kind).storage x.uid o =
        Function.update (s.ids x.kind).storage x.uid (some (some o)) := by
      unfold insertNew
      rw [hempty]
      rfl
    rw [hinsert]
    refine h.moved hx _ rfl (fun _ => hh) hsound (fun u hu => Or.inl hu) ?_ ?_ ?_ ?_
    · intro _
      rw [hgo]
      exact h.fromWorld
    · exact h.stored_update hx hh _
    · intro c _
      exact Function.update_self _ _ _
    · intro _ u v hv
      dsimp only at hv
      by_cases hu : u = x.uid
      · exact Or.inl ⟨hu, cell, rfl⟩
      · rw [Function.update_of_ne hu, hgo] at hv
        exact Or.inr (h.storing_other hx hv fun c hc => absurd hc (hout c))
  · rename_i hgo
    split at ht
    · obtain rfl := Option.some.inj ht
      exact h.moved hx _ rfl (fun _ => hh) hsound (fun u hu => Or.inl hu) (absurd · hgo)
        (h.stored_update hx hh _) (fun c _ => Function.update_self _ _ _) (absurd · hgo)
    · cases ht

/-- An object leaves the world; it keeps its number or returns it. -/
theorem Inv.leave (h : s.Inv) (hx : s.object o = some x) {c : Nat × Nat}
    (hc : x.place = .inWorld c) (hout : ∀ c, p ≠ .inWorld c)
    (hfree : free = true → p.holds = false)
    (hs' : s.removeFromWorld o x free p = some s') : s'.Inv := by
  have hh : x.place.holds = true := by
    rw [hc]
    rfl
  have hdrop : Sound (Function.update (s.own x.kind) o
      (if p.holds = true then some x.uid else none)) (s.ids x.kind).reusable := by
    split
    · rw [h.own_update hx hh]
      exact h.sound x.kind
    · exact (h.sound x.kind).drop
  obtain ⟨t, ht, rfl⟩ := Option.map_eq_some_iff.1 hs'
  unfold removeObject at ht
  rw [h.typed o x hx] at ht
  dsimp only at ht
  split at ht
  · rename_i hgo
    obtain rfl := Option.some.inj ht
    refine h.moved hx _ rfl (fun _ => hh) hdrop (fun u hu => Or.inl hu) ?_
      (h.stored_update hx hh _) (fun c hp => absurd hp (hout c)) ?_
    · intro _
      rw [hgo]
      exact h.fromWorld
    · intro _ u v hv
      dsimp only at hv
      by_cases hu : u = x.uid
      · rw [hu, Function.update_self] at hv
        cases hv
      · rw [Function.update_of_ne hu, hgo] at hv
        exact Or.inr (h.storing_other hx hv fun _ _ => hu)
  · rename_i hgo
    split at ht
    · obtain rfl := Option.some.inj ht
      refine h.moved hx _ rfl (fun _ => hh) ?_ (mem_returned fun _ => hh) (absurd · hgo)
        (h.stored_update hx hh _) (fun c hp => absurd hp (hout c)) (absurd · hgo)
      cases free with
      | false => exact hdrop
      | true =>
        rw [hfree rfl]
        exact (h.sound x.kind).release (h.own_at hx hh)
    · cases ht

/-- An object that is not in the world is destroyed; if it waited, its
number may be returned. -/
theorem Inv.discard (free : Bool) (h : s.Inv) (hx : s.object o = some x)
    (hout : ∀ c, x.place ≠ .inWorld c)
    (hfree : free = true → x.place.holds = true ∧ x.kind ≠ .gameObject) :
    ((s.setIds x.kind { s.ids x.kind with
      reusable := if free then (s.ids x.kind).reusable ++ [x.uid]
        else (s.ids x.kind).reusable }).setPlace o .destructed).Inv := by
  have hkeep : ∀ o' y c, s.object o' = some y → y.kind = x.kind → y.place = .inWorld c →
      (s.ids x.kind).storage y.uid = some (some o') := by
    intro o' y c hy hkind hc
    rw [← hkind]
    exact h.stored o' y c hy hc
  refine h.moved hx _ rfl (fun hp => by cases hp) ?_ (mem_returned fun hf => (hfree hf).1) ?_
    (fun o' y c _ => hkeep o' y c) (fun c hp => by cases hp) ?_
  · cases free with
    | false => exact (h.sound x.kind).drop
    | true => exact (h.sound x.kind).release (h.own_at hx (hfree rfl).1)
  · intro hgo
    cases free with
    | false =>
      rw [hgo]
      exact h.fromWorld
    | true => exact absurd hgo (hfree rfl).2
  · intro hgo u v hv
    rw [hgo] at hv
    exact Or.inr (h.storing_other hx hv fun c hc => absurd hc (hout c))

theorem setIds_same : s.setIds kind (s.ids kind) = s := by
  unfold setIds
  rw [Function.update_eq_self]

/-- It is destroyed and keeps its number for ever. -/
theorem Inv.destroy (h : s.Inv) (hx : s.object o = some x) (hout : ∀ c, x.place ≠ .inWorld c) :
    (s.setPlace o .destructed).Inv := by
  have hd := Inv.discard false h hx hout (fun hf => by cases hf)
  simp only [Bool.false_eq_true, if_false] at hd
  rw [show ({ s.ids x.kind with reusable := (s.ids x.kind).reusable } : ObjectIds) = s.ids x.kind
    from rfl, setIds_same] at hd
  exact hd

/-! ## Being made -/

theorem storedAs_newGuid {low : UInt32} (hentry : Typed kind entry) :
    storedAs ⟨kind, newGuid kind entry low, db, p⟩ = some (some kind) := by
  unfold storedAs
  rw [show (⟨kind, newGuid kind entry low, db, p⟩ : MapObject).guid = newGuid kind entry low
    from rfl, typeFromGuid_low kind entry low, hentry]
  cases kind <;> rfl

theorem addObject_object {guid : UInt64} {y : MapObject}
    (h : (s.addObject kind guid db).object o = some y) :
    (o = s.next ∧ y = ⟨kind, guid, db, .created⟩) ∨ (o ≠ s.next ∧ s.object o = some y) := by
  unfold addObject at h
  by_cases ho : o = s.next
  · subst ho
    dsimp only at h
    rw [Function.update_self] at h
    exact Or.inl ⟨rfl, (Option.some.inj h).symm⟩
  · dsimp only at h
    rw [Function.update_of_ne ho] at h
    exact Or.inr ⟨ho, h⟩

/-- A new object with a number that nobody has. -/
theorem Inv.made (h : s.Inv) {guid : UInt64} (ids : ObjectIds)
    (htyped : storedAs ⟨kind, guid, db, .created⟩ = some (some kind))
    (hhigh : kind ≠ .gameObject →
      (s.ids kind).highGuid ≤ ids.highGuid ∧ uidFromGuid guid ≤ ids.highGuid)
    (hsound : Sound (Function.update (s.own kind) s.next (some (uidFromGuid guid))) ids.reusable)
    (hreturned : ∀ u ∈ ids.reusable, u ∈ (s.ids kind).reusable)
    (hstored : ∀ u o', (s.ids kind).storage u = some (some o') → ids.storage u = some (some o'))
    (hgame : kind = .gameObject → ids.storage = (s.ids kind).storage) :
    ((s.setIds kind ids).addObject kind guid db).Inv where
  sound := by
    intro k
    have hown : ((s.setIds kind ids).addObject kind guid db).own k =
        Function.update (s.own k) s.next (if kind = k then some (uidFromGuid guid) else none) := by
      funext i
      unfold own addObject
      by_cases hi : i = s.next
      · subst hi
        simp only [setIds_next, Function.update_self]
        by_cases hk : kind = k
        · rw [if_pos ⟨hk, rfl⟩, if_pos hk]
          rfl
        · rw [if_neg (fun hand => hk hand.1), if_neg hk]
      · simp only [setIds_next, Function.update_of_ne hi]
        rfl
    rw [hown, addObject_ids]
    by_cases hk : kind = k
    · subst hk
      rw [if_pos rfl, setIds_ids_self]
      exact hsound
    · rw [if_neg hk, setIds_ids_of_ne (Ne.symm hk)]
      exact (h.sound k).drop
  numbered := by
    intro o y hy
    rcases addObject_object hy with ⟨rfl, -⟩ | ⟨-, hy⟩
    · exact Nat.lt_succ_self _
    · exact Nat.lt_succ_of_lt (h.numbered o y hy)
  typed := by
    intro o y hy
    rcases addObject_object hy with ⟨-, rfl⟩ | ⟨-, hy⟩
    · exact htyped
    · exact h.typed o y hy
  below := by
    intro k o u hk hu
    rw [addObject_ids]
    obtain ⟨y, hy, rfl, hh, rfl⟩ := own_eq_some.1 hu
    rcases addObject_object hy with ⟨-, rfl⟩ | ⟨-, hy⟩
    · rw [setIds_ids_self]
      exact (hhigh hk).2
    · have hle := h.below y.kind o y.uid hk (h.own_at hy hh)
      by_cases hkind : y.kind = kind
      · rw [hkind] at hle hk ⊢
        rw [setIds_ids_self]
        exact UInt32.le_trans hle (hhigh hk).1
      · rw [setIds_ids_of_ne hkind]
        exact hle
  returned := by
    intro k u hu
    rw [addObject_ids] at hu ⊢
    by_cases hk : k = kind
    · subst hk
      rw [setIds_ids_self] at hu ⊢
      have hold := h.returned k u (hreturned u hu)
      by_cases hgo : k = .gameObject
      · have hmem := hreturned u hu
        rw [hgo, h.fromWorld] at hmem
        cases hmem
      · exact ⟨UInt32.le_trans hold.1 (hhigh hgo).1, hold.2⟩
    · rw [setIds_ids_of_ne hk] at hu ⊢
      exact h.returned k u hu
  fromWorld := by
    rw [addObject_ids]
    by_cases hk : kind = .gameObject
    · subst hk
      rw [setIds_ids_self]
      refine List.eq_nil_iff_forall_not_mem.2 fun u hu => ?_
      have hmem := hreturned u hu
      rw [h.fromWorld] at hmem
      cases hmem
    · rw [setIds_ids_of_ne (Ne.symm hk)]
      exact h.fromWorld
  stored := by
    intro o y c hy hc
    rw [addObject_ids]
    rcases addObject_object hy with ⟨-, rfl⟩ | ⟨-, hy⟩
    · cases hc
    · have hold := h.stored o y c hy hc
      by_cases hkind : y.kind = kind
      · rw [hkind] at hold ⊢
        rw [setIds_ids_self]
        exact hstored y.uid o hold
      · rw [setIds_ids_of_ne hkind]
        exact hold
  storing := by
    intro u v hv
    rw [addObject_ids] at hv
    have hold : (s.ids .gameObject).storage u = some v := by
      by_cases hk : kind = .gameObject
      · subst hk
        rw [setIds_ids_self, hgame rfl] at hv
        exact hv
      · rw [setIds_ids_of_ne (Ne.symm hk)] at hv
        exact hv
    obtain ⟨o, y, c, hy, hkind, hplace, huid⟩ := h.storing u v hold
    refine ⟨o, y, c, ?_, hkind, hplace, huid⟩
    have hne : o ≠ s.next := Nat.ne_of_lt (h.numbered o y hy)
    exact (Function.update_of_ne hne _ _).trans hy

/-- The number that the counter of a kind comes to. -/
def counted (s : MapObjects) (kind : ObjectKind) : UInt32 :=
  match kind with
  | .gameObject => ((s.ids kind).highGuid &&& LOWGUID_ENTRY_MASK) + 1
  | _ => (s.ids kind).highGuid + 1

/-- It is nobody's, was not returned, and is above those counted before. -/
def FreshNumber (s : MapObjects) (kind : ObjectKind) : Prop :=
  (∀ o < s.next, s.own kind o ≠ some (s.counted kind &&& LOWGUID_ENTRY_MASK)) ∧
    s.counted kind &&& LOWGUID_ENTRY_MASK ∉ (s.ids kind).reusable ∧
    (kind ≠ .gameObject → s.counted kind ≠ 0)

instance (s : MapObjects) (kind : ObjectKind) : Decidable (s.FreshNumber kind) :=
  inferInstanceAs (Decidable
    ((∀ o < s.next, s.own kind o ≠ some (s.counted kind &&& LOWGUID_ENTRY_MASK)) ∧
      s.counted kind &&& LOWGUID_ENTRY_MASK ∉ (s.ids kind).reusable ∧
      (kind ≠ .gameObject → s.counted kind ≠ 0)))

/-- The counter goes up, by one, and what it comes to is nobody's. -/
theorem Inv.sound_fresh (entry : UInt32) (h : s.Inv) (hfresh : s.FreshNumber kind) :
    Sound (Function.update (s.own kind) s.next
      (some (uidFromGuid (newGuid kind entry (s.counted kind))))) (s.ids kind).reusable := by
  rw [uidFromGuid_newGuid]
  refine (h.sound kind).fresh ?_ hfresh.2.1
  intro o ho
  obtain ⟨y, hy, -⟩ := own_eq_some.1 ho
  exact hfresh.1 o (h.numbered o y hy) ho

theorem and_mask_le (a : UInt32) : a &&& LOWGUID_ENTRY_MASK ≤ a := by
  rw [UInt32.le_iff_toNat_le, UInt32.toNat_and]
  exact Nat.and_le_left

theorem le_succ_of_ne_zero {a : UInt32} (h : a + 1 ≠ 0) : a ≤ a + 1 := by
  have hlt := a.toNat_lt
  have hne : (a + 1).toNat ≠ 0 := fun hz => h (UInt32.toNat.inj hz)
  rw [UInt32.le_iff_toNat_le]
  rw [UInt32.toNat_add] at hne ⊢
  simp only [UInt32.toNat_one] at hne ⊢
  omega

theorem Inv.createUnit (h : s.Inv) (hkind : kind ≠ .gameObject) (hentry : Typed kind entry)
    (hfresh : (s.ids kind).reusable = [] → s.FreshNumber kind) :
    (s.createUnit kind entry db).Inv := by
  have hsound := h.sound kind
  unfold MapObjects.createUnit
  dsimp only
  split
  · rename_i u rest hr
    have hu := h.returned kind u (by rw [hr]; exact List.mem_cons_self)
    have huid : uidFromGuid (newGuid kind entry u) = u := by
      rw [uidFromGuid_newGuid]
      exact hu.2
    refine h.made _ (storedAs_newGuid hentry) (fun _ => ⟨UInt32.le_refl _, ?_⟩) ?_ ?_
      (fun _ _ hst => hst) (absurd · hkind)
    · rw [huid]
      exact hu.1
    · rw [huid]
      rw [hr] at hsound
      exact hsound.reuse
    · intro v hv
      rw [hr]
      exact List.mem_cons_of_mem u hv
  · rename_i hr
    have hcounted : s.counted kind = (s.ids kind).highGuid + 1 := by
      cases kind with
      | creature => rfl
      | vehicle => rfl
      | gameObject => exact absurd rfl hkind
    have hnew := hfresh hr
    have hhigh : (s.ids kind).highGuid ≤ (s.ids kind).highGuid + 1 := by
      refine le_succ_of_ne_zero ?_
      rw [← hcounted]
      exact hnew.2.2 hkind
    have hnumber := h.sound_fresh entry hnew
    rw [hcounted] at hnumber
    refine h.made _ (storedAs_newGuid hentry) (fun _ => ⟨hhigh, ?_⟩) hnumber (fun _ hv => hv) ?_
      (absurd · hkind)
    · rw [uidFromGuid_newGuid]
      exact and_mask_le _
    · -- `insert` does not replace what is there
      intro u o hu
      dsimp only [insertNew]
      split
      · rename_i hnone
        rw [Function.update_of_ne]
        · exact hu
        · rintro rfl
          rw [hu] at hnone
          cases hnone
      · exact hu

theorem Inv.createGameObject (h : s.Inv) {known : Bool}
    (hok : known = true → Typed .gameObject entry ∧ s.FreshNumber .gameObject) :
    (s.createGameObject known entry db).Inv := by
  unfold MapObjects.createGameObject
  cases known with
  | false => exact h
  | true =>
    obtain ⟨hentry, hfresh⟩ := hok rfl
    exact h.made _ (storedAs_newGuid hentry) (fun hne => absurd rfl hne)
      (h.sound_fresh entry hfresh) (fun _ hv => hv) (fun _ _ hst => hst) fun _ => rfl

/-! ## Unloading -/

theorem Inv.removeWaiting (h : s.Inv) : (s.removeWaiting cell o).Inv := by
  unfold MapObjects.removeWaiting
  cases hx : s.object o with
  | none => exact h
  | some x =>
    dsimp only
    split
    · rename_i hplace
      have hout : ∀ c, x.place ≠ .inWorld c := by
        intro c hc
        rw [hplace] at hc
        cases hc
      by_cases hgo : x.kind = .gameObject
      · rw [if_pos hgo]
        exact h.destroy hx hout
      · rw [if_neg hgo]
        exact Inv.discard true h hx hout fun _ => ⟨by rw [hplace]; rfl, hgo⟩
    · exact h

theorem Inv.removeInside {pending : Bool} (h : s.Inv)
    (hs' : s.removeInside cell pending o = some s') : s'.Inv := by
  unfold MapObjects.removeInside at hs'
  cases hx : s.object o with
  | none =>
    rw [hx] at hs'
    obtain rfl := Option.some.inj hs'
    exact h
  | some x =>
    rw [hx] at hs'
    dsimp only at hs'
    split at hs'
    · rename_i hplace
      split at hs'
      · obtain rfl := Option.some.inj hs'
        exact h
      · exact h.leave hx hplace (fun c hc => by cases hc) (fun _ => rfl) hs'
    · obtain rfl := Option.some.inj hs'
      exact h

theorem Inv.removeObjects {pending : Bool} {order : List Nat} (h : s.Inv)
    (hs' : s.removeObjects cell pending order = some s') : s'.Inv := by
  have hwaiting : ∀ (l : List Nat) (t : MapObjects), t.Inv →
      (l.foldl (fun s o => s.removeWaiting cell o) t).Inv := by
    intro l
    induction l with
    | nil => exact fun t ht => ht
    | cons o l ih => exact fun t ht => ih _ ht.removeWaiting
  have hinside : ∀ (l : List Nat) (t : MapObjects), t.Inv →
      l.foldlM (fun s o => s.removeInside cell pending o) t = some s' → s'.Inv := by
    intro l
    induction l with
    | nil =>
      intro t ht hfold
      obtain rfl := Option.some.inj hfold
      exact ht
    | cons o l ih =>
      intro t ht hfold
      rw [List.foldlM_cons, Option.bind_eq_bind, Option.bind_eq_some_iff] at hfold
      obtain ⟨u, hu, hrest⟩ := hfold
      exact ih u (ht.removeInside hu) hrest
  exact hinside order _ (hwaiting order s h) hs'

/-! ## Every step -/

/-- A creation finds its number free, and its entry leaves the type. -/
def NumbersFresh (s : MapObjects) : Call → Prop
  | .createCreature entry _ =>
    Typed .creature entry ∧ ((s.ids .creature).reusable = [] → s.FreshNumber .creature)
  | .createVehicle entry _ =>
    Typed .vehicle entry ∧ ((s.ids .vehicle).reusable = [] → s.FreshNumber .vehicle)
  | .createGameObject known entry _ =>
    known = true → Typed .gameObject entry ∧ s.FreshNumber .gameObject
  | _ => True

instance (s : MapObjects) : DecidablePred s.NumbersFresh
  | .createCreature entry _ => inferInstanceAs (Decidable
      (Typed .creature entry ∧ ((s.ids .creature).reusable = [] → s.FreshNumber .creature)))
  | .createVehicle entry _ => inferInstanceAs (Decidable
      (Typed .vehicle entry ∧ ((s.ids .vehicle).reusable = [] → s.FreshNumber .vehicle)))
  | .createGameObject known entry _ => inferInstanceAs (Decidable
      (known = true → Typed .gameObject entry ∧ s.FreshNumber .gameObject))
  | .pushToWorld _ _ => inferInstanceAs (Decidable True)
  | .despawn _ _ => inferInstanceAs (Decidable True)
  | .eventRespawn _ _ => inferInstanceAs (Decidable True)
  | .destructor _ => inferInstanceAs (Decidable True)
  | .deleteMe _ => inferInstanceAs (Decidable True)
  | .removeObjects _ _ _ => inferInstanceAs (Decidable True)

theorem Inv.pushToWorld (h : s.Inv) (hs' : s.pushToWorld o cell = some s') : s'.Inv := by
  unfold MapObjects.pushToWorld at hs'
  cases hx : s.object o with
  | none =>
    rw [hx] at hs'
    cases hs'
  | some x =>
    rw [hx] at hs'
    dsimp only at hs'
    split at hs'
    · rename_i hplace
      obtain ⟨t, ht, rfl⟩ := Option.map_eq_some_iff.1 hs'
      refine h.enter hx (by rw [hplace]; rfl) ?_ ht
      intro c hc
      rw [hplace] at hc
      cases hc
    · cases hs'

theorem Inv.despawn {respawn : Option (Nat × Nat)} (h : s.Inv)
    (hs' : s.despawn o respawn = some s') : s'.Inv := by
  unfold MapObjects.despawn at hs'
  cases hx : s.object o with
  | none =>
    rw [hx] at hs'
    cases hs'
  | some x =>
    rw [hx] at hs'
    cases hplace : x.place with
    | inWorld c =>
      simp only [hplace] at hs'
      cases respawn with
      | some d => exact h.leave hx hplace (fun c hc => by cases hc) (fun hf => by cases hf) hs'
      | none => exact h.leave hx hplace (fun c hc => by cases hc) (fun _ => rfl) hs'
    | created | respawning _ | removed | destructed =>
      simp only [hplace, Option.some.injEq] at hs'
      exact hs' ▸ h

theorem Inv.eventRespawn (h : s.Inv) (hs' : s.eventRespawn o cell = some s') : s'.Inv := by
  unfold MapObjects.eventRespawn at hs'
  cases hx : s.object o with
  | none =>
    rw [hx] at hs'
    cases hs'
  | some x =>
    rw [hx] at hs'
    cases hplace : x.place with
    | respawning d =>
      simp only [hplace] at hs'
      obtain ⟨t, ht, rfl⟩ := Option.map_eq_some_iff.1 hs'
      refine h.enter hx (by rw [hplace]; rfl) ?_ ht
      intro c hc
      rw [hplace] at hc
      cases hc
    | created | inWorld _ | removed | destructed =>
      simp only [hplace, Option.some.injEq] at hs'
      exact hs' ▸ h

/-- `Destructor` and `DeleteMe` differ in which numbers they return. -/
theorem Inv.deleted {x : MapObject} (h : s.Inv) (hx : s.object o = some x)
    (hs' : (match x.place with
      | .inWorld _ => s.removeFromWorld o x free .destructed
      | _ => some (s.setPlace o .destructed)) = some s') : s'.Inv := by
  by_cases hplace : ∃ c, x.place = .inWorld c
  · obtain ⟨c, hc⟩ := hplace
    simp only [hc] at hs'
    exact h.leave hx hc (fun c hc => by cases hc) (fun _ => rfl) hs'
  · have hout : ∀ c, x.place ≠ .inWorld c := fun c hc => hplace ⟨c, hc⟩
    split at hs'
    · rename_i c hc
      exact absurd hc (hout c)
    · obtain rfl := Option.some.inj hs'
      exact h.destroy hx hout

theorem Inv.step {a : Call} (h : s.Inv) (hok : s.NumbersFresh a) (hs' : s.step a = some s') :
    s'.Inv := by
  cases a with
  | createCreature entry db =>
    obtain rfl := Option.some.inj hs'
    exact h.createUnit (by decide) hok.1 hok.2
  | createVehicle entry db =>
    change s.createVehicle entry db = some s' at hs'
    unfold MapObjects.createVehicle at hs'
    dsimp only at hs'
    split at hs'
    · obtain rfl := Option.some.inj hs'
      exact h.createUnit (by decide) hok.1 hok.2
    · cases hs'
  | createGameObject known entry db =>
    obtain rfl := Option.some.inj hs'
    exact h.createGameObject hok
  | pushToWorld o cell => exact h.pushToWorld hs'
  | despawn o respawn => exact h.despawn hs'
  | eventRespawn o cell => exact h.eventRespawn hs'
  | destructor o =>
    change s.destructor o = some s' at hs'
    unfold MapObjects.destructor at hs'
    cases hx : s.object o with
    | none =>
      rw [hx] at hs'
      cases hs'
    | some x =>
      rw [hx] at hs'
      exact h.deleted hx hs'
  | deleteMe o =>
    change s.deleteMe o = some s' at hs'
    unfold MapObjects.deleteMe at hs'
    cases hx : s.object o with
    | none =>
      rw [hx] at hs'
      cases hs'
    | some x =>
      rw [hx] at hs'
      exact h.deleted hx hs'
  | removeObjects cell pending order =>
    change (if order.Perm (List.range s.next) then s.removeObjects cell pending order
      else none) = some s' at hs'
    split at hs'
    · exact h.removeObjects hs'
    · cases hs'

/-! ## Unique ids -/

/-- No two live objects of a kind share an id, an id is in the list once
and then no live object has it, and the storage has what is in the world. -/
structure UniqueIds (s : MapObjects) : Prop where
  apart : ∀ o o' x y, s.object o = some x → s.object o' = some y → x.live = true →
    y.live = true → x.kind = y.kind → x.uid = y.uid → o = o'
  once : ∀ kind, (s.ids kind).reusable.Nodup
  returned : ∀ o x, s.object o = some x → x.live = true → x.uid ∉ (s.ids x.kind).reusable
  found : ∀ o x cell, s.object o = some x → x.place = .inWorld cell →
    s.lookup x.kind x.uid = some o

theorem Inv.lookup_eq (h : s.Inv) (hx : s.object o = some x) (hc : x.place = .inWorld cell) :
    s.lookup x.kind x.uid = some o := by
  have hstored := h.stored o x cell hx hc
  have hown := h.own_at hx (by rw [hc]; rfl)
  have hbelow := h.below x.kind o x.uid
  unfold lookup
  cases hkind : x.kind with
  | creature | vehicle =>
    rw [hkind] at hstored hown hbelow
    rw [if_pos (hbelow (by decide) hown), hstored]
    rfl
  | gameObject =>
    rw [hkind] at hstored
    rw [hstored]
    rfl

theorem Inv.uniqueIds (h : s.Inv) : s.UniqueIds where
  apart := fun _ _ _ _ hx hy hlx hly hkind huid =>
    h.eq_of_uid hx hy (MapObject.holds_of_live hlx) (MapObject.holds_of_live hly) hkind huid
  once := fun kind => (h.sound kind).once
  returned := fun o x hx hl =>
    (h.sound x.kind).returned o x.uid (h.own_at hx (MapObject.holds_of_live hl))
  found := fun _ _ _ hx hc => h.lookup_eq hx hc

/-- Ids are unique in every run in which the counters name free numbers. -/
theorem map_ids_unique {as : List Call} {t : MapObjects}
    (hrun : Run (Guarded NumbersFresh (PartialStep step)) start as t) : t.UniqueIds := by
  refine Inv.uniqueIds ?_
  refine hrun.invariant Inv ?_ inv_start
  rintro s a t hinv ⟨hok, hstep⟩
  exact hinv.step hok hstep

/-- Creatures and a game object come, respawn, are unloaded, and a number
is used again. -/
theorem map_ids_unique_reused : ∃ t, Run (Guarded NumbersFresh (PartialStep step)) start
    [.createCreature 69 true, .pushToWorld 0 (3, 4), .createGameObject true 70 true,
      .pushToWorld 1 (3, 4), .despawn 0 (some (3, 4)), .removeObjects (3, 4) true [1, 0],
      .createCreature 71 true, .pushToWorld 2 (3, 4)] t ∧ t.UniqueIds := by
  have hsome : (List.foldlM (fun s a => if NumbersFresh s a then step s a else none) start
      [.createCreature 69 true, .pushToWorld 0 (3, 4), .createGameObject true 70 true,
        .pushToWorld 1 (3, 4), .despawn 0 (some (3, 4)), .removeObjects (3, 4) true [1, 0],
        .createCreature 71 true, .pushToWorld 2 (3, 4)]).isSome = true := by decide +kernel
  obtain ⟨t, ht⟩ := Option.isSome_iff_exists.1 hsome
  exact ⟨t, Run.of_foldlM ht, map_ids_unique (Run.of_foldlM ht)⟩

/-- And the table of the game objects names objects that are in the world,
each under its own id. -/
theorem gameObjects_in_world {as : List Call} {t : MapObjects}
    (hrun : Run (Guarded NumbersFresh (PartialStep step)) start as t) {u : UInt32} {v : Option Nat}
    (hu : (t.ids .gameObject).storage u = some v) :
    ∃ o x cell, v = some o ∧ t.object o = some x ∧ x.kind = .gameObject ∧
      x.place = .inWorld cell ∧ x.uid = u := by
  have h : t.Inv := hrun.invariant Inv (fun _ _ _ hs hc => hs.step hc.1 hc.2) inv_start
  obtain ⟨o, x, cell, hx, hkind, hplace, rfl⟩ := h.storing u v hu
  have hstored := h.stored o x cell hx hplace
  rw [hkind, hu] at hstored
  exact ⟨o, x, cell, Option.some.inj hstored, hx, hkind, hplace, rfl⟩

theorem gameObjects_in_world_pushed : ∃ (t : MapObjects) (o : Nat), (t.object o).isSome := by
  have hsome : (List.foldlM (fun s a => if NumbersFresh s a then step s a else none) start
      [.createGameObject true 70 true, .pushToWorld 0 (3, 4)]).any
        (fun t => (t.ids .gameObject).storage 1 = some (some 0)) = true := by decide +kernel
  obtain ⟨t, ht, hu⟩ := (Option.any_eq_true _ _).mp hsome
  obtain ⟨o, x, -, -, hx, -⟩ := gameObjects_in_world (Run.of_foldlM ht) (of_decide_eq_true hu)
  exact ⟨t, o, by rw [hx]; rfl⟩

/-! ## The counter of the game objects starts again -/

/-- The objects of a kind that have not been destructed. -/
def alive (s : MapObjects) (kind : ObjectKind) : Finset Nat :=
  (Finset.range s.next).filter fun o =>
    (s.object o).any (fun x => x.kind = kind ∧ x.place ≠ .destructed) = true

/-- Fewer than there are ids. -/
def Uncrowded (s : MapObjects) : Prop := ∀ kind, (s.alive kind).card < 2 ^ 24

/-- What is alive are the first object and one more. -/
theorem uncrowded_of_two (b : Nat)
    (h : ∀ o x, o ≠ 0 → o ≠ b → s.object o = some x → x.place = .destructed) : s.Uncrowded := by
  intro kind
  have hsub : s.alive kind ⊆ {0, b} := by
    intro o ho
    unfold alive at ho
    rw [Finset.mem_filter] at ho
    rw [Finset.mem_insert, Finset.mem_singleton]
    by_contra hne
    rw [not_or] at hne
    cases hx : s.object o with
    | none => simp [hx] at ho
    | some x =>
      have hgone := h o x hne.1 hne.2 hx
      simp [hx, hgone] at ho
  have hcard := (Finset.card_le_card hsub).trans Finset.card_le_two
  omega

theorem createGameObject_high : ((s.createGameObject true entry db).ids .gameObject).highGuid =
    s.counted .gameObject := rfl

theorem createGameObject_object_self (s : MapObjects) (entry : UInt32) (db : Bool) :
    (s.createGameObject true entry db).object s.next =
      some ⟨.gameObject, newGuid .gameObject entry (s.counted .gameObject), db, .created⟩ :=
  Function.update_self _ _ _

theorem createGameObject_object_of_ne (entry : UInt32) (db : Bool) (h : o ≠ s.next) :
    (s.createGameObject true entry db).object o = s.object o := Function.update_of_ne h _ _

/-- A game object goes to the world. -/
theorem pushToWorld_gameObject {low : UInt32} (cell : Nat × Nat) (hentry : Typed .gameObject entry)
    (hx : s.object o = some ⟨.gameObject, newGuid .gameObject entry low, db, .created⟩) :
    ∃ ids, ids.highGuid = (s.ids .gameObject).highGuid ∧ s.step (.pushToWorld o cell) =
      some ((s.setIds .gameObject ids).setPlace o (.inWorld cell)) := by
  let storage := insertNew (s.ids .gameObject).storage
    (uidFromGuid (newGuid .gameObject entry low)) o
  refine ⟨{ s.ids .gameObject with storage }, rfl, ?_⟩
  change s.pushToWorld o cell = _
  unfold MapObjects.pushToWorld
  rw [hx]
  dsimp only
  rw [if_pos rfl]
  unfold pushObject
  rw [storedAs_newGuid hentry]
  rfl

/-- One game object is in the world; `n` others have come and gone. -/
structure Worn (n : Nat) (s : MapObjects) : Prop where
  next : s.next = n + 1
  high : (s.ids .gameObject).highGuid = UInt32.ofNat (n + 1)
  first : s.object 0 = some ⟨.gameObject, newGuid .gameObject 5 1, true, .inWorld (0, 0)⟩
  gone : ∀ o x, o ≠ 0 → s.object o = some x → x.place = .destructed

theorem Worn.uncrowded {n : Nat} (h : Worn n s) : s.Uncrowded :=
  uncrowded_of_two 0 fun o x h0 _ => h.gone o x h0

/-- After one more creation two are alive. -/
theorem Worn.uncrowded_create {n : Nat} (h : Worn n s) :
    (s.createGameObject true 5 true).Uncrowded := by
  refine uncrowded_of_two s.next fun o x h0 hb hx => ?_
  rw [createGameObject_object_of_ne 5 true hb] at hx
  exact h.gone o x h0 hx

theorem Worn.counted {n : Nat} (h : Worn n s) :
    s.counted .gameObject = UInt32.ofNat ((n + 1) % 2 ^ 24 + 1) := by
  have hmask : LOWGUID_ENTRY_MASK.toNat = 2 ^ 24 - 1 := rfl
  apply UInt32.toNat.inj
  change (((s.ids .gameObject).highGuid &&& LOWGUID_ENTRY_MASK) + 1).toNat = _
  rw [h.high, UInt32.toNat_add, UInt32.toNat_and, hmask, Nat.and_two_pow_sub_one_eq_mod]
  simp only [UInt32.toNat_ofNat', UInt32.toNat_one]
  omega

/-- One more comes and goes. -/
theorem Worn.succ {n : Nat} (h : Worn n s) (hn : n + 1 < 2 ^ 24) :
    ∃ t, Run (Guarded (fun s _ => s.Uncrowded) (PartialStep step)) s
      [.createGameObject true 5 true, .destructor s.next] t ∧ Worn (n + 1) t := by
  let t := s.createGameObject true 5 true
  have hnew : t.object s.next = _ := createGameObject_object_self s 5 true
  have hdestructor : step t (.destructor s.next) = some (t.setPlace s.next .destructed) := by
    change t.destructor s.next = _
    unfold MapObjects.destructor
    rw [hnew]
  refine ⟨t.setPlace s.next .destructed,
    .cons ⟨h.uncrowded, rfl⟩ (.cons ⟨h.uncrowded_create, hdestructor⟩ (.nil _)), ?_⟩
  exact {
    next := congrArg (· + 1) h.next
    high := by
      rw [setPlace_ids, createGameObject_high, h.counted, Nat.mod_eq_of_lt hn]
    first := by
      have hne : 0 ≠ s.next := by
        rw [h.next]
        omega
      rw [setPlace_object_of_ne hne, createGameObject_object_of_ne 5 true hne]
      exact h.first
    gone := by
      intro o x h0 hx
      rcases setPlace_object hnew hx with ⟨-, rfl⟩ | ⟨hne, hx⟩
      · rfl
      · rw [createGameObject_object_of_ne 5 true hne] at hx
        exact h.gone o x h0 hx }

theorem worn_zero :
    ∃ as t, Run (Guarded (fun s _ => s.Uncrowded) (PartialStep step)) start as t ∧ Worn 0 t := by
  let s := start.createGameObject true 5 true
  have hstart : start.Uncrowded := uncrowded_of_two 0 fun o x _ _ hx => by cases hx
  have hfirst : ∀ o x, s.object o = some x → o = 0 := by
    intro o x hx
    by_contra h0
    have hnone := createGameObject_object_of_ne (s := start) 5 true h0
    rw [hnone] at hx
    cases hx
  have hs : s.Uncrowded := uncrowded_of_two 0 fun o x h0 _ hx => absurd (hfirst o x hx) h0
  have hnew : s.object 0 = some ⟨.gameObject, newGuid .gameObject 5 1, true, .created⟩ :=
    createGameObject_object_self start 5 true
  obtain ⟨ids, hhigh, hpush⟩ := pushToWorld_gameObject (0, 0) (typed_of_lt _ (by decide)) hnew
  refine ⟨[.createGameObject true 5 true, .pushToWorld 0 (0, 0)], _,
    .cons ⟨hstart, rfl⟩ (.cons ⟨hs, hpush⟩ (.nil _)), ?_⟩
  exact {
    next := rfl
    high := by
      rw [setPlace_ids, setIds_ids_self, hhigh]
      rfl
    first := setPlace_object_self hnew
    gone := by
      intro o x h0 hx
      rw [setPlace_object_of_ne h0] at hx
      exact absurd (hfirst o x hx) h0 }

theorem worn_reached (n : Nat) (hn : n < 2 ^ 24) :
    ∃ as t, Run (Guarded (fun s _ => s.Uncrowded) (PartialStep step)) start as t ∧ Worn n t := by
  induction n with
  | zero => exact worn_zero
  | succ n ih =>
    obtain ⟨as, t, hrun, hworn⟩ := ih (by omega)
    obtain ⟨u, hstep, hnext⟩ := hworn.succ hn
    exact ⟨_, u, hrun.append hstep, hnext⟩

/-- In the end two game objects in the world have the id one, and never
more than two have been alive. -/
theorem gameObject_ids_wrap : ¬ ∀ as t,
    Run (Guarded (fun s _ => s.Uncrowded) (PartialStep step)) start as t → t.Uncrowded →
      t.UniqueIds := by
  intro hall
  obtain ⟨as, s, hrun, hworn⟩ := worn_reached (2 ^ 24 - 1) (by omega)
  have hnew := createGameObject_object_self s 5 true
  rw [hworn.counted] at hnew
  have hne : 0 ≠ s.next := by
    rw [hworn.next]
    omega
  obtain ⟨ids, hhigh, hpush⟩ := pushToWorld_gameObject (0, 0) (typed_of_lt _ (by decide)) hnew
  have hlast : Run (Guarded (fun s _ => s.Uncrowded) (PartialStep step)) s
      [.createGameObject true 5 true, .pushToWorld s.next (0, 0)] _ :=
    .cons ⟨hworn.uncrowded, rfl⟩ (.cons ⟨hworn.uncrowded_create, hpush⟩ (.nil _))
  have hunique := hall _ _ (hrun.append hlast) (uncrowded_of_two s.next fun o x h0 hb hx => by
    rw [setPlace_object_of_ne hb, setIds_object, createGameObject_object_of_ne 5 true hb] at hx
    exact hworn.gone o x h0 hx)
  refine hne (hunique.apart 0 s.next _ _ ?_ (setPlace_object_self hnew) rfl rfl rfl rfl)
  rw [setPlace_object_of_ne hne, setIds_object, createGameObject_object_of_ne 5 true hne]
  exact hworn.first

end MapObjects

end HearthStone
