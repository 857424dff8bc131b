/-
HearthStone.Item.BuyBackTheorems — what the four arrays of the buy-back
list describe.

* `Sales` — the list as it is meant to be, with its operations.
* `Shows` — an index of the four arrays describes a sale, or nothing.
* `Describes` — the arrays describe a list from index 0 on, and are empty
  behind it.
* `foldl_moved`, `removeFrom_spec`, `emptyFrom_spec` — the loops.
* `buy_back_list` — the arrays describe the list after every run in which
  nothing is taken from a list of eleven or more.
-/
import HearthStone.Item.BuyBack

namespace HearthStone

open Lib

/-! ## The list as it is meant to be -/

namespace Sales

/-- The twelve items sold last. -/
def sell (l : List Sale) (sale : Sale) : List Sale :=
  (l ++ [sale]).drop ((l ++ [sale]).length - MAX_BUYBACK_SLOT)

def step (l : List Sale) : BuyBackOp → List Sale
  | .addBuyBackItem sale => sell l sale
  | .buyBackItem stuff bought => if 0 ≤ stuff ∧ bought then l.eraseIdx stuff.toNat else l
  | .emptyBuyBack => []
  | .keyring _ _ => l
  | .kills _ => l

end Sales

namespace BuyBack

variable {s s' : BuyBack} {e e' : Option Sale} {i j k : Nat} {sale : Sale} {l : List Sale}

/-- An index of the four arrays describes a sale, or nothing. -/
structure Shows (s : BuyBack) (k : Nat) (e : Option Sale) : Prop where
  item : s.m_pBuyBack k = e.map Sale.item
  guid : s.guids k = (e.map Sale.item).getD 0
  price : s.price k = (e.map Sale.price).getD 0
  timestamp : s.timestamp k = (e.map Sale.unixtime).getD 0

/-- The four arrays describe the list, compactly and nothing else. -/
def Describes (s : BuyBack) (l : List Sale) : Prop :=
  l.length ≤ MAX_BUYBACK_SLOT ∧ ∀ k < MAX_BUYBACK_SLOT, s.Shows k l[k]?

/-- No index behind the arrays has been read or written. -/
def Inside (s : BuyBack) : Prop := ∀ j ∈ s.touched, j < MAX_BUYBACK_SLOT

/-! ## Single writes -/

theorem Shows.touch (h : s.Shows k e) (js : List Nat) : (s.touch js).Shows k e :=
  ⟨h.item, h.guid, h.price, h.timestamp⟩

theorem Shows.low_ne_zero (h : s.Shows k (some sale)) : s.guids k % 2 ^ 32 ≠ 0 := by
  rw [h.guid]
  exact sale.low

theorem Shows.guid_ne_zero (h : s.Shows k (some sale)) : s.guids k ≠ 0 := by
  intro hzero
  have hlow := h.low_ne_zero
  rw [hzero] at hlow
  exact hlow rfl

theorem shows_setItem_ne (hk : k ≠ j) (it : Option Guid) (h : s.Shows k e) :
    (s.setItem j it).Shows k e := by
  refine ⟨?_, h.guid, h.price, h.timestamp⟩
  rw [← h.item]
  exact Function.update_of_ne hk it s.m_pBuyBack

/-- The fields of two indices inside the arrays are different fields. -/
theorem shows_setFields_ne {guid : Guid} {p t : UInt32} (hk : k ≠ j) (hk12 : k < 12) (hj : j < 12)
    (h : s.Shows k e) : (s.setFields j guid p t).Shows k e := by
  have hprice : k ≠ MAX_BUYBACK_SLOT + j := by
    rw [MAX_BUYBACK_SLOT]
    omega
  have htime : MAX_BUYBACK_SLOT + k ≠ j := by
    rw [MAX_BUYBACK_SLOT]
    omega
  have htime' : MAX_BUYBACK_SLOT + k ≠ MAX_BUYBACK_SLOT + j := by omega
  refine ⟨h.item, ?_, ?_, ?_⟩
  · rw [← h.guid]
    exact Function.update_of_ne hk guid s.guids
  · rw [← h.price, BuyBack.price, setFields]
    exact (Function.update_of_ne hprice _ _).trans (Function.update_of_ne hk _ _)
  · rw [← h.timestamp, BuyBack.timestamp, setFields]
    exact (Function.update_of_ne htime' _ _).trans (Function.update_of_ne htime _ _)

/-- The fields and the pointer of an index, written together. -/
theorem shows_written {it : Option Guid} {guid : Guid} {p t : UInt32}
    (hitem : it = e.map Sale.item) (hguid : guid = (e.map Sale.item).getD 0)
    (hp : p = (e.map Sale.price).getD 0) (ht : t = (e.map Sale.unixtime).getD 0) :
    ((s.setFields j guid p t).setItem j it).Shows j e := by
  have hne : j ≠ MAX_BUYBACK_SLOT + j := by
    rw [MAX_BUYBACK_SLOT]
    omega
  subst hitem hguid hp ht
  refine ⟨Function.update_self .., Function.update_self .., ?_, Function.update_self ..⟩
  exact (Function.update_of_ne hne _ _).trans (Function.update_self ..)

theorem setItem_setFields {it : Option Guid} {guid : Guid} {p t : UInt32} :
    (s.setItem j it).setFields j guid p t = (s.setFields j guid p t).setItem j it := rfl

theorem shows_store_self : (s.store j sale).Shows j (some sale) := by
  rw [store, setItem_setFields]
  exact shows_written rfl rfl rfl rfl

theorem shows_store_ne (hk : k ≠ j) (hk12 : k < 12) (hj : j < 12) (h : s.Shows k e) :
    (s.store j sale).Shows k e :=
  shows_setFields_ne hk hk12 hj (shows_setItem_ne hk _ h)

/-- An index takes over what the next one describes. -/
theorem shows_copied (h : s.Shows (j + 1) e) :
    ((s.copyFields j).setItem j (s.m_pBuyBack (j + 1))).Shows j e :=
  shows_written h.item h.guid h.price h.timestamp

theorem shows_copyFields_ne (hk : k ≠ j) (hk12 : k < 12) (hj : j < 12) (h : s.Shows k e) :
    (s.copyFields j).Shows k e := shows_setFields_ne hk hk12 hj (h.touch _)

/-- The body of the loop does the same, although it asks for the next item twice. -/
theorem moveDown_eq (h : s.Shows (j + 1) e) :
    s.moveDown j = (s.copyFields j).setItem j (s.m_pBuyBack (j + 1)) := by
  have hitem : (s.copyFields j).m_pBuyBack (j + 1) = s.m_pBuyBack (j + 1) := rfl
  have hguid : (s.copyFields j).guids (j + 1) = s.guids (j + 1) :=
    Function.update_of_ne (Nat.succ_ne_self j) _ _
  simp only [moveDown, hitem, hguid]
  cases e with
  | none =>
    have hnone : s.m_pBuyBack (j + 1) = none := h.item
    rw [hnone, if_neg (by simp)]
  | some sale =>
    have hsome : s.m_pBuyBack (j + 1) = some sale.item := h.item
    rw [if_pos ⟨by rw [hsome]; rfl, h.guid_ne_zero⟩]

/-! ## Loops -/

/-- The entries from an index to another take over the ones behind them. -/
def shifted (f : Nat → Option Sale) (i m : Nat) (k : Nat) : Option Sale :=
  if i ≤ k ∧ k < m then f (k + 1) else f k

theorem shifted_step {f : Nat → Option Sale} {m : Nat} (hm : i < m) :
    shifted (fun k => if k = i then f (i + 1) else f k) (i + 1) m = shifted f i m := by
  funext k
  unfold shifted
  dsimp only
  by_cases hk : k = i
  · subst hk
    rw [if_neg (by omega), if_pos rfl, if_pos ⟨le_refl k, hm⟩]
  · by_cases hrange : i + 1 ≤ k ∧ k < m
    · rw [if_pos hrange, if_neg (by omega), if_pos (by omega)]
    · rw [if_neg hrange, if_neg hk, if_neg (by omega)]

/-- One turn of either loop. What the index itself describes does not matter. -/
theorem shows_turn {f : Nat → Option Sale} (hj : j < 11)
    (h : ∀ k < 12, k ≠ j → s.Shows k (f k)) :
    ∀ k < 12, ((s.copyFields j).setItem j (s.m_pBuyBack (j + 1))).Shows k
      (if k = j then f (j + 1) else f k) := by
  intro k hk
  by_cases heq : k = j
  · rw [if_pos heq, heq]
    exact shows_copied (h (j + 1) (by omega) (Nat.succ_ne_self j))
  · rw [if_neg heq]
    exact shows_setItem_ne heq _ (shows_copyFields_ne heq hk (by omega) (h k hk heq))

theorem inside_turn (hj : j < 11) (hs : s.Inside) :
    ((s.copyFields j).setItem j (s.m_pBuyBack (j + 1))).Inside := by
  intro i hi
  have hcases : i = j ∨ i = j ∨ i = j + 1 ∨ i ∈ s.touched := by
    simpa [setItem, copyFields, setFields, touch] using hi
  rw [MAX_BUYBACK_SLOT]
  rcases hcases with rfl | rfl | rfl | hmem
  · omega
  · omega
  · omega
  · exact hs i hmem

theorem slotRange_cons {a b : Nat} (h : a < b) : slotRange a b = a :: slotRange (a + 1) b := by
  rw [slotRange, show b - a = (b - (a + 1)) + 1 by omega]
  rfl

theorem slotRange_nil {a b : Nat} (h : b ≤ a) : slotRange a b = [] := by
  rw [slotRange, show b - a = 0 by omega]
  rfl

/-- The loop of `AddBuyBackItem`, by induction on how many indices are left. -/
theorem foldl_copied (n : Nat) {f : Nat → Option Sale} (hn : i + n = 11) (hs : s.Inside)
    (h : ∀ k < 12, s.Shows k (f k)) :
    let s' := (slotRange i 11).foldl
      (fun s j => (s.copyFields j).setItem j (s.m_pBuyBack (j + 1))) s
    s'.Inside ∧ ∀ k < 12, s'.Shows k (shifted f i 11 k) := by
  induction n generalizing i s f with
  | zero =>
    rw [slotRange_nil (by omega)]
    refine ⟨hs, fun k hk => ?_⟩
    rw [shifted, if_neg (by omega)]
    exact h k hk
  | succ n ih =>
    have hi : i < 11 := by omega
    rw [slotRange_cons hi, List.foldl_cons]
    have hturn := ih (i := i + 1) (by omega) (inside_turn hi hs) (shows_turn hi fun k hk _ => h k hk)
    rw [shifted_step hi] at hturn
    exact hturn

/-- The whole loop, which starts when index 0 has lost its pointer already. -/
theorem foldl_moved {f : Nat → Option Sale} (hs : s.Inside)
    (h : ∀ k < 12, k ≠ 0 → s.Shows k (f k)) :
    let s' := (slotRange 0 11).foldl
      (fun s j => (s.copyFields j).setItem j (s.m_pBuyBack (j + 1))) s
    s'.Inside ∧ ∀ k < 11, s'.Shows k (f (k + 1)) := by
  rw [slotRange_cons (by decide), List.foldl_cons]
  obtain ⟨hinside, hshows⟩ := foldl_copied (i := 1) 10 rfl (inside_turn (by decide) hs)
    (shows_turn (by decide) h)
  refine ⟨hinside, fun k hk => ?_⟩
  have hk' := hshows k (by omega)
  rw [shifted_step (by decide), shifted, if_pos ⟨Nat.zero_le k, hk⟩] at hk'
  exact hk'

/-- The loop of `RemoveBuyBackItem` on a list that ends before its last
index, by induction on how many of its items are left. -/
theorem removeFrom_spec (n : Nat) {f : Nat → Option Sale} {m : Nat} (hn : i + n = m) (hm : m < 11)
    (hs : s.Inside) (h : ∀ k < 12, s.Shows k (f k)) (hend : f m = none)
    (hsome : ∀ k, i ≤ k → k < m → (f k).isSome) :
    (removeFrom (slotRange i 11) s).Inside ∧
      ∀ k < 12, (removeFrom (slotRange i 11) s).Shows k (shifted f i m k) := by
  induction n generalizing i s f with
  | zero =>
    have hi : i = m := by omega
    subst hi
    have hzero : s.guids i = 0 := by
      rw [(h i (by omega)).guid, hend]
      rfl
    rw [slotRange_cons hm, removeFrom, if_neg (not_not.2 hzero)]
    refine ⟨?_, fun k hk => ?_⟩
    · intro j hj
      rcases List.mem_cons.1 hj with rfl | hmem
      · exact Nat.lt_succ_of_lt hm
      · exact hs j hmem
    · rw [shifted, if_neg (by omega)]
      exact (h k hk).touch _
  | succ n ih =>
    have hi : i < 11 := by omega
    obtain ⟨sale, hsale⟩ := Option.isSome_iff_exists.1 (hsome i (le_refl i) (by omega))
    have hhere : s.Shows i (some sale) := hsale ▸ h i (by omega)
    rw [slotRange_cons hi, removeFrom, if_pos hhere.guid_ne_zero,
      moveDown_eq (h (i + 1) (by omega))]
    have hend' : (if m = i then f (i + 1) else f m) = none := by rw [if_neg (by omega), hend]
    have hsome' : ∀ k, i + 1 ≤ k → k < m → (if k = i then f (i + 1) else f k).isSome := by
      intro k hk hkm
      rw [if_neg (by omega)]
      exact hsome k (by omega) hkm
    have hrest := ih (i := i + 1) (f := fun k => if k = i then f (i + 1) else f k) (by omega)
      (inside_turn hi hs) (shows_turn hi fun k hk _ => h k hk) hend' hsome'
    rw [shifted_step (by omega)] at hrest
    exact hrest

/-- On a longer list the loop runs to its end, and index 12 is read. -/
theorem removeFrom_outside (n : Nat) {f : Nat → Option Sale} (hn : i + n = 11)
    (h : ∀ k < 12, s.Shows k (f k)) (hsome : ∀ k, i ≤ k → k < 11 → (f k).isSome) :
    12 ∈ (removeFrom (slotRange i 11) s).touched := by
  induction n generalizing i s f with
  | zero =>
    rw [slotRange_nil (by omega), removeFrom]
    simp [setItem, copyFields, setFields, touch]
  | succ n ih =>
    have hi : i < 11 := by omega
    obtain ⟨sale, hsale⟩ := Option.isSome_iff_exists.1 (hsome i (le_refl i) hi)
    have hhere : s.Shows i (some sale) := hsale ▸ h i (by omega)
    rw [slotRange_cons hi, removeFrom, if_pos hhere.guid_ne_zero,
      moveDown_eq (h (i + 1) (by omega))]
    refine ih (i := i + 1) (by omega) (shows_turn hi fun k hk _ => h k hk) ?_
    intro k hk hkm
    rw [if_neg (by omega)]
    exact hsome k (by omega) hkm

/-- The loop of `EmptyBuyBack`, by induction on how many indices are left. -/
theorem emptyFrom_spec (n : Nat) (hn : i + n = 12) (hs : s.Inside)
    (h : ∀ k < 12, s.Shows k (if k < i then none else l[k]?)) :
    (emptyFrom (slotRange i 12) s).Inside ∧
      ∀ k < 12, (emptyFrom (slotRange i 12) s).Shows k none := by
  induction n generalizing i s with
  | zero =>
    rw [slotRange_nil (by omega)]
    refine ⟨hs, fun k hk => ?_⟩
    have hk' := h k hk
    rwa [if_pos (by omega)] at hk'
  | succ n ih =>
    have hi : i < 12 := by omega
    have hhere := h i hi
    rw [if_neg (lt_irrefl i)] at hhere
    rw [slotRange_cons hi, emptyFrom]
    cases hitem : l[i]? with
    | none =>
      rw [hitem] at hhere
      rw [if_neg (by rw [hhere.item]; simp)]
      refine ⟨?_, fun k hk => ?_⟩
      · intro j hj
        rcases List.mem_cons.1 hj with rfl | hmem
        · exact hi
        · exact hs j hmem
      · have hk' := h k hk
        have hbehind : (if k < i then none else l[k]?) = none := by
          split
          · rfl
          · have hlen := List.getElem?_eq_none_iff.1 hitem
            exact List.getElem?_eq_none_iff.2 (by omega)
        rw [hbehind] at hk'
        exact hk'.touch _
    | some sale =>
      rw [hitem] at hhere
      rw [if_pos (by rw [hhere.item]; rfl)]
      refine ih (i := i + 1) (by omega) ?_ ?_
      · intro j hj
        have hcases : j = i ∨ j = i ∨ j ∈ s.touched := by
          simpa [setItem, setFields] using hj
        rcases hcases with rfl | rfl | hmem
        · exact hi
        · exact hi
        · exact hs j hmem
      · intro k hk
        by_cases hki : k = i
        · subst hki
          rw [if_pos (Nat.lt_succ_self k), setItem_setFields]
          exact shows_written rfl rfl rfl rfl
        · have hk' := h k hk
          have hsame : (if k < i + 1 then none else l[k]?) = if k < i then none else l[k]? := by
            by_cases hlt : k < i
            · rw [if_pos hlt, if_pos (by omega)]
            · rw [if_neg hlt, if_neg (by omega)]
          rw [hsame]
          exact shows_setFields_ne hki hk hi (shows_setItem_ne hki _ hk')

/-! ## Operations -/

theorem Describes.held (h : s.Describes l) (hk : k < 12) :
    (s.m_pBuyBack k).isSome = true ↔ k < l.length := by
  rw [(h.2 k hk).item, Option.isSome_map]
  simp

theorem emptyBuyBack_spec (h : s.Describes l) (hs : s.Inside) :
    s.emptyBuyBack.Describes [] ∧ s.emptyBuyBack.Inside := by
  obtain ⟨hinside, hshows⟩ := emptyFrom_spec 12 rfl hs fun k hk => by
    rw [if_neg (Nat.not_lt_zero k)]
    exact h.2 k hk
  exact ⟨⟨Nat.zero_le _, hshows⟩, hinside⟩

theorem inside_store (hj : j < 12) (hs : s.Inside) : (s.store j sale).Inside := by
  intro i hi
  have hcases : i = j ∨ i = j ∨ i ∈ s.touched := by
    simpa [store, setItem, setFields] using hi
  rcases hcases with rfl | rfl | hmem
  · exact hj
  · exact hj
  · exact hs i hmem

theorem Inside.touch {js : List Nat} (hs : s.Inside) (hjs : ∀ j ∈ js, j < 12) :
    (s.touch js).Inside := by
  intro i hi
  rcases List.mem_append.1 hi with hmem | hmem
  · exact hjs i hmem
  · exact hs i hmem

/-- The first index that `AddBuyBackItem` may use is the one behind the list. -/
theorem find_free (h : s.Describes l) (hlen : l.length < 12) :
    ((slotRange 0 12).find? fun i => s.guids i % 2 ^ 32 = 0 ∨ s.m_pBuyBack i = none) =
      some l.length := by
  rw [slotRange, List.find?_range'_eq_some]
  refine ⟨?_, by rw [List.mem_range'_1]; omega, ?_⟩
  · have hnone : l[l.length]? = none := List.getElem?_eq_none_iff.2 (le_refl _)
    have hshows := h.2 l.length hlen
    rw [hnone] at hshows
    exact decide_eq_true (.inr hshows.item)
  · intro j _ hj
    have hshows := h.2 j (Nat.lt_trans hj hlen)
    rw [List.getElem?_eq_getElem hj] at hshows
    have hitem : s.m_pBuyBack j = some l[j].item := hshows.item
    simpa [hitem] using hshows.low_ne_zero

theorem addBuyBackItem_spec (h : s.Describes l) (hs : s.Inside) :
    (s.addBuyBackItem sale).Describes (Sales.sell l sale) ∧ (s.addBuyBackItem sale).Inside := by
  have htouch : (s.touch [11]).Inside := hs.touch (by simp)
  have hshows : ∀ k < 12, (s.touch [11]).Shows k l[k]? := fun k hk => (h.2 k hk).touch _
  have hmax : l.length ≤ 12 := h.1
  by_cases hfull : l.length = 12
  · -- the oldest is dropped and the others move down
    have hlast : s.Shows 11 (some l[11]) := by
      rw [← List.getElem?_eq_getElem]
      exact h.2 11 (by decide)
    have hcond : (s.m_pBuyBack 11).isSome ∧ s.guids 11 ≠ 0 :=
      ⟨(h.held (by decide)).2 (by omega), hlast.guid_ne_zero⟩
    have hadd : s.addBuyBackItem sale = ((slotRange 0 11).foldl
        (fun s j => (s.copyFields j).setItem j (s.m_pBuyBack (j + 1)))
        ((s.touch [11]).setItem 0 none)).store 11 sale := by
      simp only [addBuyBackItem]
      rw [if_pos hcond]
    have hzero : ((s.touch [11]).setItem 0 none).Inside := by
      intro i hi
      rcases List.mem_cons.1 hi with rfl | hmem
      · decide
      · exact htouch i hmem
    have hrest := foldl_moved (f := fun k => l[k]?) hzero
      fun k hk hne => shows_setItem_ne hne none (hshows k hk)
    have hsell : Sales.sell l sale = (l ++ [sale]).drop 1 := by
      rw [Sales.sell, List.length_append, hfull]
      rfl
    rw [hadd, hsell]
    refine ⟨⟨?_, ?_⟩, inside_store (by decide) hrest.1⟩
    · rw [List.length_drop, List.length_append, hfull, List.length_singleton]
      decide
    · intro k hk
      rw [List.getElem?_drop]
      by_cases hlast : k = 11
      · subst hlast
        rw [List.getElem?_append_right (by omega), hfull]
        exact shows_store_self
      · have hk' : k < 11 := by
          rw [MAX_BUYBACK_SLOT] at hk
          omega
        have hmoved := hrest.2 k hk'
        rw [Nat.add_comm 1 k, List.getElem?_append_left (by omega)]
        exact shows_store_ne hlast hk (by decide) hmoved
  · have hlen : l.length < 12 := by omega
    have hcond : ¬ ((s.m_pBuyBack 11).isSome ∧ s.guids 11 ≠ 0) := by
      rintro ⟨hitem, -⟩
      have hlast := (h.held (by decide)).1 hitem
      omega
    have hadd : s.addBuyBackItem sale =
        ((s.touch [11]).touch (slotRange 0 (l.length + 1))).store l.length sale := by
      have hfind : ((slotRange 0 12).find? fun i =>
          (s.touch [11]).guids i % 2 ^ 32 = 0 ∨ (s.touch [11]).m_pBuyBack i = none) =
            some l.length := find_free ⟨h.1, hshows⟩ hlen
      simp only [addBuyBackItem]
      rw [if_neg hcond, hfind]
    have hsell : Sales.sell l sale = l ++ [sale] := by
      rw [Sales.sell, List.length_append, List.length_singleton, MAX_BUYBACK_SLOT,
        show l.length + 1 - 12 = 0 by omega, List.drop_zero]
    rw [hadd, hsell]
    refine ⟨⟨?_, ?_⟩, inside_store hlen (htouch.touch ?_)⟩
    · rw [List.length_append, List.length_singleton]
      exact hlen
    · intro k hk
      rcases Nat.lt_trichotomy k l.length with hlt | heq | hgt
      · rw [List.getElem?_append_left hlt]
        exact shows_store_ne (by omega) hk hlen ((hshows k hk).touch _)
      · subst heq
        rw [List.getElem?_append_right (le_refl _), Nat.sub_self]
        exact shows_store_self
      · have hnone : l[k]? = none := List.getElem?_eq_none_iff.2 (by omega)
        have hk' := hshows k hk
        rw [hnone] at hk'
        rw [List.getElem?_eq_none_iff.2 (by simp; omega)]
        exact shows_store_ne (by omega) hk hlen (hk'.touch _)
    · intro j hj
      have hle := (mem_slotRange.1 hj).2
      omega

/-- The list is shorter than eleven, or nothing is taken from it, and
index 12 is not asked for. -/
def Ok (s : BuyBack) : BuyBackOp → Prop
  | .buyBackItem stuff bought =>
    stuff ≠ 12 ∧
      (bought = true → 0 ≤ stuff → stuff < 12 → (s.m_pBuyBack stuff.toNat).isSome = true →
        s.m_pBuyBack 10 = none)
  | _ => True

instance (s : BuyBack) : DecidablePred s.Ok
  | .buyBackItem stuff bought => inferInstanceAs (Decidable (stuff ≠ 12 ∧
      (bought = true → 0 ≤ stuff → stuff < 12 → (s.m_pBuyBack stuff.toNat).isSome = true →
        s.m_pBuyBack 10 = none)))
  | .addBuyBackItem _ => isTrue trivial
  | .emptyBuyBack => isTrue trivial
  | .keyring _ _ => isTrue trivial
  | .kills _ => isTrue trivial

theorem shifted_eraseIdx :
    shifted (fun k => l[k]?) i l.length k = (l.eraseIdx i)[k]? := by
  rw [shifted, List.getElem?_eraseIdx]
  by_cases hk : k < i
  · rw [if_pos hk, if_neg (by omega)]
  · rw [if_neg hk]
    by_cases hlen : k < l.length
    · rw [if_pos ⟨by omega, hlen⟩]
    · rw [if_neg (by omega), List.getElem?_eq_none_iff.2 (by omega),
        List.getElem?_eq_none_iff.2 (by omega)]

/-- A request at an index of the arrays. -/
theorem buyBackItem_eq {stuff : Int} (bought : Bool) (h0 : 0 ≤ stuff) (h12 : stuff ≤ 12) :
    s.buyBackItem stuff bought =
      if (s.m_pBuyBack stuff.toNat).isSome ∧ bought then
        (s.touch [stuff.toNat]).removeBuyBackItem stuff.toNat
      else s.touch [stuff.toNat] := by
  have hget : s.getBuyBack stuff = (s.m_pBuyBack stuff.toNat, s.touch [stuff.toNat]) :=
    if_pos ⟨h0, h12⟩
  unfold buyBackItem
  rw [if_neg (by rw [MAX_BUYBACK_SLOT]; omega), hget]

theorem buyBackItem_out {stuff : Int} (bought : Bool) (h : stuff < 0 ∨ 12 < stuff) :
    s.buyBackItem stuff bought = s := by
  unfold buyBackItem
  by_cases hmax : stuff > (MAX_BUYBACK_SLOT : Int)
  · rw [if_pos hmax]
  · have hget : s.getBuyBack stuff = (none, s) := if_neg (by rw [MAX_BUYBACK_SLOT] at hmax; omega)
    rw [if_neg hmax, hget]
    exact if_neg (by simp)

theorem buyBackItem_spec {stuff : Int} {bought : Bool} (h : s.Describes l) (hs : s.Inside)
    (hok : s.Ok (.buyBackItem stuff bought)) :
    (s.buyBackItem stuff bought).Describes (Sales.step l (.buyBackItem stuff bought)) ∧
      (s.buyBackItem stuff bought).Inside := by
  obtain ⟨hne, hshort⟩ := hok
  have hmax : l.length ≤ 12 := h.1
  by_cases hin : 0 ≤ stuff ∧ stuff < 12
  · obtain ⟨h0, h12⟩ := hin
    have hi : stuff.toNat < 12 := by omega
    have htouch : (s.touch [stuff.toNat]).Inside := hs.touch (by simpa using hi)
    have hshows : ∀ k < 12, (s.touch [stuff.toNat]).Shows k l[k]? :=
      fun k hk => (h.2 k hk).touch _
    rw [buyBackItem_eq bought h0 (by omega), Sales.step]
    by_cases hbuy : (s.m_pBuyBack stuff.toNat).isSome = true ∧ bought = true
    · obtain ⟨hheld, hbought⟩ := hbuy
      have hlt : stuff.toNat < l.length := (h.held hi).1 hheld
      have hten : l.length ≤ 10 := by
        by_contra hlong
        have hheld' := (h.held (by decide : 10 < 12)).2 (by omega)
        rw [hshort hbought h0 h12 hheld] at hheld'
        cases hheld'
      obtain ⟨hinside, hremoved⟩ := removeFrom_spec (l.length - stuff.toNat) (i := stuff.toNat)
        (m := l.length) (by omega) (by omega) htouch hshows
        (List.getElem?_eq_none_iff.2 (le_refl _))
        (fun k _ hk => by simpa using hk)
      rw [if_pos ⟨hheld, hbought⟩, if_pos ⟨h0, hbought⟩]
      refine ⟨⟨?_, fun k hk => ?_⟩, hinside⟩
      · rw [List.length_eraseIdx_of_lt hlt, MAX_BUYBACK_SLOT]
        omega
      · rw [← shifted_eraseIdx]
        exact hremoved k hk
    · rw [if_neg hbuy]
      refine ⟨?_, htouch⟩
      have hsame : (if 0 ≤ stuff ∧ bought = true then l.eraseIdx stuff.toNat else l) = l := by
        split
        · rename_i hcase
          refine List.eraseIdx_of_length_le ?_
          by_contra hlt
          exact hbuy ⟨(h.held hi).2 (by omega), hcase.2⟩
        · rfl
      rw [hsame]
      exact ⟨h.1, hshows⟩
  · rw [buyBackItem_out bought (by omega), Sales.step]
    have hsame : (if 0 ≤ stuff ∧ bought = true then l.eraseIdx stuff.toNat else l) = l := by
      split
      · exact List.eraseIdx_of_length_le (by omega)
      · rfl
    rw [hsame]
    exact ⟨h, hs⟩

theorem buyBackItem_outside {stuff : Int} {bought : Bool} (h : s.Describes l)
    (hok : ¬ s.Ok (.buyBackItem stuff bought)) :
    12 ∈ (s.buyBackItem stuff bought).touched := by
  by_cases hlast : stuff = 12
  · subst hlast
    rw [buyBackItem_eq bought (by decide) (by decide)]
    split
    · rw [removeBuyBackItem, slotRange_nil (by decide), removeFrom]
      simp [setItem, copyFields, setFields, touch]
    · exact List.mem_cons_self
  · simp only [Ok, not_and, Classical.not_imp] at hok
    obtain ⟨hbought, h0, h12, hheld, hten⟩ := hok hlast
    have hlen : 10 < l.length := by
      refine (h.held (by decide)).1 ?_
      rwa [Option.isSome_iff_ne_none]
    rw [buyBackItem_eq bought h0 (by omega), if_pos ⟨hheld, hbought⟩]
    refine removeFrom_outside (11 - stuff.toNat) (i := stuff.toNat) (by omega)
      (fun k hk => (h.2 k hk).touch _) (fun k _ hk => ?_)
    have hk : k < l.length := by omega
    simpa using hk

/-! ## Runs -/

theorem Shows.keyring (h : s.Shows k e) (hk : k < MAX_BUYBACK_SLOT) (slot : Nat) (guid : Guid) :
    (s.step (.keyring slot guid)).Shows k e := by
  have hne : k ≠ MAX_BUYBACK_SLOT + slot := by omega
  refine ⟨h.item, ?_, h.price, h.timestamp⟩
  rw [← h.guid]
  exact Function.update_of_ne hne guid s.guids

theorem Shows.kills (h : s.Shows k e) (hk : k < MAX_BUYBACK_SLOT) (count : UInt32) :
    (s.step (.kills count)).Shows k e := by
  have hprice : k ≠ 2 * MAX_BUYBACK_SLOT := by omega
  have htime : MAX_BUYBACK_SLOT + k ≠ 2 * MAX_BUYBACK_SLOT := by omega
  refine ⟨h.item, h.guid, ?_, ?_⟩
  · rw [← h.price]
    exact Function.update_of_ne hprice count s.words
  · rw [← h.timestamp]
    exact Function.update_of_ne htime count s.words

theorem describes_step (h : s.Describes l) (hs : s.Inside) (op : BuyBackOp) (hok : s.Ok op) :
    (s.step op).Describes (Sales.step l op) ∧ (s.step op).Inside := by
  cases op with
  | addBuyBackItem sale => exact addBuyBackItem_spec h hs
  | buyBackItem stuff bought => exact buyBackItem_spec h hs hok
  | emptyBuyBack => exact emptyBuyBack_spec h hs
  | keyring slot guid => exact ⟨⟨h.1, fun k hk => (h.2 k hk).keyring hk slot guid⟩, hs⟩
  | kills count => exact ⟨⟨h.1, fun k hk => (h.2 k hk).kills hk count⟩, hs⟩

/-- A step stays inside the arrays exactly when it meets the condition. -/
theorem inside_step_iff (h : s.Describes l) (hs : s.Inside) (op : BuyBackOp) :
    (s.step op).Inside ↔ s.Ok op := by
  constructor
  · intro hinside
    by_contra hok
    cases op with
    | buyBackItem stuff bought =>
      exact absurd (hinside 12 (buyBackItem_outside h hok)) (lt_irrefl 12)
    | addBuyBackItem sale => exact hok trivial
    | emptyBuyBack => exact hok trivial
    | keyring slot guid => exact hok trivial
    | kills count => exact hok trivial
  · exact fun hok => (describes_step h hs op hok).2

theorem describes_run {ops : List BuyBackOp} (hrun : Run (Guarded Ok (FunStep step)) s ops s')
    (h : s.Describes l) (hs : s.Inside) :
    s'.Describes (ops.foldl Sales.step l) ∧ s'.Inside := by
  induction hrun generalizing l with
  | nil s => exact ⟨h, hs⟩
  | cons hstep _ ih =>
    obtain ⟨hok, rfl⟩ := hstep
    obtain ⟨hnext, hinside⟩ := describes_step h hs _ hok
    exact ih hnext hinside

/-- From an empty list, a run whose steps all meet the condition ends with
four arrays that describe the list as it is meant to be, and has touched
nothing outside of them; a further step touches nothing outside exactly
when it meets the condition. -/
theorem buy_back_list {ops : List BuyBackOp} (h₀ : s.Describes []) (hs₀ : s.Inside)
    (hrun : Run (Guarded Ok (FunStep step)) s ops s') :
    s'.Describes (ops.foldl Sales.step []) ∧ s'.Inside ∧
      ∀ op, (s'.step op).Inside ↔ s'.Ok op := by
  obtain ⟨hdescribes, hinside⟩ := describes_run hrun h₀ hs₀
  exact ⟨hdescribes, hinside, inside_step_iff hdescribes hinside⟩

/-! ### Eleven items -/

/-- Nothing has been sold. -/
def new : BuyBack := ⟨fun _ => none, fun _ => 0, fun _ => 0, []⟩

theorem describes_new : new.Describes [] :=
  ⟨Nat.zero_le _, fun _ _ => ⟨rfl, rfl, rfl, rfl⟩⟩

theorem inside_new : new.Inside := fun _ h => absurd h List.not_mem_nil

def elevenSold : List BuyBackOp :=
  (List.finRange 11).map fun i =>
    .addBuyBackItem ⟨i.val + 1, 100, 7, by revert i; decide⟩

/-- The player has killed five, sells eleven items and buys the first one back. -/
theorem kills_in_timestamps :
    ¬ ∀ (s s' : BuyBack) (ops : List BuyBackOp), s.Describes [] → s.Inside →
      Run (FunStep step) s ops s' → s'.Describes (ops.foldl Sales.step []) ∧ s'.Inside := by
  intro hall
  have hdescribes := (hall new _ (.kills 5 :: elevenSold ++ [.buyBackItem 0 true])
    describes_new inside_new (Run.foldl step _ _)).1
  have htime := (hdescribes.2 11 (by decide)).timestamp
  revert htime
  decide +kernel

/-- Two items are sold and the first is bought back. -/
theorem buy_back_list_second :
    ∃ s, Run (Guarded Ok (FunStep step)) new
        [.addBuyBackItem ⟨1, 100, 5, by decide⟩, .addBuyBackItem ⟨2, 20, 6, by decide⟩,
          .buyBackItem 0 true] s ∧
      s.Describes [⟨2, 20, 6, by decide⟩] := by
  have hrun : Run (Guarded Ok (FunStep step)) new
      [.addBuyBackItem ⟨1, 100, 5, by decide⟩, .addBuyBackItem ⟨2, 20, 6, by decide⟩,
        .buyBackItem 0 true] _ :=
    .cons ⟨trivial, rfl⟩ (.cons ⟨trivial, rfl⟩
      (.cons ⟨⟨by decide, fun _ _ _ _ => by decide +kernel⟩, rfl⟩ (.nil _)))
  exact ⟨_, hrun, (buy_back_list describes_new inside_new hrun).1⟩

end BuyBack

end HearthStone
