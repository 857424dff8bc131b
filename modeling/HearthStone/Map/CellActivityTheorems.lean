/-
HearthStone.Map.CellActivityTheorems — active cells are those near a
player or a forced cell, as long as the windows are right.

A window is wrong in three ways. Near the low border its start wraps,
and no cell is looked at. Near the high border it goes one index too far.
On a move of two cells the cells on the far side of the old cell are in
no window at all.

* `Current` — a cell is active just when an occupied cell is near.
* `updateCell_refreshes` — what one turn of the loops does.
* `Allowed` — the calls that keep away from the three.
* `activity_follows_players` — every run of such calls.
-/
import HearthStone.Lib.Refresh
import HearthStone.Map.CellActivity

namespace HearthStone

open Lib

def OnGrid (p : Nat × Nat) : Prop := p.1 < cellSize ∧ p.2 < cellSize

def Close (i j : Nat) : Prop := i ≤ j + 1 ∧ j ≤ i + 1

/-- `q` is one of the nine cells around `p`, cut off at the borders. -/
def Near (p q : Nat × Nat) : Prop := OnGrid p ∧ OnGrid q ∧ Close p.1 q.1 ∧ Close p.2 q.2

instance (p : Nat × Nat) : Decidable (OnGrid p) := inferInstanceAs (Decidable (_ ∧ _))

instance (i j : Nat) : Decidable (Close i j) := inferInstanceAs (Decidable (_ ∧ _))

instance (p q : Nat × Nat) : Decidable (Near p q) := inferInstanceAs (Decidable (_ ∧ _))

namespace MapMgr

variable {m m' : MapMgr} {x y i j radius : Nat} {c : MapCell} {p q : Nat × Nat}
  {mapUnloadTime : UInt32} {spawns : Nat → Nat → Bool}

/-- What makes a cell occupied: its players, and whether it is forced. -/
def seen (m : MapMgr) (p : Nat × Nat) : UInt16 × Bool :=
  (m.cell p.1 p.2).elim (0, false) fun c => (c.playerCount, c.forcedActive)

def Occupied (s : UInt16 × Bool) : Prop := 0 < s.1 ∨ s.2 = true

def Marked (m : MapMgr) (p : Nat × Nat) : Prop := (m.cell p.1 p.2).any (·.active) = true

/-- The cell is active just when an occupied cell is near. -/
abbrev CellCurrent (m : MapMgr) (p : Nat × Nat) : Prop := Current Near Occupied seen Marked m p

theorem seen_some (hc : m.cell p.1 p.2 = some c) : m.seen p = (c.playerCount, c.forcedActive) := by
  unfold seen
  rw [hc]
  rfl

theorem seen_none (hc : m.cell p.1 p.2 = none) : m.seen p = (0, false) := by
  unfold seen
  rw [hc]
  rfl

theorem marked_some (hc : m.cell p.1 p.2 = some c) : m.Marked p ↔ c.active = true := by
  unfold Marked
  rw [hc]
  rfl

theorem not_marked (hc : m.cell p.1 p.2 = none) : ¬ m.Marked p := by
  unfold Marked
  rw [hc]
  exact Bool.false_ne_true

theorem occupied_iff : (m.cell p.1 p.2).any MapCell.occupied = true ↔ Occupied (m.seen p) := by
  cases hc : m.cell p.1 p.2 with
  | none =>
    rw [seen_none hc]
    simp [Occupied]
  | some c =>
    rw [seen_some hc]
    simp [Occupied, MapCell.occupied, MapCell.hasPlayers]

/-! ## `_CellActive` -/

theorem mem_around (h : x < cellSize) : i ∈ around x ↔ Close x i := by
  have hend : x + 1 ≤ cellSize := h
  unfold around Close
  rw [if_pos hend, List.mem_range'_1]
  omega

theorem scan_eq {ps : List (Nat × Nat)} (h : ∀ p ∈ ps, OnGrid p) :
    m.scan ps = some (ps.any fun p => (m.cell p.1 p.2).any MapCell.occupied) := by
  induction ps with
  | nil => rfl
  | cons p ps ih =>
    have hget : m.getCell p.1 p.2 = some (m.cell p.1 p.2) := if_pos (h p (List.mem_cons_self ..))
    unfold scan
    rw [hget, Option.bind_some, ih fun q hq => h q (List.mem_cons_of_mem _ hq), List.any_cons]
    cases (m.cell p.1 p.2).any MapCell.occupied with
    | true => rfl
    | false => rfl

/-- The cell and the cells after it are on the grid. -/
def Inner (p : Nat × Nat) : Prop := p.1 + 1 < cellSize ∧ p.2 + 1 < cellSize

theorem Inner.onGrid (h : Inner p) : OnGrid p := by
  unfold Inner at h
  unfold OnGrid
  omega

theorem mem_around_prod (h : Inner p) : q ∈ around p.1 ×ˢ around p.2 ↔ Near p q := by
  have hp := h.onGrid
  unfold Inner at h
  rw [List.mem_product, mem_around hp.1, mem_around hp.2]
  unfold Near
  constructor
  · rintro ⟨hx, hy⟩
    refine ⟨hp, ?_, hx, hy⟩
    unfold Close at hx hy
    unfold OnGrid
    omega
  · rintro ⟨-, -, hx, hy⟩
    exact ⟨hx, hy⟩

theorem readCellActive_spec (h : Inner p) : ∃ b, m.readCellActive p.1 p.2 = some b ∧
    (b = true ↔ Nearby Near Occupied m.seen p) := by
  refine ⟨_, scan_eq ?_, ?_⟩
  · intro q hq
    exact ((mem_around_prod h).1 hq).2.1
  · rw [List.any_eq_true]
    constructor
    · rintro ⟨q, hq, hocc⟩
      exact ⟨q, (mem_around_prod h).1 hq, occupied_iff.1 hocc⟩
    · rintro ⟨q, hq, hocc⟩
      exact ⟨q, (mem_around_prod h).2 hq, occupied_iff.2 hocc⟩

/-! ## One cell -/

/-- The cells other than one are what they were. -/
def Others (m m' : MapMgr) (x y : Nat) : Prop :=
  ∀ i j, ¬ (i = x ∧ j = y) → m'.cell i j = m.cell i j

theorem others_refl (m : MapMgr) (x y : Nat) : Others m m x y := fun _ _ _ => rfl

theorem Others.trans {m₁ m₂ m₃ : MapMgr} (h : Others m₁ m₂ x y) (h' : Others m₂ m₃ x y) :
    Others m₁ m₃ x y := fun i j hij => (h' i j hij).trans (h i j hij)

theorem others_setCell : Others m (m.setCell x y c) x y := fun _ _ hij => setCell_of_ne hij

theorem Others.seen_eq (h : Others m m' p.1 p.2) (hq : q ≠ p) : m'.seen q = m.seen q := by
  have hcell := h q.1 q.2 fun heq => hq (Prod.ext heq.1 heq.2)
  unfold seen
  rw [hcell]

theorem Others.marked_iff (h : Others m m' p.1 p.2) (hq : q ≠ p) : m'.Marked q ↔ m.Marked q := by
  have hcell := h q.1 q.2 fun heq => hq (Prod.ext heq.1 heq.2)
  unfold Marked
  rw [hcell]

theorem Others.seen_all (h : Others m m' p.1 p.2) (hp : m'.seen p = m.seen p) :
    m'.seen = m.seen := by
  funext q
  by_cases hq : q = p
  · rw [hq, hp]
  · exact h.seen_eq hq

theorem Others.marked_all (h : Others m m' p.1 p.2) (hp : m'.Marked p ↔ m.Marked p)
    (q : Nat × Nat) : m'.Marked q ↔ m.Marked q := by
  by_cases hq : q = p
  · rw [hq, hp]
  · exact h.marked_iff hq

/-- The activity of the cell is set, and its players and forcing stay. -/
def Activated (m : MapMgr) (c : MapCell) (x y : Nat) (state : Bool) (m' : MapMgr) : Prop :=
  Others m m' x y ∧ ∃ c', m'.cell x y = some c' ∧ c'.active = state ∧
    c'.playerCount = c.playerCount ∧ c'.forcedActive = c.forcedActive

theorem setActive_activated {u : Bool} (m₁ : MapMgr) (hother : Others m m₁ x y)
    (hc : m₁.cell x y = some { c with unloadpending := u }) (state : Bool) :
    Activated m c x y state (m₁.setActive x y state) := by
  unfold setActive
  rw [hc]
  exact ⟨hother.trans others_setCell, _, setCell_self, rfl, rfl, rfl⟩

theorem setActivity_activated (mapUnloadTime : UInt32) (hc : m.cell x y = some c) (state : Bool) :
    ∃ m', m.setActivity mapUnloadTime x y state = some m' ∧ Activated m c x y state m' := by
  have hplain : Activated m c x y state (m.setActive x y state) :=
    setActive_activated (u := c.unloadpending) m (others_refl m x y) hc state
  have hcancel : Activated m c x y state ((m.cancelPendingUnload x y c).setActive x y state) := by
    unfold cancelPendingUnload
    split
    · exact setActive_activated (u := c.unloadpending) { m with
        events := m.events.filter fun e => decide (e.eventType ≠ makeCellEvent x y) }
        (others_refl m x y) hc state
    · exact hplain
  have hqueue : Activated m c x y state ((m.queueUnloadPending x y c).setActive x y state) := by
    unfold queueUnloadPending
    split
    · exact hplain
    · exact setActive_activated (u := true)
        { m.setCell x y { c with unloadpending := true } with
          events := m.events ++ [unloadEvent x y] }
        (others_setCell (m := m)) (setCell_self (m := m)) state
  unfold setActivity
  rw [hc]
  refine ⟨_, rfl, ?_⟩
  dsimp only
  split
  · split
    · exact hcancel
    · exact hplain
  · split
    · split
      · exact hqueue
      · exact hplain
    · exact hplain

theorem cellGoneActive_activated (mapUnloadTime : UInt32) (spawns : Nat → Nat → Bool)
    (hc : m.cell x y = some c) :
    ∃ m', m.cellGoneActive mapUnloadTime spawns x y = some m' ∧ Activated m c x y true m' := by
  obtain ⟨m₁, hset, hother, c₁, hc₁, hact, hcount, hforced⟩ :=
    setActivity_activated mapUnloadTime hc true
  unfold cellGoneActive
  rw [hset, Option.bind_some, hc₁, Option.bind_some]
  split
  · refine ⟨m₁.setCell x y { c₁ with loaded := true }, ?_, hother.trans others_setCell, _,
      setCell_self, hact, hcount, hforced⟩
    unfold loadObjects
    rw [hc₁, Option.bind_some, if_pos hact]
  · exact ⟨m₁, rfl, hother, c₁, hc₁, hact, hcount, hforced⟩

theorem Activated.seen_eq {state : Bool} (h : Activated m c p.1 p.2 state m')
    (hc : m.seen p = (c.playerCount, c.forcedActive)) : m'.seen = m.seen := by
  obtain ⟨hother, c', hc', -, hcount, hforced⟩ := h
  refine hother.seen_all ?_
  rw [seen_some hc', hc, hcount, hforced]

/-- One turn of the loops of `UpdateCellActivity`. -/
theorem updateCell_refreshes (hp : Inner p) :
    Refreshes Near Occupied seen Marked
      (fun m p => m.updateCell mapUnloadTime spawns p.1 p.2) p := by
  intro m
  obtain ⟨b, hread, hb⟩ := readCellActive_spec (m := m) hp
  have hget : m.getCell p.1 p.2 = some (m.cell p.1 p.2) := if_pos hp.onGrid
  -- it is enough that the cell alone changes, keeps what is seen of it, and is active when `b`
  have hdone : ∀ m', Others m m' p.1 p.2 → m'.seen = m.seen → (m'.Marked p ↔ b = true) →
      m'.seen = m.seen ∧ CellCurrent m' p ∧ ∀ q, q ≠ p → (m'.Marked q ↔ m.Marked q) := by
    intro m' hother hseen hmark
    refine ⟨hseen, ?_, fun q hq => hother.marked_iff hq⟩
    unfold CellCurrent Current
    rw [hmark, hseen, hb]
  have hkeep : (m.Marked p ↔ b = true) →
      m.seen = m.seen ∧ CellCurrent m p ∧ ∀ q, q ≠ p → (m.Marked q ↔ m.Marked q) :=
    hdone m (others_refl m _ _) rfl
  unfold updateCell
  dsimp only
  rw [hget, Option.bind_some, hread, Option.bind_some]
  cases hc : m.cell p.1 p.2 with
  | none =>
    by_cases hnear : b = true
    · rw [if_pos hnear]
      have hcreate : m.create p.1 p.2 = some (m.setCell p.1 p.2 .init) :=
        if_pos ⟨hp.onGrid.1, hp.onGrid.2, hc⟩
      obtain ⟨m', hgone, hact⟩ := cellGoneActive_activated (m := m.setCell p.1 p.2 .init)
        mapUnloadTime spawns setCell_self
      have hseen : m'.seen = m.seen := by
        have hinit : (m.setCell p.1 p.2 .init).seen = m.seen := by
          refine Others.seen_all others_setCell ?_
          rw [seen_some setCell_self, seen_none hc]
          rfl
        exact (hact.seen_eq (seen_some setCell_self)).trans hinit
      obtain ⟨hother, c', hc', hactive, -⟩ := hact
      refine ⟨m', ?_, hdone m' (others_setCell.trans hother) hseen ?_⟩
      · rw [hcreate, Option.bind_some, hgone]
      · rw [marked_some hc', hactive, hnear]
    · rw [if_neg hnear]
      exact ⟨m, rfl, hkeep (iff_of_false (not_marked hc) hnear)⟩
  | some c =>
    dsimp only
    split
    · -- near and idle
      rename_i hcond
      rw [Bool.and_eq_true] at hcond
      obtain ⟨m', hgone, hact⟩ := cellGoneActive_activated (m := m) mapUnloadTime spawns hc
      have hseen := hact.seen_eq (seen_some hc)
      obtain ⟨hother, c', hc', hactive, -⟩ := hact
      refine ⟨m', hgone, hdone m' hother hseen ?_⟩
      rw [marked_some hc', hactive, hcond.1]
    · split
      · -- active and not near
        rename_i hcond
        rw [Bool.and_eq_true, Bool.not_eq_true'] at hcond
        obtain ⟨m', hset, hact⟩ := setActivity_activated (m := m) mapUnloadTime hc false
        have hseen := hact.seen_eq (seen_some hc)
        obtain ⟨hother, c', hc', hactive, -⟩ := hact
        refine ⟨m', hset, hdone m' hother hseen ?_⟩
        rw [marked_some hc', hactive, hcond.1]
      · rename_i hidle hactive
        refine ⟨m, rfl, hkeep ?_⟩
        rw [marked_some hc]
        cases hb' : b with
        | true => simpa [hb'] using hidle
        | false => simpa [hb'] using hactive

/-! ## The windows -/

/-- The window around a cell, and the cells that `_CellActive` looks at,
are on the grid. -/
def Interior (radius x y : Nat) : Prop :=
  radius ≤ x ∧ x + radius + 1 < cellSize ∧ radius ≤ y ∧ y + radius + 1 < cellSize

instance (radius x y : Nat) : Decidable (Interior radius x y) :=
  inferInstanceAs (Decidable (_ ∧ _ ∧ _ ∧ _))

theorem mem_window (h : radius ≤ x) (h' : x + radius + 1 < cellSize) :
    i ∈ window x radius ↔ x ≤ i + radius ∧ i ≤ x + radius := by
  have hsize : cellSize = 512 := rfl
  have hstart : windowStart x radius = x - radius := by
    unfold windowStart
    split <;> omega
  have hend : windowEnd x radius = x + radius := by
    unfold windowEnd
    rw [if_pos (by omega)]
    omega
  unfold window
  rw [hstart, hend, List.mem_range'_1]
  omega

theorem Interior.inner (h : Interior radius x y) (hp : p ∈ window x radius ×ˢ window y radius) :
    Inner p := by
  obtain ⟨hx, hx', hy, hy'⟩ := h
  rw [List.mem_product, mem_window hx hx', mem_window hy hy'] at hp
  unfold Inner
  omega

/-- What is near a cell one less than the radius away is in the window. -/
theorem Interior.mem_of_near (h : Interior radius x y) (hnear : Near p q)
    (hqx : q.1 + 1 ≤ x + radius ∧ x + 1 ≤ q.1 + radius)
    (hqy : q.2 + 1 ≤ y + radius ∧ y + 1 ≤ q.2 + radius) :
    p ∈ window x radius ×ˢ window y radius := by
  obtain ⟨hx, hx', hy, hy'⟩ := h
  obtain ⟨-, -, hcx, hcy⟩ := hnear
  unfold Close at hcx hcy
  rw [List.mem_product, mem_window hx hx', mem_window hy hy']
  omega

end MapMgr

/-! ## The players -/

namespace PlayerMap

open MapMgr

variable {s t : PlayerMap} {m m' : MapMgr} {p : PlayerGuid} {x y radius : Nat} {old q : Nat × Nat}
  {pos : Position}

/-- The cells count the players in them. -/
structure Counted (s : PlayerMap) : Prop where
  fibers : Fibers s.objects s.mapCell
  count : ∀ q, (s.mgr.seen q).1.toNat = (s.objects q).card

/-- The cells count their players, the marks are right, and every player
is where the windows are right. -/
structure Inv (s : PlayerMap) : Prop where
  counted : Counted s
  current : ∀ q, CellCurrent s.mgr q
  inside : ∀ p q, s.mapCell p = some q → Interior 2 q.1 q.2

/-- What is seen changed at some cells only, the marks did not, and no
cell was lost. -/
structure Recounted (at' : Nat × Nat → Prop) (m m' : MapMgr) : Prop where
  marked : ∀ q, m'.Marked q ↔ m.Marked q
  seen : ∀ q, ¬ at' q → m'.seen q = m.seen q
  exist : ∀ i j, m.cell i j ≠ none → m'.cell i j ≠ none

theorem Recounted.trans {P Q : Nat × Nat → Prop} {m₁ m₂ m₃ : MapMgr} (h : Recounted P m₁ m₂)
    (h' : Recounted Q m₂ m₃) : Recounted (fun q => P q ∨ Q q) m₁ m₃ := by
  refine ⟨fun q => (h'.marked q).trans (h.marked q), ?_,
    fun i j hij => h'.exist i j (h.exist i j hij)⟩
  intro q hq
  rw [not_or] at hq
  exact (h'.seen q hq.2).trans (h.seen q hq.1)

theorem recounted_setCell {c c' : MapCell} (hc : m.cell x y = some c)
    (hactive : c'.active = c.active) : Recounted (· = (x, y)) m (m.setCell x y c') := by
  have hother : Others m (m.setCell x y c') x y := others_setCell
  refine ⟨fun q => ?_, fun q hq => hother.seen_eq (p := (x, y)) hq, ?_⟩
  · refine hother.marked_all (p := (x, y)) ?_ q
    rw [marked_some (p := (x, y)) setCell_self, marked_some (p := (x, y)) hc, hactive]
  · intro i j hij
    by_cases h : i = x ∧ j = y
    · obtain ⟨rfl, rfl⟩ := h
      rw [setCell_self]
      exact Option.some_ne_none c'
    · rw [setCell_of_ne h]
      exact hij

/-- `GetCell`, and `Create` when there is none. -/
theorem objCell_spec (h : OnGrid (x, y)) : ∃ m', m.objCell x y = some m' ∧
    m'.cell x y ≠ none ∧ m'.seen = m.seen ∧ Recounted (fun _ => False) m m' := by
  have hget : m.getCell x y = some (m.cell x y) := if_pos h
  unfold objCell
  rw [hget, Option.bind_some]
  cases hc : m.cell x y with
  | some c =>
    refine ⟨m, if_pos rfl, ?_, rfl, fun q => Iff.rfl, fun q _ => rfl, fun i j hij => hij⟩
    rw [hc]
    exact Option.some_ne_none c
  | none =>
    have hother : Others m (m.setCell x y .init) x y := others_setCell
    have hseen : (m.setCell x y .init).seen = m.seen := by
      refine hother.seen_all (p := (x, y)) ?_
      rw [seen_some (p := (x, y)) setCell_self, seen_none (p := (x, y)) hc]
      rfl
    refine ⟨m.setCell x y .init, ?_, ?_, hseen, fun q => ?_, fun q _ => congrFun hseen q, ?_⟩
    · rw [if_neg (by simp)]
      exact if_pos ⟨h.1, h.2, hc⟩
    · rw [setCell_self]
      exact Option.some_ne_none _
    · refine hother.marked_all (p := (x, y)) ?_ q
      rw [marked_some (p := (x, y)) setCell_self]
      exact iff_of_false Bool.false_ne_true (not_marked hc)
    · intro i j hij
      by_cases hxy : i = x ∧ j = y
      · obtain ⟨rfl, rfl⟩ := hxy
        exact absurd hc hij
      · rw [setCell_of_ne hxy]
        exact hij

theorem Counted.withMgr (h : Counted s) (hseen : m.seen = s.mgr.seen) : Counted (s.withMgr m) := by
  refine ⟨h.fibers, fun q => ?_⟩
  have hcount := h.count q
  rw [← hseen] at hcount
  exact hcount

/-- Where a player is, there is a cell. -/
theorem Counted.exists_cell (h : Counted s) (hp : s.mapCell p = some old) :
    s.mgr.cell old.1 old.2 ≠ none := by
  intro hnone
  have hmem := (h.fibers old p).2 hp
  have hcount := h.count old
  rw [seen_none hnone] at hcount
  exact Finset.notMem_empty p (Finset.card_eq_zero.1 hcount.symm ▸ hmem)

/-- There is room for one more in the counter of the cell. -/
def Room (s : PlayerMap) (q : Nat × Nat) : Prop := (s.objects q).card + 1 < 2 ^ 16

instance (s : PlayerMap) (q : Nat × Nat) : Decidable (s.Room q) :=
  inferInstanceAs (Decidable (_ < _))

theorem Counted.addObject (h : Counted s) (hp : s.mapCell p = none)
    (hcell : s.mgr.cell x y ≠ none) (hroom : s.Room (x, y)) :
    ∃ t, s.addObject p x y = some t ∧ Counted t ∧ Recounted (· = (x, y)) s.mgr t.mgr ∧
      t.mapCell = Function.update s.mapCell p (some (x, y)) := by
  obtain ⟨c, hc⟩ := Option.ne_none_iff_exists'.1 hcell
  obtain ⟨m₁, hm₁⟩ : ∃ m₁, m₁ = s.mgr.setCell x y { c with playerCount := c.playerCount + 1 } :=
    ⟨_, rfl⟩
  have hre : Recounted (· = (x, y)) s.mgr m₁ := hm₁ ▸ recounted_setCell hc rfl
  have hnew : m₁.seen (x, y) = (c.playerCount + 1, c.forcedActive) := by
    rw [hm₁]
    exact seen_some (p := (x, y)) setCell_self
  refine ⟨⟨m₁, Function.update s.objects (x, y) (insert p (s.objects (x, y))),
    Function.update s.mapCell p (some (x, y))⟩, ?_, ⟨h.fibers.put hp, ?_⟩, hre, rfl⟩
  · unfold PlayerMap.addObject countPlayer
    rw [hc, hm₁]
    rfl
  · intro q
    change (m₁.seen q).1.toNat = (Function.update s.objects (x, y) _ q).card
    by_cases hq : q = (x, y)
    · subst hq
      have hold := h.count (x, y)
      rw [seen_some (p := (x, y)) hc] at hold
      unfold Room at hroom
      rw [Function.update_self, hnew,
        Finset.card_insert_of_notMem (h.fibers.not_mem hp), ← hold, UInt16.toNat_add]
      change c.playerCount.toNat = (s.objects (x, y)).card at hold
      change (c.playerCount.toNat + 1) % 2 ^ 16 = c.playerCount.toNat + 1
      omega
    · rw [Function.update_of_ne hq, ← h.count q]
      exact congrArg (fun v => v.1.toNat) (hre.seen q hq)

theorem Counted.takeObject (h : Counted s) (hp : s.mapCell p = some old) :
    ∃ t, s.takeObject p old.1 old.2 = some t ∧ Counted t ∧ Recounted (· = old) s.mgr t.mgr ∧
      t.mapCell = Function.update s.mapCell p none ∧
      t.objects = Function.update s.objects old ((s.objects old).erase p) := by
  obtain ⟨c, hc⟩ := Option.ne_none_iff_exists'.1 (h.exists_cell hp)
  obtain ⟨m₁, hm₁⟩ : ∃ m₁, m₁ =
      s.mgr.setCell old.1 old.2 { c with playerCount := c.playerCount - 1 } := ⟨_, rfl⟩
  have hre : Recounted (· = old) s.mgr m₁ := hm₁ ▸ recounted_setCell hc rfl
  have hnew : m₁.seen old = (c.playerCount - 1, c.forcedActive) := by
    rw [hm₁]
    exact seen_some setCell_self
  refine ⟨⟨m₁, Function.update s.objects old ((s.objects old).erase p),
    Function.update s.mapCell p none⟩, ?_, ⟨h.fibers.take hp, ?_⟩, hre, rfl, rfl⟩
  · unfold PlayerMap.takeObject countPlayer
    rw [hc, hm₁]
    rfl
  · intro q
    change (m₁.seen q).1.toNat = (Function.update s.objects old _ q).card
    by_cases hq : q = old
    · subst hq
      have hold := h.count q
      have hmem := (h.fibers q p).2 hp
      have hpos := Finset.card_pos.2 ⟨p, hmem⟩
      rw [seen_some hc] at hold
      change c.playerCount.toNat = (s.objects q).card at hold
      rw [Function.update_self, hnew, Finset.card_erase_of_mem hmem, ← hold]
      change (c.playerCount - 1).toNat = c.playerCount.toNat - 1
      rw [UInt16.toNat_sub_of_le]
      · rfl
      · rw [UInt16.le_iff_toNat_le]
        change 1 ≤ c.playerCount.toNat
        omega
    · rw [Function.update_of_ne hq, ← h.count q]
      exact congrArg (fun v => v.1.toNat) (hre.seen q hq)

/-! ## The calls -/

section

variable (mapUnloadTime : UInt32) (spawns : Nat → Nat → Bool)

/-- Loops over places that cover every cell near a change. -/
theorem windows_current {P : Nat × Nat → Prop} (ps : List (Nat × Nat)) {m₀ : MapMgr}
    (hcur : ∀ q, CellCurrent m₀ q) (hre : Recounted P m₀ m) (hps : ∀ q ∈ ps, Inner q)
    (hcover : ∀ q r, Near q r → P r → q ∈ ps) :
    ∃ m', ps.foldlM (fun m q => m.updateCell mapUnloadTime spawns q.1 q.2) m = some m' ∧
      m'.seen = m.seen ∧ ∀ q, CellCurrent m' q := by
  refine refresh_covers hcur hre.marked ?_ fun q hq => updateCell_refreshes (hps q hq)
  intro q hq r hnear
  refine hre.seen r ?_
  intro hr
  exact hq (hcover q r hnear hr)

/-- `UpdateCellActivity` after a change less than the radius away. -/
theorem updateCellActivity_inv {P : Nat × Nat → Prop} {m₀ : MapMgr} (h : Counted s)
    (hcur : ∀ q, CellCurrent m₀ q) (hre : Recounted P m₀ s.mgr) (hin : Interior radius x y)
    (hclose : ∀ q, P q → (q.1 + 1 ≤ x + radius ∧ x + 1 ≤ q.1 + radius) ∧
      (q.2 + 1 ≤ y + radius ∧ y + 1 ≤ q.2 + radius))
    (hinside : ∀ p q, s.mapCell p = some q → Interior 2 q.1 q.2) :
    ∃ t, s.updateCellActivity mapUnloadTime spawns x y radius = some t ∧ Inv t := by
  obtain ⟨m', hfold, hseen, hcurrent⟩ := windows_current mapUnloadTime spawns
    (window x radius ×ˢ window y radius) hcur hre (fun q hq => hin.inner hq)
    (fun q r hnear hr => hin.mem_of_near hnear (hclose r hr).1 (hclose r hr).2)
  refine ⟨s.withMgr m', ?_, h.withMgr hseen, hcurrent, hinside⟩
  unfold PlayerMap.updateCellActivity MapMgr.updateCellActivity
  rw [hfold]
  rfl

theorem inside_update (hinside : ∀ p q, s.mapCell p = some q → Interior 2 q.1 q.2)
    (hin : Interior 2 x y) (p' : PlayerGuid) (q : Nat × Nat)
    (hq : Function.update s.mapCell p (some (x, y)) p' = some q) : Interior 2 q.1 q.2 := by
  by_cases hp : p' = p
  · subst hp
    rw [Function.update_self] at hq
    cases hq
    exact hin
  · rw [Function.update_of_ne hp] at hq
    exact hinside p' q hq

theorem pushInto_inv (h : Inv s) (hp : s.mapCell p = none) (hin : Interior 2 x y)
    (hroom : s.Room (x, y)) : ∃ t, s.pushInto mapUnloadTime spawns p x y = some t ∧ Inv t := by
  have hgrid : OnGrid (x, y) := by
    unfold Interior at hin
    unfold OnGrid
    omega
  obtain ⟨m', hget, hcell, hseen, hre⟩ := objCell_spec (m := s.mgr) hgrid
  obtain ⟨t, hadd, hcounted, hre', hmap⟩ :=
    (h.counted.withMgr hseen).addObject (s := s.withMgr m') hp hcell hroom
  have hclose : ∀ q, False ∨ q = (x, y) → (q.1 + 1 ≤ x + 2 ∧ x + 1 ≤ q.1 + 2) ∧
      (q.2 + 1 ≤ y + 2 ∧ y + 1 ≤ q.2 + 2) := by
    rintro q (hq | rfl)
    · exact hq.elim
    · omega
  have hinside : ∀ p q, t.mapCell p = some q → Interior 2 q.1 q.2 := by
    rw [hmap]
    exact inside_update h.inside hin
  obtain ⟨u, hupdate, hu⟩ := updateCellActivity_inv mapUnloadTime spawns hcounted h.current
    (hre.trans hre') hin hclose hinside
  refine ⟨u, ?_, hu⟩
  unfold pushInto
  rw [hget, Option.bind_some, hadd, Option.bind_some, hupdate]

/-- A move of exactly two cells. -/
def TwoCells (q old : Nat × Nat) : Prop :=
  max ((q.1 : Int) - old.1).natAbs ((q.2 : Int) - old.2).natAbs = 2

instance (q old : Nat × Nat) : Decidable (TwoCells q old) := inferInstanceAs (Decidable (_ = _))

theorem moveCell_inv (h : Inv s) (hp : s.mapCell p = some old) (hcell : s.mgr.cell x y ≠ none)
    (hne : (x, y) ≠ old) (hroom : s.Room (x, y)) (hin : Interior 2 x y)
    (hjump : ¬ TwoCells (x, y) old) :
    ∃ t, s.moveCell mapUnloadTime spawns p old x y = some t ∧ Inv t := by
  obtain ⟨t₁, htake, hcounted₁, hre₁, hmap₁, hobjects⟩ := h.counted.takeObject hp
  have hgone : t₁.mapCell p = none := by
    rw [hmap₁, Function.update_self]
  have hroom₁ : t₁.Room (x, y) := by
    unfold Room
    rw [hobjects, Function.update_of_ne hne]
    exact hroom
  obtain ⟨t₂, hadd, hcounted₂, hre₂, hmap₂⟩ :=
    hcounted₁.addObject hgone (hre₁.exist x y hcell) hroom₁
  have hinside : ∀ p q, t₂.mapCell p = some q → Interior 2 q.1 q.2 := by
    rw [hmap₂, hmap₁, Function.update_idem]
    exact inside_update h.inside hin
  have hold := h.inside p old hp
  unfold moveCell
  rw [htake, Option.bind_some, hadd, Option.bind_some]
  by_cases hfar : ((x : Int) - old.1).natAbs > 2 ∨ ((y : Int) - old.2).natAbs > 2
  · -- both windows are gone over, one after the other
    obtain ⟨m', hfold, hseen, hcurrent⟩ := windows_current mapUnloadTime spawns
      (window x 2 ×ˢ window y 2 ++ window old.1 2 ×ˢ window old.2 2) h.current (hre₁.trans hre₂)
      (by
        intro q hq
        rcases List.mem_append.1 hq with hq | hq
        · exact hin.inner hq
        · exact hold.inner hq)
      (by
        rintro q r hnear (rfl | rfl)
        · exact List.mem_append_right _ (hold.mem_of_near hnear (by omega) (by omega))
        · exact List.mem_append_left _ (hin.mem_of_near hnear (by omega) (by omega)))
    rw [List.foldlM_append, Option.bind_eq_bind, Option.bind_eq_some_iff] at hfold
    obtain ⟨m₁, hfirst, hsecond⟩ := hfold
    refine ⟨t₂.withMgr m', ?_, hcounted₂.withMgr hseen, hcurrent, hinside⟩
    unfold PlayerMap.updateCellActivity MapMgr.updateCellActivity
    rw [hfirst, Option.map_some, Option.bind_some, if_pos hfar]
    change Option.map _ (List.foldlM _ m₁ _) = _
    rw [hsecond]
    rfl
  · have hclose : ∀ q, q = old ∨ q = (x, y) → (q.1 + 1 ≤ x + 2 ∧ x + 1 ≤ q.1 + 2) ∧
        (q.2 + 1 ≤ y + 2 ∧ y + 1 ≤ q.2 + 2) := by
      unfold TwoCells at hjump
      rintro q (rfl | rfl)
      · dsimp only at hjump
        omega
      · omega
    obtain ⟨u, hupdate, hu⟩ := updateCellActivity_inv mapUnloadTime spawns hcounted₂ h.current
      (hre₁.trans hre₂) hin hclose hinside
    refine ⟨u, ?_, hu⟩
    rw [hupdate, Option.bind_some, if_neg hfar]

/-- The cell a position is in may be entered from another one. -/
def Enterable (s : PlayerMap) (q : Nat × Nat) : Prop := Interior 2 q.1 q.2 ∧ s.Room q

instance (s : PlayerMap) (q : Nat × Nat) : Decidable (s.Enterable q) :=
  inferInstanceAs (Decidable (_ ∧ _))

theorem relocate_inv (h : Inv s) (hp : s.mapCell p = some old) (hmap : pos.onMap = true)
    (hok : OnGrid pos.cell → pos.cell ≠ old → s.Enterable pos.cell ∧ ¬ TwoCells pos.cell old) :
    ∃ t, s.relocate mapUnloadTime spawns p old pos = some t ∧ Inv t := by
  unfold relocate
  rw [if_pos hmap]
  by_cases hgrid : OnGrid pos.cell
  · rw [if_pos (show pos.cellX < cellSize ∧ pos.cellY < cellSize from hgrid)]
    obtain ⟨m', hget, hcell, hseen, hre⟩ := objCell_spec (m := s.mgr) (x := pos.cellX)
      (y := pos.cellY) hgrid
    rw [hget, Option.bind_some]
    have hcurrent : ∀ q, CellCurrent m' q := by
      intro q
      have hq := h.current q
      unfold CellCurrent Current at hq ⊢
      rw [hre.marked q, hseen, hq]
    have hinv : Inv (s.withMgr m') := ⟨h.counted.withMgr hseen, hcurrent, h.inside⟩
    by_cases hsame : pos.cell = old
    · rw [if_pos hsame]
      exact ⟨_, rfl, hinv⟩
    · rw [if_neg hsame]
      obtain ⟨⟨hin, hroom⟩, hjump⟩ := hok hgrid hsame
      exact moveCell_inv mapUnloadTime spawns (s := s.withMgr m') hinv hp hcell hsame hroom hin hjump
  · rw [if_neg (show ¬ (pos.cellX < cellSize ∧ pos.cellY < cellSize) from hgrid)]
    exact ⟨s, rfl, h⟩

theorem removeObject_inv (h : Inv s) (hp : s.mapCell p = some old) (hmap : pos.onMap = true)
    (hin : Interior 2 pos.cellX pos.cellY)
    (hclose : Close pos.cellX old.1 ∧ Close pos.cellY old.2) :
    ∃ t, s.removeObject mapUnloadTime spawns p pos = some t ∧ Inv t := by
  obtain ⟨t, htake, hcounted, hre, hmap', -⟩ := h.counted.takeObject hp
  have hinside : ∀ p q, t.mapCell p = some q → Interior 2 q.1 q.2 := by
    intro p' q hq
    rw [hmap'] at hq
    by_cases hp' : p' = p
    · rw [hp', Function.update_self] at hq
      cases hq
    · rw [Function.update_of_ne hp'] at hq
      exact h.inside p' q hq
  unfold Close at hclose
  obtain ⟨u, hupdate, hu⟩ := updateCellActivity_inv mapUnloadTime spawns hcounted h.current
    hre hin (by
      rintro q rfl
      omega) hinside
  refine ⟨u, ?_, hu⟩
  unfold removeObject
  rw [hp, Option.bind_some, htake, Option.bind_some, if_pos hmap, hupdate]

theorem forceCell_inv (h : Inv s) (hcell : s.mgr.cell x y ≠ none) (hin : Interior 1 x y)
    (val : Bool) :
    ∃ t, (s.mgr.forceCell mapUnloadTime spawns x y val).map s.withMgr = some t ∧ Inv t := by
  obtain ⟨c, hc⟩ := Option.ne_none_iff_exists'.1 hcell
  obtain ⟨m₁, hm₁⟩ : ∃ m₁, m₁ = s.mgr.setCell x y { c with forcedActive := val } := ⟨_, rfl⟩
  have hre : Recounted (· = (x, y)) s.mgr m₁ := hm₁ ▸ recounted_setCell hc rfl
  have hcounted : Counted (s.withMgr m₁) := by
    refine ⟨h.counted.fibers, fun q => ?_⟩
    have hcount := h.counted.count q
    by_cases hq : q = (x, y)
    · subst hq
      rw [seen_some (p := (x, y)) hc] at hcount
      have hnew : m₁.seen (x, y) = (c.playerCount, val) := by
        rw [hm₁]
        exact seen_some (p := (x, y)) setCell_self
      exact (congrArg (fun v => v.1.toNat) hnew).trans hcount
    · exact (congrArg (fun v => v.1.toNat) (hre.seen q hq)).trans hcount
  obtain ⟨t, hupdate, ht⟩ := updateCellActivity_inv mapUnloadTime spawns hcounted h.current hre hin
    (by
      rintro q rfl
      omega) h.inside
  refine ⟨t, ?_, ht⟩
  unfold PlayerMap.updateCellActivity at hupdate
  unfold forceCell setPermanentActivity
  rw [hc, Option.map_some, Option.bind_some, ← hm₁]
  exact hupdate

end

/-! ## The runs -/

/-- The position the code goes by: that of the player, or else the one the
player is bound to on this map. -/
def destination (known : Bool) (pos : Position) (bind : Option Position) : Option Position :=
  if known then some pos else bind

/-- The condition on a call: the windows it goes over are right, a move is
not one of two cells, and a removed player has not left the cell far
behind. -/
def Allowed (s : PlayerMap) : Call → Prop
  | .pushObject _ pos bind => pos.insideY = true ∧ pos.onMap = true ∧
      ∀ q ∈ destination (decide (OnGrid pos.cell)) pos bind,
        q.onMap = true ∧ s.Enterable q.cell
  | .changeObjectLocation p pos bind => ∀ old ∈ s.mapCell p,
      ∀ q ∈ destination (pos.insideX && pos.insideY) pos bind, q.onMap = true ∧
        (OnGrid q.cell → q.cell ≠ old → s.Enterable q.cell ∧ ¬ TwoCells q.cell old)
  | .removeObject p pos => ∀ old ∈ s.mapCell p, pos.onMap = true ∧
      Interior 2 pos.cellX pos.cellY ∧ Close pos.cellX old.1 ∧ Close pos.cellY old.2
  | .forceCell x y _ => Interior 1 x y

instance (s : PlayerMap) : (a : Call) → Decidable (s.Callable a)
  | .pushObject p _ _ => inferInstanceAs (Decidable (s.mapCell p = none))
  | .changeObjectLocation _ _ _ => .isTrue trivial
  | .removeObject p _ => inferInstanceAs (Decidable (s.mapCell p ≠ none))
  | .forceCell x y _ => inferInstanceAs (Decidable (s.mgr.cell x y ≠ none))

instance (s : PlayerMap) : (a : Call) → Decidable (s.Allowed a)
  | .pushObject _ pos bind => inferInstanceAs (Decidable (pos.insideY = true ∧ pos.onMap = true ∧
      ∀ q ∈ destination (decide (OnGrid pos.cell)) pos bind, q.onMap = true ∧ s.Enterable q.cell))
  | .changeObjectLocation p pos bind => inferInstanceAs (Decidable (∀ old ∈ s.mapCell p,
      ∀ q ∈ destination (pos.insideX && pos.insideY) pos bind, q.onMap = true ∧
        (OnGrid q.cell → q.cell ≠ old → s.Enterable q.cell ∧ ¬ TwoCells q.cell old)))
  | .removeObject p pos => inferInstanceAs (Decidable (∀ old ∈ s.mapCell p, pos.onMap = true ∧
      Interior 2 pos.cellX pos.cellY ∧ Close pos.cellX old.1 ∧ Close pos.cellY old.2))
  | .forceCell x y _ => inferInstanceAs (Decidable (Interior 1 x y))

section

variable (mapUnloadTime : UInt32) (spawns : Nat → Nat → Bool)

theorem step_inv (h : Inv s) (a : Call) (hcall : s.Callable a) (hok : s.Allowed a) :
    ∃ t, s.step mapUnloadTime spawns a = some t ∧ Inv t := by
  cases a with
  | pushObject p pos bind =>
    obtain ⟨hy, hmap, hdest⟩ := hok
    change ∃ t, s.pushObject mapUnloadTime spawns p pos bind = some t ∧ Inv t
    unfold pushObject destination at *
    rw [hy, hmap, Bool.and_self, if_pos rfl]
    by_cases hgrid : OnGrid pos.cell
    · rw [if_pos (show pos.cellX < cellSize ∧ pos.cellY < cellSize from hgrid)]
      rw [decide_eq_true hgrid, if_pos rfl] at hdest
      obtain ⟨-, hin, hroom⟩ := hdest pos rfl
      exact pushInto_inv mapUnloadTime spawns h hcall hin hroom
    · rw [if_neg (show ¬ (pos.cellX < cellSize ∧ pos.cellY < cellSize) from hgrid)]
      rw [decide_eq_false hgrid, if_neg Bool.false_ne_true] at hdest
      cases bind with
      | none => exact ⟨s, rfl, h⟩
      | some home =>
        obtain ⟨hhome, hin, hroom⟩ := hdest home rfl
        dsimp only
        rw [if_pos hhome]
        exact pushInto_inv mapUnloadTime spawns h hcall hin hroom
  | changeObjectLocation p pos bind =>
    change ∃ t, s.changeObjectLocation mapUnloadTime spawns p pos bind = some t ∧ Inv t
    unfold changeObjectLocation
    cases hp : s.mapCell p with
    | none => exact ⟨s, rfl, h⟩
    | some old =>
      have hdest := hok old hp
      unfold destination at hdest
      dsimp only
      split
      · rename_i hinside
        rw [if_pos hinside] at hdest
        exact relocate_inv mapUnloadTime spawns h hp (hdest pos rfl).1 (hdest pos rfl).2
      · rename_i hinside
        rw [if_neg hinside] at hdest
        cases bind with
        | none => exact ⟨s, rfl, h⟩
        | some home =>
          exact relocate_inv mapUnloadTime spawns h hp (hdest home rfl).1 (hdest home rfl).2
  | removeObject p pos =>
    obtain ⟨old, hp⟩ := Option.ne_none_iff_exists'.1 hcall
    obtain ⟨hmap, hin, hclose⟩ := hok old hp
    exact removeObject_inv mapUnloadTime spawns h hp hmap hin hclose
  | forceCell x y val => exact forceCell_inv mapUnloadTime spawns h hcall hok val

theorem start_inv : Inv start := by
  have hseen : ∀ q, start.mgr.seen q = (0, false) := fun q => seen_none rfl
  refine ⟨⟨fun q p => by simp [start], ?_⟩, ?_, ?_⟩
  · intro q
    rw [hseen q]
    rfl
  · intro q
    refine iff_of_false (not_marked rfl) ?_
    rintro ⟨r, -, hocc⟩
    rw [hseen r] at hocc
    simp [Occupied] at hocc
  · intro p q hq
    cases hq

/-- The calls the callers may make, as steps. -/
def Called (s : PlayerMap) (a : Call) (t : PlayerMap) : Prop :=
  s.Callable a ∧ s.step mapUnloadTime spawns a = some t

theorem run_inv {as : List Call} (hrun : Run (Guarded Allowed (Called mapUnloadTime spawns)) start as s) :
    Inv s := by
  refine hrun.invariant Inv ?_ start_inv
  rintro u a t hu ⟨hok, hcall, hstep⟩
  obtain ⟨t', hstep', ht⟩ := step_inv mapUnloadTime spawns hu a hcall hok
  rw [hstep'] at hstep
  cases hstep
  exact ht

end

/-- Players are in the cell, or it is forced to be active. -/
def HasPlayerOrForced (s : PlayerMap) (q : Nat × Nat) : Prop :=
  (∃ p, s.mapCell p = some q) ∨ (s.mgr.cell q.1 q.2).any (·.forcedActive) = true

theorem Counted.occupied_iff (h : Counted s) : Occupied (s.mgr.seen q) ↔ s.HasPlayerOrForced q := by
  have hcount := h.count q
  have hplayers : 0 < (s.mgr.seen q).1 ↔ ∃ p, s.mapCell p = some q := by
    rw [UInt16.lt_iff_toNat_lt, hcount]
    change 0 < (s.objects q).card ↔ _
    rw [Finset.card_pos]
    constructor
    · rintro ⟨p, hp⟩
      exact ⟨p, (h.fibers q p).1 hp⟩
    · rintro ⟨p, hp⟩
      exact ⟨p, (h.fibers q p).2 hp⟩
  have hforced : (s.mgr.seen q).2 = true ↔ (s.mgr.cell q.1 q.2).any (·.forcedActive) = true := by
    cases hc : s.mgr.cell q.1 q.2 with
    | none =>
      rw [seen_none hc]
      rfl
    | some c =>
      rw [seen_some hc]
      rfl
  unfold Occupied HasPlayerOrForced
  rw [hplayers, hforced]

/-- In every run of such calls a cell is active just when a player or a
forced cell is near it, every cell that should be active exists, and every
such call is defined: no index outside the grid is used. -/
theorem activity_follows_players (mapUnloadTime : UInt32) (spawns : Nat → Nat → Bool)
    (as : List Call) (s : PlayerMap)
    (hrun : Run (Guarded Allowed (Called mapUnloadTime spawns)) start as s) :
    (∀ q c, s.mgr.cell q.1 q.2 = some c →
      (c.active = true ↔ ∃ r, Near q r ∧ s.HasPlayerOrForced r)) ∧
    (∀ q r, Near q r → s.HasPlayerOrForced r → ∃ c, s.mgr.cell q.1 q.2 = some c) ∧
    ∀ a, s.Callable a → s.Allowed a → ∃ t, s.step mapUnloadTime spawns a = some t := by
  have hinv := run_inv mapUnloadTime spawns hrun
  have hmark : ∀ q, s.mgr.Marked q ↔ ∃ r, Near q r ∧ s.HasPlayerOrForced r := by
    intro q
    refine (hinv.current q).trans (exists_congr fun r => and_congr_right fun _ => ?_)
    exact hinv.counted.occupied_iff
  refine ⟨?_, ?_, ?_⟩
  · intro q c hc
    rw [← hmark q, marked_some hc]
  · intro q r hnear hr
    by_contra hno
    have hnone : s.mgr.cell q.1 q.2 = none := by
      rw [Option.eq_none_iff_forall_ne_some]
      exact fun c hc => hno ⟨c, hc⟩
    exact not_marked hnone ((hmark q).2 ⟨r, hnear, hr⟩)
  · intro a hcall hok
    exact (step_inv mapUnloadTime spawns hinv a hcall hok).imp fun t ht => ht.1

/-- A position well within the map. -/
def inCell (x y : Nat) : Position := ⟨x, y, true, true, true⟩

/-- A player comes, moves by three cells and by one, a cell is forced and
freed again, and the player goes. -/
def visit : List Call :=
  [.pushObject ⟨41, by decide⟩ (inCell 10 10) none,
    .changeObjectLocation ⟨41, by decide⟩ (inCell 13 10) none,
    .changeObjectLocation ⟨41, by decide⟩ (inCell 14 11) none,
    .forceCell 14 11 true, .forceCell 14 11 false,
    .removeObject ⟨41, by decide⟩ (inCell 14 12)]

theorem activity_follows_players_visit : ∃ s,
    Run (Guarded Allowed (Called 0 fun _ _ => true)) start visit s ∧
    (∀ q c, s.mgr.cell q.1 q.2 = some c →
      (c.active = true ↔ ∃ r, Near q r ∧ s.HasPlayerOrForced r)) ∧
    (∀ q r, Near q r → s.HasPlayerOrForced r → ∃ c, s.mgr.cell q.1 q.2 = some c) ∧
    ∀ a, s.Callable a → s.Allowed a → ∃ t, s.step 0 (fun _ _ => true) a = some t := by
  have hsome : (visit.foldlM (fun s a => if s.Allowed a ∧ s.Callable a then
      s.step 0 (fun _ _ => true) a else none) start).isSome = true := by
    decide +kernel
  obtain ⟨s, hs⟩ := Option.isSome_iff_exists.1 hsome
  have hrun : Run (Guarded Allowed (Called 0 fun _ _ => true)) start visit s := by
    have hguarded : Run (Guarded (fun s a => Allowed s a ∧ Callable s a)
        (PartialStep fun s a => s.step 0 (fun _ _ => true) a)) start visit s := Run.of_foldlM hs
    refine hguarded.mono ?_
    rintro s a t ⟨⟨hok, hcall⟩, hstep⟩
    exact ⟨hok, hcall, hstep⟩
  exact ⟨s, hrun, activity_follows_players 0 (fun _ _ => true) visit s hrun⟩

/-- The cells that a move of two leaves behind stay active with nobody
near; in the corner nothing is activated; and near the high border an
index of the grid is exceeded. -/
theorem windows_wrong :
    (((start.step 0 (fun _ _ => false) (.pushObject ⟨41, by decide⟩ (inCell 10 10) none)).bind
      fun s => s.step 0 (fun _ _ => false) (.changeObjectLocation ⟨41, by decide⟩ (inCell 12 10) none)).any
        fun s => (s.mgr.cell 9 10).any (·.active) && !s.mgr.cellActive 9 10) = true ∧
    ((start.step 0 (fun _ _ => false) (.pushObject ⟨41, by decide⟩ (inCell 0 0) none)).any
      fun s => (s.mgr.cell 0 0).any (fun c => c.hasPlayers && !c.active) &&
        decide (s.mgr.cell 1 1 = none)) = true ∧
    (start.step 0 (fun _ _ => false)
      (.pushObject ⟨41, by decide⟩ (inCell 510 10) none)).isNone = true := by
  decide +kernel

end PlayerMap

end HearthStone
