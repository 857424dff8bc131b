/-
HearthStone.Map.MapCell — the cells of a map and the events that unload
them (`MapCell.cpp`, `MapMgr.cpp`).

A cell is activated and deactivated as players come near it and go away.
When it goes idle an event is queued that unloads it after
`map_unload_time`; the cell remembers that in `_unloadpending`.

* The events of the map manager are those that unload a cell. They are
  removed by their type, which `MAKE_CELL_EVENT` makes from the place.
* `unload` is undefined where its assertion fails.
* `_CellActive` looks one cell beyond the last row and column of the map;
  nothing is there.

The objects of a cell are left out, but for the players they count.
-/
import HearthStone.Lib.Run
import Mathlib

namespace HearthStone

/-- `_sizeX` and `_sizeY`. -/
def cellSize : Nat := 64 * 8

/-- `MAKE_CELL_EVENT(x, y)`. -/
def makeCellEvent (x y : Nat) : Nat := x * 1000 + 200 + y

structure MapCell where
  forcedActive : Bool
  active : Bool
  loaded : Bool
  unloadpending : Bool
  playerCount : UInt16
  deriving DecidableEq

def MapCell.hasPlayers (c : MapCell) : Bool := decide (0 < c.playerCount)

/-- `Init` of a new cell. -/
def MapCell.init : MapCell := ⟨false, false, false, false, 0⟩

/-- A call of `MapMgr::UnloadCell` that is to come. -/
structure CellEvent where
  eventType : Nat
  x : Nat
  y : Nat
  deriving DecidableEq

def unloadEvent (x y : Nat) : CellEvent := ⟨makeCellEvent x y, x, y⟩

structure MapMgr where
  cell : Nat → Nat → Option MapCell
  events : List CellEvent

namespace MapMgr

variable (m : MapMgr)

def setCell (x y : Nat) (c : MapCell) : MapMgr :=
  { m with cell := fun i j => if i = x ∧ j = y then some c else m.cell i j }

/-- `Create`: the place must be empty. -/
def create (x y : Nat) : Option MapMgr :=
  if x < cellSize ∧ y < cellSize ∧ m.cell x y = none then some (m.setCell x y .init) else none

/-- The rows, or columns, of the cells around one. -/
def around (x : Nat) : List Nat :=
  let endX := if x + 1 ≤ cellSize then x + 1 else cellSize - 1
  let startX := x - 1
  List.range' startX (endX + 1 - startX)

/-- `_CellActive`. -/
def cellActive (x y : Nat) : Bool :=
  (around x).any fun posX => (around y).any fun posY =>
    (m.cell posX posY).any fun c => c.hasPlayers || c.forcedActive

/-! ## `MapCell` -/

def queueUnloadPending (x y : Nat) (c : MapCell) : MapMgr :=
  if c.unloadpending then m
  else { m.setCell x y { c with unloadpending := true } with
    events := m.events ++ [unloadEvent x y] }

/-- `RemoveEvents` by the type of the cell. -/
def cancelPendingUnload (x y : Nat) (c : MapCell) : MapMgr :=
  if c.unloadpending then
    { m with events := m.events.filter fun e => decide (e.eventType ≠ makeCellEvent x y) }
  else m

/-- `_active = state`. -/
def setActive (x y : Nat) (state : Bool) : MapMgr :=
  match m.cell x y with
  | some c => m.setCell x y { c with active := state }
  | none => m

def setActivity (mapUnloadTime : UInt32) (x y : Nat) (state : Bool) : Option MapMgr :=
  (m.cell x y).map fun c =>
    let m := if !c.active && state then
        if c.unloadpending then m.cancelPendingUnload x y c else m
      else if c.active && !state then
        if mapUnloadTime ≠ 0 ∧ c.unloadpending = false then m.queueUnloadPending x y c else m
      else m
    m.setActive x y state

/-- `Unload`, with `RemoveObjects`. -/
def unload (x y : Nat) : Option MapMgr :=
  (m.cell x y).bind fun c =>
    if c.unloadpending then
      if c.active then some m
      else some (m.setCell x y { c with
        playerCount := 0, loaded := false, unloadpending := false })
    else none

/-! ## `MapMgr` -/

def unloadCell (x y : Nat) : Option MapMgr :=
  match m.cell x y with
  | none => some m
  | some c =>
    if c.hasPlayers || m.cellActive x y || !c.unloadpending then some m else m.unload x y

/-- The time of an event has come. It is run once. -/
def fire (e : CellEvent) : Option MapMgr :=
  if e ∈ m.events then
    (m.unloadCell e.x e.y).map fun m => { m with events := m.events.erase e }
  else none

/-- `LoadObjects`, of a cell that has just been activated. -/
def loadObjects (x y : Nat) : Option MapMgr :=
  (m.cell x y).bind fun c =>
    if c.active then some (m.setCell x y { c with loaded := true }) else none

/-- `AddObject` and `RemoveObject` of a player. -/
def countPlayer (x y : Nat) (arrives : Bool) : Option MapMgr :=
  (m.cell x y).map fun c =>
    m.setCell x y { c with
      playerCount := if arrives then c.playerCount + 1 else c.playerCount - 1 }

def setPermanentActivity (x y : Nat) (val : Bool) : Option MapMgr :=
  (m.cell x y).map fun c => m.setCell x y { c with forcedActive := val }

inductive Action
  | create (x y : Nat)
  | setActivity (x y : Nat) (state : Bool)
  | loadObjects (x y : Nat)
  | fire (e : CellEvent)
  | unload (x y : Nat)
  | countPlayer (x y : Nat) (arrives : Bool)
  | setPermanentActivity (x y : Nat) (val : Bool)

def step (mapUnloadTime : UInt32) : Action → Option MapMgr
  | .create x y => m.create x y
  | .setActivity x y state => m.setActivity mapUnloadTime x y state
  | .loadObjects x y => m.loadObjects x y
  | .fire e => m.fire e
  | .unload x y => m.unload x y
  | .countPlayer x y arrives => m.countPlayer x y arrives
  | .setPermanentActivity x y val => m.setPermanentActivity x y val

end MapMgr

end HearthStone

/-! ## Theorems

When an idle cell is unloaded again.

`CancelPendingUnload` removes the event and leaves `_unloadpending` set,
and an event that finds the cell in use is spent while the flag stays.
From then on nothing is queued for the cell.

* `Tracked` — the flag says whether there is an event.
* `Safe` — the steps that keep it so: no cell is activated while its
  event is pending, and an event finds its cell unused.
* `cells_tracked` — every run of such steps, and that no active cell is
  ever unloaded.
-/

namespace HearthStone

open Lib

namespace MapMgr

variable {m m' : MapMgr} {x y i j : Nat} {c c' : MapCell} {mapUnloadTime : UInt32}

theorem setCell_self : (m.setCell x y c).cell x y = some c := if_pos ⟨rfl, rfl⟩

theorem setCell_of_ne (h : ¬ (i = x ∧ j = y)) : (m.setCell x y c).cell i j = m.cell i j :=
  if_neg h

theorem setCell_setCell : (m.setCell x y c).setCell x y c' = m.setCell x y c' := by
  unfold MapMgr.setCell
  congr 1
  funext i j
  by_cases hij : i = x ∧ j = y
  · simp [hij]
  · simp [hij]

/-- Whatever the events are, `_active` is set in the cell. -/
theorem setActive_eq (state : Bool) (events : List CellEvent) :
    ({ m.setCell x y c with events := events } : MapMgr).setActive x y state =
      { m.setCell x y { c with active := state } with events := events } := by
  have hc : ({ m.setCell x y c with events := events } : MapMgr).cell x y = some c := setCell_self
  unfold setActive
  rw [hc]
  exact congrArg (fun n : MapMgr => { n with events := events }) (setCell_setCell (m := m))

theorem setCell_same (hc : m.cell x y = some c) : m.setCell x y c = m := by
  unfold MapMgr.setCell
  refine congrArg (fun cell => ({ m with cell := cell } : MapMgr)) ?_
  funext i j
  by_cases hij : i = x ∧ j = y
  · rw [if_pos hij, hij.1, hij.2, hc]
  · rw [if_neg hij]

/-- What `SetActivity` leaves of the events of a cell. -/
def eventsAfter (m : MapMgr) (x y : Nat) (c : MapCell) (state : Bool) : List CellEvent :=
  if !c.active && state && c.unloadpending then
    m.events.filter fun e => decide (e.eventType ≠ makeCellEvent x y)
  else if c.active && !state && !c.unloadpending then m.events ++ [unloadEvent x y]
  else m.events

theorem setActivity_eq (hc : m.cell x y = some c) (ht : mapUnloadTime ≠ 0) (state : Bool) :
    m.setActivity mapUnloadTime x y state = some { m.setCell x y { c with
        active := state, unloadpending := c.unloadpending || (c.active && !state) } with
      events := m.eventsAfter x y c state } := by
  have hm : m = { m.setCell x y c with events := m.events } := by
    rw [setCell_same hc]
  have hplain := setActive_eq (m := m) (x := x) (y := y) (c := c) state m.events
  rw [← hm] at hplain
  unfold MapMgr.setActivity eventsAfter
  rw [hc, Option.map_some]
  refine congrArg some ?_
  obtain ⟨forced, active, loaded, pending, players⟩ := c
  cases active with
  | false =>
    cases state with
    | false => simpa using hplain
    | true =>
      cases pending with
      | false => simpa using hplain
      | true =>
        simp only [Bool.not_false, Bool.and_true, if_true, Bool.true_or]
        unfold cancelPendingUnload
        rw [if_pos rfl]
        have hcancel := setActive_eq (m := m) (x := x) (y := y)
          (c := ⟨forced, false, loaded, true, players⟩) true
          (m.events.filter fun e => decide (e.eventType ≠ makeCellEvent x y))
        rw [setCell_same hc] at hcancel
        exact hcancel
  | true =>
    cases state with
    | true => simpa using hplain
    | false =>
      cases pending with
      | false =>
        simp only [Bool.not_true, Bool.not_false, Bool.and_false, Bool.and_true, if_true,
          Bool.false_or, Bool.false_eq_true, if_false, ne_eq, ht, not_false_eq_true, and_self]
        unfold queueUnloadPending
        rw [if_neg Bool.false_ne_true]
        exact setActive_eq false _
      | true => simpa using hplain

/-- What holds of one cell: it is pending when its event is queued, and
an idle cell that is loaded is pending. -/
structure CellOk (m : MapMgr) (x y : Nat) (c : MapCell) : Prop where
  inside : x < cellSize ∧ y < cellSize
  pending : c.unloadpending = true ↔ unloadEvent x y ∈ m.events
  idle : c.unloadpending = true → c.active = false
  loaded : c.loaded = true → c.active = false → c.unloadpending = true

structure Inv (m : MapMgr) : Prop where
  cells : ∀ x y c, m.cell x y = some c → CellOk m x y c
  events : ∀ e ∈ m.events, e = unloadEvent e.x e.y ∧ ∃ c, m.cell e.x e.y = some c
  nodup : m.events.Nodup

/-- One cell changes, and the events of the others stay. -/
theorem Inv.setCell (h : Inv m) (hc : m.cell x y = some c) {events : List CellEvent}
    (hother : ∀ i j, ¬ (i = x ∧ j = y) → (unloadEvent i j ∈ events ↔ unloadEvent i j ∈ m.events))
    (hok : CellOk { m with events := events } x y c')
    (hevents : ∀ e ∈ events, e = unloadEvent x y ∨ e ∈ m.events) (hnodup : events.Nodup) :
    Inv { m.setCell x y c' with events := events } := by
  refine ⟨?_, ?_, hnodup⟩
  · intro i j d hd
    by_cases hij : i = x ∧ j = y
    · obtain ⟨rfl, rfl⟩ := hij
      cases setCell_self.symm.trans hd
      exact ⟨hok.inside, hok.pending, hok.idle, hok.loaded⟩
    · have hold := h.cells i j d ((setCell_of_ne hij).symm.trans hd)
      exact ⟨hold.inside, hold.pending.trans (hother i j hij).symm, hold.idle, hold.loaded⟩
  · intro e he
    have hsome : ∀ i j, (∃ d, m.cell i j = some d) → ∃ d, (m.setCell x y c').cell i j = some d := by
      intro i j hd
      by_cases hij : i = x ∧ j = y
      · obtain ⟨rfl, rfl⟩ := hij
        exact ⟨c', setCell_self⟩
      · rw [setCell_of_ne hij]
        exact hd
    rcases hevents e he with rfl | hold
    · exact ⟨rfl, hsome _ _ ⟨c, hc⟩⟩
    · obtain ⟨heq, hd⟩ := h.events e hold
      exact ⟨heq, hsome _ _ hd⟩

/-- The events stay as they are. -/
theorem Inv.keepEvents (h : Inv m) (hc : m.cell x y = some c)
    (hpending : c'.unloadpending = c.unloadpending)
    (hidle : c'.unloadpending = true → c'.active = false)
    (hloaded : c'.loaded = true → c'.active = false → c'.unloadpending = true) :
    Inv (m.setCell x y c') := by
  have hold := h.cells x y c hc
  have hok : CellOk { m with events := m.events } x y c' :=
    ⟨hold.inside, by rw [hpending]; exact hold.pending, hidle, hloaded⟩
  exact h.setCell hc (fun _ _ _ => Iff.rfl) hok (fun e he => Or.inr he) h.nodup

theorem unloadEvent_ne (h : ¬ (i = x ∧ j = y)) : unloadEvent i j ≠ unloadEvent x y := by
  intro heq
  unfold unloadEvent at heq
  injection heq with _ hx hy
  exact h ⟨hx, hy⟩

/-! ## The steps -/

/-- The condition on a step. -/
def Safe (m : MapMgr) : Action → Prop
  | .setActivity x y state =>
    (m.cell x y).all (fun c => !state || c.active || !c.unloadpending) = true
  | .fire e => (m.cell e.x e.y).all (fun c => !c.hasPlayers && !m.cellActive e.x e.y) = true
  | .unload x y => (m.cell x y).all (·.active) = true
  | _ => True

instance (m : MapMgr) : (a : Action) → Decidable (m.Safe a)
  | .setActivity x y state => inferInstanceAs (Decidable
      ((m.cell x y).all (fun c => !state || c.active || !c.unloadpending) = true))
  | .fire e => inferInstanceAs (Decidable
      ((m.cell e.x e.y).all (fun c => !c.hasPlayers && !m.cellActive e.x e.y) = true))
  | .unload x y => inferInstanceAs (Decidable ((m.cell x y).all (·.active) = true))
  | .create _ _ => .isTrue trivial
  | .loadObjects _ _ => .isTrue trivial
  | .countPlayer _ _ _ => .isTrue trivial
  | .setPermanentActivity _ _ _ => .isTrue trivial

theorem Inv.create (h : Inv m) (hstep : m.create x y = some m') : Inv m' := by
  unfold MapMgr.create at hstep
  split at hstep
  · rename_i hnew
    cases hstep
    have hnone : unloadEvent x y ∉ m.events := by
      intro he
      obtain ⟨-, c, hc⟩ := h.events _ he
      rw [show m.cell (unloadEvent x y).x (unloadEvent x y).y = none from hnew.2.2] at hc
      cases hc
    refine ⟨?_, ?_, h.nodup⟩
    · intro i j d hd
      by_cases hij : i = x ∧ j = y
      · obtain ⟨rfl, rfl⟩ := hij
        cases setCell_self.symm.trans hd
        exact ⟨⟨hnew.1, hnew.2.1⟩, ⟨fun hp => Bool.noConfusion hp, fun he => absurd he hnone⟩,
          fun hp => Bool.noConfusion hp, fun hl => Bool.noConfusion hl⟩
      · have hold := h.cells i j d ((setCell_of_ne hij).symm.trans hd)
        exact ⟨hold.inside, hold.pending, hold.idle, hold.loaded⟩
    · intro e he
      obtain ⟨heq, d, hd⟩ := h.events e he
      refine ⟨heq, d, ?_⟩
      rw [setCell_of_ne, hd]
      rintro ⟨hx, hy⟩
      rw [hx, hy, hnew.2.2] at hd
      cases hd
  · cases hstep

/-- An active cell goes idle: its event is queued. -/
theorem Inv.goIdle (h : Inv m) (hc : m.cell x y = some c) (hactive : c.active = true) :
    Inv { m.setCell x y { c with unloadpending := true, active := false } with
      events := m.events ++ [unloadEvent x y] } := by
  have hold := h.cells x y c hc
  have hnew : unloadEvent x y ∉ m.events := by
    intro he
    rw [hold.idle (hold.pending.2 he)] at hactive
    cases hactive
  refine h.setCell hc ?_ ?_ ?_ ?_
  · intro i j hij
    rw [List.mem_append, List.mem_singleton]
    exact or_iff_left (unloadEvent_ne hij)
  · refine ⟨hold.inside, ?_, fun _ => rfl, fun _ _ => rfl⟩
    exact iff_of_true rfl (List.mem_append_right _ List.mem_cons_self)
  · intro e he
    rcases List.mem_append.1 he with he | he
    · exact Or.inr he
    · exact Or.inl (List.mem_singleton.1 he)
  · refine List.nodup_append.2 ⟨h.nodup, List.nodup_singleton _, ?_⟩
    intro a ha b hb heq
    rw [heq, List.mem_singleton.1 hb] at ha
    exact hnew ha

theorem Inv.setActivity (h : Inv m) (ht : mapUnloadTime ≠ 0) {state : Bool}
    (hsafe : m.Safe (.setActivity x y state))
    (hstep : m.setActivity mapUnloadTime x y state = some m') : Inv m' := by
  obtain ⟨c, hc, -⟩ := Option.map_eq_some_iff.1 hstep
  have hold := h.cells x y c hc
  have hsafe' : (m.cell x y).all (fun c => !state || c.active || !c.unloadpending) = true := hsafe
  rw [hc, Option.all_some] at hsafe'
  rw [setActivity_eq hc ht] at hstep
  cases hstep
  by_cases hidle : c.active = true ∧ state = false
  · -- an active cell goes idle
    obtain ⟨hactive, rfl⟩ := hidle
    have hpending : c.unloadpending = false := by
      refine Bool.eq_false_of_not_eq_true ?_
      intro hp
      rw [hold.idle hp] at hactive
      cases hactive
    have hgo := h.goIdle hc hactive
    unfold eventsAfter
    rw [hactive, hpending]
    exact hgo
  · -- nothing is queued, and nothing is there to be cancelled
    have hevents : m.eventsAfter x y c state = m.events := by
      unfold eventsAfter
      cases hactive : c.active <;> cases hstate : state <;> cases hp : c.unloadpending <;>
        simp_all
    have hpending : (c.unloadpending || (c.active && !state)) = c.unloadpending := by
      cases hactive : c.active <;> cases hstate : state <;> simp_all
    rw [hevents, hpending]
    refine h.keepEvents hc rfl ?_ ?_
    · intro hp
      have hinactive := hold.idle hp
      rw [hp, hinactive] at hsafe'
      simpa using hsafe'
    · intro hl hstate
      refine hold.loaded hl (Bool.eq_false_of_not_eq_true ?_)
      intro hactive
      exact hidle ⟨hactive, hstate⟩

/-- The event is run, and the cell is unloaded. -/
theorem Inv.fire (h : Inv m) {e : CellEvent} (hsafe : m.Safe (.fire e))
    (hstep : m.fire e = some m') : Inv m' := by
  unfold MapMgr.fire at hstep
  split at hstep
  · rename_i he
    obtain ⟨u, hu, rfl⟩ := Option.map_eq_some_iff.1 hstep
    obtain ⟨heq, c, hc⟩ := h.events e he
    have hold := h.cells e.x e.y c hc
    rw [heq] at he
    have hpending := hold.pending.2 he
    have hfree : (m.cell e.x e.y).all (fun c => !c.hasPlayers && !m.cellActive e.x e.y) = true :=
      hsafe
    rw [hc, Option.all_some, Bool.and_eq_true, Bool.not_eq_true', Bool.not_eq_true'] at hfree
    unfold unloadCell at hu
    rw [hc] at hu
    dsimp only at hu
    rw [hfree.1, hfree.2, hpending] at hu
    simp only [Bool.or_false, Bool.not_true, Bool.false_eq_true, if_false] at hu
    unfold MapMgr.unload at hu
    rw [hc, Option.bind_some, if_pos hpending, hold.idle hpending,
      if_neg Bool.false_ne_true] at hu
    cases hu
    have hgone : unloadEvent e.x e.y ∉ m.events.erase e := by
      rw [← heq]
      exact h.nodup.not_mem_erase
    refine h.setCell hc ?_ ?_ ?_ (h.nodup.erase e)
    · intro i j hij
      refine List.mem_erase_of_ne ?_
      rw [heq]
      exact unloadEvent_ne hij
    · exact ⟨hold.inside, ⟨fun hp => Bool.noConfusion hp, fun hin => absurd hin hgone⟩,
        fun hp => Bool.noConfusion hp, fun hl => Bool.noConfusion hl⟩
    · intro d hd
      exact Or.inr (List.mem_of_mem_erase hd)
  · cases hstep

theorem Inv.unload (h : Inv m) (hsafe : m.Safe (.unload x y))
    (hstep : m.unload x y = some m') : Inv m' := by
  obtain ⟨c, hc, hrest⟩ := Option.bind_eq_some_iff.1 hstep
  have hactive : (m.cell x y).all (·.active) = true := hsafe
  rw [hc, Option.all_some] at hactive
  split at hrest
  · cases hrest
    exact h
  · cases hrest

theorem Inv.step (h : Inv m) (ht : mapUnloadTime ≠ 0) {a : Action} (hsafe : m.Safe a)
    (hstep : m.step mapUnloadTime a = some m') : Inv m' := by
  cases a with
  | create x y => exact h.create hstep
  | setActivity x y state => exact h.setActivity ht hsafe hstep
  | loadObjects x y =>
    obtain ⟨c, hc, hrest⟩ := Option.bind_eq_some_iff.1 hstep
    split at hrest
    · rename_i hactive
      cases hrest
      refine h.keepEvents hc rfl (h.cells x y c hc).idle ?_
      intro _ hidle
      rw [show _ = _ from hactive] at hidle
      cases hidle
    · cases hrest
  | fire e => exact h.fire hsafe hstep
  | unload x y => exact h.unload hsafe hstep
  | countPlayer x y arrives | setPermanentActivity x y val =>
    obtain ⟨c, hc, rfl⟩ := Option.map_eq_some_iff.1 hstep
    exact h.keepEvents hc rfl (h.cells x y c hc).idle (h.cells x y c hc).loaded

/-! ## Active cells -/

/-- A loaded cell that is active stays loaded. -/
def SparesActive (m m' : MapMgr) : Prop :=
  ∀ x y c, m.cell x y = some c → c.active = true → c.loaded = true →
    ∃ c', m'.cell x y = some c' ∧ c'.loaded = true

theorem sparesActive_refl (m : MapMgr) : SparesActive m m :=
  fun _ _ c hc _ hloaded => ⟨c, hc, hloaded⟩

/-- One cell changes, and is not unloaded while it is active. -/
theorem sparesActive_setCell (hc : m.cell x y = some c)
    (hloaded : c.active = true → c.loaded = true → c'.loaded = true) {events : List CellEvent} :
    SparesActive m { m.setCell x y c' with events := events } := by
  intro i j d hd hactive hl
  by_cases hij : i = x ∧ j = y
  · obtain ⟨rfl, rfl⟩ := hij
    cases hc.symm.trans hd
    exact ⟨c', setCell_self, hloaded hactive hl⟩
  · exact ⟨d, (setCell_of_ne hij).trans hd, hl⟩

theorem sparesActive_unload (hstep : m.unload x y = some m') : SparesActive m m' := by
  obtain ⟨c, hc, hrest⟩ := Option.bind_eq_some_iff.1 hstep
  split at hrest
  · split at hrest
    · cases hrest
      exact sparesActive_refl m
    · rename_i hidle
      cases hrest
      exact sparesActive_setCell hc fun hactive => absurd hactive hidle
  · cases hrest

theorem sparesActive_step (ht : mapUnloadTime ≠ 0) {a : Action}
    (hstep : m.step mapUnloadTime a = some m') :
    SparesActive m m' := by
  cases a with
  | create x y =>
    unfold MapMgr.step MapMgr.create at hstep
    dsimp only at hstep
    split at hstep
    · rename_i hnew
      cases hstep
      intro i j d hd _ hl
      refine ⟨d, (setCell_of_ne ?_).trans hd, hl⟩
      rintro ⟨rfl, rfl⟩
      rw [hnew.2.2] at hd
      cases hd
    · cases hstep
  | setActivity x y state =>
    obtain ⟨c, hc, -⟩ := Option.map_eq_some_iff.1 hstep
    have hstep' : m.setActivity mapUnloadTime x y state = some m' := hstep
    rw [setActivity_eq hc ht] at hstep'
    cases hstep'
    refine sparesActive_setCell hc ?_
    exact fun _ hl => hl
  | loadObjects x y =>
    obtain ⟨c, hc, hrest⟩ := Option.bind_eq_some_iff.1 hstep
    split at hrest
    · cases hrest
      exact sparesActive_setCell hc fun _ _ => rfl
    · cases hrest
  | fire e =>
    unfold MapMgr.step MapMgr.fire at hstep
    dsimp only at hstep
    split at hstep
    · obtain ⟨u, hu, rfl⟩ := Option.map_eq_some_iff.1 hstep
      have hspare : SparesActive m u := by
        unfold unloadCell at hu
        split at hu
        · cases hu
          exact sparesActive_refl m
        · split at hu
          · cases hu
            exact sparesActive_refl m
          · exact sparesActive_unload hu
      exact hspare
    · cases hstep
  | unload x y => exact sparesActive_unload hstep
  | countPlayer x y arrives | setPermanentActivity x y val =>
    obtain ⟨c, hc, rfl⟩ := Option.map_eq_some_iff.1 hstep
    refine sparesActive_setCell hc ?_
    exact fun _ hl => hl

/-! ## Runs -/

/-- No cell has been created yet. -/
structure Start (m : MapMgr) : Prop where
  cell : ∀ x y, m.cell x y = none
  events : m.events = []

/-- The flag of every cell says whether an event is queued for it, and an
idle cell that is loaded has one. -/
def Tracked (m : MapMgr) : Prop :=
  ∀ x y c, m.cell x y = some c →
    (c.unloadpending = true ↔ ∃ e ∈ m.events, e.x = x ∧ e.y = y) ∧
      (c.loaded = true → c.active = false → ∃ e ∈ m.events, e.x = x ∧ e.y = y)

theorem Inv.tracked (h : Inv m) : Tracked m := by
  intro x y c hc
  have hok := h.cells x y c hc
  have hevent : (∃ e ∈ m.events, e.x = x ∧ e.y = y) ↔ unloadEvent x y ∈ m.events := by
    constructor
    · rintro ⟨e, he, rfl, rfl⟩
      rw [← (h.events e he).1]
      exact he
    · intro he
      exact ⟨_, he, rfl, rfl⟩
  rw [hevent]
  refine ⟨hok.pending, ?_⟩
  intro hl hidle
  exact hok.pending.1 (hok.loaded hl hidle)

/-- Along every run of steps that meet the condition; and no step ever
unloads an active cell. -/
theorem cells_tracked (ht : mapUnloadTime ≠ 0) {as : List Action} (hstart : Start m)
    (hrun : Run (Guarded Safe (PartialStep (step · mapUnloadTime))) m as m') :
    Tracked m' ∧ ∀ (n n' : MapMgr) (a : Action), n.step mapUnloadTime a = some n' →
      SparesActive n n' := by
  refine ⟨Inv.tracked ?_, fun n n' a hstep => sparesActive_step ht hstep⟩
  refine hrun.invariant Inv ?_ ⟨?_, ?_, ?_⟩
  · rintro u a v hinv ⟨hsafe, hstep⟩
    exact hinv.step ht hsafe hstep
  · intro x y c hc
    rw [hstart.cell x y] at hc
    cases hc
  · intro e he
    rw [hstart.events] at he
    cases he
  · rw [hstart.events]
    exact List.nodup_nil

/-- A map without cells. -/
def emptyMap : MapMgr := ⟨fun _ _ => none, []⟩

/-- A player comes to cell (5, 7), leaves it, and it is unloaded. -/
def visited : List Action :=
  [.create 5 7, .countPlayer 5 7 true, .setActivity 5 7 true, .loadObjects 5 7,
    .countPlayer 5 7 false, .setActivity 5 7 false, .fire (unloadEvent 5 7)]

theorem cells_tracked_visited :
    ∃ m, Run (Guarded Safe (PartialStep (step · 60))) emptyMap visited m ∧ Tracked m ∧
      m.cell 5 7 = some .init := by
  have hplay : ((visited.foldlM (fun m a => if Safe m a then step m 60 a else none)
      emptyMap).map fun m => m.cell 5 7) = some (some .init) := by decide +kernel
  obtain ⟨m, hm, hcell⟩ := Option.map_eq_some_iff.1 hplay
  have hrun := Run.of_foldlM hm
  exact ⟨m, hrun, (cells_tracked (by decide) ⟨fun _ _ => rfl, rfl⟩ hrun).1, hcell⟩

/-- The player comes back before the cell is unloaded, and leaves again:
the cell is idle, loaded and marked, and no event is queued. -/
theorem reactivated_cell_stays :
    (([.create 5 7, .setActivity 5 7 true, .loadObjects 5 7, .setActivity 5 7 false,
        .setActivity 5 7 true, .setActivity 5 7 false] : List Action).foldlM (step · 60)
          emptyMap).map (fun m => (m.cell 5 7, m.events)) =
      some (some ⟨false, false, true, true, 0⟩, []) := by
  decide +kernel

end MapMgr

end HearthStone
