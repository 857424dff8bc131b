/-
HearthStone.Event.Scheduling — when an event is run by one list entry
only.

`events_scheduled` is about every run of steps that are `Safe`: `Clear`,
and bringing no event to the world's holder that is not to be run there.
Without the condition an event can be on a list twice (its object comes
back before the stale entry is gone, or has no holder of its own and is
transferred to the world's again and again), or be lost (it carries the
id of an instance without a holder on the world's list); see
`event_processed_twice`.
-/
import HearthStone.Event.Relocation
import HearthStone.Lib.Run

namespace HearthStone

open Lib

namespace EventWorld

open EventableObjectHolder

variable {s : EventWorld} {h : Int32} {H H' : EventableObjectHolder} {o e : Nat}

/-! ## Events the world's holder may not run -/

/-- The step brings no event to the world's holder that is not to be run
there. -/
def Unbarring (s : EventWorld) : Action → Prop
  | .addEvent o _ _ _ flags id _ =>
    (s.object o).holder.getD (s.newHolderOf id) ≠ worldInstance ∨
      flags &&& flagDoNotExecuteInWorldContext = 0
  | .relocate o id _ =>
    s.getEventHolder id = (s.object o).holder ∨ s.newHolderOf id ≠ worldInstance ∨
      ∀ e ∈ (s.object o).events, (s.event e).hasFlag flagDoNotExecuteInWorldContext = false
  | _ => True

instance (s : EventWorld) : (a : Action) → Decidable (s.Unbarring a)
  | .addEvent o _ _ _ flags id _ => inferInstanceAs (Decidable
      ((s.object o).holder.getD (s.newHolderOf id) ≠ worldInstance ∨
        flags &&& flagDoNotExecuteInWorldContext = 0))
  | .relocate o id _ => inferInstanceAs (Decidable (s.getEventHolder id = (s.object o).holder ∨
      s.newHolderOf id ≠ worldInstance ∨
      ∀ e ∈ (s.object o).events, (s.event e).hasFlag flagDoNotExecuteInWorldContext = false))
  | .removeEvents _ _ => .isTrue trivial
  | .beginUpdate _ _ => .isTrue trivial
  | .visit _ => .isTrue trivial
  | .returned _ => .isTrue trivial
  | .endUpdate _ => .isTrue trivial
  | .newHolder _ => .isTrue trivial

/-- Every event may be run where its object is. -/
def Unbarred (s : EventWorld) : Prop :=
  ∀ o, ∀ e ∈ (s.object o).events, ∀ h, (s.object o).holder = some h →
    (s.event e).barredFrom h = false

theorem not_barred_of {ev : TimedEvent}
    (hflag : h ≠ worldInstance ∨ ev.hasFlag flagDoNotExecuteInWorldContext = false) :
    ev.barredFrom h = false := by
  unfold TimedEvent.barredFrom
  rcases hflag with hne | hflag
  · rw [decide_eq_false hne, Bool.false_and]
  · rw [hflag, Bool.and_false]

/-- The objects keep their places, and the events their flags. -/
theorem Unbarred.mono (hs : Unbarred s) {s' : EventWorld}
    (hobject : ∀ o, (s'.object o).holder = (s.object o).holder ∧
      (s'.object o).events ⊆ (s.object o).events)
    (hflag : ∀ e, (s'.event e).eventFlag = (s.event e).eventFlag) : Unbarred s' := by
  intro o e he h hh
  obtain ⟨hholder, hevents⟩ := hobject o
  rw [hholder] at hh
  have hold := hs o e (hevents he) h hh
  unfold TimedEvent.barredFrom TimedEvent.hasFlag at hold ⊢
  rw [hflag e]
  exact hold

theorem update_eventFlag {ev : TimedEvent} (hflag : ev.eventFlag = (s.event e).eventFlag)
    (x : Nat) : (Function.update s.event e ev x).eventFlag = (s.event x).eventFlag := by
  by_cases hx : x = e
  · subst hx
    rw [Function.update_self]
    exact hflag
  · rw [Function.update_of_ne hx]

theorem Unbarred.visit (hs : Unbarred s) {s' : EventWorld} (hstep : s.visit h = some s') :
    Unbarred s' := by
  obtain ⟨H, hH, hrest⟩ := Option.bind_eq_some_iff.1 hstep
  split at hrest
  · dsimp only at hrest
    split at hrest
    · cases hrest
      exact hs
    · split at hrest
      · cases hrest
        exact hs.mono (fun o => ⟨rfl, List.Subset.refl _⟩) (update_eventFlag rfl)
      · cases hrest
        exact hs.mono (fun o => ⟨rfl, List.Subset.refl _⟩) (update_eventFlag rfl)
  · cases hrest

theorem Unbarred.returned (hs : Unbarred s) {s' : EventWorld} (hstep : s.returned h = some s') :
    Unbarred s' := by
  obtain ⟨H, hH, hrest⟩ := Option.bind_eq_some_iff.1 hstep
  split at hrest
  · rename_i dt e hupdate hrunning
    dsimp only at hrest
    generalize (if (s.event e).repeats = 0 then 0 else (s.event e).repeats - 1) = repeats at hrest
    split at hrest
    · cases hrest
      exact hs
    · split at hrest
      · cases hrest
        exact hs.mono (fun o => ⟨rfl, List.Subset.refl _⟩) (update_eventFlag rfl)
      · split at hrest
        · cases hrest
          exact hs.mono (fun o => ⟨rfl, List.Subset.refl _⟩) (update_eventFlag rfl)
        · cases hrest
          exact hs.mono (fun o => ⟨rfl, List.Subset.refl _⟩) (update_eventFlag rfl)
  · cases hrest

theorem relocate_eventFlag (o : Nat) (id : Int32) (locked : Bool) (e : Nat) :
    ((s.relocate o id locked).event e).eventFlag = (s.event e).eventFlag := by
  unfold EventWorld.relocate
  split
  · rfl
  · unfold addObject setObject
    dsimp only
    split <;> rfl

theorem Unbarred.relocate (hs : Unbarred s) {id : Int32} {locked : Bool}
    (hbar : s.Unbarring (.relocate o id locked)) : Unbarred (s.relocate o id locked) := by
  intro o' e he i hi
  have hflag := relocate_eventFlag (s := s) o id locked e
  have hgoal : (s.event e).barredFrom i = false := by
    unfold EventWorld.relocate at he hi
    split at he
    · rename_i hsame
      rw [if_pos hsame] at hi
      exact hs o' e he i hi
    · rename_i hne
      rw [if_neg hne] at hi
      unfold setObject at he hi
      dsimp only at he hi
      by_cases ho : o' = o
      · subst ho
        rw [Function.update_self] at he hi
        cases hi
        exact not_barred_of ((hbar.resolve_left hne).imp (fun hh => hh) fun hall => hall e he)
      · rw [Function.update_of_ne ho] at he hi
        exact hs o' e he i hi
  unfold TimedEvent.barredFrom TimedEvent.hasFlag at hgoal ⊢
  rw [hflag]
  exact hgoal

theorem Unbarred.addEvent (hs : Unbarred s) (hinv : Inv s) {eventType time : UInt32}
    {repeats flags : UInt16} {id : Int32} {locked : Bool}
    (hclear : s.Clear (.addEvent o eventType time repeats flags id locked))
    (hbar : s.Unbarring (.addEvent o eventType time repeats flags id locked)) :
    Unbarred (s.addEvent o eventType time repeats flags id locked) := by
  obtain ⟨h, H, ev, hH, hold, hholder, hlive, hobj, hflag, hplace, heq⟩ :=
    addEvent_eq hinv.linked hclear
  have hnew : ev.barredFrom h = false := by
    refine not_barred_of ?_
    unfold TimedEvent.hasFlag
    rw [hflag, hholder]
    exact hbar.imp (fun hh => hh) fun hzero => decide_eq_false (not_not_intro hzero)
  have hevent : ∀ o', ∀ e ∈ (s.object o').events,
      Function.update s.event s.nextEvent ev e = s.event e := by
    intro o' e he
    exact Function.update_of_ne (Nat.ne_of_lt (hinv.linked.fresh o' e he)) _ _
  rw [heq]
  intro o' e he i hi
  dsimp only at he hi ⊢
  by_cases ho : o' = o
  · subst ho
    rw [Function.update_self] at he hi
    cases hi
    have hperm := insertEvent_perm (Function.update s.event s.nextEvent ev) (s.object o').events
      s.nextEvent
    rcases List.mem_cons.1 (hperm.mem_iff.1 he) with rfl | he
    · rw [Function.update_self]
      exact hnew
    · rw [hevent o' e he]
      rcases hold with hsome | hnone
      · exact hs o' e he h hsome
      · rw [hnone] at he
        cases he
  · rw [Function.update_of_ne ho] at he hi
    rw [hevent o' e he]
    exact hs o' e he i hi

theorem Unbarred.step (hs : Unbarred s) (hinv : Inv s) {a : Action} {s' : EventWorld}
    (hclear : s.Clear a) (hbar : s.Unbarring a) (hstep : s.step a = some s') : Unbarred s' := by
  cases a with
  | addEvent o eventType time repeats flags id locked =>
    cases hstep
    exact hs.addEvent hinv hclear hbar
  | removeEvents o eventType =>
    cases hstep
    refine hs.mono ?_ ?_
    · intro o'
      unfold EventWorld.removeEvents
      dsimp only
      by_cases ho : o' = o
      · subst ho
        rw [Function.update_self]
        exact ⟨rfl, fun e he => (List.mem_filter.1 he).1⟩
      · rw [Function.update_of_ne ho]
        exact ⟨rfl, List.Subset.refl _⟩
    · intro e
      unfold EventWorld.removeEvents
      dsimp only
      split <;> rfl
  | relocate o id locked =>
    cases hstep
    exact hs.relocate hbar
  | beginUpdate h dt | endUpdate h =>
    obtain ⟨H, hH, hrest⟩ := Option.bind_eq_some_iff.1 hstep
    split at hrest
    · cases hrest
      exact hs
    · cases hrest
  | visit h => exact hs.visit hstep
  | returned h => exact hs.returned hstep
  | newHolder id =>
    cases hstep
    unfold EventWorld.newHolder
    split
    · exact hs
    · exact hs

/-! ## Runs -/

/-- No object has an event yet, and the world has its holder. -/
structure Start (s : EventWorld) : Prop where
  object : ∀ o, s.object o = { holder := none, instanceid := worldInstance, events := [] }
  world : (s.holder worldInstance).isSome
  holder : ∀ h H, s.holder h = some H → H = .empty
  log : s.log = []

theorem Start.inv (hs : Start s) : Inv s := by
  refine ⟨⟨hs.world, ?_, ?_, ?_, ?_, ?_, ?_⟩, ?_, ?_, ?_, ?_⟩
  · intro o e he
    rw [hs.object o] at he
    cases he
  · intro o
    rw [hs.object o]
    exact List.nodup_nil
  · intro o e he
    rw [hs.object o] at he
    cases he
  · intro o _
    rw [hs.object o]
  · intro o h hh
    rw [hs.object o] at hh
    cases hh
  · intro o e he
    rw [hs.object o] at he
    cases he
  · intro h H hH
    rw [hs.holder h H hH]
    exact holderOk_empty
  · intro h H hH e he
    rw [hs.holder h H hH] at he
    cases he
  · intro e he
    rw [hs.log] at he
    cases he
  · rw [hs.log]
    exact upheld_nil

/-- Every live event is run by one entry, and no other is run. -/
structure Scheduled (s : EventWorld) : Prop where
  /-- No update has processed an event twice. -/
  once : ∀ h H, s.holder h = some H → (H.processed.map (·.event)).Nodup
  /-- Where no callback was run, the time left is less by the difference. -/
  exact : ∀ h H, s.holder h = some H → ∀ p ∈ H.processed, ∀ t, p.after = some t →
    t.toNat + p.timeDifference.toNat = p.before.toNat
  /-- A live event is on the list of its object's holder, once. -/
  kept : ∀ o, ∀ e ∈ (s.object o).events, s.live e → ∃ h H, (s.object o).holder = some h ∧
    s.holder h = some H ∧ (s.event e).instanceId = h ∧ H.entries.count e = 1
  /-- No callback is run once its event has been removed. -/
  gone : ∀ e before after, s.log = before ++ .ran e :: after → .removed e ∉ before

/-- The condition on a step. -/
def Safe (s : EventWorld) (a : Action) : Prop := s.Clear a ∧ s.Unbarring a

instance (s : EventWorld) (a : Action) : Decidable (s.Safe a) :=
  inferInstanceAs (Decidable (s.Clear a ∧ s.Unbarring a))

/-- Along every run of steps that meet the condition. -/
theorem events_scheduled {t : EventWorld} {as : List Action} (hstart : Start s)
    (hrun : Run (Guarded Safe (PartialStep step)) s as t) : Scheduled t := by
  have hinv : Inv t ∧ Unbarred t := by
    refine hrun.invariant (fun s => Inv s ∧ Unbarred s) ?_ ⟨hstart.inv, ?_⟩
    · rintro u a v ⟨hinv, hbar⟩ ⟨⟨hclear, hunbar⟩, hstep⟩
      exact ⟨hinv.step hclear hstep, hbar.step hinv hclear hunbar hstep⟩
    · intro o e he
      rw [hstart.object o] at he
      cases he
  obtain ⟨hinv, hbar⟩ := hinv
  refine ⟨fun h H hH => (hinv.holders h H hH).once, fun h H hH => (hinv.holders h H hH).exact,
    ?_, ?_⟩
  · intro o e he hlive
    cases hholder : (t.object o).holder with
    | none =>
      rw [hinv.linked.held o hholder] at he
      cases he
    | some h =>
      rcases hinv.linked.kept o e he hlive h hholder with hbarred | ⟨hid, H, hH, hmem⟩
      · rw [hbar o e he h hholder] at hbarred
        cases hbarred
      · have hsole := (hinv.holders h H hH).sole e hlive
        have hpos := List.count_pos_iff.2 hmem
        exact ⟨h, H, rfl, hH, hid, by omega⟩
  · intro e before after hlog
    exact hinv.log.order before (.ran e) after hlog e rfl

/-- Two instances and the world. -/
def twoInstances : EventWorld where
  event := fun _ => newEvent 0 0 0 0 0 0
  nextEvent := 0
  object := fun _ => { holder := none, instanceid := worldInstance, events := [] }
  holder := fun h => if h = worldInstance ∨ h = 1 ∨ h = 2 then some .empty else none
  log := []

theorem twoInstances_start : Start twoInstances where
  object := fun _ => rfl
  world := rfl
  holder := by
    intro h H hH
    unfold twoInstances at hH
    dsimp only at hH
    split at hH
    · exact (Option.some.inj hH).symm
    · cases hH
  log := rfl

/-- The object goes to the other instance and comes back when the first
one has been updated. -/
def comesBack : List Action :=
  [.addEvent 0 1 1000 0 0 1 false, .relocate 0 2 false, .beginUpdate 1 100, .visit 1,
    .endUpdate 1, .relocate 0 1 false, .beginUpdate 1 100, .visit 1]

theorem events_scheduled_back :
    ∃ t, Run (Guarded Safe (PartialStep step)) twoInstances comesBack t ∧ Scheduled t ∧
      (t.event 0).currTime = 900 := by
  have hplay : ((comesBack.foldlM (fun s a => if Safe s a then step s a else none)
      twoInstances).map fun t => (t.event 0).currTime) = some 900 := by decide +kernel
  obtain ⟨t, ht, htime⟩ := Option.map_eq_some_iff.1 hplay
  have hrun := Run.of_foldlM ht
  exact ⟨t, hrun, events_scheduled twoInstances_start hrun, htime⟩

/-- The object comes back at once, and the event is on the list twice: one
update takes the time from it twice. An object of an instance without a
holder is transferred to the world's holder where it is already; and its
first event, with the id of that instance, is taken off the world's list. -/
theorem event_processed_twice :
    (([.addEvent 0 1 1000 0 0 1 false, .relocate 0 2 false, .relocate 0 1 false,
        .beginUpdate 1 100, .visit 1, .visit 1] : List Action).foldlM step twoInstances).map
        (fun t => ((t.holder 1).map fun H => H.processed.map (·.event), (t.event 0).currTime)) =
        some (some [0, 0], 800) ∧
      (([.addEvent 0 1 1000 0 0 7 false, .relocate 0 7 false, .beginUpdate (-1) 100,
        .visit (-1), .visit (-1)] : List Action).foldlM
          step twoInstances).map
        (fun t => ((t.holder (-1)).map fun H => H.processed.map (·.event), (t.event 0).currTime)) =
        some (some [0, 0], 800) ∧
      (([.addEvent 0 1 1000 0 0 7 false, .beginUpdate (-1) 100, .visit (-1)] :
          List Action).foldlM step twoInstances).map
        (fun t => ((t.object 0).events, (t.object 0).holder, (t.event 0).deleted,
          (t.holder (-1)).map (·.entries))) =
        some ([0], some (-1), false, some []) := by
  decide +kernel

end EventWorld

end HearthStone
