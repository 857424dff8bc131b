/-
HearthStone.Event.Relocation — what keeps the events of an object with its
holder.

* `Linked` — of the objects: an event is where its object's holder is, or
  may not be run there.
* `Inv.setHolder`, `Linked.change` — the two ways the state changes: one
  holder is updated, or one object changes with its events.
* `Clear` — the condition on a step. An object moves to a holder that has
  no entry of the events it brings along, and the first event of an
  object finds the holder of its instance.
* `Inv.step` — a step that meets it keeps the invariant.
-/
import HearthStone.Event.HolderTheorems
import HearthStone.Lib.Trace

namespace HearthStone

open Lib

/-! ## The invariant -/

namespace EventWorld

open EventableObjectHolder

variable {s : EventWorld} {h : Int32} {H H' : EventableObjectHolder} {o e : Nat}

def live (s : EventWorld) (e : Nat) : Prop := (s.event e).deleted = false

/-- The object's holder has the event, or may not run it. -/
def Kept (s : EventWorld) (h : Int32) (e : Nat) : Prop :=
  (s.event e).barredFrom h = true ∨
    ((s.event e).instanceId = h ∧ ∃ H, s.holder h = some H ∧ e ∈ H.entries)

/-- The events of an object are with its holder. -/
structure Linked (s : EventWorld) : Prop where
  world : (s.holder worldInstance).isSome
  owner : ∀ o, ∀ e ∈ (s.object o).events, (s.event e).obj = o
  nodup : ∀ o, (s.object o).events.Nodup
  fresh : ∀ o, ∀ e ∈ (s.object o).events, e < s.nextEvent
  held : ∀ o, (s.object o).holder = none → (s.object o).events = []
  known : ∀ o h, (s.object o).holder = some h → (s.holder h).isSome ∧ (s.object o).instanceid = h
  kept : ∀ o, ∀ e ∈ (s.object o).events, s.live e → ∀ h, (s.object o).holder = some h → s.Kept h e

/-- No callback of a removed event is run. -/
def InOrder (log : List EventRecord) : Prop :=
  Upheld (fun before x => ∀ e, x = .ran e → .removed e ∉ before) log

structure LogOk (s : EventWorld) : Prop where
  gone : ∀ e, .removed e ∈ s.log → (s.event e).deleted = true ∧ e < s.nextEvent
  order : InOrder s.log

/-- An event that deletes its object is deleted before it is run. -/
def RunsDeleted (event : Nat → TimedEvent) (H : EventableObjectHolder) : Prop :=
  ∀ e, H.running = some e → (event e).hasFlag flagDeletesObject = true → (event e).deleted = true

structure Inv (s : EventWorld) : Prop where
  linked : Linked s
  holders : ∀ h H, s.holder h = some H → HolderOk s.live s.nextEvent H
  running : ∀ h H, s.holder h = some H → RunsDeleted s.event H
  log : LogOk s

/-- The state of an event goes on, its place does not change. -/
structure Ages (ev ev' : TimedEvent) : Prop where
  obj : ev'.obj = ev.obj
  eventFlag : ev'.eventFlag = ev.eventFlag
  instanceId : ev'.instanceId = ev.instanceId
  deleted : ev.deleted = true → ev'.deleted = true

theorem Ages.refl (ev : TimedEvent) : Ages ev ev := ⟨rfl, rfl, rfl, id⟩

theorem ages_update {ev : TimedEvent} (h : Ages (s.event e) ev) (x : Nat) :
    Ages (s.event x) (Function.update s.event e ev x) := by
  by_cases hx : x = e
  · subst hx
    rw [Function.update_self]
    exact h
  · rw [Function.update_of_ne hx]
    exact Ages.refl _

theorem Ages.hasFlag {ev ev' : TimedEvent} (h : Ages ev ev') : ev'.hasFlag = ev.hasFlag := by
  funext flag
  unfold TimedEvent.hasFlag
  rw [h.eventFlag]

theorem Ages.barredFrom {ev ev' : TimedEvent} (h : Ages ev ev') :
    ev'.barredFrom = ev.barredFrom := by
  funext i
  unfold TimedEvent.barredFrom
  rw [h.hasFlag]

theorem Ages.live {ev ev' : TimedEvent} (h : Ages ev ev') (hlive : ev'.deleted = false) :
    ev.deleted = false := by
  refine Bool.eq_false_of_not_eq_true ?_
  intro hdeleted
  rw [h.deleted hdeleted] at hlive
  cases hlive

/-- One holder changes, and the events age: the entries of live events that
belong there have to stay. -/
theorem Inv.setHolder (hs : Inv s) (hH : s.holder h = some H) {event : Nat → TimedEvent}
    (hages : ∀ e, Ages (s.event e) (event e))
    (hok : HolderOk (fun e => (event e).deleted = false) s.nextEvent H')
    (hrun : RunsDeleted event H')
    (hentries : ∀ e, (event e).deleted = false → (s.event e).instanceId = h →
      (s.event e).barredFrom h = false → e ∈ H.entries → e ∈ H'.entries)
    {log : List EventRecord} (hlog : ∀ e, .removed e ∈ log → .removed e ∈ s.log)
    (horder : InOrder log) :
    Inv { s with
      event := event, holder := Function.update s.holder h (some H'), log := log } := by
  have hsome : ∀ i, (s.holder i).isSome → (Function.update s.holder h (some H') i).isSome := by
    intro i hi
    by_cases hih : i = h
    · rw [hih, Function.update_self]
      rfl
    · rw [Function.update_of_ne hih]
      exact hi
  refine ⟨⟨hsome _ hs.linked.world, ?_, hs.linked.nodup, hs.linked.fresh, hs.linked.held, ?_, ?_⟩,
    ?_, ?_, ?_, horder⟩
  · intro o e he
    exact (hages e).obj.trans (hs.linked.owner o e he)
  · intro o i hi
    obtain ⟨hin, hid⟩ := hs.linked.known o i hi
    exact ⟨hsome i hin, hid⟩
  · intro o e he hlive i hi
    rcases hs.linked.kept o e he ((hages e).live hlive) i hi with hbar | ⟨hid, G, hG, hmem⟩
    · refine Or.inl ?_
      rw [(hages e).barredFrom]
      exact hbar
    · cases hbar : (s.event e).barredFrom i with
      | true =>
        refine Or.inl ?_
        rw [(hages e).barredFrom]
        exact hbar
      | false =>
        refine Or.inr ⟨(hages e).instanceId.trans hid, ?_⟩
        by_cases hih : i = h
        · subst hih
          rw [hH] at hG
          cases hG
          exact ⟨H', Function.update_self _ _ _, hentries e hlive hid hbar hmem⟩
        · exact ⟨G, (Function.update_of_ne hih _ _).trans hG, hmem⟩
  · intro i G hG
    by_cases hih : i = h
    · subst hih
      have heq := (Function.update_self i (some H') s.holder).symm.trans hG
      cases heq
      exact hok
    · refine (hs.holders i G ?_).mono (Nat.le_refl _) fun e _ => (hages e).live
      exact (Function.update_of_ne hih _ _).symm.trans hG
  · intro i G hG
    by_cases hih : i = h
    · subst hih
      have heq := (Function.update_self i (some H') s.holder).symm.trans hG
      cases heq
      exact hrun
    · intro e he hflag
      have hold := hs.running i G ((Function.update_of_ne hih _ _).symm.trans hG) e he
      rw [← (hages e).hasFlag] at hold
      exact (hages e).deleted (hold hflag)
  · intro e he
    obtain ⟨hdeleted, hlt⟩ := hs.log.gone e (hlog e he)
    exact ⟨(hages e).deleted hdeleted, hlt⟩

/-! ## The update of a holder -/

theorem Inv.beginUpdate (hs : Inv s) {dt : UInt32} {s' : EventWorld}
    (hstep : s.beginUpdate h dt = some s') : Inv s' := by
  obtain ⟨H, hH, hrest⟩ := Option.bind_eq_some_iff.1 hstep
  split at hrest
  · cases hrest
    refine hs.setHolder hH (fun e => Ages.refl _) (hs.holders h H hH).begin (hs.running h H hH) ?_
      (fun _ => id) hs.log.order
    intro e hlive hid _ hmem
    have hkeep : (!(s.event e).deleted && decide ((s.event e).instanceId = h)) = true := by
      rw [hlive, decide_eq_true hid]
      rfl
    have hold := mem_entries.1 hmem
    refine mem_entries.2 ?_
    simp only [List.mem_append, List.mem_filter, List.not_mem_nil, or_false]
    tauto
  · cases hrest

theorem Inv.visit (hs : Inv s) {s' : EventWorld} (hstep : s.visit h = some s') : Inv s' := by
  obtain ⟨H, hH, hrest⟩ := Option.bind_eq_some_iff.1 hstep
  have hok := hs.holders h H hH
  split at hrest
  · rename_i dt e ahead hupdate hrunning hahead
    have hin : H.update.isSome := by
      rw [hupdate]
      rfl
    dsimp only at hrest
    split at hrest
    · -- the entry is taken off the list
      rename_i hdrops
      cases hrest
      refine hs.setHolder hH (fun e => Ages.refl _) (hok.drop hahead) (hs.running h H hH) ?_
        (fun _ => id) hs.log.order
      intro x hlive hid hbar hmem
      have hne : x ≠ e := by
        rintro rfl
        unfold drops at hdrops
        rw [hlive, hbar, decide_eq_false (not_not_intro hid)] at hdrops
        cases hdrops
      have hold := mem_entries.1 hmem
      rw [hahead, List.mem_cons] at hold
      refine mem_entries.2 ?_
      tauto
    · rename_i hdrops
      have hlive : s.live e := by
        refine Bool.eq_false_of_not_eq_true ?_
        intro hdeleted
        refine hdrops ?_
        unfold drops
        rw [hdeleted, Bool.or_true, Bool.true_or]
      have hstay : ∀ {seen : List Nat} {running : Option Nat} {ps : List Processing} (x : Nat),
          (∀ y, y ∈ H.seen ∨ y = e → y ∈ seen ∨ y ∈ running.toList) → x ∈ H.entries →
          x ∈ ({ H with seen := seen, running := running, ahead := ahead, processed := ps } :
            EventableObjectHolder).entries := by
        intro seen running ps x hplace hmem
        have hold := mem_entries.1 hmem
        rw [hahead, hrunning, List.mem_cons] at hold
        have hx := hplace x
        refine mem_entries.2 ?_
        simp only [Option.toList_none, List.not_mem_nil, false_or] at hold
        tauto
      split at hrest
      · -- its callback is run
        cases hrest
        have hages : ∀ x, Ages (s.event x) (Function.update s.event e { s.event e with
            deleted := (s.event e).deleted || (s.event e).hasFlag flagDeletesObject } x) :=
          ages_update ⟨rfl, rfl, rfl, fun hdeleted => by rw [hdeleted, Bool.true_or]⟩
        refine hs.setHolder hH hages ?_ ?_ ?_ ?_ ?_
        · refine HolderOk.mono (hok.process hin hrunning hahead hlive rfl ?_
            (Or.inl ⟨rfl, rfl⟩)) (Nat.le_refl _) fun x _ => (hages x).live
          intro t ht
          cases ht
        · intro x hx hflag
          cases hx
          rw [(hages e).hasFlag] at hflag
          rw [Function.update_self, hflag, Bool.or_true]
        · intro x _ _ _ hmem
          exact hstay x (by simp) hmem
        · intro x hx
          rcases List.mem_append.1 hx with hx | hx
          · exact hx
          · cases List.mem_singleton.1 hx
        · refine hs.log.order.snoc ?_
          intro x hx hremoved
          cases hx
          have hboth := (hs.log.gone e hremoved).1.symm.trans hlive
          cases hboth
      · -- it still waits
        rename_i htime
        cases hrest
        have hages : ∀ x, Ages (s.event x) (Function.update s.event e { s.event e with
            currTime := (s.event e).currTime - dt } x) :=
          ages_update ⟨rfl, rfl, rfl, id⟩
        refine hs.setHolder hH hages ?_ ?_ ?_ (fun _ => id) hs.log.order
        · refine HolderOk.mono (hok.process hin hrunning hahead hlive rfl ?_
            (Or.inr ⟨rfl, rfl⟩)) (Nat.le_refl _) fun x _ => (hages x).live
          intro t ht
          cases ht
          have hlt : dt < (s.event e).currTime := UInt32.not_le.1 htime
          rw [UInt32.toNat_sub_of_le _ _ (UInt32.le_of_lt hlt)]
          exact Nat.sub_add_cancel (UInt32.le_iff_toNat_le.1 (UInt32.le_of_lt hlt))
        · intro x hx
          rw [hrunning] at hx
          cases hx
        · intro x _ _ _ hmem
          refine hstay x ?_ hmem
          intro y hy
          rw [List.mem_append, List.mem_singleton]
          exact Or.inl hy
  · cases hrest

theorem Inv.returned (hs : Inv s) {s' : EventWorld} (hstep : s.returned h = some s') : Inv s' := by
  obtain ⟨H, hH, hrest⟩ := Option.bind_eq_some_iff.1 hstep
  have hok := hs.holders h H hH
  split at hrest
  · rename_i dt e hupdate hrunning
    dsimp only at hrest
    generalize (if (s.event e).repeats = 0 then 0 else (s.event e).repeats - 1) = repeats at hrest
    -- only the entry of a deleted event is erased
    have herase : ∀ {event : Nat → TimedEvent}, (∀ x, Ages (s.event x) (event x)) →
        (event e).deleted = true →
        Inv { s with
          event := event
          holder := Function.update s.holder h (some { H with running := none }) } := by
      intro event hages hdeleted
      refine hs.setHolder hH hages ?_ (fun x hx => by cases hx) ?_ (fun _ => id) hs.log.order
      · refine HolderOk.erase (e := e) ?_ hrunning ?_
        · exact hok.mono (Nat.le_refl _) fun x _ => (hages x).live
        · rw [hdeleted]
          decide
      · intro x hlive _ _ hmem
        have hne : x ≠ e := by
          rintro rfl
          rw [hdeleted] at hlive
          cases hlive
        have hold := mem_entries.1 hmem
        rw [hrunning, Option.toList_some, List.mem_singleton] at hold
        refine mem_entries.2 ?_
        tauto
    split at hrest
    · rename_i hflag
      cases hrest
      exact herase (fun x => Ages.refl _) (hs.running h H hH e hrunning hflag)
    · split at hrest
      · cases hrest
        refine herase (ages_update ⟨rfl, rfl, rfl, fun _ => rfl⟩) ?_
        rw [Function.update_self]
      · split at hrest
        · rename_i hdeleted
          cases hrest
          refine herase (ages_update ⟨rfl, rfl, rfl, id⟩) ?_
          rw [Function.update_self]
          exact hdeleted
        · cases hrest
          have hages : ∀ x, Ages (s.event x) (Function.update s.event e { s.event e with
              repeats := repeats, currTime := (s.event e).msTime } x) :=
            ages_update ⟨rfl, rfl, rfl, id⟩
          refine hs.setHolder hH hages ?_ (fun x hx => by cases hx) ?_ (fun _ => id) hs.log.order
          · exact (hok.mono (Nat.le_refl _) fun x _ => (hages x).live).keep hrunning
          · intro x _ _ _ hmem
            have hold := mem_entries.1 hmem
            rw [hrunning, Option.toList_some, List.mem_singleton] at hold
            refine mem_entries.2 ?_
            simp only [List.mem_append, List.mem_singleton]
            tauto
  · cases hrest

theorem Inv.endUpdate (hs : Inv s) {s' : EventWorld} (hstep : s.endUpdate h = some s') :
    Inv s' := by
  obtain ⟨H, hH, hrest⟩ := Option.bind_eq_some_iff.1 hstep
  split at hrest
  · rename_i hend
    cases hrest
    refine hs.setHolder hH (fun e => Ages.refl _) ((hs.holders h H hH).finish hend.2.2)
      (hs.running h H hH) ?_ (fun _ => id) hs.log.order
    intro x _ _ _ hmem
    have hold := mem_entries.1 hmem
    rw [hend.2.2] at hold
    refine mem_entries.2 ?_
    simp only [List.not_mem_nil, List.mem_append, false_or] at hold ⊢
    tauto
  · cases hrest

/-! ## Adding, removing and moving -/

/-- The holder has an entry of the event. -/
def onList (s : EventWorld) (h : Int32) (e : Nat) : Bool :=
  (s.holder h).any fun H => decide (e ∈ H.entries)

/-- The condition on a step: the first event of an object finds the holder
of its instance, and an object moves to a holder that has no entry of the
events it brings along. -/
def Clear (s : EventWorld) : Action → Prop
  | .addEvent o _ _ _ flags id _ =>
    (s.object o).holder.isSome ∨ (s.holder id).isSome ∨ flags &&& flagDoNotExecuteInWorldContext ≠ 0
  | .relocate o id _ =>
    s.getEventHolder id = (s.object o).holder ∨
      ∀ e ∈ s.moved o (s.newHolderOf id), s.onList (s.newHolderOf id) e = false
  | _ => True

instance (s : EventWorld) : (a : Action) → Decidable (s.Clear a)
  | .addEvent o _ _ _ flags id _ => inferInstanceAs (Decidable ((s.object o).holder.isSome ∨
      (s.holder id).isSome ∨ flags &&& flagDoNotExecuteInWorldContext ≠ 0))
  | .relocate o id _ => inferInstanceAs (Decidable (s.getEventHolder id = (s.object o).holder ∨
      ∀ e ∈ s.moved o (s.newHolderOf id), s.onList (s.newHolderOf id) e = false))
  | .removeEvents _ _ => .isTrue trivial
  | .beginUpdate _ _ => .isTrue trivial
  | .visit _ => .isTrue trivial
  | .returned _ => .isTrue trivial
  | .endUpdate _ => .isTrue trivial
  | .newHolder _ => .isTrue trivial

theorem insertEvent_perm (ev : Nat → TimedEvent) (events : List Nat) (e : Nat) :
    (insertEvent ev events e).Perm (e :: events) := by
  refine List.perm_middle.trans ?_
  rw [List.takeWhile_append_dropWhile]

/-- What adding an event comes to. -/
theorem addEvent_eq (hl : Linked s) {eventType time : UInt32} {repeats flags : UInt16}
    {id : Int32} {locked : Bool}
    (hclear : s.Clear (.addEvent o eventType time repeats flags id locked)) :
    ∃ h H ev, s.holder h = some H ∧
      ((s.object o).holder = some h ∨ (s.object o).events = []) ∧
      h = (s.object o).holder.getD (s.newHolderOf id) ∧
      ev.deleted = false ∧ ev.obj = o ∧ ev.eventFlag = flags ∧
      (ev.barredFrom h = true ∨ ev.instanceId = h) ∧
      s.addEvent o eventType time repeats flags id locked = { s with
        event := Function.update s.event s.nextEvent ev
        nextEvent := s.nextEvent + 1
        object := Function.update s.object o
          { holder := some h
            instanceid := h
            events := insertEvent (Function.update s.event s.nextEvent ev) (s.object o).events
              s.nextEvent }
        holder := Function.update s.holder h (some (H.push locked s.nextEvent)) } := by
  cases hholder : (s.object o).holder with
  | some h =>
    obtain ⟨hsome, hid⟩ := hl.known o h hholder
    obtain ⟨H, hH⟩ := Option.isSome_iff_exists.1 hsome
    have hattach : s.attach (s.object o) id = s.object o := by
      unfold attach
      rw [hholder]
      rfl
    refine ⟨h, H, newEvent o eventType time repeats flags h, hH, Or.inl rfl, rfl, rfl, rfl, rfl,
      Or.inr rfl, ?_⟩
    unfold addEvent
    rw [hattach]
    simp only [hholder, hid, hH, Option.getD_some, Option.map_some, reduceCtorEq, if_false]
  | none =>
    have hevents := hl.held o hholder
    cases hid : s.holder id with
    | some H =>
      have hattach : s.attach (s.object o) id =
          { s.object o with instanceid := id, holder := some id } := by
        unfold attach getEventHolder
        rw [hholder, hid]
        rfl
      have hholder' : id = (none : Option Int32).getD (s.newHolderOf id) := by
        unfold newHolderOf getEventHolder
        rw [hid]
        rfl
      refine ⟨id, H, newEvent o eventType time repeats flags id, hid, Or.inr hevents, hholder', rfl,
        rfl, rfl, Or.inr rfl, ?_⟩
      unfold addEvent
      rw [hattach]
      simp only [hid, Option.getD_some, Option.map_some, reduceCtorEq, if_false]
    | none =>
      -- the event has the id of an instance without a holder, but is not to be run here
      obtain ⟨W, hW⟩ := Option.isSome_iff_exists.1 hl.world
      have hattach : s.attach (s.object o) id =
          { s.object o with instanceid := id, holder := none } := by
        unfold attach getEventHolder
        rw [hholder, hid]
        rfl
      have hflag : flags &&& flagDoNotExecuteInWorldContext ≠ 0 := by
        rcases hclear with h | h | h
        · rw [hholder] at h
          cases h
        · rw [hid] at h
          cases h
        · exact h
      have hholder' : worldInstance = (none : Option Int32).getD (s.newHolderOf id) := by
        unfold newHolderOf getEventHolder
        rw [hid]
        rfl
      refine ⟨worldInstance, W, newEvent o eventType time repeats flags id, hW, Or.inr hevents,
        hholder', rfl, rfl, rfl, Or.inl ?_, ?_⟩
      · exact decide_eq_true hflag
      · unfold addEvent
        rw [hattach]
        simp only [hW, Option.getD_some, Option.map_some, if_true]

/-- One object changes, with the events it owns, and no holder loses an
entry. -/
theorem Linked.change (hl : Linked s) {event : Nat → TimedEvent} {next : Nat}
    {obj : EventableObject} {holder : Int32 → Option EventableObjectHolder}
    {log : List EventRecord} {s' : EventWorld}
    (hs' : s' = { s with
      event := event, nextEvent := next, object := Function.update s.object o obj
      holder := holder, log := log })
    (hnext : s.nextEvent ≤ next)
    (hother : ∀ e, (s.event e).obj ≠ o → e < s.nextEvent → event e = s.event e)
    (hown : ∀ e ∈ obj.events, (event e).obj = o ∧ e < next) (hnodup : obj.events.Nodup)
    (hheld : obj.holder = none → obj.events = [])
    (hknown : ∀ i, obj.holder = some i → (holder i).isSome ∧ obj.instanceid = i)
    (hgrow : ∀ i G, s.holder i = some G → ∃ G', holder i = some G' ∧ G.entries ⊆ G'.entries)
    (hkept : ∀ e ∈ obj.events, s'.live e → ∀ i, obj.holder = some i → s'.Kept i e) :
    Linked s' := by
  subst hs'
  have hsome : ∀ i, (s.holder i).isSome → (holder i).isSome := by
    intro i hi
    obtain ⟨G, hG⟩ := Option.isSome_iff_exists.1 hi
    obtain ⟨G', hG', -⟩ := hgrow i G hG
    rw [hG']
    rfl
  have hsame : ∀ o', o' ≠ o → ∀ e ∈ (s.object o').events, event e = s.event e := by
    intro o' ho e he
    refine hother e ?_ (hl.fresh o' e he)
    rw [hl.owner o' e he]
    exact ho
  refine ⟨hsome _ hl.world, ?_, ?_, ?_, ?_, ?_, ?_⟩
  · dsimp only
    intro o' e he
    by_cases ho : o' = o
    · subst ho
      rw [Function.update_self] at he
      exact (hown e he).1
    · rw [Function.update_of_ne ho] at he
      rw [hsame o' ho e he]
      exact hl.owner o' e he
  · dsimp only
    intro o'
    by_cases ho : o' = o
    · subst ho
      rw [Function.update_self]
      exact hnodup
    · rw [Function.update_of_ne ho]
      exact hl.nodup o'
  · dsimp only
    intro o' e he
    by_cases ho : o' = o
    · subst ho
      rw [Function.update_self] at he
      exact (hown e he).2
    · rw [Function.update_of_ne ho] at he
      exact Nat.lt_of_lt_of_le (hl.fresh o' e he) hnext
  · dsimp only
    intro o'
    by_cases ho : o' = o
    · subst ho
      rw [Function.update_self]
      exact hheld
    · rw [Function.update_of_ne ho]
      exact hl.held o'
  · dsimp only
    intro o' i
    by_cases ho : o' = o
    · subst ho
      rw [Function.update_self]
      exact hknown i
    · rw [Function.update_of_ne ho]
      intro hi
      obtain ⟨hin, hid⟩ := hl.known o' i hi
      exact ⟨hsome i hin, hid⟩
  · dsimp only
    intro o' e he hlive i
    by_cases ho : o' = o
    · subst ho
      rw [Function.update_self] at he ⊢
      exact hkept e he hlive i
    · rw [Function.update_of_ne ho] at he ⊢
      intro hi
      have heq := hsame o' ho e he
      have hold : s.live e := by
        unfold EventWorld.live at hlive ⊢
        rw [← heq]
        exact hlive
      unfold Kept
      dsimp only
      rw [heq]
      rcases hl.kept o' e he hold i hi with hbar | ⟨hid, G, hG, hmem⟩
      · exact Or.inl hbar
      · obtain ⟨G', hG', hsub⟩ := hgrow i G hG
        exact Or.inr ⟨hid, G', hG', hsub hmem⟩

/-- Entries are only added to one holder. -/
theorem grow_update (hH : s.holder h = some H) (hsub : H.entries ⊆ H'.entries) (i : Int32)
    (G : EventableObjectHolder) (hG : s.holder i = some G) :
    ∃ G', Function.update s.holder h (some H') i = some G' ∧ G.entries ⊆ G'.entries := by
  by_cases hih : i = h
  · subst hih
    rw [hH] at hG
    cases hG
    exact ⟨H', Function.update_self _ _ _, hsub⟩
  · exact ⟨G, (Function.update_of_ne hih _ _).trans hG, List.Subset.refl _⟩

/-- A fact about every holder, when one has changed. -/
theorem forall_holder_update {P : EventableObjectHolder → Prop} (hnew : P H')
    (hold : ∀ i G, s.holder i = some G → P G) (i : Int32) (G : EventableObjectHolder)
    (hG : Function.update s.holder h (some H') i = some G) : P G := by
  by_cases hih : i = h
  · subst hih
    rw [Function.update_self] at hG
    cases hG
    exact hnew
  · exact hold i G ((Function.update_of_ne hih _ _).symm.trans hG)

theorem mem_foldl_push {l : List Nat} {locked : Bool} {x : Nat} :
    x ∈ (l.foldl (EventableObjectHolder.push · locked) H).entries ↔ x ∈ H.entries ∨ x ∈ l := by
  have hcount := (foldl_push H locked l).1 x
  rw [← List.count_pos_iff, ← List.count_pos_iff, ← List.count_pos_iff, hcount]
  omega

theorem Inv.addEvent (hs : Inv s) {eventType time : UInt32} {repeats flags : UInt16}
    {id : Int32} {locked : Bool}
    (hclear : s.Clear (.addEvent o eventType time repeats flags id locked)) :
    Inv (s.addEvent o eventType time repeats flags id locked) := by
  obtain ⟨h, H, ev, hH, hold, -, hlive, hobj, -, hplace, heq⟩ := addEvent_eq hs.linked hclear
  have hperm := insertEvent_perm (Function.update s.event s.nextEvent ev) (s.object o).events
    s.nextEvent
  have hevent : ∀ e, e < s.nextEvent → Function.update s.event s.nextEvent ev e = s.event e := by
    intro e he
    exact Function.update_of_ne (Nat.ne_of_lt he) _ _
  have hmem : ∀ x, x ∈ (H.push locked s.nextEvent).entries ↔ x ∈ H.entries ∨ x = s.nextEvent := by
    intro x
    rw [← List.mem_singleton (a := x)]
    exact mem_foldl_push (l := [s.nextEvent])
  have hsub : H.entries ⊆ (H.push locked s.nextEvent).entries :=
    fun x hx => (hmem x).2 (Or.inl hx)
  have holders : ∀ i G, s.holder i = some G →
      HolderOk (fun e => (Function.update s.event s.nextEvent ev e).deleted = false)
        (s.nextEvent + 1) G := by
    intro i G hG
    refine (hs.holders i G hG).mono (Nat.le_succ _) ?_
    intro e he hlive'
    rw [hevent e he] at hlive'
    exact hlive'
  rw [heq]
  refine ⟨hs.linked.change rfl (Nat.le_succ _) (fun e _ he => hevent e he) ?_ ?_ ?_ ?_
    (grow_update hH hsub) ?_, ?_, ?_, ?_, hs.log.order⟩
  · intro e he
    rcases List.mem_cons.1 (hperm.mem_iff.1 he) with rfl | he
    · rw [Function.update_self]
      exact ⟨hobj, Nat.lt_succ_self _⟩
    · rw [hevent e (hs.linked.fresh o e he)]
      exact ⟨hs.linked.owner o e he, Nat.lt_succ_of_lt (hs.linked.fresh o e he)⟩
  · refine hperm.nodup_iff.2 (List.nodup_cons.2 ⟨?_, hs.linked.nodup o⟩)
    intro hin
    exact Nat.lt_irrefl _ (hs.linked.fresh o _ hin)
  · intro hnone
    cases hnone
  · intro i hi
    cases hi
    rw [Function.update_self]
    exact ⟨rfl, rfl⟩
  · intro e he hlive' i hi
    cases hi
    unfold Kept
    dsimp only
    rcases List.mem_cons.1 (hperm.mem_iff.1 he) with rfl | he
    · rw [Function.update_self]
      refine hplace.imp (fun hbar => hbar) fun hid => ⟨hid, _, Function.update_self _ _ _, ?_⟩
      exact (hmem _).2 (Or.inr rfl)
    · have hlt := hs.linked.fresh o e he
      have hlive'' : s.live e := by
        unfold EventWorld.live at hlive' ⊢
        rw [← hevent e hlt]
        exact hlive'
      rw [hevent e hlt]
      rcases hold with hholder | hnone
      · rcases hs.linked.kept o e he hlive'' h hholder with hbar | ⟨hid, G, hG, hin⟩
        · exact Or.inl hbar
        · rw [hH] at hG
          cases hG
          exact Or.inr ⟨hid, _, Function.update_self _ _ _, hsub hin⟩
      · rw [hnone] at he
        cases he
  · -- a new event is on no list
    refine forall_holder_update ?_ holders
    refine HolderOk.foldl_push (l := [s.nextEvent]) (holders h H hH) (List.nodup_singleton _) ?_ ?_
    · intro e he
      rw [List.mem_singleton.1 he]
      exact Nat.lt_succ_self _
    · intro e he _ hin
      rw [List.mem_singleton.1 he] at hin
      exact Nat.lt_irrefl _ ((hs.holders h H hH).fresh _ hin)
  · have hrun : ∀ i G, s.holder i = some G →
        RunsDeleted (Function.update s.event s.nextEvent ev) G := by
      intro i G hG e he
      have hin : e ∈ G.entries := mem_entries.2 (Or.inr (Or.inl (by rw [he]; simp)))
      rw [hevent e ((hs.holders i G hG).fresh e hin)]
      exact hs.running i G hG e he
    refine forall_holder_update ?_ hrun
    intro e he
    rw [push_running] at he
    exact hrun h H hH e he
  · intro e he
    obtain ⟨hdeleted, hlt⟩ := hs.log.gone e he
    dsimp only
    rw [hevent e hlt]
    exact ⟨hdeleted, Nat.lt_succ_of_lt hlt⟩

theorem Inv.relocate (hs : Inv s) {id : Int32} {locked : Bool}
    (hclear : s.Clear (.relocate o id locked)) : Inv (s.relocate o id locked) := by
  unfold EventWorld.relocate
  split
  · exact hs
  rename_i hne
  have hnew := hclear.resolve_left hne
  set h := s.newHolderOf id with hh
  have hin : (s.holder h).isSome := by
    rw [hh]
    unfold newHolderOf getEventHolder
    split
    · rename_i hid
      exact hid
    · exact hs.linked.world
  obtain ⟨H, hH⟩ := Option.isSome_iff_exists.1 hin
  have hmoved : ∀ e ∈ s.moved o h, e ∈ (s.object o).events := fun e he => (List.mem_filter.1 he).1
  set event := fun e => if e ∈ s.moved o h then { s.event e with instanceId := h } else s.event e
    with hevent
  have hdeleted : ∀ e, (event e).deleted = (s.event e).deleted := by
    intro e
    rw [hevent]
    dsimp only
    split <;> rfl
  have hobj : ∀ e, (event e).obj = (s.event e).obj := by
    intro e
    rw [hevent]
    dsimp only
    split <;> rfl
  have hflag : ∀ e, (event e).hasFlag = (s.event e).hasFlag := by
    intro e
    rw [hevent]
    dsimp only
    split <;> rfl
  have hbarred : ∀ e, (event e).barredFrom = (s.event e).barredFrom := by
    intro e
    funext i
    unfold TimedEvent.barredFrom
    rw [hflag e]
  have hlive : ∀ G, HolderOk s.live s.nextEvent G →
      HolderOk (fun e => (event e).deleted = false) s.nextEvent G := by
    intro G hG
    refine hG.mono (Nat.le_refl _) ?_
    intro e _ he
    rw [hdeleted e] at he
    exact he
  have hsub : H.entries ⊆ ((s.moved o h).foldl (EventableObjectHolder.push · locked) H).entries :=
    fun x hx => mem_foldl_push.2 (Or.inl hx)
  have heq : (s.addObject o h locked).setObject o
      { s.object o with instanceid := h, holder := some h } = { s with
        event := event
        object := Function.update s.object o
          { s.object o with instanceid := h, holder := some h }
        holder := Function.update s.holder h
          (some ((s.moved o h).foldl (EventableObjectHolder.push · locked) H)) } := by
    unfold EventWorld.addObject EventWorld.setObject
    rw [hH]
    rfl
  rw [heq]
  refine ⟨hs.linked.change rfl (Nat.le_refl _) ?_ ?_ (hs.linked.nodup o) ?_ ?_
    (grow_update hH hsub) ?_, ?_, ?_, ?_, hs.log.order⟩
  · intro e hother _
    refine if_neg ?_
    intro hin'
    exact hother (hs.linked.owner o e (hmoved e hin'))
  · intro e he
    rw [hobj e]
    exact ⟨hs.linked.owner o e he, hs.linked.fresh o e he⟩
  · intro hnone
    cases hnone
  · intro i hi
    cases hi
    rw [Function.update_self]
    exact ⟨rfl, rfl⟩
  · intro e he hlive' i hi
    cases hi
    unfold Kept
    cases hbar : (s.event e).barredFrom h with
    | true =>
      rw [hbarred e]
      exact Or.inl hbar
    | false =>
      have hmem : e ∈ s.moved o h := by
        have hlive'' := hlive'
        unfold EventWorld.live at hlive''
        rw [hdeleted e] at hlive''
        refine List.mem_filter.2 ⟨he, ?_⟩
        rw [hlive'', hbar]
        rfl
      refine Or.inr ⟨?_, _, Function.update_self _ _ _, mem_foldl_push.2 (Or.inr hmem)⟩
      rw [hevent]
      dsimp only
      rw [if_pos hmem]
  · refine forall_holder_update ?_ ?_
    · refine hlive _ ?_
      refine (hs.holders h H hH).foldl_push ((hs.linked.nodup o).filter _) ?_ ?_
      · intro e he
        exact hs.linked.fresh o e (hmoved e he)
      · intro e he _ hmem
        have hoff := hnew e he
        unfold onList at hoff
        rw [hH, Option.any_some, decide_eq_true hmem] at hoff
        cases hoff
    · exact fun i G hG => hlive G (hs.holders i G hG)
  · have hrun : ∀ i G, s.holder i = some G → RunsDeleted event G := by
      intro i G hG e he
      rw [hflag e, hdeleted e]
      exact hs.running i G hG e he
    refine forall_holder_update ?_ hrun
    intro e he
    rw [(foldl_push H locked _).2.2.1] at he
    exact hrun h H hH e he
  · intro e he
    rw [hdeleted e]
    exact hs.log.gone e he

/-- The records of removals, one after the other. -/
theorem inOrder_removals {l : List Nat} (hl : l.Nodup) {log : List EventRecord}
    (hgone : ∀ e ∈ l, .removed e ∈ log → (s.event e).deleted = true) (hlog : InOrder log) :
    InOrder (log ++ l.flatMap s.removal) := by
  induction l generalizing log with
  | nil => simpa using hlog
  | cons e l ih =>
    obtain ⟨he, hl⟩ := List.nodup_cons.1 hl
    have hfirst : InOrder (log ++ s.removal e) := by
      unfold removal
      split
      · rename_i hfires
        have hran : InOrder (log ++ [.ran e]) := by
          refine hlog.snoc ?_
          intro x hx hremoved
          cases hx
          have hboth := (hgone e List.mem_cons_self hremoved).symm.trans hfires.2
          cases hboth
        have hboth : InOrder ((log ++ [.ran e]) ++ [.removed e]) := by
          refine hran.snoc ?_
          intro x hx
          cases hx
        rwa [List.append_assoc] at hboth
      · refine hlog.snoc ?_
        intro x hx
        cases hx
    rw [List.flatMap_cons, ← List.append_assoc]
    refine ih hl ?_ hfirst
    intro x hx hremoved
    rcases List.mem_append.1 hremoved with hold | hnew
    · exact hgone x (List.mem_cons_of_mem e hx) hold
    · have hxe : x = e := by
        unfold removal at hnew
        split at hnew
        · simpa using hnew
        · simpa using hnew
      rw [hxe] at hx
      exact absurd hx he

theorem removed_mem_removal {l : List Nat} {x : Nat}
    (h : .removed x ∈ l.flatMap s.removal) : x ∈ l := by
  obtain ⟨e, he, hx⟩ := List.mem_flatMap.1 h
  have hxe : x = e := by
    unfold removal at hx
    split at hx
    · simpa using hx
    · simpa using hx
  rw [hxe]
  exact he

theorem Inv.removeEvents (hs : Inv s) (o : Nat) (eventType : UInt32) :
    Inv (s.removeEvents o eventType) := by
  set gone := (s.object o).events.filter (s.removes eventType) with hgone
  set event := fun e => if e ∈ gone then { s.event e with deleted := true } else s.event e
    with hevent
  have hmem : ∀ e ∈ gone, e ∈ (s.object o).events := fun e he => (List.mem_filter.1 he).1
  have hages : ∀ e, Ages (s.event e) (event e) := by
    intro e
    rw [hevent]
    dsimp only
    split
    · exact ⟨rfl, rfl, rfl, fun _ => rfl⟩
    · exact Ages.refl _
  have hdeleted : ∀ e ∈ gone, (event e).deleted = true := by
    intro e he
    rw [hevent]
    dsimp only
    rw [if_pos he]
  refine ⟨hs.linked.change rfl (Nat.le_refl _) ?_ ?_ ((hs.linked.nodup o).filter _) ?_
    (hs.linked.known o) (fun i G hG => ⟨G, hG, List.Subset.refl _⟩) ?_, ?_, ?_, ?_, ?_⟩
  · intro e hother _
    refine if_neg ?_
    intro hin
    exact hother (hs.linked.owner o e (hmem e hin))
  · intro e he
    have hin := (List.mem_filter.1 he).1
    exact ⟨(hages e).obj.trans (hs.linked.owner o e hin), hs.linked.fresh o e hin⟩
  · intro hnone
    rw [hs.linked.held o hnone]
    rfl
  · intro e he hlive i hi
    have hin := (List.mem_filter.1 he).1
    rcases hs.linked.kept o e hin ((hages e).live hlive) i hi with hbar | ⟨hid, G, hG, hG'⟩
    · refine Or.inl ?_
      rw [← (hages e).barredFrom] at hbar
      exact hbar
    · exact Or.inr ⟨(hages e).instanceId.trans hid, G, hG, hG'⟩
  · intro i G hG
    exact (hs.holders i G hG).mono (Nat.le_refl _) fun e _ => (hages e).live
  · intro i G hG e he hflag
    have hold := hs.running i G hG e he
    rw [← (hages e).hasFlag] at hold
    exact (hages e).deleted (hold hflag)
  · intro e he
    rcases List.mem_append.1 he with hold | hnew
    · obtain ⟨hdel, hlt⟩ := hs.log.gone e hold
      exact ⟨(hages e).deleted hdel, hlt⟩
    · have hin := removed_mem_removal hnew
      exact ⟨hdeleted e hin, hs.linked.fresh o e (hmem e hin)⟩
  · refine inOrder_removals ((hs.linked.nodup o).filter _) ?_ hs.log.order
    intro e _ hremoved
    exact (hs.log.gone e hremoved).1

theorem Inv.newHolder (hs : Inv s) (id : Int32) : Inv (s.newHolder id) := by
  unfold EventWorld.newHolder
  split
  · exact hs
  rename_i hnone
  have hnew : ∀ i, (s.holder i).isSome → i ≠ id := by
    rintro i hi rfl
    exact hnone hi
  have hkeep : ∀ i, (s.holder i).isSome →
      Function.update s.holder id (some EventableObjectHolder.empty) i = s.holder i :=
    fun i hi => Function.update_of_ne (hnew i hi) _ _
  refine ⟨⟨?_, hs.linked.owner, hs.linked.nodup, hs.linked.fresh, hs.linked.held, ?_, ?_⟩, ?_, ?_,
    hs.log.gone, hs.log.order⟩
  · have hworld := hs.linked.world
    rw [← hkeep _ hworld] at hworld
    exact hworld
  · intro o i hi
    obtain ⟨hin, hid⟩ := hs.linked.known o i hi
    have hin' := hin
    rw [← hkeep _ hin] at hin'
    exact ⟨hin', hid⟩
  · intro o e he hlive i hi
    refine (hs.linked.kept o e he hlive i hi).imp (fun hbar => hbar) ?_
    rintro ⟨hid, G, hG, hin⟩
    refine ⟨hid, G, (hkeep i ?_).trans hG, hin⟩
    rw [hG]
    rfl
  · exact forall_holder_update holderOk_empty hs.holders
  · refine forall_holder_update ?_ hs.running
    intro e he
    cases he

/-- Every step that meets the condition keeps the invariant. -/
theorem Inv.step (hs : Inv s) {a : Action} {s' : EventWorld} (hclear : s.Clear a)
    (hstep : s.step a = some s') : Inv s' := by
  cases a with
  | addEvent o eventType time repeats flags id locked =>
    cases hstep
    exact hs.addEvent hclear
  | removeEvents o eventType =>
    cases hstep
    exact hs.removeEvents o eventType
  | relocate o id locked =>
    cases hstep
    exact hs.relocate hclear
  | beginUpdate h dt => exact hs.beginUpdate hstep
  | visit h => exact hs.visit hstep
  | returned h => exact hs.returned hstep
  | endUpdate h => exact hs.endUpdate hstep
  | newHolder id =>
    cases hstep
    exact hs.newHolder id

end EventWorld

end HearthStone
