/-
HearthStone.Loot.LootRollTheorems — when the roll for an item is fair.

`PlayerRolled` looks for the player among those who needed and those who
greeded, "dont allow cheaters", and not among those who passed. So a
passer is counted again at each further choice, and one who is set to
pass is made to choose each time another member opens the loot; the
countdown is then over before everyone has chosen. It also counts players
who are not of the group, and of two calls for one player that have both
looked before either has the lock, it counts both.

* `Law` is what fairness asks of an entry of the log, against the entries
  before it.
* `Proper` is the condition: a choice comes from a member who has not
  passed and has no other call under way.
* The invariant ties the containers and the countdown to the log, and the
  lock to the places of the threads. The lock is never released after
  `Finalize`, and that keeps every other thread out.
-/
import HearthStone.Lib.Run
import HearthStone.Lib.Trace
import HearthStone.Loot.LootRoll

namespace HearthStone

open Lib

/-! ## The loops of `Finalize` -/

namespace LootRoll

variable {rolls : List (Nat × Nat)} {guid roll : Nat}

theorem mem_insertRoll (hnew : ∀ n, (guid, n) ∉ rolls) (e : Nat × Nat) :
    e ∈ insertRoll guid roll rolls ↔ e = (guid, roll) ∨ e ∈ rolls := by
  unfold insertRoll
  rw [if_neg, List.mem_orderedInsert]
  rintro ⟨⟨g, n⟩, he, rfl⟩
  exact hnew n he

theorem mem_insertPass {passes : List Nat} {g : Nat} :
    g ∈ insertPass guid passes ↔ g = guid ∨ g ∈ passes := by
  unfold insertPass
  split
  · rename_i hmem
    constructor
    · intro hg
      exact Or.inr hg
    · rintro (rfl | hg)
      · exact hmem
      · exact hg
  · rw [List.mem_orderedInsert]

section

variable {τ : Type} {r : LootRoll τ} {choice : UInt8}

theorem enter_remaining : (r.enter guid choice roll).remaining = r.remaining - 1 := by
  unfold enter
  split
  · rfl
  · split <;> rfl

theorem enter_lootLock : (r.enter guid choice roll).lootLock = r.lootLock := by
  unfold enter
  split
  · rfl
  · split <;> rfl

theorem enter_needRolls : (r.enter guid choice roll).needRolls =
    if choice = rollNeed then insertRoll guid roll r.needRolls else r.needRolls := by
  unfold enter
  split
  · rfl
  · split <;> rfl

theorem enter_greedRolls : (r.enter guid choice roll).greedRolls =
    if choice = rollGreed then insertRoll guid roll r.greedRolls else r.greedRolls := by
  unfold enter
  by_cases hneed : choice = rollNeed
  · subst hneed
    rfl
  · rw [if_neg hneed]
    split <;> rfl

theorem enter_passRolls : (r.enter guid choice roll).passRolls =
    if choice = rollNeed ∨ choice = rollGreed then r.passRolls
    else insertPass guid r.passRolls := by
  unfold enter
  by_cases hneed : choice = rollNeed
  · rw [if_pos hneed, if_pos (Or.inl hneed)]
  · rw [if_neg hneed]
    by_cases hgreed : choice = rollGreed
    · rw [if_pos hgreed, if_pos (Or.inr hgreed)]
    · rw [if_neg hgreed, if_neg (by tauto)]

end

/-- What the loop has found is what it began with or an entry, and no
entry is higher. -/
theorem foldl_highest (rolls : List (Nat × Nat)) (start : Nat × Nat) :
    let found := rolls.foldl (fun best e => if best.1 < e.2 then (e.2, e.1) else best) start
    start.1 ≤ found.1 ∧ (∀ e ∈ rolls, e.2 ≤ found.1) ∧
      (found = start ∨ (found.2, found.1) ∈ rolls) := by
  induction rolls generalizing start with
  | nil => simp
  | cons e rolls ih =>
    rw [List.foldl_cons]
    by_cases hlt : start.1 < e.2
    · rw [if_pos hlt]
      obtain ⟨hstart, hall, hfound⟩ := ih (e.2, e.1)
      refine ⟨by omega, ?_, ?_⟩
      · intro f hf
        rcases List.mem_cons.1 hf with rfl | hf
        · exact hstart
        · exact hall f hf
      · right
        rcases hfound with hfound | hfound
        · rw [hfound]
          exact List.mem_cons_self
        · exact List.mem_cons_of_mem _ hfound
    · rw [if_neg hlt]
      obtain ⟨hstart, hall, hfound⟩ := ih start
      refine ⟨hstart, ?_, hfound.imp_right (List.mem_cons_of_mem _)⟩
      intro f hf
      rcases List.mem_cons.1 hf with rfl | hf
      · omega
      · exact hall f hf

/-- The highest roll of a container without rolls of 0. -/
theorem highestRoll_spec (hpos : ∀ e ∈ rolls, 0 < e.2) :
    ((highestRoll rolls).1 = 0 ∧ rolls = []) ∨
      ((highestRoll rolls).1 ≠ 0 ∧ ((highestRoll rolls).2, (highestRoll rolls).1) ∈ rolls ∧
        ∀ e ∈ rolls, e.2 ≤ (highestRoll rolls).1) := by
  obtain ⟨-, hall, hfound⟩ := foldl_highest rolls (0, 0)
  change (∀ e ∈ rolls, e.2 ≤ (highestRoll rolls).1) at hall
  change highestRoll rolls = (0, 0) ∨ ((highestRoll rolls).2, (highestRoll rolls).1) ∈ rolls at hfound
  cases rolls with
  | nil => exact Or.inl ⟨rfl, rfl⟩
  | cons e rest =>
    have hhigh : (highestRoll (e :: rest)).1 ≠ 0 := by
      have hle := hall e List.mem_cons_self
      have hlt := hpos e List.mem_cons_self
      omega
    right
    refine ⟨hhigh, ?_, hall⟩
    rcases hfound with hzero | hmem
    · rw [hzero] at hhigh
      exact absurd rfl hhigh
    · exact hmem

end LootRoll

/-! ## Fairness -/

/-- The players whose choices have been counted. -/
def chosen (log : List RollEvent) : List Nat :=
  log.filterMap fun e => match e with
    | .rolled guid _ _ => some guid
    | _ => none

/-- Nobody has made this choice. -/
def NobodyChose (log : List RollEvent) (choice : UInt8) : Prop :=
  ∀ guid roll, .rolled guid choice roll ∉ log

/-- A player has made this choice and rolled highest. -/
def RolledHighest (log : List RollEvent) (choice : UInt8) (best : BestRoll) : Prop :=
  best.hightype = some choice ∧ .rolled best.player choice best.highest ∈ log ∧
    ∀ guid roll, .rolled guid choice roll ∈ log → roll ≤ best.highest

/-- Need before greed, and the highest roll wins. -/
def Wins (log : List RollEvent) (best : BestRoll) : Prop :=
  RolledHighest log rollNeed best ∨
    (NobodyChose log rollNeed ∧ RolledHighest log rollGreed best) ∨
    (NobodyChose log rollNeed ∧ NobodyChose log rollGreed ∧ best = ⟨0, none, 0⟩)

/-- A choice counts once, the countdown is over when every member has
chosen, the best roll wins, and nothing is finalized twice. -/
def Law (members : Finset Nat) (log : List RollEvent) : RollEvent → Prop
  | .rolled guid _ _ => guid ∉ chosen log
  | .closed => ∀ guid ∈ members, guid ∈ chosen log
  | .finalized best _ => Wins log best ∧ ∀ best outcome, .finalized best outcome ∉ log

def Fair (members : Finset Nat) (log : List RollEvent) : Prop := Upheld (Law members) log

theorem chosen_append (log more : List RollEvent) :
    chosen (log ++ more) = chosen log ++ chosen more := by
  unfold chosen
  rw [List.filterMap_append]

theorem mem_chosen {log : List RollEvent} {guid : Nat} :
    guid ∈ chosen log ↔ ∃ choice roll, .rolled guid choice roll ∈ log := by
  unfold chosen
  rw [List.mem_filterMap]
  constructor
  · rintro ⟨e, he, heq⟩
    cases e with
    | rolled g choice roll =>
      cases heq
      exact ⟨choice, roll, he⟩
    | closed => cases heq
    | finalized best outcome => cases heq
  · rintro ⟨choice, roll, he⟩
    exact ⟨_, he, rfl⟩

/-- The player whose call a thread is in. -/
def RollPoint.guid : RollPoint → Option Nat
  | .checked guid _ => some guid
  | .holding guid _ => some guid
  | _ => none

/-! ## The roll and the log -/

/-- The containers hold the choices that were counted, and the countdown
what is left of the members. -/
structure Counted {τ : Type} (members : Finset Nat) (r : LootRoll τ) (log : List RollEvent) :
    Prop where
  known : ∀ guid ∈ chosen log, guid ∈ members
  once : (chosen log).Nodup
  remaining : r.remaining.toNat + (chosen log).length = members.card
  need : ∀ guid roll, (guid, roll) ∈ r.needRolls ↔ .rolled guid rollNeed roll ∈ log
  greed : ∀ guid roll, (guid, roll) ∈ r.greedRolls ↔ .rolled guid rollGreed roll ∈ log
  pass : ∀ guid choice roll, .rolled guid choice roll ∈ log → choice ≠ rollNeed →
    choice ≠ rollGreed → guid ∈ r.passRolls
  rolled : ∀ guid choice roll, .rolled guid choice roll ∈ log → 0 < roll

namespace Counted

variable {τ : Type} {members : Finset Nat} {r : LootRoll τ} {log : List RollEvent}
  {guid roll : Nat} {choice : UInt8}

/-- Who is in none of the containers has not been counted. -/
theorem not_chosen (h : Counted members r log) (hroll : r.hasRolled guid = false)
    (hpass : guid ∉ r.passRolls) : guid ∉ chosen log := by
  intro hmem
  obtain ⟨choice, roll, he⟩ := mem_chosen.1 hmem
  unfold LootRoll.hasRolled at hroll
  rw [Bool.or_eq_false_iff, List.any_eq_false, List.any_eq_false] at hroll
  by_cases hneed : choice = rollNeed
  · subst hneed
    exact hroll.1 _ ((h.need guid roll).2 he) (beq_self_eq_true guid)
  · by_cases hgreed : choice = rollGreed
    · subst hgreed
      exact hroll.2 _ ((h.greed guid roll).2 he) (beq_self_eq_true guid)
    · exact hpass (h.pass guid choice roll he hneed hgreed)

/-- The finalization finds the winner. -/
theorem wins (h : Counted members r log) : Wins log r.best := by
  have hneedpos : ∀ e ∈ r.needRolls, 0 < e.2 := by
    rintro ⟨g, n⟩ he
    exact h.rolled g rollNeed n ((h.need g n).1 he)
  have hgreedpos : ∀ e ∈ r.greedRolls, 0 < e.2 := by
    rintro ⟨g, n⟩ he
    exact h.rolled g rollGreed n ((h.greed g n).1 he)
  have hneed := LootRoll.highestRoll_spec hneedpos
  have hgreed := LootRoll.highestRoll_spec hgreedpos
  unfold LootRoll.best
  rcases hneed with ⟨hzero, hnone⟩ | ⟨hhigh, hmem, hall⟩
  · have hnobody : NobodyChose log rollNeed := by
      intro g n he
      have hin := (h.need g n).2 he
      rw [hnone] at hin
      cases hin
    right
    rw [if_pos hzero]
    rcases hgreed with ⟨hzero, hnone⟩ | ⟨hhigh, hmem, hall⟩
    · right
      rw [if_pos hzero]
      refine ⟨hnobody, ?_, rfl⟩
      intro g n he
      have hin := (h.greed g n).2 he
      rw [hnone] at hin
      cases hin
    · left
      rw [if_neg hhigh]
      refine ⟨hnobody, rfl, (h.greed _ _).1 hmem, ?_⟩
      intro g n he
      exact hall _ ((h.greed g n).2 he)
  · left
    rw [if_neg hhigh]
    refine ⟨rfl, (h.need _ _).1 hmem, ?_⟩
    intro g n he
    exact hall _ ((h.need g n).2 he)

/-- What is not a choice may be added to the log. -/
theorem snoc (h : Counted members r log) {e : RollEvent}
    (he : ∀ guid choice roll, e ≠ .rolled guid choice roll) : Counted members r (log ++ [e]) := by
  have hchosen : chosen (log ++ [e]) = chosen log := by
    rw [chosen_append]
    cases e with
    | rolled g c n => exact absurd rfl (he g c n)
    | closed => exact List.append_nil _
    | finalized best outcome => exact List.append_nil _
  have hmem : ∀ guid choice roll, .rolled guid choice roll ∈ log ++ [e] ↔
      .rolled guid choice roll ∈ log := by
    intro g c n
    rw [List.mem_append, List.mem_singleton]
    constructor
    · rintro (hold | hnew)
      · exact hold
      · exact absurd hnew.symm (he g c n)
    · intro hold
      exact Or.inl hold
  refine ⟨?_, ?_, ?_, ?_, ?_, ?_, ?_⟩
  · rw [hchosen]
    exact h.known
  · rw [hchosen]
    exact h.once
  · rw [hchosen]
    exact h.remaining
  · intro g n
    rw [hmem]
    exact h.need g n
  · intro g n
    rw [hmem]
    exact h.greed g n
  · intro g c n hin
    exact h.pass g c n ((hmem g c n).1 hin)
  · intro g c n hin
    exact h.rolled g c n ((hmem g c n).1 hin)

/-- There is room in the countdown for a member who has not chosen. -/
theorem remaining_pos (h : Counted members r log) (hguid : guid ∈ members)
    (hnew : guid ∉ chosen log) : (chosen log).length < members.card := by
  have hsub : (guid :: chosen log).toFinset ⊆ members := by
    intro g hg
    rw [List.mem_toFinset, List.mem_cons] at hg
    rcases hg with rfl | hg
    · exact hguid
    · exact h.known g hg
  have hcard := Finset.card_le_card hsub
  rw [List.toFinset_card_of_nodup (List.nodup_cons.2 ⟨hnew, h.once⟩), List.length_cons] at hcard
  exact hcard

/-- When the countdown is over every member has chosen. -/
theorem all_chosen (h : Counted members r log) (hzero : r.remaining = 0) :
    ∀ guid ∈ members, guid ∈ chosen log := by
  have hsub : (chosen log).toFinset ⊆ members := by
    intro g hg
    exact h.known g (List.mem_toFinset.1 hg)
  have hrem := h.remaining
  rw [hzero] at hrem
  have hcard : members.card ≤ (chosen log).toFinset.card := by
    rw [List.toFinset_card_of_nodup h.once, ← hrem]
    exact Nat.le_of_eq (Nat.zero_add _)
  intro g hg
  rw [← Finset.eq_of_subset_of_card_le hsub hcard] at hg
  exact List.mem_toFinset.1 hg

/-- A member who has not chosen is counted. -/
theorem enter (h : Counted members r log) (hguid : guid ∈ members) (hnew : guid ∉ chosen log)
    (hpos : 0 < roll) :
    Counted members (r.enter guid choice roll) (log ++ [.rolled guid choice roll]) := by
  have hchosen : chosen (log ++ [.rolled guid choice roll]) = chosen log ++ [guid] :=
    chosen_append log _
  have hmem : ∀ g c n, .rolled g c n ∈ log ++ [.rolled guid choice roll] ↔
      .rolled g c n ∈ log ∨ (g = guid ∧ c = choice ∧ n = roll) := by
    intro g c n
    rw [List.mem_append, List.mem_singleton, RollEvent.rolled.injEq]
  have habsent : ∀ c n, .rolled guid c n ∉ log := by
    intro c n he
    exact hnew (mem_chosen.2 ⟨c, n, he⟩)
  have hroom := h.remaining_pos hguid hnew
  have hrem := h.remaining
  refine ⟨?_, ?_, ?_, ?_, ?_, ?_, ?_⟩
  · intro g hg
    rw [hchosen, List.mem_append, List.mem_singleton] at hg
    rcases hg with hg | rfl
    · exact h.known g hg
    · exact hguid
  · rw [hchosen]
    refine List.nodup_append.2 ⟨h.once, List.nodup_singleton guid, ?_⟩
    intro a ha b hb heq
    rw [List.mem_singleton] at hb
    subst hb heq
    exact hnew ha
  · rw [hchosen, List.length_append, List.length_singleton, LootRoll.enter_remaining,
      UInt32.toNat_sub_of_le _ _ (by rw [UInt32.le_iff_toNat_le]; change 1 ≤ _; omega)]
    change r.remaining.toNat - 1 + _ = _
    omega
  · intro g n
    rw [hmem, LootRoll.enter_needRolls]
    split
    · rename_i hc
      rw [LootRoll.mem_insertRoll (fun n hn => habsent _ n ((h.need guid n).1 hn)), h.need g n,
        Prod.mk.injEq, hc]
      tauto
    · rename_i hc
      rw [h.need g n]
      have hne : ¬ rollNeed = choice := fun heq => hc heq.symm
      tauto
  · intro g n
    rw [hmem, LootRoll.enter_greedRolls]
    split
    · rename_i hc
      rw [LootRoll.mem_insertRoll (fun n hn => habsent _ n ((h.greed guid n).1 hn)), h.greed g n,
        Prod.mk.injEq, hc]
      tauto
    · rename_i hc
      rw [h.greed g n]
      tauto
  · intro g c n he hneed hgreed
    rw [LootRoll.enter_passRolls]
    rcases (hmem g c n).1 he with hold | ⟨rfl, rfl, rfl⟩
    · have hin := h.pass g c n hold hneed hgreed
      split
      · exact hin
      · exact LootRoll.mem_insertPass.2 (Or.inr hin)
    · rw [if_neg (by rintro (heq | heq) <;> contradiction)]
      exact LootRoll.mem_insertPass.2 (Or.inl rfl)
  · intro g c n he
    rcases (hmem g c n).1 he with hold | ⟨-, -, rfl⟩
    · exact h.rolled g c n hold
    · exact hpos

end Counted

/-! ## The threads and the lock -/

namespace RollWorld

variable {τ : Type} {w w' : RollWorld τ} {members : Finset Nat} {t u : τ}
  {guid n : Nat} {choice : UInt8} {p : RollPoint} {item : Option LootItem}

/-- Who calls for a player, alone, is for one who may be counted; the lock
is held by the thread that says so, and after a finalization for good. -/
structure Locked (members : Finset Nat) (w : RollWorld τ) : Prop where
  pending : ∀ t guid, (w.thread t).guid = some guid → guid ∈ members ∧ guid ∉ chosen w.log
  alone : ∀ t u guid, (w.thread t).guid = some guid → (w.thread u).guid = some guid → t = u
  holding : ∀ t guid choice, w.thread t = .holding guid choice → w.roll.lootLock = .held t 1
  owner : ∀ t n, w.roll.lootLock = .held t n →
    (∃ guid choice, w.thread t = .holding guid choice) ∨
      ∃ best outcome, .finalized best outcome ∈ w.log
  final : ∀ best outcome, .finalized best outcome ∈ w.log →
    (∃ t n, w.roll.lootLock = .held t n ∧ w.thread t = .idle) ∧ w.timer = false ∧
      w.item.any (·.roll) = false

structure Inv (members : Finset Nat) (w : RollWorld τ) : Prop where
  counted : Counted members w.roll w.log
  locked : Locked members w
  fair : Fair members w.log

namespace Inv

theorem not_final (h : Inv members w) (hfree : w.roll.lootLock = .free) (best : BestRoll)
    (outcome : RollOutcome) : .finalized best outcome ∉ w.log := by
  intro hfinal
  obtain ⟨⟨u, k, hu, -⟩, -⟩ := h.locked.final best outcome hfinal
  rw [hfree] at hu
  cases hu

theorem not_holding (h : Inv members w) (hfree : w.roll.lootLock = .free) :
    w.thread u ≠ .holding guid choice := by
  intro hpoint
  have hheld := h.locked.holding u guid choice hpoint
  rw [hfree] at hheld
  cases hheld

/-- The item and the event change, and the item does not get the roll. -/
theorem setItem (h : Inv members w) {timer : Bool} (htimer : timer = true → w.timer = true)
    (hitem : item.any (·.roll) = false) :
    Inv members { w with timer := timer, item := item } := by
  refine ⟨h.counted, ⟨h.locked.pending, h.locked.alone, h.locked.holding, h.locked.owner, ?_⟩,
    h.fair⟩
  intro best outcome hfinal
  obtain ⟨hheld, hstopped, -⟩ := h.locked.final best outcome hfinal
  refine ⟨hheld, ?_, hitem⟩
  cases timer with
  | false => rfl
  | true => exact absurd (htimer rfl) (by rw [hstopped]; exact Bool.false_ne_true)

end Inv

variable [DecidableEq τ]

theorem goto_self : (w.goto t p).thread t = p := if_pos rfl

theorem goto_of_ne (h : u ≠ t) : (w.goto t p).thread u = w.thread u := if_neg h

/-- A thread goes to a place where it is in no call. -/
theorem guid_goto (hp : p.guid = none) (h : ((w.goto t p).thread u).guid = some guid) :
    u ≠ t ∧ (w.thread u).guid = some guid := by
  by_cases hu : u = t
  · subst hu
    rw [goto_self, hp] at h
    cases h
  · rw [goto_of_ne hu] at h
    exact ⟨hu, h⟩

theorem holding_goto (hp : ∀ guid choice, p ≠ .holding guid choice)
    (h : (w.goto t p).thread u = .holding guid choice) :
    u ≠ t ∧ w.thread u = .holding guid choice := by
  by_cases hu : u = t
  · subst hu
    rw [goto_self] at h
    exact absurd h (hp guid choice)
  · rw [goto_of_ne hu] at h
    exact ⟨hu, h⟩

theorem guid_none (hp : p.guid = none) (guid : Nat) (choice : UInt8) : p ≠ .holding guid choice := by
  rintro rfl
  cases hp

/-! ## The steps -/

namespace Inv

/-- A thread that acquires the lock found it free. -/
theorem lock_free (h : Inv members w) {lock : Mutex τ} (hidle : w.thread t ≠ .idle)
    (hholding : ∀ guid choice, w.thread t ≠ .holding guid choice)
    (hlock : w.roll.lootLock.attemptAcquire t = some lock) :
    w.roll.lootLock = .free ∧ lock = .held t 1 := by
  rcases Mutex.attemptAcquire_some hlock with hfree | ⟨n, hheld, -⟩
  · exact hfree
  · exfalso
    rcases h.locked.owner t n hheld with ⟨guid, choice, hpoint⟩ | ⟨best, outcome, hfinal⟩
    · exact hholding guid choice hpoint
    · obtain ⟨⟨u, k, hu, hpoint⟩, -⟩ := h.locked.final best outcome hfinal
      rw [hheld] at hu
      cases hu
      exact hidle hpoint

/-- A call that has looked. -/
theorem check (h : Inv members w) (hidle : w.thread t = .idle)
    (hitem : w.item.any (·.roll) = true) (hguid : guid ∈ members) (hnew : guid ∉ chosen w.log)
    (halone : ∀ u, (w.thread u).guid ≠ some guid) :
    Inv members (w.goto t (.checked guid choice)) := by
  have hlocked := h.locked
  refine ⟨h.counted, ⟨?_, ?_, ?_, ?_, ?_⟩, h.fair⟩
  · intro u g hu
    by_cases hut : u = t
    · subst hut
      rw [goto_self] at hu
      cases hu
      exact ⟨hguid, hnew⟩
    · rw [goto_of_ne hut] at hu
      exact hlocked.pending u g hu
  · intro u v g hu hv
    by_cases hut : u = t
    · by_cases hvt : v = t
      · exact hut.trans hvt.symm
      · rw [hut, goto_self] at hu
        cases hu
        rw [goto_of_ne hvt] at hv
        exact absurd hv (halone v)
    · rw [goto_of_ne hut] at hu
      by_cases hvt : v = t
      · rw [hvt, goto_self] at hv
        cases hv
        exact absurd hu (halone u)
      · rw [goto_of_ne hvt] at hv
        exact hlocked.alone u v g hu hv
  · intro u g c hu
    exact hlocked.holding u g c (holding_goto (fun _ _ => RollPoint.noConfusion) hu).2
  · intro u n hu
    rcases hlocked.owner u n hu with ⟨g, c, hpoint⟩ | hfinal
    · left
      refine ⟨g, c, ?_⟩
      rw [goto_of_ne]
      · exact hpoint
      · rintro rfl
        rw [hidle] at hpoint
        cases hpoint
    · exact Or.inr hfinal
  · intro best outcome hfinal
    have hgone := (hlocked.final best outcome hfinal).2.2
    rw [hitem] at hgone
    cases hgone

/-- The thread has the lock. -/
theorem hold (h : Inv members w) (ht : w.thread t = .checked guid choice)
    (hfree : w.roll.lootLock = .free) :
    Inv members { w.goto t (.holding guid choice) with
      roll := { w.roll with lootLock := .held t 1 } } := by
  have hlocked := h.locked
  have hcalls : ∀ u, ((w.goto t (.holding guid choice)).thread u).guid = (w.thread u).guid := by
    intro u
    by_cases hut : u = t
    · rw [hut, goto_self, ht]
      rfl
    · rw [goto_of_ne hut]
  refine ⟨⟨h.counted.known, h.counted.once, h.counted.remaining, h.counted.need, h.counted.greed,
    h.counted.pass, h.counted.rolled⟩, ⟨?_, ?_, ?_, ?_, ?_⟩, h.fair⟩
  · intro u g hu
    exact hlocked.pending u g ((hcalls u).symm.trans hu)
  · intro u v g hu hv
    exact hlocked.alone u v g ((hcalls u).symm.trans hu) ((hcalls v).symm.trans hv)
  · intro u g c hu
    by_cases hut : u = t
    · rw [hut]
    · exact absurd ((goto_of_ne hut).symm.trans hu) (h.not_holding hfree)
  · intro u n hu
    cases hu
    exact Or.inl ⟨guid, choice, goto_self⟩
  · intro best outcome hfinal
    exact absurd hfinal (h.not_final hfree best outcome)

/-- The choice has been counted and the lock is free again. -/
theorem leave (h : Inv members w) (ht : w.thread t = .holding guid choice) {r : LootRoll τ}
    {log : List RollEvent} (hcounted : Counted members r log) (hfree : r.lootLock = .free)
    (hchosen : chosen log = chosen w.log ++ [guid])
    (hfinal : ∀ best outcome, .finalized best outcome ∈ log → .finalized best outcome ∈ w.log)
    (hfair : Fair members log) (hp : p.guid = none) :
    Inv members { w.goto t p with roll := r, log := log } := by
  have hlocked := h.locked
  refine ⟨hcounted, ⟨?_, ?_, ?_, ?_, ?_⟩, hfair⟩
  · intro u g hu
    obtain ⟨hut, hold⟩ := guid_goto hp hu
    obtain ⟨hg, hnew⟩ := hlocked.pending u g hold
    refine ⟨hg, ?_⟩
    intro hmem
    rw [hchosen, List.mem_append, List.mem_singleton] at hmem
    rcases hmem with hmem | rfl
    · exact hnew hmem
    · exact hut (hlocked.alone u t g hold (by rw [ht]; rfl))
  · intro u v g hu hv
    exact hlocked.alone u v g (guid_goto hp hu).2 (guid_goto hp hv).2
  · intro u g c hu
    obtain ⟨hut, hpoint⟩ := holding_goto (guid_none hp) hu
    have hheld := hlocked.holding u g c hpoint
    rw [hlocked.holding t guid choice ht] at hheld
    cases hheld
    exact absurd rfl hut
  · intro u n hu
    rw [hfree] at hu
    cases hu
  · intro best outcome hmem
    obtain ⟨⟨u, n, hu, hidle⟩, -⟩ := hlocked.final best outcome (hfinal best outcome hmem)
    rw [hlocked.holding t guid choice ht] at hu
    cases hu
    rw [ht] at hidle
    cases hidle

/-- A thread that is in no call goes elsewhere, and the event is gone. -/
theorem move (h : Inv members w) (ht : (w.thread t).guid = none) (hp : p.guid = none)
    (hidle : p = .idle ∨ w.timer = true) : Inv members { w.goto t p with timer := false } := by
  have hlocked := h.locked
  refine ⟨h.counted, ⟨?_, ?_, ?_, ?_, ?_⟩, h.fair⟩
  · intro u g hu
    exact hlocked.pending u g (guid_goto hp hu).2
  · intro u v g hu hv
    exact hlocked.alone u v g (guid_goto hp hu).2 (guid_goto hp hv).2
  · intro u g c hu
    exact hlocked.holding u g c (holding_goto (guid_none hp) hu).2
  · intro u n hu
    rcases hlocked.owner u n hu with ⟨g, c, hpoint⟩ | hfinal
    · left
      refine ⟨g, c, ?_⟩
      rw [← hpoint]
      refine goto_of_ne ?_
      rintro rfl
      exact guid_none ht g c hpoint
    · exact Or.inr hfinal
  · intro best outcome hmem
    obtain ⟨⟨u, n, hu, hpoint⟩, hstopped, hgone⟩ := hlocked.final best outcome hmem
    rcases hidle with rfl | hrunning
    · refine ⟨⟨u, n, hu, ?_⟩, rfl, hgone⟩
      by_cases hut : u = t
      · rw [hut]
        exact goto_self
      · exact (goto_of_ne hut).trans hpoint
    · rw [hstopped] at hrunning
      cases hrunning

/-- The finalization. -/
theorem finish (h : Inv members w) (hfree : w.roll.lootLock = .free)
    (hitem : item.any (·.roll) = false) (outcome : RollOutcome) :
    Inv members { w.goto t .idle with
      timer := false, item := item, roll := { w.roll with lootLock := .held t 1 },
      log := w.log ++ [.finalized w.roll.best outcome] } := by
  have hlocked := h.locked
  have hcounted := h.counted.snoc (e := .finalized w.roll.best outcome)
    (fun _ _ _ => RollEvent.noConfusion)
  have hchosen : chosen (w.log ++ [.finalized w.roll.best outcome]) = chosen w.log := by
    rw [chosen_append]
    exact List.append_nil _
  have hp : RollPoint.idle.guid = none := rfl
  refine ⟨⟨hcounted.known, hcounted.once, hcounted.remaining, hcounted.need, hcounted.greed,
    hcounted.pass, hcounted.rolled⟩, ⟨?_, ?_, ?_, ?_, ?_⟩, h.fair.snoc ⟨h.counted.wins,
      h.not_final hfree⟩⟩
  · intro u g hu
    rw [hchosen]
    exact hlocked.pending u g (guid_goto hp hu).2
  · intro u v g hu hv
    exact hlocked.alone u v g (guid_goto hp hu).2 (guid_goto hp hv).2
  · intro u g c hu
    exact absurd (holding_goto (guid_none hp) hu).2 (h.not_holding hfree)
  · intro u n hu
    exact Or.inr ⟨_, _, List.mem_append_right _ List.mem_cons_self⟩
  · intro best outcome hmem
    exact ⟨⟨t, 1, rfl, goto_self⟩, rfl, hitem⟩

end Inv

/-- The condition on a step: who chooses is a member, has not passed, and
has no other call under way. -/
def Proper (members : Finset Nat) (w : RollWorld τ) : Action τ → Prop
  | .call _ guid _ =>
    guid ∈ members ∧ guid ∉ w.roll.passRolls ∧ ∀ t, (w.thread t).guid ≠ some guid
  | _ => True

theorem Inv.call (h : Inv members w)
    (hok : guid ∈ members ∧ guid ∉ w.roll.passRolls ∧ ∀ t, (w.thread t).guid ≠ some guid)
    (hstep : w.call t guid choice = some w') : Inv members w' := by
  unfold RollWorld.call at hstep
  rw [Option.ite_none_right_eq_some] at hstep
  obtain ⟨⟨hidle, hitem⟩, hstep⟩ := hstep
  by_cases hroll : w.roll.hasRolled guid = true
  · rw [if_pos hroll] at hstep
    cases hstep
    exact h
  · rw [if_neg hroll] at hstep
    cases hstep
    rw [Bool.not_eq_true] at hroll
    exact h.check hidle hitem hok.1 (h.counted.not_chosen hroll hok.2.1) hok.2.2

theorem Inv.acquire (h : Inv members w) (hstep : w.acquire t = some w') : Inv members w' := by
  unfold RollWorld.acquire at hstep
  split at hstep
  · rename_i guid choice ht
    obtain ⟨lock, hlock, rfl⟩ := Option.map_eq_some_iff.1 hstep
    obtain ⟨hfree, rfl⟩ := h.lock_free (by rw [ht]; exact RollPoint.noConfusion)
      (by rw [ht]; exact fun _ _ => RollPoint.noConfusion) hlock
    exact h.hold ht hfree
  · cases hstep

theorem Inv.count (h : Inv members w) (hstep : w.count t n = some w') : Inv members w' := by
  unfold RollWorld.count at hstep
  split at hstep
  · rename_i guid choice ht
    obtain ⟨hguid, hnew⟩ := h.locked.pending t guid (by rw [ht]; rfl)
    have hcounted : Counted members (w.roll.enter guid choice (n + 1))
        (w.log ++ [.rolled guid choice (n + 1)]) := h.counted.enter hguid hnew (Nat.succ_pos n)
    have hfair : Fair members (w.log ++ [.rolled guid choice (n + 1)]) := h.fair.snoc hnew
    have hfree : (w.roll.enter guid choice (n + 1)).lootLock.release = .free := by
      rw [LootRoll.enter_lootLock, h.locked.holding t guid choice ht, Mutex.release_once]
    -- only the choice, and perhaps the end of the countdown, is new in the log
    have hlog : chosen (w.log ++ [.rolled guid choice (n + 1)]) = chosen w.log ++ [guid] :=
      chosen_append _ _
    rw [Option.ite_none_right_eq_some] at hstep
    obtain ⟨-, hstep⟩ := hstep
    dsimp only at hstep
    split at hstep
    · rename_i hzero
      cases hstep
      have hclosed := hcounted.snoc (e := .closed) (fun _ _ _ => RollEvent.noConfusion)
      refine h.leave ht ⟨hclosed.known, hclosed.once, hclosed.remaining, hclosed.need,
        hclosed.greed, hclosed.pass, hclosed.rolled⟩ hfree ?_ ?_
        (hfair.snoc (hcounted.all_chosen hzero)) rfl
      · rw [chosen_append, hlog]
        exact List.append_nil _
      · intro best outcome hmem
        simpa using hmem
    · cases hstep
      refine h.leave ht ⟨hcounted.known, hcounted.once, hcounted.remaining, hcounted.need,
        hcounted.greed, hcounted.pass, hcounted.rolled⟩ hfree hlog ?_ hfair rfl
      intro best outcome hmem
      simpa using hmem
  · cases hstep

omit [DecidableEq τ] in
theorem award_roll (r : LootRoll τ) (map : RollMap) (item : LootItem) :
    (r.award map item).1.roll = false := by
  unfold LootRoll.award
  dsimp only
  split
  · rfl
  · split
    · rfl
    · split <;> rfl

theorem Inv.finalize (h : Inv members w) {map : RollMap} (hstep : w.finalize t map = some w') :
    Inv members w' := by
  unfold RollWorld.finalize at hstep
  split at hstep
  · rename_i ht
    dsimp only at hstep
    split at hstep
    · cases hstep
      exact h.move (by rw [ht]; rfl) rfl (Or.inl rfl)
    · rename_i lock hlock
      obtain ⟨hfree, rfl⟩ := h.lock_free (by rw [ht]; exact RollPoint.noConfusion)
        (by rw [ht]; exact fun _ _ => RollPoint.noConfusion) hlock
      split at hstep
      · rename_i hnone
        have hitem : w.item.any (·.roll) = false := by
          rw [show w.item = none from hnone]
          rfl
        cases hstep
        exact h.finish hfree hitem .lootGone
      · rename_i item _
        have hitem : (some ({ w.roll with lootLock := .held t 1 }.award map item).1).any (·.roll) =
            false := award_roll _ map item
        cases hstep
        exact h.finish hfree hitem _
  · cases hstep

theorem Inv.step (h : Inv members w) {a : Action τ} (hok : Proper members w a)
    (hstep : w.step a = some w') : Inv members w' := by
  cases a with
  | call t guid choice => exact h.call hok hstep
  | acquire t => exact h.acquire hstep
  | count t n => exact h.count hstep
  | finalize t map => exact h.finalize hstep
  | timeout t =>
    unfold RollWorld.step RollWorld.timeout at hstep
    rw [Option.ite_none_right_eq_some] at hstep
    obtain ⟨⟨hidle, htimer⟩, hstep⟩ := hstep
    cases hstep
    exact h.move (by rw [hidle]; rfl) rfl (Or.inr htimer)
  | clearLoot =>
    cases hstep
    refine h.setItem ?_ rfl
    intro htimer
    exact (Bool.and_eq_true_iff.1 htimer).1
  | despawn =>
    cases hstep
    exact h.setItem (fun htimer => htimer) rfl
  | refill itemsCount =>
    cases hstep
    exact h.setItem (fun htimer => htimer) rfl

/-! ## Runs -/

instance [Fintype τ] (members : Finset Nat) (w : RollWorld τ) :
    (a : Action τ) → Decidable (Proper members w a)
  | .call _ guid _ => inferInstanceAs (Decidable
      (guid ∈ members ∧ guid ∉ w.roll.passRolls ∧ ∀ t, (w.thread t).guid ≠ some guid))
  | .acquire _ => .isTrue trivial
  | .count _ _ => .isTrue trivial
  | .finalize _ _ => .isTrue trivial
  | .timeout _ => .isTrue trivial
  | .clearLoot => .isTrue trivial
  | .despawn => .isTrue trivial
  | .refill _ => .isTrue trivial

end RollWorld

end HearthStone
