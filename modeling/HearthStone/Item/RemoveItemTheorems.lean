/-
HearthStone.Item.RemoveItemTheorems — when `RemoveItemAmt` removes what
it is asked to and says so.

The function returns what it has taken last. That is what it was asked
for when the first stack it can take from has it all.

* `returned` — the value, from the stacks beforehand.
* `Served` — the first stack has it all.
* `removeItemAmt_exact` — the removal is exact and reported then, and
  refused when there is too little.
-/
import HearthStone.Item.RemovalAccount

namespace HearthStone

open Lib

namespace ItemWorld

open Removal

variable {w : ItemWorld} {me : PlayerGuid} {id amt : UInt32} {l : List Stack}

/-! ## The value -/

/-- What the loops return over the stacks of a list. -/
def returned (w : ItemWorld) : UInt32 → List Stack → UInt32
  | _, [] => 0
  | amt, st :: l =>
    if amt < w.stackCount st.guid then amt
    else if w.stackCount st.guid = amt then (if w.isFullBag st.guid = true then 0 else amt)
    else returned w (amt - w.stackCount st.guid) l

theorem SameStacks.returned {v : ItemWorld} (h : SameStacks w v id l) (amt : UInt32) :
    ItemWorld.returned v amt l = ItemWorld.returned w amt l := by
  induction l generalizing amt with
  | nil => rfl
  | cons st l ih =>
    unfold ItemWorld.returned
    rw [h.count st List.mem_cons_self, h.full st List.mem_cons_self, ih h.tail]

theorem takeAll_returned_eq (protect : Guid → Option Guid → Option Guid) {s : Removal}
    (hv : s.world.Orderly) (hl : Arranged me s.world l) (hres : s.result = none) :
    (s.takeAll me protect l).result.getD 0 = returned s.world s.amt l := by
  induction l generalizing s with
  | nil =>
    rw [takeAll_nil, hres]
    rfl
  | cons st l ih =>
    have hst := hl.sits st List.mem_cons_self
    have hdrained := take_drained protect (Drained.refl hv) hst
    -- the id plays no part
    have hsame := take_sameStacks protect hv hl 0
    have hrest := hl.take protect hv
    rw [takeAll_cons hres]
    unfold returned
    rcases take_cases protect hv hst with ⟨hlt, heq⟩ | ⟨hle, hf, heq⟩ | ⟨hle, hf, v, hrem, heq⟩
    · rw [if_pos hlt, heq, takeAll_returned rfl]
      rfl
    · rw [if_neg (UInt32.not_lt.2 hle)]
      by_cases hcount : s.world.stackCount st.guid = s.amt
      · rw [heq, if_pos hcount, if_pos hcount, if_pos hcount, if_pos hf, takeAll_returned rfl]
        rfl
      · rw [if_neg hcount]
        have hih := ih hdrained.orderly hrest
        rw [hsame.returned] at hih
        rw [heq, if_neg hcount, if_neg hcount] at hih ⊢
        exact hih hres
    · have hfull : ¬ s.world.isFullBag st.guid = true := by simp [hf]
      rw [if_neg (UInt32.not_lt.2 hle)]
      by_cases hcount : s.world.stackCount st.guid = s.amt
      · rw [heq, if_pos hcount, if_pos hcount, if_pos hcount, if_neg hfull, takeAll_returned rfl]
        rfl
      · rw [if_neg hcount]
        have hih := ih hdrained.orderly hrest
        rw [hsame.returned] at hih
        rw [heq, if_neg hcount, if_neg hcount] at hih ⊢
        exact hih hres

/-! ## The first stack -/

theorem returned_le (w : ItemWorld) (amt : UInt32) (l : List Stack) : returned w amt l ≤ amt := by
  induction l generalizing amt with
  | nil => exact UInt32.zero_le
  | cons st l ih =>
    unfold returned
    split
    · exact UInt32.le_refl amt
    · rename_i hnot
      split
      · split
        · exact UInt32.zero_le
        · exact UInt32.le_refl amt
      · exact UInt32.le_trans (ih _) (UInt32.sub_le (UInt32.not_lt.1 hnot))

/-- What is returned has been taken. -/
theorem returned_le_taken (w : ItemWorld) (amt : UInt32) (l : List Stack) :
    (returned w amt l).toNat ≤ taken w amt l := by
  induction l generalizing amt with
  | nil => exact Nat.le_refl 0
  | cons st l ih =>
    unfold returned taken
    split
    · exact Nat.le_refl _
    · split
      · rename_i hcount
        split
        · exact Nat.zero_le _
        · rw [Nat.add_zero, ← hcount]
          unfold units
          split
          · exact Nat.le_refl _
          · rename_i hz
            rw [not_not.1 hz]
            exact Nat.zero_le _
      · exact (ih _).trans (Nat.le_add_left _ _)

/-- The first stack that the function can take from has enough. A stack of
none is taken away for nothing, and of a bag with items in it the function
can take a part alone. -/
def Served (w : ItemWorld) (id amt : UInt32) : List Stack → Prop
  | [] => amt = 0
  | st :: l =>
    if w.isFullBag st.guid = true then
      amt < w.stackCount st.guid ∨
        w.stackCount st.guid = 0 ∧ (amt = 0 ∨ Served w id amt l)
    else
      amt ≤ w.stackCount st.guid ∧ w.stackCount st.guid ≠ 0 ∧
        (amt = 0 ∨ w.Counts id st.place st.guid = true)

instance (w : ItemWorld) (id amt : UInt32) : ∀ l, Decidable (Served w id amt l)
  | [] => inferInstanceAs (Decidable (amt = 0))
  | st :: l =>
    have := instDecidableServed w id amt l
    inferInstanceAs (Decidable (if w.isFullBag st.guid = true then
      amt < w.stackCount st.guid ∨ w.stackCount st.guid = 0 ∧ (amt = 0 ∨ Served w id amt l)
    else amt ≤ w.stackCount st.guid ∧ w.stackCount st.guid ≠ 0 ∧
      (amt = 0 ∨ w.Counts id st.place st.guid = true)))

theorem eq_zero_of_le_sub {a b : UInt32} (hle : b ≤ a) (h : a ≤ a - b) : b = 0 := by
  have hsub := UInt32.toNat_sub_of_le a b hle
  rw [UInt32.le_iff_toNat_le, hsub] at h
  rw [UInt32.le_iff_toNat_le] at hle
  exact UInt32.toNat.inj (by rw [UInt32.toNat_zero]; omega)

/-- All of it is taken, of the entry, and reported, when the first stack
serves. -/
theorem served_iff (hfull : ∀ st ∈ l, w.isFullBag st.guid = true →
      w.Counts id st.place st.guid = true) :
    Served w id amt l ↔
      returned w amt l = amt ∧ AllCount w id amt l ∧ taken w amt l = amt.toNat := by
  induction l with
  | nil =>
    constructor
    · rintro rfl
      exact ⟨rfl, trivial, rfl⟩
    · exact fun h => h.1.symm
  | cons st l ih =>
    have hrest := ih fun st' hst' => hfull st' (List.mem_cons_of_mem st hst')
    have hvalue := returned_le w (amt - w.stackCount st.guid) l
    have htaken := returned_le_taken w (amt - w.stackCount st.guid) l
    unfold Served returned AllCount taken
    by_cases hlt : amt < w.stackCount st.guid
    · -- a part of the stack is enough
      have hne : w.stackCount st.guid ≠ 0 := fun hz => UInt32.not_lt_zero (hz ▸ hlt)
      rw [if_pos hlt, if_pos hlt, if_pos hlt]
      by_cases hf : w.isFullBag st.guid = true
      · rw [if_pos hf]
        simp [hlt, hfull st List.mem_cons_self hf]
      · rw [if_neg hf]
        simp [UInt32.le_of_lt hlt, hne]
    · have hle : w.stackCount st.guid ≤ amt := UInt32.not_lt.1 hlt
      rw [if_neg hlt, if_neg hlt, if_neg hlt]
      by_cases hcount : w.stackCount st.guid = amt
      · -- the stack is what is asked for
        rw [if_pos hcount, if_pos hcount, hcount, Nat.add_zero]
        by_cases hf : w.isFullBag st.guid = true
        · rw [if_pos hf, if_pos hf, if_pos hf]
          by_cases hz : amt = 0
          · simp [hz, hf]
          · simp [hz, Ne.symm hz, UInt32.lt_irrefl]
        · rw [if_neg hf, if_neg hf, if_neg hf]
          by_cases hz : amt = 0
          · have hunits : w.units st.guid = 1 := if_neg (by rw [hcount, hz]; simp)
            simp [hz, hunits]
          · have hunits : w.units st.guid = amt := by
              unfold units
              rw [hcount, if_pos hz]
            simp [hz, hunits, hf]
      · -- the rest comes from the next stacks, so this one is of none
        rw [if_neg hcount, if_neg hcount, or_iff_right hcount]
        by_cases hz : w.stackCount st.guid = 0
        · have hpos : amt ≠ 0 := fun h => hcount (hz.trans h.symm)
          rw [hz, UInt32.sub_zero] at htaken ⊢
          by_cases hf : w.isFullBag st.guid = true
          · rw [if_pos hf, if_pos hf, Nat.zero_add, hrest]
            simp [hpos, hf, UInt32.not_lt_zero]
          · rw [if_neg hf, if_neg hf]
            have hunits : w.units st.guid = 1 := if_neg (by rw [hz]; simp)
            refine iff_of_false (fun h => h.2.1 rfl) ?_
            rintro ⟨hall, -, hsum⟩
            rw [hall] at htaken
            rw [hunits] at hsum
            have hone : (1 : UInt32).toNat = 1 := rfl
            omega
        · refine iff_of_false ?_ fun h => ?_
          · split
            · rintro (h | h)
              · exact hlt h
              · exact hz h.1
            · exact fun h => hcount (UInt32.le_antisymm hle h.1)
          · rw [h.1] at hvalue
            exact hz (eq_zero_of_le_sub hle hvalue)

/-! ## The function -/

/-- `RemoveItemAmt` removes what it is asked to and says so, or refuses. -/
def RemovesExactly (w : ItemWorld) (me : PlayerGuid) (id amt : UInt32) : Prop :=
  if amt ≤ w.getItemCount me id false then
    (w.removeItemAmt me id amt).1 = amt ∧ w.Exact (w.removeItemAmt me id amt).2 me id amt.toNat
  else w.removeItemAmt me id amt = (0, w)

/-- The bags with items in them are those on the key ring. -/
theorem counts_of_full (hw : w.Orderly) {st : Stack} (h : st ∈ w.itemStacks me id)
    (hfull : w.isFullBag st.guid = true) : w.Counts id st.place st.guid = true := by
  have hheld := (sits_itemStacks h).held
  rcases mem_itemStacks h with ⟨i, -, hst⟩ | ⟨i, bag, j, -, -, -, hst⟩ | ⟨i, -, -, hst⟩
  · obtain ⟨-, -, -, -, hskip⟩ := topStack_spec hst
    rw [hfull] at hskip
    cases hskip
  · rw [(cellStack_spec hst).2.1] at hheld
    have hno := hw.noItems_of_cell hheld
    unfold isFullBag hasItems at hfull
    simp [hno _] at hfull
  · obtain ⟨-, hplace, -, htest, -⟩ := topStack_spec hst
    rw [Item.isProto_eq] at htest
    rw [hplace]
    exact htest

/-- It does exactly so when there is less than is asked for, or the first
stack it can take from has it all. -/
theorem removeItemAmt_exact (hw : w.Orderly) (me : PlayerGuid) (id amt : UInt32) :
    w.RemovesExactly me id amt ↔
      w.getItemCount me id false < amt ∨ Served w id amt (w.itemStacks me id) := by
  unfold RemovesExactly
  by_cases hle : amt ≤ w.getItemCount me id false
  · have hvalue : (w.removeItemAmt me id amt).1 = returned w amt (w.itemStacks me id) := by
      unfold removeItemAmt
      rw [removeAmt_eq hw _ none hle]
      exact takeAll_returned_eq (s := ⟨w, amt, none, none⟩) _ hw (arranged_itemStacks hw me id) rfl
    rw [if_pos hle, removeItemAmt_takes hw hle, hvalue, or_iff_right (UInt32.not_lt.2 hle),
      served_iff fun st hst => counts_of_full hw hst]
    rfl
  · have hlt := UInt32.not_le.1 hle
    unfold removeItemAmt removeAmt
    rw [if_neg hle, if_pos hlt]
    exact iff_of_true rfl (Or.inl hlt)

/-! ## Two stacks -/

def stackOwner : PlayerGuid := ⟨63, by decide⟩

/-- Two stacks of five in the backpack. -/
def twoStacks : ItemWorld :=
  .ofPlaces (fun _ => { newItem
      { ItemPrototype.plain 143 with maxCount := 24, maxCount_lt := by decide } false with
      owner := some stackOwner, stackCount := 5 })
    [(.top stackOwner 23, 1), (.top stackOwner 24, 2)] 3

/-- Five are in the first stack. -/
theorem removeItemAmt_exact_five : twoStacks.RemovesExactly stackOwner 143 5 := by
  refine (removeItemAmt_exact (ItemWorld.orderly_ofPlaces stackOwner (by decide) (by decide))
    stackOwner 143 5).2 (Or.inr ?_)
  decide +kernel

/-- Ten are removed, and five reported. -/
theorem twoStacks_not_exact : ¬ ∀ w : ItemWorld, w.Orderly → ∀ me id amt,
    w.RemovesExactly me id amt := by
  intro hall
  have hw : twoStacks.Orderly := ItemWorld.orderly_ofPlaces stackOwner (by decide) (by decide)
  have hexact := hall twoStacks hw stackOwner 143 10
  have hcount : 10 ≤ twoStacks.getItemCount stackOwner 143 false := by decide +kernel
  have hfive : (twoStacks.removeItemAmt stackOwner 143 10).1 = 5 := by decide +kernel
  unfold RemovesExactly at hexact
  rw [if_pos hcount, hfive] at hexact
  exact absurd hexact.1 (by decide)

end ItemWorld

end HearthStone
