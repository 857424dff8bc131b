/-
HearthStone.Lib.Quota — a counter that limits uses per period, with a
reset that is made lazily, at the first use after the period is over.

Nothing here names the server. A limit is signed: a negative one stands
for no limit, zero for no use at all. The counter and the time of its
last reset are machine words, and a use that finds the period over starts
the counter at an amount of its own, where any other use adds one.

`Period` is the other side of the books: what was really used since the
last reset, and the largest limit that was in force meanwhile. `Covers`
says that the counter accounts for it; `Covers.charge` is the step, and
`remaining_le_iff` says when the allowance makes sense at all.
-/
import Mathlib

namespace HearthStone.Lib

/-- When the counter was last reset, and where it stands. -/
structure Quota where
  lastReset : UInt32
  used : UInt32
  deriving DecidableEq

/-- Uses since the last reset, and the largest limit in force since. -/
structure Period where
  withdrawn : Nat
  limit : WithTop ℕ

/-- The limit as a number; a negative one is none. -/
def limitOf (limit : Int32) : WithTop ℕ := if limit < 0 then ⊤ else (limit.toUInt32.toNat : WithTop ℕ)

namespace Quota

variable (day : Nat) (limit : Int32) (q : Quota) (now : Nat) (amt : UInt32)

/-- The period is over, on a signed clock. -/
def Over : Prop := (now : Int) - q.lastReset.toNat ≥ day

/-- The period is over, on the clock of a machine word. -/
def Over32 : Prop := (UInt32.ofNat now - q.lastReset).toNat ≥ day

instance : Decidable (q.Over day now) := by unfold Over; infer_instance
instance : Decidable (q.Over32 day now) := by unfold Over32; infer_instance

/-- What may still be used. -/
def remaining : UInt32 :=
  if limit = -1 then 0xFFFFFFFF
  else if limit = 0 then 0
  else if q.Over day now then limit.toUInt32
  else limit.toUInt32 - q.used

/-- The counter after a use of `amt`. -/
def charge : Quota :=
  if limit ≤ 0 then q
  else if q.Over32 day now then ⟨UInt32.ofNat now, amt⟩
  else { q with used := q.used + 1 }

end Quota

namespace Period

/-- No use and no limit yet. -/
def new : Period := ⟨0, 0⟩

/-- The books after a step: they start anew where the reset time of the
counter does, or the counter itself. -/
def next (p : Period) (before : Option UInt32) (after : UInt32) (taken : Nat) (limit : WithTop ℕ) :
    Period :=
  let p := if before = some after then p else .new
  ⟨p.withdrawn + taken, max p.limit limit⟩

end Period

/-- The counter accounts for the uses, and they are within the limit. -/
def Covers (used : UInt32) (p : Period) : Prop :=
  p.limit = ⊤ ∨ (p.withdrawn ≤ used.toNat ∧ (p.withdrawn : WithTop ℕ) ≤ p.limit)

namespace Covers

variable {used : UInt32} {p : Period} {day : Nat} {limit : Int32} {q : Quota} {now : Nat}
  {amt : UInt32}

theorem within (h : Covers used p) : (p.withdrawn : WithTop ℕ) ≤ p.limit := by
  rcases h with h | h
  · rw [h]
    exact le_top
  · exact h.2

/-- Nothing is used; the limit in force may change. -/
theorem idle (h : Covers used p) (last : UInt32) (lim : WithTop ℕ) :
    Covers used (p.next (some last) last 0 lim) := by
  unfold Period.next
  rw [if_pos rfl]
  rcases h with h | ⟨hused, hlim⟩
  · left
    dsimp only
    rw [h, max_eq_left le_top]
  · right
    exact ⟨hused, le_trans hlim (le_max_left _ _)⟩

/-- The counter is made. -/
theorem start (last : UInt32) (lim : WithTop ℕ) : Covers used (p.next none last 0 lim) := by
  unfold Period.next
  rw [if_neg (by simp)]
  exact .inr ⟨Nat.zero_le _, le_max_left _ _⟩

/-- Under no limit anything may be used. -/
theorem unlimited (last last' : UInt32) (taken : Nat) :
    Covers used (p.next (some last) last' taken ⊤) := by
  left
  exact max_eq_right le_top

end Covers

section Charge

variable {p : Period} {day : Nat} {limit : Int32} {q : Quota} {now : Nat} {amt : UInt32}

/-- A positive limit as a word keeps its value, and is below 2^31. -/
theorem limitOf_pos (h : 0 < limit) :
    limitOf limit = limit.toUInt32.toNat ∧ limit.toUInt32.toNat < 2 ^ 31 := by
  have hle : 0 ≤ limit := Int32.le_of_lt h
  constructor
  · unfold limitOf
    rw [if_neg (Int32.not_lt.mpr hle)]
  · rw [Int32.toNat_toUInt32_of_le hle]
    have hlt := limit.toInt_lt
    change limit.toInt.toNat < 2 ^ 31
    omega

theorem limitOf_neg (h : limit < 0) : limitOf limit = ⊤ := if_pos h

theorem Quota.remaining_pos (h : 0 < limit) : q.remaining day limit now =
    if q.Over day now then limit.toUInt32 else limit.toUInt32 - q.used := by
  unfold Quota.remaining
  rw [if_neg, if_neg (Int32.ne_of_lt h).symm]
  rintro rfl
  exact absurd h (by decide)

/-- A word taken from a word is no larger than it just when it does not wrap. -/
theorem toNat_sub_le_iff (a b : UInt32) : (a - b).toNat ≤ a.toNat ↔ b ≤ a := by
  constructor
  · intro h
    by_contra hlt
    rw [UInt32.not_le] at hlt
    rw [UInt32.toNat_sub] at h
    have hb := b.toNat_lt
    rw [UInt32.lt_iff_toNat_lt] at hlt
    omega
  · intro h
    rw [UInt32.toNat_sub_of_le _ _ h]
    exact Nat.sub_le _ _

/-- No more remains than the limit, just when there is no limit, or the
period is over, or the counter has not passed the limit. -/
theorem remaining_le_iff : ((q.remaining day limit now).toNat : WithTop ℕ) ≤ limitOf limit ↔
    limit ≤ 0 ∨ q.Over day now ∨ q.used ≤ limit.toUInt32 := by
  by_cases hpos : 0 < limit
  · rw [Quota.remaining_pos hpos, (limitOf_pos hpos).1]
    have hnot : ¬ limit ≤ 0 := Int32.not_le.mpr hpos
    by_cases hover : q.Over day now
    · simp [hover]
    · rw [if_neg hover, Nat.cast_withTop, Nat.cast_withTop, WithTop.coe_le_coe, toNat_sub_le_iff]
      simp [hover, hnot]
  · have hle : limit ≤ 0 := Int32.not_lt.mp hpos
    refine iff_of_true ?_ (.inl hle)
    by_cases hzero : limit = 0
    · subst hzero
      exact le_refl (0 : WithTop ℕ)
    · rw [limitOf_neg (Int32.lt_of_le_of_ne hle hzero)]
      exact le_top

/-- A use within what remains is accounted for: it is the first of a
period, or else it is of one, and the counter has not passed the limit. -/
theorem Covers.charge (h : Covers q.used p) (hpos : 0 < limit) (hnow : now < 2 ^ 32)
    (hamt : amt ≤ q.remaining day limit now) (hover : q.Over day now ∨ q.used ≤ limit.toUInt32)
    (hone : q.Over32 day now ∨ amt = 1) (hday : 0 < day) :
    Covers (q.charge day limit now amt).used
      (p.next (some q.lastReset) (q.charge day limit now amt).lastReset amt.toNat
        (limitOf limit)) := by
  obtain ⟨hlimit, hlt⟩ := limitOf_pos hpos
  rw [Quota.remaining_pos hpos] at hamt
  have hle : amt ≤ limit.toUInt32 := by
    split at hamt
    · exact hamt
    · rename_i hnot
      refine UInt32.le_trans hamt ?_
      rw [UInt32.le_iff_toNat_le, toNat_sub_le_iff]
      exact hover.resolve_left hnot
  unfold Quota.charge
  rw [if_neg (Int32.not_le.mpr hpos), hlimit]
  by_cases hreset : q.Over32 day now
  · -- a new period starts at this use
    rw [if_pos hreset]
    have hnew : some q.lastReset ≠ some (UInt32.ofNat now) := by
      intro heq
      unfold Quota.Over32 at hreset
      rw [Option.some.inj heq, UInt32.sub_self] at hreset
      exact absurd hreset (Nat.not_le.mpr hday)
    unfold Period.next
    rw [if_neg hnew]
    right
    simp only [Period.new, Nat.zero_add]
    refine ⟨le_refl _, le_max_of_le_right ?_⟩
    rw [Nat.cast_withTop, Nat.cast_withTop, WithTop.coe_le_coe]
    exact UInt32.le_iff_toNat_le.mp hle
  · rw [if_neg hreset]
    obtain rfl := hone.resolve_left hreset
    -- on both clocks the period is not over
    have hnot : ¬ q.Over day now := by
      intro hov
      apply hreset
      unfold Quota.Over at hov
      unfold Quota.Over32
      rw [UInt32.toNat_sub_of_le, UInt32.toNat_ofNat_of_lt' hnow]
      · omega
      · rw [UInt32.le_iff_toNat_le, UInt32.toNat_ofNat_of_lt' hnow]
        omega
    rw [if_neg hnot] at hamt
    have hroom : q.used.toNat + 1 ≤ limit.toUInt32.toNat := by
      rw [UInt32.le_iff_toNat_le, UInt32.toNat_sub_of_le _ _ (hover.resolve_left hnot)] at hamt
      change 1 ≤ limit.toUInt32.toNat - q.used.toNat at hamt
      omega
    have hnext : (q.used + 1).toNat = q.used.toNat + 1 := by
      rw [UInt32.toNat_add]
      change (q.used.toNat + 1) % 2 ^ 32 = _
      omega
    unfold Period.next
    rw [if_pos rfl]
    rcases h with h | ⟨hw, -⟩
    · left
      dsimp only
      rw [h, max_eq_left le_top]
    · right
      rw [hnext]
      change p.withdrawn + 1 ≤ q.used.toNat + 1 ∧ ((p.withdrawn + 1 : ℕ) : WithTop ℕ) ≤ _
      refine ⟨by omega, le_max_of_le_right ?_⟩
      rw [Nat.cast_withTop, Nat.cast_withTop, WithTop.coe_le_coe]
      omega

end Charge

end HearthStone.Lib
