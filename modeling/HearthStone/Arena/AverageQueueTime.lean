/-
HearthStone.Arena.AverageQueueTime — the times players waited in the queues
of the battlegrounds (`BattlegroundMgr.cpp`).

A type of battleground has ten places for times, an empty one is zero. A row
is a function of the place.
-/
import Mathlib

namespace HearthStone.QueueTimes

abbrev BATTLEGROUND_NUM_TYPES : Nat := 10

/-- The ten places of a type. -/
abbrev Row := Nat → UInt32

/-- `m_averageQueueTimes`. -/
abbrev QueueTimes := Fin BATTLEGROUND_NUM_TYPES → Row

/-- The constructor. -/
def empty : QueueTimes := fun _ _ => 0

/-- "move the queue times one place in the array", a turn of the loop. -/
def moveOne (times : Row) (i : Nat) : Row := Function.update times (i + 1) (times i)

def addTime (times : Row) (queueTime : UInt32) : Row :=
  Function.update ((List.range 9).foldl moveOne times) 0 queueTime

def AddAverageQueueTime (m : QueueTimes) (BgType : Fin BATTLEGROUND_NUM_TYPES)
    (queueTime : UInt32) : QueueTimes :=
  Function.update m BgType (addTime (m BgType) queueTime)

/-- The loop of `GetAverageQueueTime` over the places from 1 on. -/
def averageLoop (times : Row) : List Nat → UInt32 → UInt32
  | [], avg => avg
  | i :: is, avg =>
    if times i = 0 then avg else averageLoop times is ((avg + times i) / 2)

def GetAverageQueueTime (m : QueueTimes) (BgType : Fin BATTLEGROUND_NUM_TYPES) : UInt32 :=
  averageLoop (m BgType) (List.range' 1 9) (m BgType 0)

/-- A call of `AddAverageQueueTime`. -/
structure Call where
  BgType : Fin BATTLEGROUND_NUM_TYPES
  queueTime : UInt32

def run (m : QueueTimes) (calls : List Call) : QueueTimes :=
  calls.foldl (fun m c => AddAverageQueueTime m c.BgType c.queueTime) m

end HearthStone.QueueTimes

/-! ## Theorems

What the ten places hold after any number of calls.

The times are moved from the first place on, so that each place takes what
was put there the turn before: nine places hold the time before the newest.

* `foldl_moveOne` — the loop, after any number of its turns.
* `row_run` — the row of a type, over any calls.
* `stored_iff` — it is the history exactly up to one time, or when nine
  times in a row are the same.
* `within_of_noCarry` — the average stays between the two times it is made
  of as long as no sum passes 32 bits.
* `queue_times_iff` — both.
-/

namespace HearthStone.QueueTimes

variable {times : Row} {m : QueueTimes} {t : Fin BATTLEGROUND_NUM_TYPES} {calls : List Call}
  {ts : List UInt32}

/-! ## The row -/

/-- After `n` turns the places up to the `n`-th hold the first time. -/
theorem foldl_moveOne (times : Row) (n j : Nat) :
    (List.range n).foldl moveOne times j = if j ≤ n then times 0 else times j := by
  induction n generalizing j with
  | zero =>
    by_cases hj : j = 0
    · simp [hj]
    · simp [hj]
  | succ n ih =>
    rw [List.range_succ, List.foldl_append, List.foldl_cons, List.foldl_nil, moveOne]
    by_cases hj : j = n + 1
    · subst hj
      rw [Function.update_self, ih, if_pos (Nat.le_refl _), if_pos (Nat.le_refl _)]
    · rw [Function.update_of_ne hj, ih]
      by_cases hle : j ≤ n
      · rw [if_pos hle, if_pos (by omega)]
      · rw [if_neg hle, if_neg (by omega)]

theorem addTime_apply (times : Row) (queueTime : UInt32) {j : Nat} (hj : j < 10) :
    addTime times queueTime j = if j = 0 then queueTime else times 0 := by
  unfold addTime
  by_cases hzero : j = 0
  · rw [hzero, Function.update_self, if_pos rfl]
  · rw [Function.update_of_ne hzero, foldl_moveOne, if_neg hzero, if_pos (by omega)]

/-- The times of a type, newest first. -/
def timesOf (t : Fin BATTLEGROUND_NUM_TYPES) (calls : List Call) : List UInt32 :=
  ((calls.filter fun c => c.BgType = t).map Call.queueTime).reverse

/-- The row of a type: the newest time, and the one before it nine times. -/
theorem row_run (t : Fin BATTLEGROUND_NUM_TYPES) (calls : List Call) {j : Nat} (hj : j < 10) :
    run empty calls t j = (timesOf t calls).getD (min j 1) 0 := by
  induction calls using List.reverseRecOn generalizing j with
  | nil => rfl
  | append_singleton calls c ih =>
    have hstep : run empty (calls ++ [c])
        = AddAverageQueueTime (run empty calls) c.BgType c.queueTime := by
      simp [run]
    rw [hstep, AddAverageQueueTime]
    by_cases ht : c.BgType = t
    · have hnewest : timesOf t (calls ++ [c]) = c.queueTime :: timesOf t calls := by
        simp [timesOf, ht]
      rw [ht, Function.update_self, hnewest, addTime_apply _ _ hj]
      by_cases hzero : j = 0
      · rw [hzero]
        rfl
      · have hone : min j 1 = 1 := by omega
        rw [if_neg hzero, ih (by decide), hone]
        rfl
    · have hsame : timesOf t (calls ++ [c]) = timesOf t calls := by
        simp [timesOf, ht]
      rw [Function.update_of_ne (Ne.symm ht), hsame, ih hj]

theorem ne_zero_of_mem_timesOf (hcalls : ∀ c ∈ calls, c.queueTime ≠ 0) :
    ∀ x ∈ timesOf t calls, x ≠ 0 := by
  intro x hx
  obtain ⟨c, hc, rfl⟩ := List.mem_map.1 (List.mem_reverse.1 hx)
  exact hcalls c (List.mem_filter.1 hc).1

/-- The last ten times, newest first, and zeros behind them. -/
def Stored (row : Row) (ts : List UInt32) : Prop := ∀ j < 10, row j = ts.getD j 0

/-- At most one time, or nine of the same behind the newest. -/
def Settled (ts : List UInt32) : Prop :=
  ts.length ≤ 1 ∨ 10 ≤ ts.length ∧ ∀ j, 1 ≤ j → j < 10 → ts.getD j 0 = ts.getD 1 0

theorem getD_of_length_le {j : Nat} (h : ts.length ≤ j) : ts.getD j 0 = 0 := by
  rw [List.getD_eq_getElem?_getD, List.getElem?_eq_none h, Option.getD_none]

theorem getD_mem {j : Nat} (h : j < ts.length) : ts.getD j 0 ∈ ts := by
  rw [List.getD_eq_getElem _ _ h]
  exact List.getElem_mem h

theorem stored_iff (hts : ∀ x ∈ ts, x ≠ 0) {row : Row}
    (hrow : ∀ j < 10, row j = ts.getD (min j 1) 0) : Stored row ts ↔ Settled ts := by
  have hplaces : Stored row ts ↔ ∀ j, 1 ≤ j → j < 10 → ts.getD j 0 = ts.getD 1 0 := by
    constructor
    · intro h j hpos hj
      have hone : min j 1 = 1 := by omega
      rw [← h j hj, hrow j hj, hone]
    · intro h j hj
      rw [hrow j hj]
      by_cases hzero : j = 0
      · rw [hzero]
        rfl
      · have hone : min j 1 = 1 := by omega
        rw [hone, h j (by omega) hj]
  rw [hplaces]
  constructor
  · intro h
    by_contra hnot
    rw [Settled, not_or, not_and] at hnot
    obtain ⟨htwo, hten⟩ := hnot
    have hlength : ts.length < 10 := by
      by_contra hge
      exact hten (by omega) h
    -- the place behind the last time should be empty
    have hend := h ts.length (by omega) hlength
    rw [getD_of_length_le (Nat.le_refl _)] at hend
    exact hts _ (getD_mem (by omega)) hend.symm
  · rintro (hone | ⟨-, h⟩) j hpos hj
    · rw [getD_of_length_le (by omega), getD_of_length_le hone]
    · exact h j hpos hj

/-! ## The average -/

/-- A turn of the loop. -/
def mean (b x : UInt32) : UInt32 := (x + b) / 2

/-- The loop over places that all hold `b`. -/
theorem averageLoop_const {b : UInt32} (hb : b ≠ 0) {is : List Nat} (his : ∀ i ∈ is, times i = b)
    (avg : UInt32) : averageLoop times is avg = Nat.iterate (mean b) is.length avg := by
  induction is generalizing avg with
  | nil => rfl
  | cons i is ih =>
    have hi := his i List.mem_cons_self
    rw [averageLoop, hi, if_neg hb, ih fun k hk => his k (List.mem_cons_of_mem i hk)]
    rfl

/-- No sum of the loop passes 32 bits: not the first, and when the average
rises not the last. -/
def NoCarry (a b : UInt32) : Prop :=
  a.toNat + b.toNat < 2 ^ 32 ∧ 2 * b.toNat - (b.toNat - a.toNat + 255) / 256 < 2 ^ 32

theorem toNat_mean {b x : UInt32} (h : x.toNat + b.toNat < 2 ^ 32) :
    (mean b x).toNat = (x.toNat + b.toNat) / 2 := by
  have htwo : (2 : UInt32).toNat = 2 := rfl
  rw [mean, UInt32.toNat_div, UInt32.toNat_add, Nat.mod_eq_of_lt h, htwo]

/-- The average falls to `b`. -/
theorem iterate_mean_of_ge {a b : UInt32} (hcarry : NoCarry a b) (hge : b ≤ a) (n : Nat) :
    b ≤ Nat.iterate (mean b) n a ∧ Nat.iterate (mean b) n a ≤ a := by
  rw [UInt32.le_iff_toNat_le] at hge
  simp only [UInt32.le_iff_toNat_le]
  induction n with
  | zero => exact ⟨hge, Nat.le_refl _⟩
  | succ n ih =>
    have hfirst := hcarry.1
    rw [Function.iterate_succ_apply', toNat_mean (by omega)]
    omega

/-- The average rises to `b`, and is `n` halvings away from it. -/
theorem iterate_mean_of_lt {a b : UInt32} (hcarry : NoCarry a b) (hlt : a < b) {n : Nat}
    (hn : n ≤ 9) :
    a ≤ Nat.iterate (mean b) n a ∧ Nat.iterate (mean b) n a ≤ b ∧
      b.toNat - a.toNat ≤ 2 ^ n * (b.toNat - (Nat.iterate (mean b) n a).toNat) := by
  rw [UInt32.lt_iff_toNat_lt] at hlt
  simp only [UInt32.le_iff_toNat_le]
  induction n with
  | zero => exact ⟨Nat.le_refl _, by simpa using hlt.le, by simp⟩
  | succ n ih =>
    obtain ⟨hlow, hhigh, hfar⟩ := ih (by omega)
    rw [Function.iterate_succ_apply']
    generalize Nat.iterate (mean b) n a = x at hlow hhigh hfar ⊢
    have hlast := hcarry.2
    -- at most eight halvings so far
    have hpow : 2 ^ n ≤ 2 ^ 8 := Nat.pow_le_pow_right (by decide) (by omega)
    have hfar8 : b.toNat - a.toNat ≤ 256 * (b.toNat - x.toNat) :=
      Nat.le_trans hfar (Nat.mul_le_mul_right _ hpow)
    have hsum : x.toNat + b.toNat < 2 ^ 32 := by omega
    rw [toNat_mean hsum]
    refine ⟨by omega, by omega, ?_⟩
    have hhalf : b.toNat - x.toNat ≤ 2 * (b.toNat - (x.toNat + b.toNat) / 2) := by omega
    calc b.toNat - a.toNat ≤ 2 ^ n * (b.toNat - x.toNat) := hfar
      _ ≤ 2 ^ n * (2 * (b.toNat - (x.toNat + b.toNat) / 2)) := Nat.mul_le_mul_left _ hhalf
      _ = 2 ^ (n + 1) * (b.toNat - (x.toNat + b.toNat) / 2) := by rw [pow_succ, Nat.mul_assoc]

/-- Once below `b` the average stays there, carry or not. -/
theorem mean_lt {b x : UInt32} (h : x < b) : mean b x < b := by
  rw [UInt32.lt_iff_toNat_lt] at h ⊢
  have htwo : (2 : UInt32).toNat = 2 := rfl
  rw [mean, UInt32.toNat_div, UInt32.toNat_add, htwo]
  have hmod := Nat.mod_le (x.toNat + b.toNat) (2 ^ 32)
  omega

/-- A carry in the first sum puts it below `b`. -/
theorem mean_lt_of_carry {a b : UInt32} (h : 2 ^ 32 ≤ a.toNat + b.toNat) : mean b a < b := by
  rw [UInt32.lt_iff_toNat_lt]
  have htwo : (2 : UInt32).toNat = 2 := rfl
  have ha := a.toNat_lt
  have hb := b.toNat_lt
  rw [mean, UInt32.toNat_div, UInt32.toNat_add, htwo]
  omega

theorem iterate_mean_lt {b x : UInt32} (h : x < b) (n : Nat) : Nat.iterate (mean b) n x < b := by
  induction n with
  | zero => exact h
  | succ n ih =>
    rw [Function.iterate_succ_apply']
    exact mean_lt ih

/-- What `GetAverageQueueTime` makes of a row. -/
theorem averageLoop_row {a b : UInt32} (hrow : ∀ j < 10, times j = if j = 0 then a else b) :
    averageLoop times (List.range' 1 9) (times 0)
      = if b = 0 then a else Nat.iterate (mean b) 9 a := by
  have hfirst : times 0 = a := hrow 0 (by decide)
  have hrest : ∀ i ∈ List.range' 1 9, times i = b := by
    intro i hi
    obtain ⟨hpos, hlt⟩ := List.mem_range'_1.1 hi
    rw [hrow i (by omega), if_neg (by omega)]
  rw [hfirst]
  by_cases hb : b = 0
  · have hstop : times 1 = 0 := by rw [hrest 1 (by decide), hb]
    show averageLoop times (1 :: List.range' 2 8) a = _
    rw [averageLoop, if_pos hstop, if_pos hb]
  · rw [if_neg hb, averageLoop_const hb hrest]
    rfl

/-- Between the smallest and the largest of some times. -/
def Within (avg : UInt32) (ts : List UInt32) : Prop := ∃ lo ∈ ts, ∃ hi ∈ ts, lo ≤ avg ∧ avg ≤ hi

theorem row_cases (hrow : ∀ j < 10, times j = ts.getD (min j 1) 0) :
    ∀ j < 10, times j = if j = 0 then ts.getD 0 0 else ts.getD 1 0 := by
  intro j hj
  rw [hrow j hj]
  by_cases hzero : j = 0
  · rw [hzero]
    rfl
  · have hone : min j 1 = 1 := by omega
    rw [hone, if_neg hzero]

theorem mem_take_ten {j : Nat} (hj : j < ts.length) (hlt : j < 10) : ts.getD j 0 ∈ ts.take 10 := by
  rw [List.getD_eq_getElem _ _ hj]
  exact List.mem_take_iff_getElem.2 ⟨j, by omega, rfl⟩

/-- Without a carry the average is between the two newest times. -/
theorem within_of_noCarry (hne : ts ≠ [])
    (hrow : ∀ j < 10, times j = ts.getD (min j 1) 0)
    (hcarry : NoCarry (ts.getD 0 0) (ts.getD 1 0)) :
    Within (averageLoop times (List.range' 1 9) (times 0)) (ts.take 10) := by
  have hlength := List.length_pos_iff.2 hne
  have hnewest := mem_take_ten hlength (by decide)
  rw [averageLoop_row (row_cases hrow)]
  by_cases hb : ts.getD 1 0 = 0
  · rw [if_pos hb]
    exact ⟨_, hnewest, _, hnewest, UInt32.le_refl _, UInt32.le_refl _⟩
  · have htwo : 1 < ts.length := by
      by_contra hone
      exact hb (getD_of_length_le (by omega))
    have hbefore := mem_take_ten htwo (by decide)
    rw [if_neg hb]
    by_cases hge : ts.getD 1 0 ≤ ts.getD 0 0
    · obtain ⟨hlow, hhigh⟩ := iterate_mean_of_ge hcarry hge 9
      exact ⟨_, hbefore, _, hnewest, hlow, hhigh⟩
    · obtain ⟨hlow, hhigh, -⟩ := iterate_mean_of_lt hcarry (UInt32.not_le.1 hge) (Nat.le_refl 9)
      exact ⟨_, hnewest, _, hbefore, hlow, hhigh⟩

theorem mem_of_settled (hsettled : Settled ts) (hb : ts.getD 1 0 ≠ 0) {x : UInt32}
    (hx : x ∈ ts.take 10) : x = ts.getD 0 0 ∨ x = ts.getD 1 0 := by
  rcases hsettled with hone | ⟨-, hsame⟩
  · exact absurd (getD_of_length_le hone) hb
  · obtain ⟨j, hj, rfl⟩ := List.mem_take_iff_getElem.1 hx
    have hget : ts[j] = ts.getD j 0 := (List.getD_eq_getElem _ _ (by omega)).symm
    rw [hget]
    by_cases hzero : j = 0
    · exact Or.inl (by rw [hzero])
    · exact Or.inr (hsame j (by omega) (by omega))

/-- With a carry it is below both, unless the time before the newest is
larger than the newest and has all 32 bits. -/
theorem noCarry_of_within (hsettled : Settled ts)
    (hrow : ∀ j < 10, times j = ts.getD (min j 1) 0)
    (hcase : ts.getD 1 0 ≤ ts.getD 0 0 ∨ (ts.getD 1 0).toNat < 2 ^ 31)
    (h : Within (averageLoop times (List.range' 1 9) (times 0)) (ts.take 10)) :
    NoCarry (ts.getD 0 0) (ts.getD 1 0) := by
  have ha := (ts.getD 0 0).toNat_lt
  rw [averageLoop_row (row_cases hrow)] at h
  by_cases hb : ts.getD 1 0 = 0
  · rw [hb]
    exact ⟨by simpa using ha, by simp⟩
  · rw [if_neg hb] at h
    by_cases hge : ts.getD 1 0 ≤ ts.getD 0 0
    · have hgeNat := UInt32.le_iff_toNat_le.1 hge
      have hfirst : (ts.getD 0 0).toNat + (ts.getD 1 0).toNat < 2 ^ 32 := by
        by_contra hcarry
        have hlow := iterate_mean_lt (mean_lt_of_carry (Nat.le_of_not_lt hcarry)) 8
        obtain ⟨lo, hlo, -, -, hle, -⟩ := h
        have hbelow : lo < ts.getD 1 0 := UInt32.lt_of_le_of_lt hle hlow
        rcases mem_of_settled hsettled hb hlo with rfl | rfl
        · exact UInt32.not_lt.2 hge hbelow
        · exact UInt32.lt_irrefl _ hbelow
      exact ⟨hfirst, by omega⟩
    · have hlt := UInt32.lt_iff_toNat_lt.1 (UInt32.not_le.1 hge)
      have hsmall := hcase.resolve_left hge
      exact ⟨by omega, by omega⟩

/-! ## Both -/

/-- The places hold the history of a type, and its average lies within the
times they should hold. -/
def WindowKept (calls : List Call) (t : Fin BATTLEGROUND_NUM_TYPES) : Prop :=
  Stored (run empty calls t) (timesOf t calls) ∧
  (timesOf t calls ≠ [] →
    Within (GetAverageQueueTime (run empty calls) t) ((timesOf t calls).take 10))

/-- After any calls with times other than zero the window of a type is kept
only when it is settled; it is when it is settled and no sum passes 32 bits,
and of times below `2 ^ 31`, or that do not rise, then only. -/
theorem queue_times_iff (calls : List Call) (hcalls : ∀ c ∈ calls, c.queueTime ≠ 0)
    (t : Fin BATTLEGROUND_NUM_TYPES) :
    let ts := timesOf t calls
    (Stored (run empty calls t) ts ↔ Settled ts) ∧
    (Settled ts ∧ NoCarry (ts.getD 0 0) (ts.getD 1 0) → WindowKept calls t) ∧
    (ts.getD 1 0 ≤ ts.getD 0 0 ∨ (ts.getD 1 0).toNat < 2 ^ 31 →
      (WindowKept calls t ↔ Settled ts ∧ NoCarry (ts.getD 0 0) (ts.getD 1 0))) := by
  intro ts
  have hts : ∀ x ∈ ts, x ≠ 0 := ne_zero_of_mem_timesOf hcalls
  have hrow : ∀ j < 10, run empty calls t j = ts.getD (min j 1) 0 := fun j hj =>
    row_run t calls hj
  have hstored := stored_iff hts hrow
  have henough : Settled ts ∧ NoCarry (ts.getD 0 0) (ts.getD 1 0) → WindowKept calls t :=
    fun h => ⟨hstored.2 h.1, fun hne => within_of_noCarry hne hrow h.2⟩
  refine ⟨hstored, henough, fun hcase => ⟨fun h => ?_, henough⟩⟩
  have hsettled := hstored.1 h.1
  refine ⟨hsettled, ?_⟩
  by_cases hne : ts = []
  · rw [hne]
    exact ⟨by decide, by decide⟩
  · exact noCarry_of_within hsettled hrow hcase (h.2 hne)

/-- The second time fills nine places, and of three the first is forgotten. -/
theorem queue_times_two :
    run empty [⟨2, 30⟩, ⟨2, 50⟩] 2 2 = 30 ∧ (timesOf 2 [⟨2, 30⟩, ⟨2, 50⟩]).getD 2 0 = 0 ∧
    (List.range 4).map (run empty [⟨2, 10⟩, ⟨2, 30⟩, ⟨2, 50⟩] 2) = [50, 30, 30, 30] := by
  decide +kernel

theorem queue_times_first : WindowKept [⟨3, 40⟩, ⟨2, 30⟩] 2 :=
  (queue_times_iff [⟨3, 40⟩, ⟨2, 30⟩] (by decide) 2).2.1
    ⟨Or.inl (by decide), by decide, by decide⟩

end HearthStone.QueueTimes
