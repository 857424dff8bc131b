/-
HearthStone.Player.ExperienceTheorems — experience as a climb.

The levels above a player are the rungs of a ladder: the first costs what
`lvlinfo` asks for, the others what the table does. `GiveXP` climbs it with the
experience the player has and the gain.

`GiveXP` compares as `int32`. A requirement of the table is a `uint32`, and
one from 2^31 on reads as a negative number there (`giveXP_wide`).
-/
import HearthStone.Lib.Ladder
import HearthStone.Player.Experience

namespace HearthStone.Experience

open Lib Lib.Ladder

/-! ## Numbers below 2^31 -/

theorem toInt32_le_iff {x y : UInt32} (hx : x.toNat < 2 ^ 31) (hy : y.toNat < 2 ^ 31) :
    y.toInt32 ≤ x.toInt32 ↔ y.toNat ≤ x.toNat := by
  rw [Int32.le_iff_toInt_le, toInt_toInt32, toInt_toInt32, if_pos hx, if_pos hy]
  omega

theorem toInt32_pos_iff {x : UInt32} (hx : x.toNat < 2 ^ 31) : 0 < x.toInt32 ↔ 0 < x.toNat := by
  rw [Int32.lt_iff_toInt_lt, toInt_toInt32, if_pos hx, Int32.toInt_zero]
  omega

/-! ## The ladder -/

/-- A requirement that is positive as the `int32` of `GiveXP`. -/
def LevelInfo.Positive (info : LevelInfo) : Prop :=
  0 < info.XPToNextLevel.toNat ∧ info.XPToNextLevel.toNat < 2 ^ 31

/-- The experience each level asks for that is above `level`, where the first
asks for `need`. -/
def price (levels : LevelMap) (level need : UInt32) : ℕ → ℕ
  | 0 => need.toNat
  | k + 1 => (GetLevelInfo levels (level + UInt32.ofNat (k + 1))).XPToNextLevel.toNat

variable {levels : LevelMap} {maxLevel level need x : UInt32}

theorem add_ofNat_succ (level : UInt32) (k : ℕ) :
    level + UInt32.ofNat (k + 1) = level + 1 + UInt32.ofNat k := by
  rw [UInt32.ofNat_add, UInt32.add_comm (UInt32.ofNat k), ← UInt32.add_assoc]
  rfl

/-- The ladder above the first rung. -/
theorem price_succ (levels : LevelMap) (level need : UInt32) :
    (fun k => price levels level need (k + 1)) =
      price levels (level + 1) (GetLevelInfo levels (level + 1)).XPToNextLevel := by
  funext k
  cases k with
  | zero => rfl
  | succ k => rw [price, price, add_ofNat_succ]

/-- The ladder above rung `n`. -/
theorem price_add (levels : LevelMap) (level need : UInt32) {n : ℕ} (hn : 0 < n) :
    (fun k => price levels level need (n + k)) =
      price levels (level + UInt32.ofNat n)
        (GetLevelInfo levels (level + UInt32.ofNat n)).XPToNextLevel := by
  induction n generalizing level need with
  | zero => omega
  | succ n ih =>
    have hshift : (fun k => price levels level need (n + 1 + k)) =
        fun k => (fun j => price levels level need (j + 1)) (n + k) := by
      funext k
      simp only [Nat.add_right_comm n 1 k]
    rw [hshift, price_succ, add_ofNat_succ]
    cases n with
    | zero =>
      have hzero : level + 1 + UInt32.ofNat 0 = level + 1 := UInt32.add_zero _
      simp only [Nat.zero_add, hzero]
    | succ n => exact ih _ _ (Nat.succ_pos n)

/-! ## The loop -/

theorem toNat_succ_level (hlt : level < maxLevel) : (level + 1).toNat = level.toNat + 1 := by
  have hmax := maxLevel.toNat_lt
  rw [UInt32.lt_iff_toNat_lt] at hlt
  rw [UInt32.toNat_add, UInt32.toNat_one]
  omega

/-- The loop climbs the ladder, and ends in as many rounds as there are levels
below the cap. -/
theorem levelUp_climbs (hpos : ∀ l, (levels l).Positive) {n : ℕ} (levelup : Bool)
    (hlt : level < maxLevel) (hn : maxLevel.toNat - level.toNat ≤ n) (hx : x.toNat < 2 ^ 31)
    (hneed : 0 < need.toNat ∧ need.toNat < 2 ^ 31) :
    ∃ k, ∃ r : UInt32, r.toNat < 2 ^ 31 ∧
      Climbs (price levels level need) (maxLevel.toNat - level.toNat) x.toNat k r.toNat ∧
      Player.levelUp levels maxLevel n ⟨level, x.toInt32, levelup⟩ need.toInt32 =
        some ⟨level + UInt32.ofNat k, r.toInt32, levelup || decide (0 < k)⟩ := by
  induction n generalizing level x need levelup with
  | zero =>
    rw [UInt32.lt_iff_toNat_lt] at hlt
    omega
  | succ n ih =>
    have hroom := UInt32.lt_iff_toNat_lt.1 hlt
    by_cases hpay : need.toNat ≤ x.toNat
    · have htest : x.toInt32 ≥ need.toInt32 ∧ x.toInt32 > 0 :=
        ⟨(toInt32_le_iff hx hneed.2).2 hpay, (toInt32_pos_iff hx).2 (by omega)⟩
      have hsub : (x - need).toNat = x.toNat - need.toNat :=
        UInt32.toNat_sub_of_le _ _ (UInt32.le_iff_toNat_le.2 hpay)
      have hlevel := toNat_succ_level hlt
      rw [Player.levelUp, if_pos htest, ← UInt32.toInt32_sub]
      by_cases hcap : level + 1 ≥ maxLevel
      · rw [ge_iff_le, UInt32.le_iff_toNat_le, hlevel] at hcap
        refine ⟨1, x - need, by omega, ⟨by omega, ?_, fun h => by omega⟩, ?_⟩
        · rw [cost_succ, cost_zero, price]
          omega
        · simp only [ge_iff_le, UInt32.le_iff_toNat_le, hlevel, if_pos hcap]
          simp
      · rw [ge_iff_le, UInt32.not_le] at hcap
        have hnext : (GetLevelInfo levels (level + 1)).Positive := hpos _
        have hrest : (x - need).toNat < 2 ^ 31 := by omega
        obtain ⟨k, r, hr, hclimb, hloop⟩ := ih true hcap (by omega) hrest hnext
        refine ⟨k + 1, r, hr, ?_, ?_⟩
        · rw [hsub, hlevel, ← price_succ levels level need] at hclimb
          refine .cons (by omega) hpay ?_
          rwa [show maxLevel.toNat - level.toNat - 1 = maxLevel.toNat - (level.toNat + 1) by omega]
        · simp only [ge_iff_le, UInt32.not_le.2 hcap, if_false]
          rw [hloop, add_ofNat_succ]
          simp
    · refine ⟨0, x, hx, ⟨Nat.zero_le _, by rw [cost_zero, Nat.zero_add], fun _ => ?_⟩, ?_⟩
      · rw [price]
        omega
      · have htest : ¬(x.toInt32 ≥ need.toInt32 ∧ x.toInt32 > 0) := fun h =>
          hpay ((toInt32_le_iff hx hneed.2).1 h.1)
        rw [Player.levelUp, if_neg htest]
        simp

/-! ## A gain -/

namespace Player

variable {p q : Player} {gain a b : UInt32} {guid : UInt64} {allowbonus : Bool}

/-- The ladder a player stands before. -/
def price (levels : LevelMap) (p : Player) : ℕ → ℕ :=
  Experience.price levels p.level p.lvlinfo.XPToNextLevel

/-- The levels below the cap. -/
def room (p : Player) : ℕ := p.maxLevel.toNat - p.level.toNat

/-- Below the cap, with less experience than the level asks for. -/
structure Below (p : Player) : Prop where
  cap : p.level < p.maxLevel
  xp : p.xp < p.lvlinfo.XPToNextLevel
  positive : p.lvlinfo.Positive

theorem restXP_of_not (h : ¬p.Rested allowbonus) (xp : UInt32) (guid : UInt64) :
    p.restXP xp guid allowbonus =
      (xp, { p.UpdateRestState with sent := p.sent ++ [.logXPGain guid xp xp (guid = 0)] }) := by
  simp [restXP, if_neg h]

@[simp] theorem finishXP_xp (levels : LevelMap) (p : Player) (l : LevelUp) :
    (p.finishXP levels l).xp = l.newxp.toUInt32 := rfl

@[simp] theorem finishXP_maxLevel (levels : LevelMap) (p : Player) (l : LevelUp) :
    (p.finishXP levels l).maxLevel = p.maxLevel := by
  simp only [finishXP]
  split <;> rfl

/-- Within the cap the player gets the level of the loop and its entry. -/
theorem finishXP_level (levels : LevelMap) (p : Player) {l : LevelUp} (hcap : l.level ≤ p.maxLevel)
    (hsame : l.levelup = false → l.level = p.level) : (p.finishXP levels l).level = l.level := by
  simp only [finishXP, if_neg (UInt32.not_lt.2 hcap)]
  split
  · rfl
  · next h => exact (hsame (by simpa using h)).symm

theorem finishXP_lvlinfo (levels : LevelMap) (p : Player) {l : LevelUp}
    (hcap : l.level ≤ p.maxLevel) :
    (p.finishXP levels l).lvlinfo = if l.levelup then GetLevelInfo levels l.level else p.lvlinfo := by
  simp only [finishXP, if_neg (UInt32.not_lt.2 hcap)]
  split <;> rfl

/-- What `GiveXP` leaves of a player who climbs `k` levels. -/
structure Climbed (levels : LevelMap) (p : Player) (gain : UInt32) (k : ℕ) (q : Player) : Prop where
  climbs : Climbs (p.price levels) p.room (p.xp.toNat + gain.toNat) k q.xp.toNat
  level : q.level = p.level + UInt32.ofNat k
  maxLevel : q.maxLevel = p.maxLevel
  lvlinfo : q.lvlinfo = if 0 < k then GetLevelInfo levels q.level else p.lvlinfo

theorem climbed_zero (levels : LevelMap) (h : p.Below) : Climbed levels p 0 0 p := by
  refine ⟨⟨Nat.zero_le _, by simp, fun _ => UInt32.lt_iff_toNat_lt.1 h.xp⟩, ?_, rfl, rfl⟩
  exact (UInt32.add_zero _).symm

/-- The level after `k` rungs is still a 32-bit number. -/
theorem toNat_level_add (hcap : p.level < p.maxLevel) {k : ℕ} (hk : k ≤ p.room) :
    (p.level + UInt32.ofNat k).toNat = p.level.toNat + k := by
  have hmax := p.maxLevel.toNat_lt
  rw [UInt32.lt_iff_toNat_lt] at hcap
  rw [room] at hk
  rw [UInt32.toNat_add, UInt32.toNat_ofNat']
  omega

/-- `GiveXP` without a bonus, as its loop and what follows. -/
theorem GiveXP_eq (levels : LevelMap) (hgain : ¬gain < 1) (hcap : p.level < p.maxLevel)
    (hrest : ¬p.Rested allowbonus) :
    p.GiveXP levels gain guid allowbonus =
      (levelUp levels p.maxLevel p.room ⟨p.level, (p.xp + gain).toInt32, false⟩
        p.lvlinfo.XPToNextLevel.toInt32).map
          ((p.restXP gain guid allowbonus).2.finishXP levels) := by
  rw [GiveXP, if_neg hgain, if_neg (UInt32.not_le.2 hcap), restXP_of_not hrest]
  rfl

/-- The player behind the loop. -/
theorem finishXP_climbed {k : ℕ} {r : UInt32} (guid : UInt64) (hcap : p.level < p.maxLevel)
    (hrest : ¬p.Rested allowbonus)
    (hclimb : Climbs (p.price levels) p.room (p.xp.toNat + gain.toNat) k r.toNat) :
    Climbed levels p gain k ((p.restXP gain guid allowbonus).2.finishXP levels
      ⟨p.level + UInt32.ofNat k, r.toInt32, decide (0 < k)⟩) := by
  have hlevel := toNat_level_add hcap hclimb.le
  have hle : p.level + UInt32.ofNat k ≤ p.maxLevel := by
    have hroom := hclimb.le
    have hlt := UInt32.lt_iff_toNat_lt.1 hcap
    rw [room] at hroom
    rw [UInt32.le_iff_toNat_le, hlevel]
    omega
  have hsame : (decide (0 < k)) = false → p.level + UInt32.ofNat k = p.level := by
    intro hk
    have hk : k = 0 := by simpa using hk
    subst hk
    exact UInt32.add_zero _
  rw [restXP_of_not hrest]
  have hq := finishXP_level levels
    { p.UpdateRestState with sent := p.sent ++ [.logXPGain guid gain gain (guid = 0)] }
    (l := ⟨p.level + UInt32.ofNat k, r.toInt32, decide (0 < k)⟩) hle hsame
  refine ⟨hclimb, hq, finishXP_maxLevel _ _ _, ?_⟩
  rw [hq, finishXP_lvlinfo _ _ hle]
  simp only [decide_eq_true_eq]
  rfl

theorem giveXP_climbed (gain : UInt32) (guid : UInt64) (hpos : ∀ l, (levels l).Positive) (h : p.Below)
    (hsum : p.xp.toNat + gain.toNat < 2 ^ 31) (hrest : ¬p.Rested allowbonus) :
    ∃ k q, p.GiveXP levels gain guid allowbonus = some q ∧ Climbed levels p gain k q := by
  by_cases hgain : gain < 1
  · have hzero : gain = 0 := by
      rw [UInt32.lt_iff_toNat_lt, UInt32.toNat_one] at hgain
      exact UInt32.toNat_inj.1 (by rw [UInt32.toNat_zero]; omega)
    subst hzero
    exact ⟨0, p, by rw [GiveXP, if_pos hgain], climbed_zero levels h⟩
  · have hadd : (p.xp + gain).toNat = p.xp.toNat + gain.toNat := by
      rw [UInt32.toNat_add]
      omega
    have hx : (p.xp + gain).toNat < 2 ^ 31 := by omega
    obtain ⟨k, r, hr, hclimb, hloop⟩ := levelUp_climbs hpos false h.cap le_rfl hx h.positive
    rw [hadd] at hclimb
    refine ⟨k, _, ?_, finishXP_climbed guid h.cap hrest hclimb⟩
    rw [GiveXP_eq levels hgain h.cap hrest]
    exact congrArg (Option.map _) hloop

/-! ## A gain after another -/

/-- Where the cap is not reached, the next gain finds the player as it should. -/
theorem Climbed.below {k : ℕ} (h : Climbed levels p gain k q) (hp : p.Below)
    (hpos : ∀ l, (levels l).Positive) (hcap : q.level < q.maxLevel) : q.Below := by
  have hlevel := toNat_level_add hp.cap h.climbs.le
  have hlt := UInt32.lt_iff_toNat_lt.1 hcap
  rw [h.level, hlevel, h.maxLevel] at hlt
  have hrest := h.climbs.rest (by rw [room]; omega)
  by_cases hk : 0 < k
  · have hinfo := h.lvlinfo
    rw [if_pos hk] at hinfo
    refine ⟨hcap, ?_, hinfo ▸ hpos _⟩
    obtain ⟨k, rfl⟩ := Nat.exists_eq_succ_of_ne_zero hk.ne'
    rw [UInt32.lt_iff_toNat_lt, hinfo, h.level]
    exact hrest
  · have hinfo := h.lvlinfo
    rw [if_neg hk] at hinfo
    obtain rfl : k = 0 := by omega
    refine ⟨hcap, ?_, hinfo ▸ hp.positive⟩
    rw [UInt32.lt_iff_toNat_lt, hinfo]
    exact hrest

/-- The ladder before the player, seen from where he stood first. -/
theorem Climbed.price {k : ℕ} (h : Climbed levels p gain k q) :
    q.price levels = fun j => p.price levels (k + j) := by
  by_cases hk : 0 < k
  · have hinfo := h.lvlinfo
    rw [if_pos hk] at hinfo
    rw [Player.price, hinfo, h.level]
    exact (price_add levels p.level _ hk).symm
  · have hinfo := h.lvlinfo
    rw [if_neg hk] at hinfo
    obtain rfl : k = 0 := by omega
    have hlevel : q.level = p.level := h.level.trans (UInt32.add_zero _)
    simp only [Player.price, hinfo, hlevel, Nat.zero_add]

/-- Two gains climb what their sum does. -/
theorem Climbed.trans {r s : Player} {k m n : ℕ} (hp : p.Below) (h : Climbed levels p a k q)
    (h' : Climbed levels q b m r) (hs : Climbed levels p (a + b) n s)
    (hadd : (a + b).toNat = a.toNat + b.toNat) : s.level = r.level ∧ s.xp = r.xp := by
  have hclimb := h'.climbs
  have hroom : q.room = p.room - k := by
    rw [room, room, h.maxLevel, h.level, toNat_level_add hp.cap h.climbs.le]
    omega
  rw [h.price, hroom] at hclimb
  have hboth := hs.climbs
  rw [hadd, ← Nat.add_assoc] at hboth
  obtain ⟨hn, hxp⟩ := hboth.unique (h.climbs.trans hclimb)
  refine ⟨?_, UInt32.toNat_inj.1 hxp⟩
  rw [hs.level, h'.level, h.level, hn, UInt32.ofNat_add, UInt32.add_assoc]

/-! ## The result -/

/-- A gain as it should be: the requirements are counted that the player's
experience and the gain cover. -/
structure Gains (levels : LevelMap) (p : Player) (gain : UInt32) (q : Player) : Prop where
  level : q.level.toNat = p.level.toNat +
    ((Finset.range p.room).filter fun k =>
      cost (p.price levels) (k + 1) ≤ p.xp.toNat + gain.toNat).card
  total : cost (p.price levels) (q.level.toNat - p.level.toNat) + q.xp.toNat =
    p.xp.toNat + gain.toNat
  cap : q.level ≤ p.maxLevel
  rest : q.level < p.maxLevel → q.xp < q.lvlinfo.XPToNextLevel

theorem Climbed.gains {k : ℕ} (h : Climbed levels p gain k q) (hp : p.Below)
    (hpos : ∀ l, (levels l).Positive) : Gains levels p gain q := by
  have hlevel : q.level.toNat = p.level.toNat + k := by
    rw [h.level, toNat_level_add hp.cap h.climbs.le]
  refine ⟨?_, ?_, ?_, fun hlt => (h.below hp hpos (by rwa [h.maxLevel])).xp⟩
  · rw [hlevel, ← h.climbs.eq_card]
  · rw [hlevel, Nat.add_sub_cancel_left]
    exact h.climbs.total
  · have hle := h.climbs.le
    have hlt := UInt32.lt_iff_toNat_lt.1 hp.cap
    rw [room] at hle
    rw [UInt32.le_iff_toNat_le, hlevel]
    omega

/-- Where every requirement is positive as a signed number, a gain raises the
level by the requirements it crosses and keeps the rest, and two gains do what
their sum does unless the first reaches the cap. -/
theorem giveXP_exact (levels : LevelMap) (p : Player) (guid guid' : UInt64)
    (allowbonus allowbonus' : Bool) (hpos : ∀ l, (levels l).Positive) (hp : p.Below)
    (hrest : ¬p.Rested allowbonus) :
    (∀ gain : UInt32, p.xp.toNat + gain.toNat < 2 ^ 31 →
      ∃ q, p.GiveXP levels gain guid allowbonus = some q ∧ Gains levels p gain q) ∧
    ∀ a b : UInt32, p.xp.toNat + a.toNat + b.toNat < 2 ^ 31 →
      ∃ q s, p.GiveXP levels a guid allowbonus = some q ∧
        p.GiveXP levels (a + b) guid allowbonus = some s ∧
        (q.level < q.maxLevel → ¬q.Rested allowbonus' →
          ∃ r, q.GiveXP levels b guid' allowbonus' = some r ∧
            s.level = r.level ∧ s.xp = r.xp) := by
  constructor
  · intro gain hsum
    obtain ⟨k, q, hq, hclimb⟩ := giveXP_climbed gain guid hpos hp hsum hrest
    exact ⟨q, hq, hclimb.gains hp hpos⟩
  · intro a b hsum
    have hadd : (a + b).toNat = a.toNat + b.toNat := by
      rw [UInt32.toNat_add]
      omega
    obtain ⟨k, q, hq, hfirst⟩ := giveXP_climbed a guid hpos hp (by omega) hrest
    obtain ⟨n, s, hs, hboth⟩ := giveXP_climbed (a + b) guid hpos hp
      (by omega) hrest
    refine ⟨q, s, hq, hs, fun hcap hrest' => ?_⟩
    have hleft := hfirst.climbs.total
    obtain ⟨m, r, hr, hsecond⟩ := giveXP_climbed b guid' hpos
      (hfirst.below hp hpos hcap) (by omega) hrest'
    exact ⟨r, hr, hfirst.trans hp hsecond hboth hadd⟩

def plain (need : UInt32) : LevelInfo := ⟨0, 0, fun _ => 0, need⟩

/-- A player of level 1 without experience, the cap far above. -/
def newcomer (info : LevelInfo) : Player :=
  { level := 1, xp := 0, nextLevelXp := info.XPToNextLevel, maxLevel := 80, bytes2 := 0
    restStateExperience := 0, lvlinfo := info, m_restState := RESTSTATE_NORMAL, m_restAmount := 0
    m_playedtime := 0, sent := [] }

theorem giveXP_exact_newcomer :
    (∃ q, (newcomer (plain 400)).GiveXP (fun _ => plain 400) 1000 0 true = some q ∧
      Gains (fun _ => plain 400) (newcomer (plain 400)) 1000 q) ∧
    ∃ q s, (newcomer (plain 400)).GiveXP (fun _ => plain 400) 500 0 true = some q ∧
      (newcomer (plain 400)).GiveXP (fun _ => plain 400) (500 + 700) 0 true = some s ∧
      (q.level < q.maxLevel → ¬q.Rested true →
        ∃ r, q.GiveXP (fun _ => plain 400) 700 0 true = some r ∧
          s.level = r.level ∧ s.xp = r.xp) :=
  have h := giveXP_exact (fun _ => plain 400) (newcomer (plain 400)) 0 0 true true
    (fun _ => by constructor <;> decide) ⟨by decide, by decide, by constructor <;> decide⟩
    (by decide)
  ⟨h.1 1000 (by decide), h.2 500 700 (by decide)⟩

/-- A table whose first requirement is the largest 32-bit number. -/
def wide : LevelMap := fun l => plain (if l = 1 then 0xFFFFFFFF else 400)

/-- There one point of experience raises the level, and two are left. -/
theorem giveXP_wide :
    (∀ l, 0 < (wide l).XPToNextLevel) ∧
    (newcomer (GetLevelInfo wide 1)).level < (newcomer (GetLevelInfo wide 1)).maxLevel ∧
    (newcomer (GetLevelInfo wide 1)).xp < (GetLevelInfo wide 1).XPToNextLevel ∧
    ¬(newcomer (GetLevelInfo wide 1)).Rested false ∧
    ((newcomer (GetLevelInfo wide 1)).GiveXP wide 1 0 false).map (fun q => (q.level, q.xp)) =
      some (2, 2) ∧
    ∀ q, (newcomer (GetLevelInfo wide 1)).GiveXP wide 1 0 false = some q →
      ¬Gains wide (newcomer (GetLevelInfo wide 1)) 1 q := by
  have hrun : ((newcomer (GetLevelInfo wide 1)).GiveXP wide 1 0 false).map
      (fun q => (q.level, q.xp)) = some (2, 2) := by decide
  refine ⟨fun l => ?_, by decide, by decide, by decide, hrun, fun q hq hgains => ?_⟩
  · simp only [wide, plain]
    split <;> decide
  · rw [hq, Option.map_some, Option.some.injEq, Prod.mk.injEq] at hrun
    have htotal := hgains.total
    rw [hrun.2] at htotal
    exact absurd htotal (by
      have hgain : (newcomer (GetLevelInfo wide 1)).xp.toNat + (1 : UInt32).toNat = 1 := by decide
      have hleft : (2 : UInt32).toNat = 2 := by decide
      omega)

end Player

end HearthStone.Experience
