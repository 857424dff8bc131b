/-
HearthStone.Loot.LootMoney — the gold of a loot (`HandleLootMoneyOpcode` of
`MiscHandler.cpp`).

Alone a player takes it all; in a group it is shared among the members in
his zone and instance. Whoever would reach the gold cap is passed over. The
sum that is tested against the cap has 32 bits.

`Player` is any type of players. `group` is none unless `InGroup` holds. The
packets are left out.
-/
import HearthStone.Object.UnsignedValue
import Mathlib

namespace HearthStone.LootMoney

def PLAYER_MAX_GOLD : UInt32 := 0x7FFFFFFF

variable {Player : Type} [Fintype Player] [DecidableEq Player]

/-- Subgroups of members, each logged in as a player or not. A raid has at
most eight subgroups of five. -/
structure Group (Player : Type) where
  subGroups : List (List (Option Player))
  nodup : (subGroups.flatten.filterMap id).Nodup
  size : subGroups.flatten.length ≤ 40

structure World (Player : Type) where
  coinage : Player → UInt32
  /-- `m_loot.gold` of the objects on the map of a player -/
  gold : UInt64 → Option UInt32
  isInWorld : Player → Bool
  lootGUID : Player → UInt64
  group : Player → Option (Group Player)
  zoneId : Player → UInt32
  instanceID : Player → Int32

/-- The members the gold is shared among. -/
def targets (w : World Player) (player : Player) (party : Group Player) : List Player :=
  (party.subGroups.flatten.filterMap id).filter fun q =>
    decide (w.zoneId q = w.zoneId player) && decide (w.instanceID player = w.instanceID q)

/-- One turn of the loop over the targets; also what a player alone does. -/
def takeShare (coinage share : UInt32) : UInt32 :=
  if coinage + share ≥ PLAYER_MAX_GOLD then coinage else credit coinage share

def shareOut (share : UInt32) (coinage : Player → UInt32) (q : Player) : Player → UInt32 :=
  Function.update coinage q (takeShare (coinage q) share)

def World.setGold (w : World Player) (guid : UInt64) (gold : UInt32) : World Player :=
  { w with gold := Function.update w.gold guid (some gold) }

/-- With `money` in the loot of `guid`. -/
def lootMoney (w : World Player) (player : Player) (guid : UInt64) (money : UInt32) :
    World Player :=
  match w.group player with
  | none =>
    if w.coinage player + money ≥ PLAYER_MAX_GOLD then w
    else { w with
      coinage := Function.update w.coinage player (credit (w.coinage player) money)
      gold := Function.update w.gold guid (some 0) }
  | some party =>
    -- the loot is empty before it is known who shares
    let w := w.setGold guid 0
    let targets := targets w player party
    if targets.length = 0 then w
    else
      let share := money / UInt32.ofNat targets.length
      { w with coinage := targets.foldl (shareOut share) w.coinage }

def HandleLootMoneyOpcode (w : World Player) (player : Player) : World Player :=
  if !w.isInWorld player || w.lootGUID player = 0 then w
  else match w.gold (w.lootGUID player) with
    | none => w
    | some money =>
      if money = 0 then w else lootMoney w player (w.lootGUID player) money

end HearthStone.LootMoney

/-! ## Theorems

When the gold of a loot is neither lost nor taken back.

Two things go wrong. A sum that passes 32 bits can pass the test against the
cap, and the coinage falls. And in a group the loot is emptied first, so the
shares of those at the cap are lost.

* `takeShare_cases` — what becomes of one coinage.
* `shared_coinage` — and of all of them, whoever shares.
* `loot_money_iff` — the gold is kept exactly when no sum wraps below the
  cap and, in a group, somebody can take his share and what is passed over
  is less than one coin each.
-/

namespace HearthStone.LootMoney

variable {Player : Type} [Fintype Player] [DecidableEq Player]
variable {w w' : World Player} {player q : Player} {guid : UInt64} {money share c s : UInt32}

/-! ## One share -/

/-- The share keeps a coinage below the cap. -/
def Fits (c s : UInt32) : Prop := c.toNat + s.toNat < PLAYER_MAX_GOLD.toNat

/-- The sum passes 32 bits and looks as if it were below the cap. -/
def Wraps (c s : UInt32) : Prop := 2 ^ 32 ≤ c.toNat + s.toNat ∧ c + s < PLAYER_MAX_GOLD

instance (c s : UInt32) : Decidable (Fits c s) := inferInstanceAs (Decidable (_ < _))

instance (c s : UInt32) : Decidable (Wraps c s) := inferInstanceAs (Decidable (_ ∧ _))

theorem toNat_max_gold : PLAYER_MAX_GOLD.toNat = 2 ^ 31 - 1 := rfl

theorem takeShare_of_fits (h : Fits c s) : (takeShare c s).toNat = c.toNat + s.toNat := by
  unfold Fits at h
  rw [toNat_max_gold] at h
  have hsum : (c + s).toNat = c.toNat + s.toNat := by
    rw [UInt32.toNat_add]
    exact Nat.mod_eq_of_lt (by omega)
  have hbelow : ¬ c + s ≥ PLAYER_MAX_GOLD := by
    rw [ge_iff_le, UInt32.le_iff_toNat_le, hsum, toNat_max_gold]
    omega
  rw [takeShare, if_neg hbelow]
  exact (credit_exact_iff c s).2 (Or.inr (by omega))

theorem takeShare_of_refused (h : ¬ Fits c s) (hwrap : ¬ Wraps c s) : takeShare c s = c := by
  refine if_pos ?_
  by_contra hbelow
  have hlt : c + s < PLAYER_MAX_GOLD := UInt32.not_le.1 hbelow
  have hcarry : c.toNat + s.toNat < 2 ^ 32 := by
    by_contra hge
    exact hwrap ⟨Nat.le_of_not_lt hge, hlt⟩
  have hnat := UInt32.lt_iff_toNat_lt.1 hlt
  rw [UInt32.toNat_add, Nat.mod_eq_of_lt hcarry] at hnat
  exact h hnat

theorem takeShare_lt_of_wraps (h : Wraps c s) : takeShare c s < c := by
  obtain ⟨hcarry, hlt⟩ := h
  have hc := c.toNat_lt
  have hs := s.toNat_lt
  have hne : s ≠ 0 := by
    rintro rfl
    simp at hcarry
    omega
  have hnat := UInt32.lt_iff_toNat_lt.1 hlt
  rw [UInt32.toNat_add, toNat_max_gold] at hnat
  rw [takeShare, if_neg (UInt32.not_le.2 hlt), UInt32.lt_iff_toNat_lt, toNat_credit hne]
  split <;> omega

/-- What becomes of a coinage when no sum wraps. -/
theorem takeShare_cases (hwrap : ¬ Wraps c s) :
    (takeShare c s).toNat = c.toNat + if Fits c s then s.toNat else 0 := by
  by_cases hfits : Fits c s
  · rw [takeShare_of_fits hfits, if_pos hfits]
  · rw [takeShare_of_refused hfits hwrap, if_neg hfits, Nat.add_zero]

/-! ## All shares -/

omit [Fintype Player] in
theorem shareOut_apply (qs : List Player) (hqs : qs.Nodup) (coinage : Player → UInt32) :
    qs.foldl (shareOut share) coinage q
      = if q ∈ qs then takeShare (coinage q) share else coinage q := by
  induction qs generalizing coinage with
  | nil => rfl
  | cons p qs ih =>
    obtain ⟨hp, hqs⟩ := List.nodup_cons.1 hqs
    rw [List.foldl_cons, ih hqs, shareOut]
    by_cases hq : q = p
    · subst hq
      rw [Function.update_self, if_neg hp, if_pos List.mem_cons_self]
    · have hmem : q ∈ p :: qs ↔ q ∈ qs := by simp [hq]
      rw [Function.update_of_ne hq]
      simp only [hmem]

/-- Those the gold is shared among; a player alone shares with nobody. -/
def sharers (w : World Player) (player : Player) : List Player :=
  match w.group player with
  | none => [player]
  | some party => targets w player party

/-- What each of them is to have. -/
def shareOf (w : World Player) (player : Player) (money : UInt32) : UInt32 :=
  money / UInt32.ofNat (sharers w player).length

omit [Fintype Player] [DecidableEq Player] in
theorem nodup_targets (party : Group Player) : (targets w player party).Nodup :=
  party.nodup.filter _

omit [Fintype Player] [DecidableEq Player] in
theorem length_targets_le (party : Group Player) : (targets w player party).length ≤ 40 :=
  (List.length_filter_le _ _).trans ((List.length_filterMap_le _ _).trans party.size)

omit [Fintype Player] [DecidableEq Player] in
theorem toNat_length_sharers :
    (UInt32.ofNat (sharers w player).length).toNat = (sharers w player).length := by
  have hle : (sharers w player).length ≤ 40 := by
    unfold sharers
    split
    · simp
    · exact length_targets_le _
  rw [UInt32.toNat_ofNat']
  exact Nat.mod_eq_of_lt (by omega)

omit [Fintype Player] [DecidableEq Player] in
theorem toNat_shareOf :
    (shareOf w player money).toNat = money.toNat / (sharers w player).length := by
  rw [shareOf, UInt32.toNat_div, toNat_length_sharers]

omit [Fintype Player] [DecidableEq Player] in
theorem shareOf_alone (h : w.group player = none) : shareOf w player money = money := by
  have hone : (sharers w player).length = 1 := by
    simp [sharers, h]
  rw [shareOf, hone]
  refine UInt32.toNat.inj ?_
  rw [UInt32.toNat_div]
  exact Nat.div_one _

omit [Fintype Player] in
/-- The coinages after the call. -/
theorem shared_coinage : (lootMoney w player guid money).coinage q
    = if q ∈ sharers w player then takeShare (w.coinage q) (shareOf w player money)
      else w.coinage q := by
  cases hgroup : w.group player with
  | none =>
    have hsharers : sharers w player = [player] := by simp [sharers, hgroup]
    rw [shareOf_alone hgroup, hsharers, lootMoney, hgroup]
    unfold takeShare
    by_cases hq : q = player
    · subst hq
      by_cases hcap : w.coinage q + money ≥ PLAYER_MAX_GOLD
      · simp [hcap]
      · simp [hcap]
    · by_cases hcap : w.coinage player + money ≥ PLAYER_MAX_GOLD
      · simp [hcap, hq]
      · simp [hcap, hq]
  | some party =>
    have hsharers : sharers w player = targets w player party := by simp [sharers, hgroup]
    have htargets : targets (w.setGold guid 0) player party = targets w player party := rfl
    rw [shareOf, hsharers, lootMoney, hgroup]
    dsimp only
    rw [htargets]
    split_ifs with hlength hmem hmem
    · exact absurd (List.length_eq_zero_iff.1 hlength ▸ hmem) List.not_mem_nil
    · rfl
    · exact (shareOut_apply _ (nodup_targets party) w.coinage).trans (if_pos hmem)
    · exact (shareOut_apply _ (nodup_targets party) w.coinage).trans (if_neg hmem)

/-- The sharers that can take their share. -/
def takers (w : World Player) (player : Player) (money : UInt32) : Finset Player :=
  Finset.univ.filter fun q =>
    q ∈ sharers w player ∧ Fits (w.coinage q) (shareOf w player money)

omit [Fintype Player] in
/-- The gold that is left in the loot. -/
theorem shared_gold (player : Player) (hgold : w.gold guid = some money) :
    (lootMoney w player guid money).gold guid
      = if w.group player = none ∧ PLAYER_MAX_GOLD ≤ w.coinage player + money then some money
        else some 0 := by
  cases hgroup : w.group player with
  | none =>
    rw [lootMoney, hgroup]
    by_cases hcap : PLAYER_MAX_GOLD ≤ w.coinage player + money
    · simp [hcap, hgold]
    · simp [hcap]
  | some party =>
    have hempty : (w.setGold guid 0).gold guid = some 0 := Function.update_self ..
    rw [lootMoney, hgroup]
    dsimp only
    split_ifs with hlength hnone hnone
    · cases hnone.1
    · exact hempty
    · cases hnone.1
    · exact hempty

/-! ## What is kept -/

/-- A loot and the coinages of all players. -/
def total (w : World Player) (guid : UInt64) : Nat :=
  ((w.gold guid).getD 0).toNat + ∑ q, (w.coinage q).toNat

/-- No more is lost than is left over in sharing, no coinage falls or reaches
the cap, and gold that nobody can take stays. -/
structure GoldKept (w w' : World Player) (player : Player) (guid : UInt64) (money : UInt32) :
    Prop where
  total_le : total w' guid ≤ total w guid
  total_lt : total w guid < total w' guid + (sharers w player).length
  coinage_le : ∀ q, w.coinage q ≤ w'.coinage q
  below_cap : ∀ q, w'.coinage q = w.coinage q ∨ w'.coinage q < PLAYER_MAX_GOLD
  stays : (∀ q ∈ sharers w player, ¬ Fits (w.coinage q) (shareOf w player money)) →
    w'.gold guid = some money

/-- No sum wraps below the cap, and in a group somebody can take his share
and all that is not taken is less than a coin for each. -/
def Fair (w : World Player) (player : Player) (money : UInt32) : Prop :=
  (∀ q ∈ sharers w player, ¬ Wraps (w.coinage q) (shareOf w player money)) ∧
  (w.group player ≠ none → (takers w player money).Nonempty ∧
    money.toNat - (takers w player money).card * (shareOf w player money).toNat
      < (sharers w player).length)

theorem mem_takers : q ∈ takers w player money ↔
    q ∈ sharers w player ∧ Fits (w.coinage q) (shareOf w player money) := by
  simp [takers]

/-- Without a wrap the coinages grow by the shares that are taken. -/
theorem sum_coinage (guid : UInt64)
    (hwrap : ∀ q ∈ sharers w player, ¬ Wraps (w.coinage q) (shareOf w player money)) :
    ∑ q, ((lootMoney w player guid money).coinage q).toNat
      = ∑ q, (w.coinage q).toNat
        + (takers w player money).card * (shareOf w player money).toNat := by
  have hone : ∀ q, ((lootMoney w player guid money).coinage q).toNat
      = (w.coinage q).toNat
        + if q ∈ takers w player money then (shareOf w player money).toNat else 0 := by
    intro q
    rw [shared_coinage]
    by_cases hq : q ∈ sharers w player
    · rw [if_pos hq, takeShare_cases (hwrap q hq)]
      simp only [mem_takers, hq, true_and]
    · have hnot : q ∉ takers w player money := fun h => hq (mem_takers.1 h).1
      rw [if_neg hq, if_neg hnot, Nat.add_zero]
  calc ∑ q, ((lootMoney w player guid money).coinage q).toNat
      = ∑ q, ((w.coinage q).toNat
          + if q ∈ takers w player money then (shareOf w player money).toNat else 0) :=
        Finset.sum_congr rfl fun q _ => hone q
    _ = ∑ q, (w.coinage q).toNat
        + (takers w player money).card * (shareOf w player money).toNat := by
        rw [Finset.sum_add_distrib, Finset.sum_ite_mem, Finset.univ_inter, Finset.sum_const,
          smul_eq_mul]

theorem card_takers_mul_le (w : World Player) (player : Player) (money : UInt32) :
    (takers w player money).card * (shareOf w player money).toNat ≤ money.toNat := by
  have hsub : takers w player money ⊆ (sharers w player).toFinset := by
    intro q hq
    exact List.mem_toFinset.2 (mem_takers.1 hq).1
  have hcard : (takers w player money).card ≤ (sharers w player).length :=
    (Finset.card_le_card hsub).trans (List.toFinset_card_le _)
  calc (takers w player money).card * (shareOf w player money).toNat
      ≤ (sharers w player).length * (money.toNat / (sharers w player).length) := by
        rw [toNat_shareOf]
        exact Nat.mul_le_mul_right _ hcard
    _ ≤ money.toNat := Nat.mul_div_le _ _

omit [Fintype Player] in
theorem coinage_kept
    (hwrap : ∀ q ∈ sharers w player, ¬ Wraps (w.coinage q) (shareOf w player money)) (q : Player) :
    w.coinage q ≤ (lootMoney w player guid money).coinage q ∧
      ((lootMoney w player guid money).coinage q = w.coinage q ∨
        (lootMoney w player guid money).coinage q < PLAYER_MAX_GOLD) := by
  rw [shared_coinage]
  split_ifs with hq
  · by_cases hfits : Fits (w.coinage q) (shareOf w player money)
    · have htake := takeShare_of_fits hfits
      refine ⟨UInt32.le_iff_toNat_le.2 (by omega), Or.inr (UInt32.lt_iff_toNat_lt.2 ?_)⟩
      rw [htake]
      exact hfits
    · have hsame := takeShare_of_refused hfits (hwrap q hq)
      rw [hsame]
      exact ⟨UInt32.le_refl _, Or.inl rfl⟩
  · exact ⟨UInt32.le_refl _, Or.inl rfl⟩

omit [DecidableEq Player] in
theorem total_eq_of_gold {gold : UInt32} (hgold : w.gold guid = some gold) :
    total w guid = gold.toNat + ∑ q, (w.coinage q).toNat := by
  rw [total, hgold]
  rfl

/-- A wrap takes gold from a player. -/
theorem no_wrap_of_kept (h : GoldKept w (lootMoney w player guid money) player guid money) :
    ∀ q ∈ sharers w player, ¬ Wraps (w.coinage q) (shareOf w player money) := by
  intro q hq hwrap
  have hle := h.coinage_le q
  rw [shared_coinage, if_pos hq] at hle
  exact UInt32.not_lt.2 hle (takeShare_lt_of_wraps hwrap)

theorem kept_alone_iff (hgroup : w.group player = none) (hgold : w.gold guid = some money) :
    GoldKept w (lootMoney w player guid money) player guid money ↔ Fair w player money := by
  have hsharers : sharers w player = [player] := by simp [sharers, hgroup]
  have hshare : shareOf w player money = money := shareOf_alone hgroup
  constructor
  · intro h
    exact ⟨no_wrap_of_kept h, fun hne => absurd hgroup hne⟩
  · rintro ⟨hwrap, -⟩
    have hsum := sum_coinage guid hwrap
    have hafter := shared_gold player hgold
    have hplayer := hwrap player (by simp [hsharers])
    rw [hshare] at hsum hplayer
    by_cases hfits : Fits (w.coinage player) money
    · -- he takes it all
      have htakers : takers w player money = {player} := by
        ext q
        rw [mem_takers, hsharers, hshare, Finset.mem_singleton, List.mem_singleton]
        exact ⟨And.left, fun hq => ⟨hq, hq ▸ hfits⟩⟩
      have hbelow : ¬ PLAYER_MAX_GOLD ≤ w.coinage player + money := by
        intro hcap
        have hsame : takeShare (w.coinage player) money = w.coinage player := if_pos hcap
        have htake := takeShare_of_fits hfits
        have hzero : money = 0 := by
          rw [hsame] at htake
          exact UInt32.toNat.inj (by simpa using htake)
        subst hzero
        rw [UInt32.add_zero] at hcap
        exact absurd hfits (Nat.not_lt.2 (by simpa using UInt32.le_iff_toNat_le.1 hcap))
      rw [if_neg fun h => hbelow h.2] at hafter
      rw [htakers, Finset.card_singleton, Nat.one_mul] at hsum
      have htotal := total_eq_of_gold hgold
      have htotal' := total_eq_of_gold hafter
      rw [hsum, UInt32.toNat_zero, Nat.zero_add] at htotal'
      exact {
        total_le := by omega
        total_lt := by rw [hsharers, List.length_singleton]; omega
        coinage_le := fun q => (coinage_kept hwrap q).1
        below_cap := fun q => (coinage_kept hwrap q).2
        stays := fun hnone =>
          absurd (by rw [hshare]; exact hfits) (hnone player (by simp [hsharers])) }
    · -- he is passed over, and the loot is left
      have htakers : takers w player money = ∅ := by
        ext q
        rw [mem_takers, hsharers, hshare, List.mem_singleton]
        refine iff_of_false ?_ (Finset.notMem_empty q)
        rintro ⟨rfl, hq⟩
        exact hfits hq
      have hcap : PLAYER_MAX_GOLD ≤ w.coinage player + money := by
        by_contra hbelow
        have hlt := UInt32.not_le.1 hbelow
        have hcarry : (w.coinage player).toNat + money.toNat < 2 ^ 32 := by
          by_contra hge
          exact hplayer ⟨Nat.le_of_not_lt hge, hlt⟩
        have hnat := UInt32.lt_iff_toNat_lt.1 hlt
        rw [UInt32.toNat_add, Nat.mod_eq_of_lt hcarry] at hnat
        exact hfits hnat
      rw [if_pos ⟨hgroup, hcap⟩] at hafter
      rw [htakers, Finset.card_empty, Nat.zero_mul, Nat.add_zero] at hsum
      have htotal := total_eq_of_gold hgold
      have htotal' := total_eq_of_gold hafter
      rw [hsum] at htotal'
      exact {
        total_le := by omega
        total_lt := by rw [hsharers, List.length_singleton]; omega
        coinage_le := fun q => (coinage_kept hwrap q).1
        below_cap := fun q => (coinage_kept hwrap q).2
        stays := fun _ => hafter }

theorem kept_group_iff {party : Group Player} (hgroup : w.group player = some party)
    (hgold : w.gold guid = some money) (hmoney : money ≠ 0) :
    GoldKept w (lootMoney w player guid money) player guid money ↔ Fair w player money := by
  have hafter := shared_gold player hgold
  have hnone : w.group player ≠ none := by simp [hgroup]
  rw [if_neg fun h => hnone h.1] at hafter
  have htotal := total_eq_of_gold hgold
  have htotal' := total_eq_of_gold hafter
  rw [UInt32.toNat_zero, Nat.zero_add] at htotal'
  have hle := card_takers_mul_le w player money
  constructor
  · intro h
    have hwrap := no_wrap_of_kept h
    have hsum := sum_coinage guid hwrap
    refine ⟨hwrap, fun _ => ⟨?_, ?_⟩⟩
    · -- if nobody could take a share the gold would have had to stay
      by_contra hempty
      have hstays := h.stays fun q hq hfits => hempty ⟨q, mem_takers.2 ⟨hq, hfits⟩⟩
      rw [hafter] at hstays
      exact hmoney (Option.some.inj hstays).symm
    · have hlt := h.total_lt
      omega
  · rintro ⟨hwrap, hshared⟩
    obtain ⟨⟨p, hp⟩, hlost⟩ := hshared hnone
    have hsum := sum_coinage guid hwrap
    obtain ⟨hsharer, hfits⟩ := mem_takers.1 hp
    exact {
      total_le := by omega
      total_lt := by omega
      coinage_le := fun q => (coinage_kept hwrap q).1
      below_cap := fun q => (coinage_kept hwrap q).2
      stays := fun hnobody => absurd hfits (hnobody p hsharer) }

/-- The call reaches gold in a loot. -/
def Reaches (w : World Player) (player : Player) (money : UInt32) : Prop :=
  w.isInWorld player = true ∧ w.lootGUID player ≠ 0 ∧
    w.gold (w.lootGUID player) = some money ∧ money ≠ 0

/-- A call that reaches no gold changes nothing, and one that does keeps the
gold exactly when it is fair: whatever the gold, the players and their
coinages, the group and where its members are. -/
theorem loot_money_iff (w : World Player) (player : Player) :
    ((∀ money, ¬ Reaches w player money) → HandleLootMoneyOpcode w player = w) ∧
    ∀ money, Reaches w player money →
      (GoldKept w (HandleLootMoneyOpcode w player) player (w.lootGUID player) money ↔
        Fair w player money) := by
  constructor
  · intro hnone
    unfold HandleLootMoneyOpcode
    split
    · rfl
    case isFalse hguard =>
      have hworld : w.isInWorld player = true ∧ w.lootGUID player ≠ 0 := by simpa using hguard
      split
      · rfl
      case h_2 money hgold =>
        have hzero : money = 0 := by
          by_contra hne
          exact hnone money ⟨hworld.1, hworld.2, hgold, hne⟩
        rw [if_pos hzero]
  · rintro money ⟨hworld, hguid, hgold, hmoney⟩
    have hcall : HandleLootMoneyOpcode w player
        = lootMoney w player (w.lootGUID player) money := by
      unfold HandleLootMoneyOpcode
      rw [if_neg (by simp [hworld, hguid]), hgold]
      exact if_neg hmoney
    rw [hcall]
    cases hgroup : w.group player with
    | none => exact kept_alone_iff hgroup hgold
    | some party => exact kept_group_iff hgroup hgold hmoney

/-- Three players in one place, a loot of 100 and a party of the first two. -/
def dungeon (coins : Fin 3 → UInt32) : World (Fin 3) where
  coinage := coins
  gold := fun g => if g = 9 then some 100 else none
  isInWorld := fun _ => true
  lootGUID := fun _ => 9
  group := fun p => if p = 2 then none else some ⟨[[some 0, none, some 1]], by decide, by decide⟩
  zoneId := fun _ => 1
  instanceID := fun _ => 4

/-- The second of the party is at the cap, and his fifty coins are gone. -/
theorem share_at_cap_lost :
    let w := dungeon ![10, 0x7FFFFFFE, 0]
    let w' := HandleLootMoneyOpcode w 0
    w'.coinage 0 = 60 ∧ w'.coinage 1 = 0x7FFFFFFE ∧ w'.gold 9 = some 0 ∧
    total w' 9 + 50 = total w 9 := by
  decide +kernel

end HearthStone.LootMoney
