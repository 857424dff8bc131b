/-
HearthStone.Guild.GuildBank — the gold side of the guild bank
(`Guild::DepositMoney`, `Guild::WithdrawMoney` in `Guild.cpp`), with the
daily allowance it consults (`GuildMember::CalculateAvailableAmount`,
`GuildMember::OnMoneyWithdraw`).

The bank balance and every coinage are unsigned 32-bit fields. The bank
is updated by plain `+=` and `-=`, the coinage by `ModUnsigned32Value`.
Database statements, the guild log and the event broadcast are left out:
nothing here reads them back.

`UNIXTIME` is a parameter `now`. The allowance compares it as a signed
`time_t`, the counter as `(uint32)UNIXTIME`.
-/
import HearthStone.Lib.Run
import HearthStone.Object.UnsignedValue
import Mathlib.Algebra.BigOperators.Group.Finset.Basic
import Mathlib.Algebra.Order.BigOperators.Group.Finset

namespace HearthStone.Guild

/-- `TIME_DAY` (`Common.h`). -/
def timeDay : Nat := 60 * 60 * 24

/-- The fields of `GuildRank` the money calls read. -/
structure GuildRank where
  iId : UInt32
  iGoldLimitPerDay : Int32
  deriving DecidableEq

/-- The fields of `GuildMember` the money calls read and write. -/
structure GuildMember where
  pRank : GuildRank
  uLastWithdrawReset : UInt32
  uWithdrawlsSinceLastReset : UInt32
  deriving DecidableEq

/-- `GuildMember::CalculateAvailableAmount`. -/
def GuildMember.calculateAvailableAmount (m : GuildMember) (now : Nat) : UInt32 :=
  if m.pRank.iGoldLimitPerDay = -1 then 0xFFFFFFFF
  else if m.pRank.iGoldLimitPerDay = 0 then 0
  else if (now : Int) - m.uLastWithdrawReset.toNat ≥ timeDay then
    m.pRank.iGoldLimitPerDay.toUInt32
  else m.pRank.iGoldLimitPerDay.toUInt32 - m.uWithdrawlsSinceLastReset

/-- `GuildMember::OnMoneyWithdraw`. Within the day the counter counts
withdrawals, not gold. -/
def GuildMember.onMoneyWithdraw (m : GuildMember) (now : Nat) (amt : UInt32) : GuildMember :=
  if m.pRank.iGoldLimitPerDay ≤ 0 then m
  else if (UInt32.ofNat now - m.uLastWithdrawReset).toNat ≥ timeDay then
    { m with uLastWithdrawReset := UInt32.ofNat now, uWithdrawlsSinceLastReset := amt }
  else { m with uWithdrawlsSinceLastReset := m.uWithdrawlsSinceLastReset + 1 }

/-- The player behind a `WorldSession`: `PLAYER_FIELD_COINAGE`, and the
`guildRank` and `guildMember` pointers of its `PlayerInfo`. -/
structure Client where
  coinage : UInt32
  guildRank : GuildRank
  guildMember : Option GuildMember
  deriving DecidableEq

/-- The guild's `m_bankBalance` and the clients that may call it. -/
structure GuildBank (ι : Type*) where
  bankBalance : UInt32
  clients : ι → Client

variable {ι : Type*} [DecidableEq ι]

namespace GuildBank

def coinage (g : GuildBank ι) (p : ι) : UInt32 := (g.clients p).coinage

/-- Replace one client. -/
def setClient (g : GuildBank ι) (p : ι) (c : Client) : GuildBank ι :=
  { g with clients := Function.update g.clients p c }

/-- `Guild::DepositMoney`. -/
def depositMoney (g : GuildBank ι) (p : ι) (uAmount : UInt32) : GuildBank ι :=
  if g.coinage p < uAmount then g
  else if uAmount = 0 then g
  else
    { g with bankBalance := g.bankBalance + uAmount }.setClient p
      { g.clients p with coinage := debit (g.coinage p) uAmount }

/-- The checks of `Guild::WithdrawMoney`, in order: the system message a
refusal sends, or `none` inside when it returns without one. -/
def withdrawRefusal (g : GuildBank ι) (p : ι) (uAmount : UInt32) (now : Nat) :
    Option (Option String) :=
  match (g.clients p).guildMember with
  | none => some none
  | some pMember =>
    if uAmount = 0 then some none
    else if g.bankBalance < uAmount then
      some (some "You cannot withdraw more money then the account holds.")
    else if (g.clients p).guildRank.iId ≠ 0 then
      if pMember.pRank.iGoldLimitPerDay > 0 ∧ pMember.calculateAvailableAmount now < uAmount then
        some (some "You have already withdrawn too much today.")
      else if pMember.pRank.iGoldLimitPerDay = 0 then
        some (some "You don't have permission to withdraw money.")
      else none
    else none

/-- `Guild::WithdrawMoney`: the bank afterwards and the message sent. -/
def withdrawMoney (g : GuildBank ι) (p : ι) (uAmount : UInt32) (now : Nat) :
    GuildBank ι × Option String :=
  match g.withdrawRefusal p uAmount now with
  | some message => (g, message)
  | none =>
    ({ g with bankBalance := g.bankBalance - uAmount }.setClient p
      { g.clients p with
        coinage := credit (g.coinage p) uAmount
        guildMember := (g.clients p).guildMember.map (GuildMember.onMoneyWithdraw · now uAmount) },
      none)

end GuildBank

/-- One call of either kind, by any client. -/
inductive MoneyCall (ι : Type*)
  | deposit (p : ι) (uAmount : UInt32)
  | withdraw (p : ι) (uAmount : UInt32) (now : Nat)

namespace MoneyCall

def player : MoneyCall ι → ι
  | deposit p _ => p
  | withdraw p _ _ => p

/-- The bank after the call. -/
def run (g : GuildBank ι) : MoneyCall ι → GuildBank ι
  | deposit p a => g.depositMoney p a
  | withdraw p a now => (g.withdrawMoney p a now).1

end MoneyCall

end HearthStone.Guild

/-! ## Theorems

When guild bank gold is conserved.

A call moves its amount or leaves everything alone, except at two wrap
boundaries: a deposit that carries the bank balance past 2^32, and any
accepted call that leaves the client's coinage at 2^31 or more, which
`ModUnsigned32Value` turns into zero. `exact_iff_fits` is that boundary,
call by call, and `conserves_of_fits` the sum over a run.
-/

namespace HearthStone.Guild

open Lib

variable {ι : Type*} [DecidableEq ι]

/-! ## What a call may do to the gold -/

/-- Neither the bank balance nor any coinage changed. -/
def GoldUnchanged (g g' : GuildBank ι) : Prop :=
  g'.bankBalance = g.bankBalance ∧ ∀ q, g'.coinage q = g.coinage q

/-- Exactly `a` went from the coinage of `p` into the bank. -/
def MovedToBank (g g' : GuildBank ι) (p : ι) (a : UInt32) : Prop :=
  g'.bankBalance.toNat = g.bankBalance.toNat + a.toNat ∧
    (g'.coinage p).toNat + a.toNat = (g.coinage p).toNat ∧
    ∀ q, q ≠ p → g'.coinage q = g.coinage q

/-- The call moves exactly the requested amount or changes nothing. -/
def MoneyCall.Exact (g : GuildBank ι) : MoneyCall ι → Prop
  | .deposit p a =>
      GoldUnchanged g (g.depositMoney p a) ∨ MovedToBank g (g.depositMoney p a) p a
  | .withdraw p a now =>
      GoldUnchanged g (g.withdrawMoney p a now).1 ∨ MovedToBank (g.withdrawMoney p a now).1 g p a

/-- The call is refused, or both balances it writes stay in range. -/
def MoneyCall.Fits (g : GuildBank ι) : MoneyCall ι → Prop
  | .deposit p a =>
      g.coinage p < a ∨ a = 0 ∨
        (g.bankBalance.toNat + a.toNat < 2 ^ 32 ∧ (g.coinage p).toNat < a.toNat + 2 ^ 31)
  | .withdraw p a now =>
      g.withdrawRefusal p a now ≠ none ∨ (g.coinage p).toNat + a.toNat < 2 ^ 31

/-- The bank balance and the coinages of the players in `s`. -/
def GuildBank.total (s : Finset ι) (g : GuildBank ι) : Nat :=
  g.bankBalance.toNat + ∑ p ∈ s, (g.coinage p).toNat

/-! ## Field lemmas -/

namespace GuildBank

@[simp] theorem coinage_setClient (g : GuildBank ι) (p q : ι) (c : Client) :
    (g.setClient p c).coinage q = if q = p then c.coinage else g.coinage q := by
  by_cases h : q = p
  · subst h; simp [setClient, coinage]
  · simp [setClient, coinage, h]

@[simp] theorem bankBalance_setClient (g : GuildBank ι) (p : ι) (c : Client) :
    (g.setClient p c).bankBalance = g.bankBalance := rfl

omit [DecidableEq ι] in
@[simp] theorem coinage_withBank (g : GuildBank ι) (b : UInt32) (p : ι) :
    ({ g with bankBalance := b } : GuildBank ι).coinage p = g.coinage p := rfl

/-- A deposit that passes both checks. -/
theorem depositMoney_accepted {g : GuildBank ι} {p : ι} {a : UInt32}
    (hc : ¬ g.coinage p < a) (ha : a ≠ 0) :
    (g.depositMoney p a).bankBalance = g.bankBalance + a ∧
      ∀ q, (g.depositMoney p a).coinage q = if q = p then debit (g.coinage p) a else g.coinage q := by
  rw [depositMoney, if_neg hc, if_neg ha]
  exact ⟨rfl, fun q => by simp⟩

/-- A withdrawal no check refuses, and what the checks have established. -/
theorem withdrawMoney_accepted {g : GuildBank ι} {p : ι} {a : UInt32} {now : Nat}
    (h : g.withdrawRefusal p a now = none) :
    (g.withdrawMoney p a now).1.bankBalance = g.bankBalance - a ∧
      ∀ q, (g.withdrawMoney p a now).1.coinage q =
        if q = p then credit (g.coinage p) a else g.coinage q := by
  simp only [withdrawMoney, h]
  exact ⟨rfl, fun q => by simp⟩

omit [DecidableEq ι] in
theorem covered_of_accepted {g : GuildBank ι} {p : ι} {a : UInt32} {now : Nat}
    (h : g.withdrawRefusal p a now = none) : a ≠ 0 ∧ a ≤ g.bankBalance := by
  simp only [withdrawRefusal] at h
  split at h
  · cases h
  · split at h
    · cases h
    · split at h
      · cases h
      · exact ⟨‹_›, UInt32.not_lt.mp ‹_›⟩

theorem withdrawMoney_refused {g : GuildBank ι} {p : ι} {a : UInt32} {now : Nat}
    (h : g.withdrawRefusal p a now ≠ none) : (g.withdrawMoney p a now).1 = g := by
  obtain ⟨message, hm⟩ := Option.ne_none_iff_exists'.mp h
  simp only [withdrawMoney, hm]

end GuildBank

/-! ## One call -/

theorem pos_of_ne_zero {a : UInt32} (ha : a ≠ 0) : 0 < a.toNat :=
  Nat.pos_of_ne_zero fun h => ha (UInt32.toNat_inj.mp h)

theorem deposit_exact_iff (g : GuildBank ι) (p : ι) (a : UInt32) :
    MoneyCall.Exact g (.deposit p a) ↔ MoneyCall.Fits g (.deposit p a) := by
  by_cases hc : g.coinage p < a
  · exact iff_of_true (Or.inl (by simp [GuildBank.depositMoney, hc, GoldUnchanged])) (Or.inl hc)
  by_cases ha : a = 0
  · refine iff_of_true (Or.inl ?_) (Or.inr (Or.inl ha))
    simp [GuildBank.depositMoney, ha, GoldUnchanged]
  obtain ⟨hbank, hcoin⟩ := GuildBank.depositMoney_accepted hc ha
  have hpos := pos_of_ne_zero ha
  have hcover : a.toNat ≤ (g.coinage p).toNat := UInt32.le_iff_toNat_le.mp (UInt32.not_lt.mp hc)
  have hdebit := debit_exact_iff (g.coinage p) a
  have hsum := UInt32.toNat_add g.bankBalance a
  have halt := a.toNat_lt
  simp only [MoneyCall.Exact, MoneyCall.Fits, GoldUnchanged, MovedToBank, hbank, hcoin, hc, ha,
    false_or, if_true]
  constructor
  · rintro (⟨hsame, -⟩ | ⟨hmoved, hpaid, -⟩)
    · -- the bank always moves: a non-zero amount below 2^32 is not a multiple of it
      have := congrArg UInt32.toNat hsame
      omega
    · have := (hdebit.mp hpaid).resolve_left ha
      omega
  · rintro ⟨hbankFits, hcoinFits⟩
    exact Or.inr ⟨by omega, hdebit.mpr (Or.inr ⟨hcover, by omega⟩), fun q hq => if_neg hq⟩

theorem withdraw_exact_iff (g : GuildBank ι) (p : ι) (a : UInt32) (now : Nat) :
    MoneyCall.Exact g (.withdraw p a now) ↔ MoneyCall.Fits g (.withdraw p a now) := by
  by_cases href : g.withdrawRefusal p a now ≠ none
  · refine iff_of_true (Or.inl ?_) (Or.inl href)
    simp [GuildBank.withdrawMoney_refused href, GoldUnchanged]
  rw [not_not] at href
  obtain ⟨hbank, hcoin⟩ := GuildBank.withdrawMoney_accepted href
  obtain ⟨ha, hcover⟩ := GuildBank.covered_of_accepted href
  have hpos := pos_of_ne_zero ha
  have hle := UInt32.le_iff_toNat_le.mp hcover
  have hsub := UInt32.toNat_sub_of_le g.bankBalance a hcover
  have hcredit := credit_exact_iff (g.coinage p) a
  simp only [MoneyCall.Exact, MoneyCall.Fits, GoldUnchanged, MovedToBank, hbank, hcoin, href,
    ne_eq, not_true_eq_false, false_or, if_true]
  constructor
  · rintro (⟨hsame, -⟩ | ⟨-, hpaid, -⟩)
    · have := congrArg UInt32.toNat hsame
      omega
    · exact (hcredit.mp hpaid.symm).resolve_left ha
  · intro hfits
    refine Or.inr ⟨by omega, (hcredit.mpr (Or.inr hfits)).symm, fun q hq => ?_⟩
    rw [if_neg hq]

theorem exact_iff_fits (g : GuildBank ι) (c : MoneyCall ι) : c.Exact g ↔ c.Fits g := by
  cases c with
  | deposit p a => exact deposit_exact_iff g p a
  | withdraw p a now => exact withdraw_exact_iff g p a now

/-! ## Whole runs -/

omit [DecidableEq ι] in
theorem total_unchanged {g g' : GuildBank ι} (h : GoldUnchanged g g') (s : Finset ι) :
    g'.total s = g.total s := by
  obtain ⟨hbank, hcoin⟩ := h
  simp only [GuildBank.total, hbank, hcoin]

theorem total_moved {g g' : GuildBank ι} {p : ι} {a : UInt32} (h : MovedToBank g g' p a)
    {s : Finset ι} (hp : p ∈ s) : g'.total s = g.total s := by
  obtain ⟨hbank, hcoin, hrest⟩ := h
  have hothers : ∑ q ∈ s.erase p, (g'.coinage q).toNat = ∑ q ∈ s.erase p, (g.coinage q).toNat :=
    Finset.sum_congr rfl fun q hq => by rw [hrest q (Finset.ne_of_mem_erase hq)]
  simp only [GuildBank.total, ← Finset.add_sum_erase s _ hp, hothers]
  omega

/-- A call that is exact keeps the sum over any players it is one of. -/
theorem total_run_of_exact {g : GuildBank ι} {c : MoneyCall ι} (h : c.Exact g)
    {s : Finset ι} (hp : c.player ∈ s) : (c.run g).total s = g.total s := by
  cases c with
  | deposit p a =>
    rcases h with h | h
    · exact total_unchanged h s
    · exact total_moved h hp
  | withdraw p a now =>
    rcases h with h | h
    · exact total_unchanged h s
    · exact (total_moved h hp).symm

/-- **Guild bank gold.** A call moves exactly its amount or nothing
precisely when it is refused or both balances stay in range, and a run
of such calls by players of `s` keeps the bank balance plus their
coinages. -/
theorem guildBank_gold_conserved :
    (∀ (g : GuildBank ι) (c : MoneyCall ι), c.Exact g ↔ c.Fits g) ∧
      ∀ (s : Finset ι) (g g' : GuildBank ι) (cs : List (MoneyCall ι)),
        Run (Guarded (fun g c => c.Fits g ∧ c.player ∈ s) (FunStep MoneyCall.run)) g cs g' →
          g'.total s = g.total s := by
  refine ⟨exact_iff_fits, fun s g g' cs hrun => ?_⟩
  refine hrun.relates (fun _ => True) (fun a b : GuildBank ι => b.total s = a.total s)
    (fun _ => rfl) (fun _ _ _ h₁ h₂ => h₂.trans h₁) ?_ trivial
  rintro a c b - ⟨⟨hfits, hp⟩, rfl⟩
  exact ⟨trivial, total_run_of_exact ((exact_iff_fits a c).mpr hfits) hp⟩

/-! ### The boundary is reached -/

/-- A guild master holding `coinage`. -/
def masterWith (coinage : UInt32) : Client :=
  { coinage, guildRank := ⟨0, -1⟩, guildMember := some ⟨⟨0, -1⟩, 0, 0⟩ }

/-- One guild master with `coinage`, and a bank balance. -/
def bankOf (bankBalance coinage : UInt32) : GuildBank Nat :=
  { bankBalance, clients := fun _ => masterWith coinage }

/-- Withdrawing one copper at 2147483647 copper wipes the coinage. -/
theorem withdraw_at_cap_loses_gold :
    ¬ MoneyCall.Exact (bankOf 1 0x7FFFFFFF) (.withdraw 0 1 0) ∧
      (MoneyCall.run (bankOf 1 0x7FFFFFFF) (.withdraw 0 1 0)).total {0} = 0 ∧
      (bankOf 1 0x7FFFFFFF).total {0} = 2 ^ 31 := by
  refine ⟨?_, by decide, by decide⟩
  rw [withdraw_exact_iff]
  rintro (h | h)
  · exact h (by decide)
  · exact absurd h (by decide)

/-- Depositing 5 and withdrawing 3 again keeps the sum. -/
theorem guildBank_gold_conserved_round_trip :
    (MoneyCall.run (MoneyCall.run (bankOf 10 7) (.deposit 0 5)) (.withdraw 0 3 0)).total {0} =
      (bankOf 10 7).total {0} := by
  refine guildBank_gold_conserved.2 {0} _ _ [.deposit 0 5, .withdraw 0 3 0]
    (.cons ⟨⟨?_, by decide⟩, rfl⟩ (.cons ⟨⟨?_, by decide⟩, rfl⟩ (.nil _)))
  · exact Or.inr (Or.inr (by decide))
  · exact Or.inr (by decide)

end HearthStone.Guild
