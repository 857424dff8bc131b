/-
HearthStone.Guild.Allowance — what a member may take out of the guild
bank in a day: gold (`Guild::WithdrawMoney`) and items from a tab
(`GuildMember::CalculateAllowedItemWithdraws`, `OnItemWithdraw` and the
part of `HandleGuildBankDepositItem` that calls them).

The gold side is the one of `Guild.GuildBank`. `Guilds.bank` is what that
module sees of a guild, `Guilds.setBank` writes back what it changed. A
rank is shared by its members, so an edit of the rank changes the limits
of them all.
-/
import HearthStone.Guild.GuildBank
import HearthStone.Guild.Roster

namespace HearthStone.Roster

variable {γ ι : Type*} [DecidableEq γ] [DecidableEq ι]

/-! ## Items -/

def GR_RIGHT_GUILD_BANK_DEPOSIT_ITEMS : UInt32 := 0x02

namespace GuildMember

variable (m : GuildMember) (rank : GuildRank) (now : Nat) (tab : Fin 6)

/-- `GuildMember::CalculateAllowedItemWithdraws`. -/
def calculateAllowedItemWithdraws : UInt32 :=
  if (rank.iTabPermissions tab).iStacksPerDay = -1 then 0xFFFFFFFF
  else if (rank.iTabPermissions tab).iStacksPerDay = 0 then 0
  else if (now : Int) - (m.uLastItemWithdrawReset tab).toNat ≥ Guild.timeDay then
    (rank.iTabPermissions tab).iStacksPerDay.toUInt32
  else (rank.iTabPermissions tab).iStacksPerDay.toUInt32 - m.uItemWithdrawlsSinceLastReset tab

/-- `GuildMember::OnItemWithdraw`. -/
def onItemWithdraw : GuildMember :=
  if (rank.iTabPermissions tab).iStacksPerDay ≤ 0 then m
  else if (UInt32.ofNat now - m.uLastItemWithdrawReset tab).toNat ≥ Guild.timeDay then
    { m with
      uLastItemWithdrawReset := Function.update m.uLastItemWithdrawReset tab (UInt32.ofNat now)
      uItemWithdrawlsSinceLastReset := Function.update m.uItemWithdrawlsSinceLastReset tab 1 }
  else
    { m with
      uItemWithdrawlsSinceLastReset := Function.update m.uItemWithdrawlsSinceLastReset tab
        (m.uItemWithdrawlsSinceLastReset tab + 1) }

/-- The checks an item has to pass to leave a tab: the message of a refusal. -/
def takeRefusal : Option (Option String) :=
  if !rank.canPerformBankCommand GR_RIGHT_GUILD_BANK_DEPOSIT_ITEMS tab then some none
  else if (rank.iTabPermissions tab).iStacksPerDay = 0 then
    some (some "You don't have permission to do that.")
  else if (rank.iTabPermissions tab).iStacksPerDay > 0 ∧
      m.calculateAllowedItemWithdraws rank now tab = 0 then
    some (some "You have withdrawn the maximum amount for today.")
  else none

/-- The counter is charged only under a limit. -/
def charged : GuildMember :=
  if (rank.iTabPermissions tab).iStacksPerDay > 0 then m.onItemWithdraw rank now tab else m

end GuildMember

/-! ## Gold -/

namespace Guild

variable (g : Guild ι)

/-- What the gold calls see of a rank and of a member. -/
def rankView (r : Fin 10) : HearthStone.Guild.GuildRank where
  iId := UInt32.ofNat r.val
  iGoldLimitPerDay := (g.ranks r).elim 0 (·.iGoldLimitPerDay)

def memberView (m : GuildMember) : HearthStone.Guild.GuildMember where
  pRank := g.rankView m.pRank
  uLastWithdrawReset := m.uLastWithdrawReset
  uWithdrawlsSinceLastReset := m.uWithdrawlsSinceLastReset

/-- The two gold counters are written back. -/
def setMemberView (m : GuildMember) (v : Option HearthStone.Guild.GuildMember) : GuildMember :=
  { m with
    uLastWithdrawReset := v.elim m.uLastWithdrawReset (·.uLastWithdrawReset)
    uWithdrawlsSinceLastReset := v.elim m.uWithdrawlsSinceLastReset (·.uWithdrawlsSinceLastReset) }

end Guild

namespace Guilds

variable (objmgr : ObjectMgr ι) (w : Guilds γ ι) (G : γ) (g : Guild ι)

/-- What the gold calls see of a guild. -/
def bank : HearthStone.Guild.GuildBank ι where
  bankBalance := g.bankBalance
  clients p :=
    { coinage := (w.info p).coinage
      guildRank := g.rankView (w.info p).guildRank
      guildMember := (g.members.lookup p).map g.memberView }

/-- What a gold call by `p` changed is written back. -/
def setBank (p : ι) (b : HearthStone.Guild.GuildBank ι) : Guilds γ ι :=
  (w.setGuild G (some
      { g.updateMember p (fun m => Guild.setMemberView m (b.clients p).guildMember) with
        bankBalance := b.bankBalance })).setInfo
    p { w.info p with coinage := b.coinage p }

/-- The guild a player's record points to. -/
def guildOf (p : ι) : Option (γ × Guild ι) :=
  (w.info p).guild.bind fun G => (w.guild G).map fun g => (G, g)

/-- The record `PlayerInfo::guildMember` points to, and its rank. -/
def guildMember (p : ι) : Option GuildMember := (w.guildOf p).bind fun e => e.2.members.lookup p

def memberRank (p : ι) : Option GuildRank :=
  (w.guildOf p).bind fun e => (e.2.members.lookup p).bind fun m => e.2.ranks m.pRank

/-- `WorldSession::HandleGuildBankDepositMoney`. -/
def depositMoney (p : ι) (uAmount : UInt32) : Guilds γ ι :=
  match w.guildOf p with
  | none => w
  | some (G, g) => w.setBank G g p ((w.bank g).depositMoney p uAmount)

/-- The checks of `Guild::WithdrawMoney`. -/
def withdrawRefusal (p : ι) (uAmount : UInt32) (now : Nat) : Option (Option String) :=
  match w.guildOf p with
  | none => some none
  | some (_, g) => (w.bank g).withdrawRefusal p uAmount now

/-- `WorldSession::HandleGuildBankWithdrawMoney`. -/
def withdrawMoney (p : ι) (uAmount : UInt32) (now : Nat) : Guilds γ ι × Option String :=
  match w.guildOf p with
  | none => (w, none)
  | some (G, g) =>
    (w.setBank G g p ((w.bank g).withdrawMoney p uAmount now).1,
      ((w.bank g).withdrawMoney p uAmount now).2)

/-- The checks on an item that `p` takes out of a tab. -/
def takeRefusal (p : ι) (tab : Fin 6) (now : Nat) : Option (Option String) :=
  match w.guildMember p, w.memberRank p with
  | some m, some rank => m.takeRefusal rank now tab
  | _, _ => some none

/-- The counters after `p` has taken an item out of a tab. -/
def takeItem (p : ι) (tab : Fin 6) (now : Nat) : Guilds γ ι × Option String :=
  match w.takeRefusal p tab now, w.guildOf p, w.memberRank p with
  | none, some (G, g), some rank =>
    (w.setGuild G (some (g.updateMember p fun m => m.charged rank now tab)), none)
  | some message, _, _ => (w, message)
  | _, _, _ => (w, none)

end Guilds

/-- A call on a guild's roster or on its bank. -/
inductive VaultCall (γ ι : Type*)
  | roster (call : GuildCall γ ι)
  | depositMoney (p : ι) (uAmount : UInt32)
  | withdrawMoney (p : ι) (uAmount : UInt32) (now : Nat)
  | takeItem (p : ι) (tab : Fin 6) (now : Nat)

/-- The guilds after a call. -/
def Guilds.vault (objmgr : ObjectMgr ι) (w : Guilds γ ι) : VaultCall γ ι → Option (Guilds γ ι)
  | .roster call => w.call objmgr call
  | .depositMoney p uAmount => some (w.depositMoney p uAmount)
  | .withdrawMoney p uAmount now => some (w.withdrawMoney p uAmount now).1
  | .takeItem p tab now => some (w.takeItem p tab now).1

end HearthStone.Roster
