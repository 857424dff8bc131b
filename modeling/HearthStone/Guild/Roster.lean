/-
HearthStone.Guild.Roster — ranks, members and masters of guilds
(`Guild.cpp`), with the gold counters of a member.

* A `GuildRank *` is the slot of `m_ranks` that holds the rank. The slot
  is also its `iId`: `CreateGuildRank` stores a rank with its own index,
  nothing writes `iId` later, and `RemoveGuildRank` frees only a rank no
  member points to.
* `m_members` is a finite map from players to their `GuildMember`, the
  record `PlayerInfo::guildMember` points to.
* `Guilds` is all guilds that have not been deleted, together with the
  records of all players. `guild`, `guildRank` and `guildMember` of a
  player are set together and cleared together, so `guildRank` is only
  read while `guild` is set.
* `ObjectMgr` finds a player's record by its guid.

Left out: packets to other clients, the guild log, the texts of ranks
and notes, and database statements. A call is undefined (`none`) on a
deleted guild and where `AddGuildMember` reads past `m_ranks`.
-/
import HearthStone.Object.UnsignedValue
import Mathlib

namespace HearthStone.Roster

/-! ## Ranks -/

structure GuildRankTabPermissions where
  iFlags : UInt32
  iStacksPerDay : Int32
  deriving DecidableEq

structure GuildRank where
  iRights : UInt32
  iGoldLimitPerDay : Int32
  iTabPermissions : Fin 6 → GuildRankTabPermissions
  deriving DecidableEq

def GR_RIGHT_GCHATLISTEN : UInt32 := 0x01
def GR_RIGHT_GCHATSPEAK : UInt32 := 0x02
def GR_RIGHT_INVITE : UInt32 := 0x10
def GR_RIGHT_REMOVE : UInt32 := 0x20
def GR_RIGHT_PROMOTE : UInt32 := 0x80
def GR_RIGHT_DEMOTE : UInt32 := 0x100
def GR_RIGHT_ALL : UInt32 := 0x001FF1FF

def GUILD_CREATE_S : UInt32 := 0
def GUILD_INVITE_S : UInt32 := 1
def GUILD_PROMOTE_S : UInt32 := 3

def GUILD_PERMISSIONS : UInt32 := 8
def GUILD_PLAYER_NOT_IN_GUILD : UInt32 := 9

/-- `GuildRank::CanPerformCommand`. -/
def GuildRank.canPerformCommand (r : GuildRank) (t : UInt32) : Bool := decide (0 < r.iRights &&& t)

/-- `GuildRank::CanPerformBankCommand`. -/
def GuildRank.canPerformBankCommand (r : GuildRank) (t : UInt32) (tab : Fin 6) : Bool :=
  decide (0 < (r.iTabPermissions tab).iFlags &&& t)

/-- The rank `CreateGuildRank` makes. -/
def GuildRank.new (iPermissions : UInt32) (bFullGuildBankPermissions : Bool) : GuildRank where
  iRights := iPermissions
  iGoldLimitPerDay := if bFullGuildBankPermissions then -1 else 0
  iTabPermissions := fun _ => if bFullGuildBankPermissions then ⟨3, -1⟩ else ⟨0, 0⟩

/-- The slot of the guild master's rank. -/
def masterRank : Fin 10 := 0

/-! ## Members -/

structure GuildMember where
  pRank : Fin 10
  uLastWithdrawReset : UInt32
  uWithdrawlsSinceLastReset : UInt32
  uLastItemWithdrawReset : Fin 6 → UInt32
  uItemWithdrawlsSinceLastReset : Fin 6 → UInt32
  deriving DecidableEq

/-- A member of this rank, the rest set to zero. -/
def GuildMember.new (r : Fin 10) : GuildMember := ⟨r, 0, 0, fun _ => 0, fun _ => 0⟩

structure Guild (ι : Type*) where
  guildLeader : UInt32
  bankBalance : UInt32
  ranks : Fin 10 → Option GuildRank
  members : Finmap fun _ : ι => GuildMember

namespace Guild

variable {ι : Type*} [DecidableEq ι] (g : Guild ι)

/-- `Guild::Guild`. -/
def new : Guild ι := ⟨0, 0, fun _ => none, ∅⟩

/-- `Guild::FindLowestRank`. -/
def findLowestRank : Option (Fin 10) :=
  Fin.findRev? fun i => decide (masterRank < i) && (g.ranks i).isSome

/-- `Guild::FindHighestRank`. -/
def findHighestRank : Option (Fin 10) :=
  Fin.find? fun i => decide (masterRank < i) && (g.ranks i).isSome

/-- The loop of `PromoteGuildMember`: the next rank above, short of the master's. -/
def findPromotion (r : Fin 10) : Option (Fin 10) :=
  Fin.findRev? fun nh => decide (masterRank < nh ∧ nh < r) && (g.ranks nh).isSome

/-- The loop of `DemoteGuildMember`: the next rank below. -/
def findDemotion (r : Fin 10) : Option (Fin 10) :=
  Fin.find? fun nh => decide (r < nh) && (g.ranks nh).isSome

/-- `CanPerformCommand` through a rank pointer. -/
def canPerformCommand (r : Fin 10) (t : UInt32) : Bool := (g.ranks r).any (·.canPerformCommand t)

/-- `Guild::CreateGuildRank`: the guild and the new rank, or NULL. -/
def createGuildRank (iPermissions : UInt32) (bFullGuildBankPermissions : Bool) :
    Guild ι × Option (Fin 10) :=
  match Fin.find? fun i => (g.ranks i).isNone with
  | some i =>
    ({ g with
        ranks := Function.update g.ranks i (some (.new iPermissions bFullGuildBankPermissions)) },
      some i)
  | none => (g, none)

/-- `m_ranks[Id]`, undefined outside the array. -/
def rankAt (Id : Int) : Option (Option (Fin 10)) :=
  if h : 0 ≤ Id ∧ Id < 10 then
    let i : Fin 10 := ⟨Id.toNat, by omega⟩
    some (if (g.ranks i).isSome then some i else none)
  else none

/-- The rank `AddGuildMember` gives a new member, `none` inside for NULL. -/
def rankForNew (ForcedRank : Int) : Option (Option (Fin 10)) :=
  let r :=
    if g.members ≠ ∅ then
      if ForcedRank ≤ 0 then some g.findLowestRank else g.rankAt ForcedRank
    else
      if ForcedRank < 0 then some g.findLowestRank else g.rankAt ForcedRank
  r.map fun r => r.or g.findLowestRank

/-- The entry of `p`, if there is one, is written to. -/
def updateMember (p : ι) (f : GuildMember → GuildMember) : Guild ι :=
  match g.members.lookup p with
  | some m => { g with members := g.members.insert p (f m) }
  | none => g

/-- `itr->second->pRank = r` where `itr` is the entry of `p`. -/
def setPRank (p : ι) (r : Fin 10) : Guild ι := g.updateMember p fun m => { m with pRank := r }

end Guild

/-! ## All guilds -/

/-- The part of a player's record that the guilds read and write, and his
`PLAYER_FIELD_COINAGE`. -/
structure PlayerInfo (γ : Type*) where
  guild : Option γ
  guildRank : Fin 10
  coinage : UInt32
  deriving DecidableEq

/-- `PlayerInfo::guid` and `ObjectMgr::GetPlayerInfo`. -/
structure ObjectMgr (ι : Type*) where
  guid : ι → UInt32
  getPlayerInfo : UInt32 → Option ι
  getPlayerInfo_guid : ∀ p, getPlayerInfo (guid p) = some p

structure Guilds (γ ι : Type*) where
  guild : γ → Option (Guild ι)
  info : ι → PlayerInfo γ

/-- The fields of a guild charter that founding a guild reads. -/
structure Charter where
  leaderGuid : UInt32
  signatures : List UInt32

/-- What a client is told. -/
inductive Reply
  | systemMessage (text : String)
  | commandResult (iCmd : UInt32) (szMsg : String) (iType : UInt32)
  deriving DecidableEq

namespace Guilds

variable {γ ι : Type*} [DecidableEq γ] [DecidableEq ι]
variable (objmgr : ObjectMgr ι) (w : Guilds γ ι) (G : γ) (g : Guild ι)

/-- No guild yet. -/
def empty (coinage : ι → UInt32) : Guilds γ ι :=
  ⟨fun _ => none, fun p => ⟨none, masterRank, coinage p⟩⟩

/-- The entry of a player in the members of a guild. -/
def memberOf (p : ι) : Option GuildMember := (w.guild G).bind fun g => g.members.lookup p

/-- Replace or delete one guild. -/
def setGuild (g : Option (Guild ι)) : Guilds γ ι :=
  { w with guild := Function.update w.guild G g }

/-- Replace one player's record. -/
def setInfo (p : ι) (i : PlayerInfo γ) : Guilds γ ι :=
  { w with info := Function.update w.info p i }

/-- A member's rank is set in the guild's map and in his own record. -/
def assignRank (p : ι) (r : Fin 10) : Guilds γ ι :=
  (w.setGuild G (some (g.setPRank p r))).setInfo p { w.info p with guildRank := r }

/-- The new entry of `AddGuildMember`, and the three pointers to it.
`map::insert` keeps an entry that is there already. -/
def join (p : ι) (r : Fin 10) : Guilds γ ι :=
  (w.setGuild G
      (some (if p ∈ g.members then g else { g with members := g.members.insert p (.new r) }))).setInfo
    p { w.info p with guild := some G, guildRank := r }

/-- The end of `RemoveGuildMember`. -/
def leave (p : ι) : Guilds γ ι :=
  (w.setGuild G (some { g with members := g.members.erase p })).setInfo p
    { w.info p with guild := none, guildRank := masterRank }

/-- The checks of `Guild::AddGuildMember`; it answers none of them. -/
def addRefused (pMember : ι) (pClient : Option ι) : Bool :=
  (w.info pMember).guild.isSome || pClient.any fun c =>
    decide ((w.info c).guild ≠ some G) ||
      !g.canPerformCommand (w.info c).guildRank GR_RIGHT_INVITE

/-- `Guild::AddGuildMember`. -/
def addGuildMember (pMember : ι) (pClient : Option ι) (ForcedRank : Int) : Option (Guilds γ ι) :=
  if w.addRefused G g pMember pClient then some w
  else (g.rankForNew ForcedRank).map fun r =>
    match r with
    | none => w
    | some r => w.join G g pMember r

/-- The checks of `Guild::RemoveGuildMember`: the answer of a refusal. -/
def removeRefusal (pMember : ι) (pClient : Option ι) : Option (Option Reply) :=
  if (w.info pMember).guild ≠ some G then some none
  else if (w.info pMember).guildRank = masterRank then
    some (pClient.map fun _ => .systemMessage "You cannot remove the guild master.")
  else pClient.bind fun c =>
    if (w.info c).guild ≠ some G then some none
    else if !g.canPerformCommand (w.info c).guildRank GR_RIGHT_REMOVE && decide (c ≠ pMember) then
      some (some (.commandResult GUILD_CREATE_S "" GUILD_PERMISSIONS))
    else if pMember ≠ c ∧ (w.info pMember).guildRank ≤ (w.info c).guildRank ∧
        (w.info c).guildRank ≠ masterRank then
      some (some (.systemMessage "You can only remove lower ranks then yourself."))
    else none

/-- `Guild::RemoveGuildMember`. -/
def removeGuildMember (pMember : ι) (pClient : Option ι) : Guilds γ ι × Option Reply :=
  match w.removeRefusal G g pMember pClient with
  | some reply => (w, reply)
  | none => (w.leave G g pMember, none)

/-- The checks of `Guild::PromoteGuildMember` ahead of its search. -/
def promoteRefusal (pMember pClient : ι) : Option (Option Reply) :=
  if (w.info pClient).guild ≠ some G ∨ (w.info pMember).guild ≠ some G ∨ pClient = pMember then
    some none
  else if !g.canPerformCommand (w.info pClient).guildRank GR_RIGHT_PROMOTE then
    some (some (.commandResult GUILD_PROMOTE_S "" GUILD_PERMISSIONS))
  else if (w.info pMember).guildRank.val ≤ (w.info pClient).guildRank.val + 2 ∧
      (w.info pClient).guildRank ≠ masterRank then
    some (some (.systemMessage "You can't promote this character any further."))
  else if (w.info pMember).guildRank.val = 1 then
    some (some (.systemMessage "You can't promote this character any further."))
  else none

/-- `Guild::PromoteGuildMember`. -/
def promoteGuildMember (pMember pClient : ι) : Guilds γ ι × Option Reply :=
  match w.promoteRefusal G g pMember pClient with
  | some reply => (w, reply)
  | none =>
    match g.findPromotion (w.info pMember).guildRank with
    | none => (w, some (.systemMessage "Could not find a rank to promote this member to."))
    | some newRank =>
      if pMember ∈ g.members then (w.assignRank G g pMember newRank, none) else (w, none)

/-- The checks of `Guild::DemoteGuildMember` ahead of its search. -/
def demoteRefusal (pMember pClient : ι) : Option (Option Reply) :=
  if (w.info pClient).guild ≠ some G ∨ (w.info pMember).guild ≠ some G ∨ pClient = pMember then
    some none
  else if !g.canPerformCommand (w.info pClient).guildRank GR_RIGHT_DEMOTE ||
      decide (objmgr.guid pMember = g.guildLeader) then
    some (some (.commandResult GUILD_PROMOTE_S "" GUILD_PERMISSIONS))
  else if (w.info pMember).guildRank ≤ (w.info pClient).guildRank ∧
      (w.info pClient).guildRank ≠ masterRank then
    some (some (.systemMessage "You can only demote lower ranks then yourself."))
  else none

/-- `Guild::DemoteGuildMember`. -/
def demoteGuildMember (pMember pClient : ι) : Guilds γ ι × Option Reply :=
  match w.demoteRefusal objmgr G g pMember pClient with
  | some reply => (w, reply)
  | none =>
    match g.findDemotion (w.info pMember).guildRank with
    | none => (w, some (.systemMessage "Could not find a rank to demote this member to."))
    | some newRank =>
      if pMember ∈ g.members then (w.assignRank G g pMember newRank, none) else (w, none)

/-- `Guild::RemoveGuildRank`. -/
def removeGuildRank : Guilds γ ι × Option Reply :=
  match g.findLowestRank with
  | none => (w, some (.systemMessage "Cannot find a rank to delete."))
  | some pLowestRank =>
    if pLowestRank.val < 5 then (w, some (.systemMessage "Cannot find a rank to delete."))
    else if ∃ p ∈ g.members.keys, (g.members.lookup p).map (·.pRank) = some pLowestRank then
      (w, some (.systemMessage
        "There are still members using this rank. You cannot delete it yet!"))
    else
      (w.setGuild G (some { g with ranks := Function.update g.ranks pLowestRank none }), none)

/-- The end of `ChangeGuildMaster`: the new master is put in his rank, and
after that the old master in `newRank`. -/
def handOver (pNewMaster pClient : ι) (newRank : Fin 10) : Guilds γ ι :=
  let g' := (g.setPRank pNewMaster masterRank).setPRank pClient newRank
  let w' := w.setInfo pNewMaster { w.info pNewMaster with guildRank := masterRank }
  let w' := w'.setInfo pClient { w'.info pClient with guildRank := newRank }
  w'.setGuild G (some { g' with guildLeader := objmgr.guid pNewMaster })

/-- `Guild::ChangeGuildMaster`. -/
def changeGuildMaster (pNewMaster pClient : ι) : Guilds γ ι × Option Reply :=
  if objmgr.guid pClient ≠ g.guildLeader then
    (w, some (.commandResult GUILD_PROMOTE_S "" GUILD_PERMISSIONS))
  else
    match g.findHighestRank with
    | none => (w, none)
    | some newRank =>
      if pNewMaster ∈ g.members ∧ pClient ∈ g.members then
        (w.handOver objmgr G g pNewMaster pClient newRank, none)
      else (w, none)

/-- `Guild::Disband`. -/
def disband : Guilds γ ι :=
  { guild := Function.update w.guild G none
    info := fun p =>
      if p ∈ g.members then { w.info p with guild := none, guildRank := masterRank }
      else w.info p }

/-- A new guild with the five ranks of `CreateFromCharter`; the ranks it
adds the founder and the signers with. -/
def found (leaderGuid : UInt32) : Guild ι × Option (Fin 10) × Option (Fin 10) :=
  let g : Guild ι := { Guild.new with guildLeader := leaderGuid }
  let (g, leaderRank) := g.createGuildRank GR_RIGHT_ALL true
  let g := (g.createGuildRank GR_RIGHT_ALL true).1
  let g := (g.createGuildRank (GR_RIGHT_GCHATLISTEN ||| GR_RIGHT_GCHATSPEAK) false).1
  let g := (g.createGuildRank (GR_RIGHT_GCHATLISTEN ||| GR_RIGHT_GCHATSPEAK) false).1
  let (g, defRank) := g.createGuildRank (GR_RIGHT_GCHATLISTEN ||| GR_RIGHT_GCHATSPEAK) false
  (g, leaderRank, defRank)

/-- One signer of the charter is added, if he still exists. -/
def addSigner (defRank : Fin 10) (w : Guilds γ ι) (signature : UInt32) : Option (Guilds γ ι) :=
  match objmgr.getPlayerInfo signature with
  | some pi => (w.guild G).bind fun g => w.addGuildMember G g pi none defRank.val
  | none => some w

/-- `Guild::Create` and `Guild::CreateFromCharter`, at an address no guild is at. -/
def createFromCharter (pCharter : Charter) (pTurnIn : ι) : Option (Guilds γ ι) :=
  match w.guild G, found pCharter.leaderGuid with
  | none, (g, some leaderRank, some defRank) =>
    ((w.setGuild G (some g)).addGuildMember G g pTurnIn none leaderRank.val).bind
      (pCharter.signatures.foldlM (addSigner objmgr G defRank))
  | _, _ => none

/-- The checks of `WorldSession::HandleGuildRank`: the rank to edit. -/
def editedRank (pClient : ι) (rankId : UInt32) : Except (Option Reply) (γ × Guild ι × Fin 10) :=
  match (w.info pClient).guild with
  | none => .error (some (.commandResult GUILD_CREATE_S "" GUILD_PLAYER_NOT_IN_GUILD))
  | some G =>
    match w.guild G with
    | none => .error none
    | some g =>
      if objmgr.guid pClient ≠ g.guildLeader then
        .error (some (.commandResult GUILD_INVITE_S "" GUILD_PERMISSIONS))
      else
        match g.rankAt rankId.toNat with
        | some (some i) => .ok (G, g, i)
        | _ => .error none

/-- `WorldSession::HandleGuildRank`: the rights and limits of a rank are
replaced by what the client sent. -/
def handleGuildRank (pClient : ι) (rankId : UInt32) (rank : GuildRank) :
    Guilds γ ι × Option Reply :=
  match w.editedRank objmgr pClient rankId with
  | .error reply => (w, reply)
  | .ok (G, g, i) =>
    (w.setGuild G (some { g with ranks := Function.update g.ranks i (some rank) }), none)

end Guilds

/-- The calls that change who is in a guild, who leads it and its ranks. -/
inductive GuildCall (γ ι : Type*)
  | createFromCharter (G : γ) (pCharter : Charter) (pTurnIn : ι)
  | createGuildRank (G : γ) (iPermissions : UInt32) (bFullGuildBankPermissions : Bool)
  | addGuildMember (G : γ) (pMember : ι) (pClient : Option ι) (ForcedRank : Int)
  | removeGuildMember (G : γ) (pMember : ι) (pClient : Option ι)
  | promoteGuildMember (G : γ) (pMember pClient : ι)
  | demoteGuildMember (G : γ) (pMember pClient : ι)
  | removeGuildRank (G : γ)
  | changeGuildMaster (G : γ) (pNewMaster pClient : ι)
  | disband (G : γ)
  | handleGuildRank (pClient : ι) (rankId : UInt32) (rank : GuildRank)

/-- The guilds after a call. -/
def Guilds.call {γ ι : Type*} [DecidableEq γ] [DecidableEq ι] (objmgr : ObjectMgr ι)
    (w : Guilds γ ι) : GuildCall γ ι → Option (Guilds γ ι)
  | .createFromCharter G pCharter pTurnIn => w.createFromCharter objmgr G pCharter pTurnIn
  | .createGuildRank G iPermissions full =>
    (w.guild G).map fun g => w.setGuild G (some (g.createGuildRank iPermissions full).1)
  | .addGuildMember G pMember pClient ForcedRank =>
    (w.guild G).bind fun g => w.addGuildMember G g pMember pClient ForcedRank
  | .removeGuildMember G pMember pClient =>
    (w.guild G).map fun g => (w.removeGuildMember G g pMember pClient).1
  | .promoteGuildMember G pMember pClient =>
    (w.guild G).map fun g => (w.promoteGuildMember G g pMember pClient).1
  | .demoteGuildMember G pMember pClient =>
    (w.guild G).map fun g => (w.demoteGuildMember objmgr G g pMember pClient).1
  | .removeGuildRank G => (w.guild G).map fun g => (w.removeGuildRank G g).1
  | .changeGuildMaster G pNewMaster pClient =>
    (w.guild G).map fun g => (w.changeGuildMaster objmgr G g pNewMaster pClient).1
  | .disband G => (w.guild G).map fun g => w.disband G g
  | .handleGuildRank pClient rankId rank => some (w.handleGuildRank objmgr pClient rankId rank).1

end HearthStone.Roster
