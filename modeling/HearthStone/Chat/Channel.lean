/-
HearthStone.Chat.Channel — chat channels and their manager
(`Channel.cpp`, `ChannelMgr.h`, and the lists of channels in `Player.cpp`).

A channel has members, each with flags; a player has the ids of the
channels joined; the manager finds a channel by its id and by its name.

* A call that is refused says why and changes nothing. A general channel
  tells a member who joins again nothing.
* `m_members` is in the order of the players.
* A channel that is empty after `Part` is removed, as where the server is
  not built for Windows.
* The id of a new channel is the next number, which may wrap. The model is
  undefined where a channel has that id.

The packets to the members, speech and what only concerns it, and the
tests of `HandleChannelJoin` for two special names are left out.
-/
import Mathlib

namespace HearthStone

/-- Why a call is refused. -/
inductive ChannelNotify
  | wrongPass
  | yourBanned
  | alreadyOn
  | notOn
  /-- The other player is not on the channel, or not banned. -/
  | notOn2
  | notMod
  | notOwner
  deriving DecidableEq

def channelFlagOwner : UInt32 := 0x01
def channelFlagModerator : UInt32 := 0x02
def channelFlagVoiced : UInt32 := 0x04
def channelFlagMuted : UInt32 := 0x08

def hasFlag (flags flag : UInt32) : Bool := flags &&& flag != 0

structure Channel where
  members : List (Nat × UInt32)
  bannedMembers : List Nat
  name : String
  password : String
  general : Bool
  team : Nat
  deriving DecidableEq

def stricmp (a b : String) : Bool := a.toLower == b.toLower

namespace Channel

variable (c : Channel)

/-- The constructor. `known` says whether the type is in the table of
channels. -/
def new (name : String) (team : Nat) (known : Bool) : Channel where
  members := []
  bannedMembers := []
  name := name
  password := ""
  general := known || stricmp name "global" || stricmp name "mall" || stricmp name "lfg"
  team := team

/-- The flags of a member. -/
def find (plr : Nat) : Option UInt32 :=
  (c.members.find? fun e => e.1 == plr).map (·.2)

def erase (plr : Nat) : Channel :=
  { c with members := c.members.eraseP fun e => e.1 == plr }

/-- A member who owns or moderates the channel. -/
def mayModerate (flags : UInt32) : Bool :=
  hasFlag flags channelFlagOwner || hasFlag flags channelFlagModerator

/-- `canUse` says whether the session can use command `c`. -/
def attemptJoin (plr : Nat) (canUse : Bool) (password : String) : Except ChannelNotify Channel :=
  let flags := if !c.general && canUse then channelFlagModerator else 0
  if c.password ≠ "" ∧ c.password ≠ password then .error .wrongPass
  else if plr ∈ c.bannedMembers then .error .yourBanned
  else if (c.find plr).isSome then .error .alreadyOn
  else
    let flags := if c.members.isEmpty && !c.general then flags ||| channelFlagOwner else flags
    .ok { c with members := c.members.orderedInsert (fun a b => a.1 ≤ b.1) (plr, flags) }

/-- A loop of `SetOwner`: every owner loses the flag, and another member
gets it: the one named, or else the first. -/
def passOwner (named : Option Nat) : Bool → List (Nat × UInt32) → List (Nat × UInt32)
  | _, [] => []
  | found, (plr, flags) :: rest =>
    if hasFlag flags channelFlagOwner then
      (plr, flags &&& ~~~channelFlagOwner) :: passOwner named found rest
    else if named.elim (!found) (· == plr) then
      (plr, flags ||| channelFlagOwner) :: passOwner named true rest
    else (plr, flags) :: passOwner named found rest

/-- `SetOwner`, without an old owner. -/
def newOwner (named : Option Nat) : Channel :=
  { c with members := passOwner named false c.members }

/-- `SetOwner`, by a player. -/
def setOwner (oldpl plr : Nat) : Except ChannelNotify Channel :=
  match c.find oldpl with
  | none => .error .notOn
  | some flags =>
    if hasFlag flags channelFlagOwner then .ok (c.newOwner (some plr)) else .error .notOwner

/-- What `Part` and `Kick` do to the members. -/
def dropMember (plr : Nat) (flags : UInt32) : Channel :=
  if hasFlag flags channelFlagOwner then (c.erase plr).newOwner none else c.erase plr

def part (plr : Nat) : Except ChannelNotify Channel :=
  match c.find plr with
  | none => .error .notOn
  | some flags => .ok (c.dropMember plr flags)

def kick (plr diePlayer : Nat) (ban : Bool) : Except ChannelNotify Channel :=
  match c.find plr with
  | none => .error .notOn
  | some mine =>
    match c.find diePlayer with
    | none => .error .notOn2
    | some flags =>
      if mayModerate mine then
        let c := c.dropMember diePlayer flags
        .ok (if ban then { c with bannedMembers := diePlayer :: c.bannedMembers } else c)
      else .error .notMod

def unban (plr guid : Nat) : Except ChannelNotify Channel :=
  match c.find plr with
  | none => .error .notOn
  | some mine =>
    if mayModerate mine then
      if guid ∈ c.bannedMembers then
        .ok { c with bannedMembers := c.bannedMembers.filter fun g => g ≠ guid }
      else .error .notOn2
    else .error .notMod

/-- The calls that change a flag of a member. -/
def changeMode (change : UInt32 → UInt32) (plr other : Nat) : Except ChannelNotify Channel :=
  match c.find plr with
  | none => .error .notOn
  | some mine =>
    match c.find other with
    | none => .error .notOn2
    | some _ =>
      if mayModerate mine then
        .ok { c with members := c.members.map fun e =>
          if e.1 = other then (e.1, change e.2) else e }
      else .error .notMod

def voice := c.changeMode (· ||| channelFlagVoiced)
def devoice := c.changeMode (· &&& ~~~channelFlagVoiced)
def mute := c.changeMode (· ||| channelFlagMuted)
def unmute := c.changeMode (· &&& ~~~channelFlagMuted)
def giveModerator := c.changeMode (· ||| channelFlagModerator)
def takeModerator := c.changeMode (· &&& ~~~channelFlagModerator)

def setPassword (plr : Nat) (pass : String) : Except ChannelNotify Channel :=
  match c.find plr with
  | none => .error .notOn
  | some mine => if mayModerate mine then .ok { c with password := pass } else .error .notMod

/-- The calls to a channel that concern its members' rights. -/
inductive Request
  | setOwner (plr : Nat)
  | kick (diePlayer : Nat) (ban : Bool)
  | unban (guid : Nat)
  | voice (other : Nat)
  | devoice (other : Nat)
  | mute (other : Nat)
  | unmute (other : Nat)
  | giveModerator (other : Nat)
  | takeModerator (other : Nat)
  | setPassword (pass : String)

def handle (plr : Nat) : Request → Except ChannelNotify Channel
  | .setOwner other => c.setOwner plr other
  | .kick other ban => c.kick plr other ban
  | .unban guid => c.unban plr guid
  | .voice other => c.voice plr other
  | .devoice other => c.devoice plr other
  | .mute other => c.mute plr other
  | .unmute other => c.unmute plr other
  | .giveModerator other => c.giveModerator plr other
  | .takeModerator other => c.takeModerator plr other
  | .setPassword pass => c.setPassword plr pass

end Channel

/-! ## The manager -/

/-- The settings, the table of channels and the teams of the players. -/
structure ChannelConf where
  seperateChannels : Bool
  bannedChannels : List String
  chatChannels : UInt32 → Bool
  team : Nat → Nat

/-- `playerChannels` is the `m_channels` of each player. -/
structure ChannelMgr where
  idHigh : UInt32
  channel : UInt32 → Option Channel
  lists : Nat → List (String × UInt32)
  playerChannels : Nat → List UInt32

namespace ChannelMgr

variable (conf : ChannelConf) (m : ChannelMgr)

def init : ChannelMgr := ⟨0, fun _ => none, fun _ => [], fun _ => []⟩

def setChannel (cid : UInt32) (c : Option Channel) : ChannelMgr :=
  { m with channel := fun i => if i = cid then c else m.channel i }

/-- `Player::JoinedChannel`. -/
def joinedChannel (plr : Nat) (cid : UInt32) : ChannelMgr :=
  { m with playerChannels := fun p =>
      if p = plr then (m.playerChannels p).insert cid else m.playerChannels p }

/-- `Player::LeftChannel`, of several players. -/
def leftChannel (left : Nat → Bool) (cid : UInt32) : ChannelMgr :=
  { m with playerChannels := fun p =>
      if left p then (m.playerChannels p).filter (· ≠ cid) else m.playerChannels p }

/-- The list a channel of a team is in. -/
def listOf (team : Nat) : Nat := if conf.seperateChannels then team else 0

/-- `strnicmp` with the length of the banned name. -/
def isBannedName (name : String) : Bool :=
  conf.bannedChannels.any fun b =>
    (b.toList.map Char.toLower).isPrefixOf (name.toList.map Char.toLower)

/-- `GetCreateChannel`: the channel that has the name. -/
def getChannel (plr : Nat) (name : String) : Option UInt32 :=
  ((m.lists (listOf conf (conf.team plr))).find? fun e => stricmp name e.1).map (·.2)

/-- `GetCreateChannel`, when none has it. -/
def createChannel (plr : Nat) (name : String) (typeId : UInt32) : ChannelMgr :=
  let team := if conf.seperateChannels then conf.team plr else 0
  let cid := m.idHigh + 1
  let m := m.setChannel cid (some (.new name team (conf.chatChannels typeId)))
  { m with
    idHigh := cid
    lists := fun i => if i = team then (name, cid) :: m.lists i else m.lists i }

/-- `AttemptJoin` of a channel. -/
def attemptJoin (plr : Nat) (canUse : Bool) (cid : UInt32) (password : String) : ChannelMgr :=
  match m.channel cid with
  | none => m
  | some c =>
    match c.attemptJoin plr canUse password with
    | .error _ => m
    | .ok c => (m.joinedChannel plr cid).setChannel cid (some c)

/-- `HandleChannelJoin`. -/
def join (plr : Nat) (canUse : Bool) (name : String) (typeId : UInt32) (password : String) :
    Option ChannelMgr :=
  match m.getChannel conf plr name with
  | some cid => some (m.attemptJoin plr canUse cid password)
  | none =>
    if isBannedName conf name then some m
    else if (m.channel (m.idHigh + 1)).isSome then none
    else some ((m.createChannel conf plr name typeId).attemptJoin plr canUse (m.idHigh + 1) password)

/-- `RemoveChannel`, with the destructor. -/
def removeChannel (cid : UInt32) : ChannelMgr :=
  match m.channel cid with
  | none => m
  | some c =>
    let i := listOf conf c.team
    let m := m.setChannel cid none
    if (m.lists i).any (fun e => e.2 == cid) then
      { m.leftChannel (fun p => (c.find p).isSome) cid with
        lists := fun j => if j = i then (m.lists j).filter (fun e => e.2 ≠ cid) else m.lists j }
    else m

def part (plr : Nat) (cid : UInt32) : ChannelMgr :=
  match m.channel cid with
  | none => m
  | some c =>
    match c.part plr with
    | .error _ => m
    | .ok c =>
      let m := (m.leftChannel (fun p => p == plr) cid).setChannel cid (some c)
      if c.members.isEmpty then m.removeChannel conf cid else m

/-- A call to a channel that is there. -/
def request (plr : Nat) (cid : UInt32) (r : Channel.Request) : ChannelMgr :=
  match m.channel cid with
  | none => m
  | some c =>
    match c.handle plr r with
    | .error _ => m
    | .ok c => m.setChannel cid (some c)

/-- `CleanupChannels`, and the player is gone. -/
def logout (plr : Nat) : ChannelMgr :=
  let m := (m.playerChannels plr).foldl (fun m cid => m.part conf plr cid) m
  { m with playerChannels := fun p => if p = plr then [] else m.playerChannels p }

inductive Action
  | join (plr : Nat) (canUse : Bool) (name : String) (typeId : UInt32) (password : String)
  | part (plr : Nat) (cid : UInt32)
  | request (plr : Nat) (cid : UInt32) (r : Channel.Request)
  | removeChannel (cid : UInt32)
  | logout (plr : Nat)

def step : Action → Option ChannelMgr
  | .join plr canUse name typeId password => m.join conf plr canUse name typeId password
  | .part plr cid => some (m.part conf plr cid)
  | .request plr cid r => some (m.request plr cid r)
  | .removeChannel cid => some (m.removeChannel conf cid)
  | .logout plr => some (m.logout conf plr)

end ChannelMgr

end HearthStone
