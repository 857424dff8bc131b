/-
HearthStone.Player.Experience — the experience of a player and the level it
gives (`Player.cpp`).

`levels` is the `LevelMap` of the player's race and class. A player points at
the entry of his level, `lvlinfo`; `ApplyLevelInfo` from the outside does not
move that pointer.

* `GiveXP` — experience, with the rest bonus where there is one.
* `levelUp` — its loop, which holds the experience in an `int32`.

Of what a new level brings, the level, the experience to the next one and the
text to the client are here; attributes, talents, glyphs and skills are not.
-/
import HearthStone.Object.UnsignedValue
import Mathlib

namespace HearthStone.Experience

structure LevelInfo where
  HP : UInt32
  Mana : UInt32
  Stat : Fin 5 → UInt32
  XPToNextLevel : UInt32

def MAXIMUM_ATTAINABLE_LEVEL : UInt32 := 80

/-- The `LevelMap` of a race and a class, filled for the levels 1 to 80. -/
abbrev LevelMap := UInt32 → LevelInfo

def GetLevelInfo (levels : LevelMap) (Level : UInt32) : LevelInfo :=
  levels (if Level > MAXIMUM_ATTAINABLE_LEVEL then MAXIMUM_ATTAINABLE_LEVEL else Level)

def RESTSTATE_RESTED : UInt8 := 1
def RESTSTATE_NORMAL : UInt8 := 2

/-- What is sent to the client. -/
inductive Packet
  /-- `SendLogXPGain` -/
  | logXPGain (guid : UInt64) (xp restxp : UInt32) (type : Bool)
  /-- `SendLevelupInfo` -/
  | levelupInfo (level Hp Mana : UInt32) (Stat : Fin 5 → UInt32)

structure Player where
  /-- `UNIT_FIELD_LEVEL` -/
  level : UInt32
  /-- `PLAYER_XP` -/
  xp : UInt32
  /-- `PLAYER_NEXT_LEVEL_XP` -/
  nextLevelXp : UInt32
  /-- `PLAYER_FIELD_MAX_LEVEL` -/
  maxLevel : UInt32
  /-- `PLAYER_BYTES_2` -/
  bytes2 : UInt32
  /-- `PLAYER_REST_STATE_EXPERIENCE` -/
  restStateExperience : UInt32
  lvlinfo : LevelInfo
  m_restState : UInt8
  m_restAmount : UInt32
  /-- `m_playedtime[0]` -/
  m_playedtime : UInt32
  sent : List Packet

namespace Player

variable (levels : LevelMap) (p : Player)

def UpdateRestState : Player :=
  let m_restState :=
    if p.m_restAmount ≠ 0 ∧ p.level < p.maxLevel then RESTSTATE_RESTED else RESTSTATE_NORMAL
  { p with
    m_restState
    bytes2 := (p.bytes2 &&& (0x00FFFFFF : UInt32)) ||| (m_restState.toUInt32 <<< 24)
    restStateExperience := p.m_restAmount >>> 1 }

/-- The bonus, and the player with it taken off his rest. -/
def SubtractRestXP (amount : UInt32) : UInt32 × Player :=
  let amount := if p.level ≥ p.maxLevel then 0 else amount
  let restAmount := (p.m_restAmount - amount <<< 1).toInt32
  (amount, { p with m_restAmount := if restAmount < 0 then 0 else restAmount.toUInt32 }.UpdateRestState)

def ApplyLevelInfo (Info : LevelInfo) (Level : UInt32) : Player :=
  { p with level := Level, nextLevelXp := Info.XPToNextLevel }

/-- The locals of `GiveXP` behind its loop. -/
structure LevelUp where
  level : UInt32
  newxp : Int32
  levelup : Bool

/-- The loop of `GiveXP`, as far as `n` rounds; `none` where they do not
suffice. -/
def levelUp (maxLevel : UInt32) : ℕ → LevelUp → Int32 → Option LevelUp
  | 0, _, _ => none
  | n + 1, l, nextlevelxp =>
    if l.newxp ≥ nextlevelxp ∧ l.newxp > 0 then
      let l' : LevelUp := ⟨l.level + 1, l.newxp - nextlevelxp, true⟩
      if l'.level ≥ maxLevel then some l'
      else levelUp maxLevel n l' (GetLevelInfo levels l'.level).XPToNextLevel.toInt32
    else some l

/-- What is left over of `GiveXP` behind its loop. -/
def finishXP (l : LevelUp) : Player :=
  let level := if l.level > p.maxLevel then p.maxLevel else l.level
  let p :=
    if l.levelup then
      let info := GetLevelInfo levels level
      let p' := { p with m_playedtime := 0, lvlinfo := info }.ApplyLevelInfo info level
      { p' with
        sent := p.sent ++ [.levelupInfo level (info.HP - p.lvlinfo.HP) (info.Mana - p.lvlinfo.Mana)
          fun i => info.Stat i - p.lvlinfo.Stat i] }
    else p
  { p with xp := l.newxp.toUInt32 }

/-- The rest bonus applies. -/
def Rested (allowbonus : Bool) : Prop := p.m_restState = RESTSTATE_RESTED ∧ allowbonus = true

instance (allowbonus : Bool) : Decidable (p.Rested allowbonus) := by
  unfold Rested
  infer_instance

/-- `GiveXP` behind its two early returns: the bonus and the message. -/
def restXP (xp : UInt32) (guid : UInt64) (allowbonus : Bool) : UInt32 × Player :=
  let (restxp, xp, p) :=
    if p.Rested allowbonus then
      let (restxp, p) := p.SubtractRestXP xp
      (restxp, xp + restxp, p)
    else (xp, xp, p)
  (xp, { p.UpdateRestState with sent := p.sent ++ [.logXPGain guid xp restxp (guid = 0)] })

def GiveXP (xp : UInt32) (guid : UInt64) (allowbonus : Bool) : Option Player :=
  if xp < 1 then some p
  else if p.level ≥ p.maxLevel then some p
  else
    let (xp, p) := p.restXP xp guid allowbonus
    let newxp := (p.xp + xp).toInt32
    let nextlevelxp := p.lvlinfo.XPToNextLevel.toInt32
    -- a round raises the level, and the one that reaches the cap is the last
    (levelUp levels p.maxLevel (p.maxLevel.toNat - p.level.toNat) ⟨p.level, newxp, false⟩
      nextlevelxp).map (p.finishXP levels)

end Player

end HearthStone.Experience
