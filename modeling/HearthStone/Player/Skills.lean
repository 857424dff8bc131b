/-
HearthStone.Player.Skills — the skills of a player and the fields that
show them (`Player.cpp`, `DBCStores.h`, `Object.cpp`).

* `updateSkillFields` — three fields a skill, in the order of the map. The
  walk grants spells to gatherers, and a spell may add the skill it
  belongs to, which refreshes the fields within the refresh.
* `updateMaxSkillCounts`, `addSkillLine` — the two places that check the
  bounds.
* the calls, and `Player.step`.

A skill line is its number. `LookupEntry` answers an unknown line with the
first row of the table (`SAFE_DBC_CODE_RETURNS`). What adding a skill does
to proficiencies and achievements has no effect here and is left out, and
so are the packets. `ASSERT` ends the process.
-/
import HearthStone.Lib.OrderedMap

namespace HearthStone.SkillTable

open Lib

/-! ## Tables -/

/-- `skilllineentry`. -/
structure SkillLineEntry where
  id : Nat
  type : Nat
  deriving DecidableEq

/-- The tables of the client that are read. -/
structure Dbc where
  skillLines : Nat → Option SkillLineEntry
  firstEntry : SkillLineEntry
  /-- `ObjectMgr::GetSpellSkill` -/
  spellSkill : UInt32 → Option Nat
  /-- `SpellEntry::RankNumber` -/
  rankNumber : UInt32 → UInt32

/-- `dbcSkillLine.LookupEntry`. -/
def Dbc.lookupEntry (dbc : Dbc) (line : Nat) : SkillLineEntry :=
  (dbc.skillLines line).getD dbc.firstEntry

def SKILL_TYPE_WEAPON : Nat := 6
def SKILL_TYPE_CLASS : Nat := 7
def SKILL_TYPE_ARMOR : Nat := 8
def SKILL_TYPE_SECONDARY : Nat := 9
def SKILL_TYPE_LANGUAGE : Nat := 10
def SKILL_TYPE_PROFESSION : Nat := 11

def SKILL_HERBALISM : Nat := 182
def SKILL_MINING : Nat := 186
def SKILL_SKINNING : Nat := 393
def SKILL_LOCKPICKING : Nat := 633
def SKILL_RIDING : Nat := 762
def SKILL_RUNEFORGING : Nat := 776

def PLAYER_SKILL_INFO_1_1 : Nat := 610
def PLAYER_CHARACTER_POINTS1 : Nat := 994
def PLAYER_CHARACTER_POINTS2 : Nat := 995

/-- `::GetSpellForLanguage`; 0 is none. -/
def getSpellForLanguage : Nat → UInt32
  | 98 => 668
  | 109 => 669
  | 115 => 670
  | 113 => 671
  | 111 => 672
  | 137 => 813
  | 138 => 814
  | 139 => 815
  | 140 => 816
  | 141 => 817
  | 313 => 7430
  | 315 => 7341
  | 673 => 17737
  | 759 => 29932
  | _ => 0

/-- The languages of `_AddLanguages(true)`. -/
def languages : List Nat := [98, 109, 111, 113, 115, 137, 315, 673, 759]

/-- A rank of a gathering skill: from which value on, which spell, and the
spell that it replaces. -/
structure Grant where
  value : UInt32
  spell : UInt32
  replaces : Option UInt32

/-- The ranks in the `switch` of `_UpdateSkillFields`. -/
def grants (tauren : Bool) (id : Nat) : List Grant :=
  let skill_base : UInt32 := if tauren then 90 else 75
  if id = SKILL_HERBALISM then
    [⟨skill_base + 375, 55503, some 55502⟩, ⟨skill_base + 300, 55502, some 55501⟩,
      ⟨skill_base + 225, 55501, some 55500⟩, ⟨skill_base + 150, 55500, some 55480⟩,
      ⟨skill_base + 75, 55480, some 55428⟩]
  else if id = SKILL_SKINNING then
    [⟨450, 53666, some 53665⟩, ⟨375, 53665, some 53664⟩, ⟨300, 53664, some 53663⟩,
      ⟨225, 53663, some 53662⟩, ⟨150, 53662, some 53125⟩, ⟨75, 53125, none⟩]
  else if id = SKILL_MINING then
    [⟨450, 53040, some 53124⟩, ⟨375, 53124, some 53123⟩, ⟨300, 53123, some 53122⟩,
      ⟨225, 53122, some 53121⟩, ⟨150, 53121, some 53120⟩, ⟨75, 53120, none⟩]
  else []

/-! ## The player -/

structure PlayerSkill where
  Skill : SkillLineEntry
  CurrentValue : UInt32
  MaximumValue : UInt32
  BonusValue : UInt32

structure Player where
  /-- `m_skills` -/
  skills : List (Nat × PlayerSkill)
  /-- `m_uint32Values` -/
  values : Nat → UInt32
  level : UInt32
  tauren : Bool
  inWorld : Bool
  /-- `mSpells` -/
  spells : List UInt32
  /-- the skills of the race and class, `info->skills` -/
  startSkills : List Nat
  /-- the last call has refreshed the fields -/
  refreshed : Bool
  /-- an `ASSERT` has failed -/
  aborted : Bool

namespace Player

def setUInt32Value (p : Player) (index : Nat) (value : UInt32) : Player :=
  { p with values := Function.update p.values index value }

/-- `ModUnsigned32Value` of -1. -/
def decrement (p : Player) (index : Nat) : Player :=
  p.setUInt32Value index (if p.values index - 1 < 2 ^ 31 then p.values index - 1 else 0)

def hasSpell (p : Player) (spell : UInt32) : Bool := decide (spell ∈ p.spells)

def removeSpell (p : Player) (spell : UInt32) : Player :=
  { p with spells := p.spells.filter (· ≠ spell) }

/-- A rank that is reached and missing. -/
def granted (p : Player) (s : PlayerSkill) : Option Grant :=
  (grants p.tauren s.Skill.id).find? fun g =>
    decide (g.value ≤ s.CurrentValue) && !p.hasSpell g.spell

/-- The spells for one skill; `learn` is `addSpell`. -/
def grantSpells (learn : Player → UInt32 → Player) (p : Player) (s : PlayerSkill) : Player :=
  match p.granted s with
  | none => p
  | some g =>
    match g.replaces with
    | none => learn p g.spell
    | some old => learn (p.removeSpell old) g.spell

/-- The first of the three fields. -/
def skillMark (line : Nat) (s : PlayerSkill) : UInt32 :=
  if s.Skill.type = SKILL_TYPE_PROFESSION then UInt32.ofNat line ||| 0x10000
  else UInt32.ofNat line

/-- The second one. -/
def packed (s : PlayerSkill) : UInt32 := (s.MaximumValue <<< 16) ||| s.CurrentValue

/-- The loop of `_UpdateSkillFields`, from the field `f` and the key that
the iterator has passed. -/
def refreshFrom (learn : Player → UInt32 → Player) :
    Nat → Player → Nat → Option Nat → Player × Nat
  | 0, p, f, _ => (p, f)
  | n + 1, p, f, passed =>
    match OrderedMap.next p.skills passed with
    | none => (p, f)
    | some (line, s) =>
      if line = 0 then
        refreshFrom learn n { p with skills := OrderedMap.erase 0 p.skills } f (some 0)
      else if PLAYER_CHARACTER_POINTS1 < f then ({ p with aborted := true }, f)
      else
        let p := p.setUInt32Value f (skillMark line s)
        let p := p.setUInt32Value (f + 1) (packed s)
        let p := p.setUInt32Value (f + 2) s.BonusValue
        refreshFrom learn n (grantSpells learn p s) (f + 3) (some line)

/-- The rest of the fields is nulled out. -/
def nullFrom (p : Player) (f : Nat) : Player :=
  { p with
    values := fun i => if f ≤ i ∧ i < PLAYER_CHARACTER_POINTS1 then 0 else p.values i
    refreshed := true }

/-- `_UpdateSkillFields`. No more than twenty spells can add a skill on
the way. -/
def updateSkillFields (learn : Player → UInt32 → Player) (p : Player) : Player :=
  let (p', f) := refreshFrom learn (p.skills.length + 20) p PLAYER_SKILL_INFO_1_1 none
  p'.nullFrom f

/-- A new maximum, within limits, and a value that is not above it. -/
def limit (new_max : UInt32) (s : PlayerSkill) : PlayerSkill :=
  { s with
    MaximumValue := if 450 < new_max then 450 else if new_max < 1 then 1 else new_max
    CurrentValue := if new_max < s.CurrentValue then new_max else s.CurrentValue }

/-- One turn of the loop of `_UpdateMaxSkillCounts`. -/
def newMaximum (level : UInt32) (s : PlayerSkill) : PlayerSkill :=
  if s.Skill.id = SKILL_LOCKPICKING then limit (5 * level) s
  else if s.Skill.type = SKILL_TYPE_WEAPON then limit (5 * level) s
  else if s.Skill.type = SKILL_TYPE_LANGUAGE then limit 300 s
  else if s.Skill.type = SKILL_TYPE_PROFESSION ∨ s.Skill.type = SKILL_TYPE_SECONDARY then
    if s.Skill.id = SKILL_RIDING then
      limit s.MaximumValue { s with CurrentValue := s.MaximumValue }
    else limit s.MaximumValue s
  else limit 1 s

/-- `_UpdateMaxSkillCounts`. -/
def updateMaxSkillCounts (learn : Player → UInt32 → Player) (p : Player) : Player :=
  updateSkillFields learn
    { p with skills := OrderedMap.adjust (fun _ => newMaximum p.level) p.skills }

def limitMax (Max_sk : UInt32) : UInt32 := if 450 < Max_sk then 450 else Max_sk

def limitCurr (Curr_sk Max_sk : UInt32) : UInt32 :=
  if Max_sk < Curr_sk then Max_sk else if Curr_sk < 1 then 1 else Curr_sk

/-- `_AddSkillLine` up to the proficiencies; both values are limited. -/
def enterSkillLine (dbc : Dbc) (learn : Player → UInt32 → Player) (p : Player) (SkillLine : Nat)
    (Curr_sk Max_sk : UInt32) : Player :=
  match OrderedMap.find SkillLine p.skills with
  | some s =>
    if (s.CurrentValue < Curr_sk ∧ s.MaximumValue ≤ Max_sk) ∨
        (Curr_sk = s.CurrentValue ∧ s.MaximumValue < Max_sk) then
      updateMaxSkillCounts learn
        { p with
          skills := OrderedMap.adjust (fun line s =>
            if line = SkillLine then { s with CurrentValue := Curr_sk, MaximumValue := Max_sk }
            else s) p.skills }
    else p
  | none =>
    let Skill := dbc.lookupEntry SkillLine
    let inf : PlayerSkill :=
      ⟨Skill, if Skill.id ≠ SKILL_RIDING then Curr_sk else Max_sk, Max_sk, 0⟩
    updateSkillFields learn { p with skills := OrderedMap.insertNew SkillLine inf p.skills }

/-- Rune of Cinderglacier, Rune of Razorice. -/
def learnRunes (learn : Player → UInt32 → Player) (p : Player) : Player :=
  let p := if p.hasSpell 53341 then p else learn p 53341
  if p.hasSpell 53343 then p else learn p 53343

/-- `_AddSkillLine`. -/
def addSkillLine (dbc : Dbc) (learn : Player → UInt32 → Player) (p : Player) (SkillLine : Nat)
    (Curr_sk Max_sk : UInt32) : Player :=
  let Max_sk := limitMax Max_sk
  let Curr_sk := limitCurr Curr_sk Max_sk
  let p := enterSkillLine dbc learn p SkillLine Curr_sk Max_sk
  if SkillLine = SKILL_RUNEFORGING then learnRunes learn p else p

/-- The maximum with which `addSpell` adds a skill. -/
def spellMaximum (dbc : Dbc) (p : Player) (spell : UInt32) (skill : SkillLineEntry) : UInt32 :=
  if skill.type = SKILL_TYPE_PROFESSION ∨ skill.type = SKILL_TYPE_SECONDARY then
    75 * (dbc.rankNumber spell + 1)
  else if skill.type = SKILL_TYPE_WEAPON then 5 * p.level
  else if (skill.type = SKILL_TYPE_CLASS ∨ skill.type = SKILL_TYPE_ARMOR) ∧
      skill.id = SKILL_LOCKPICKING then
    5 * p.level
  else 1

/-- `addSpell`. The first argument bounds how many spells are learned
within each other. -/
def addSpellIn (dbc : Dbc) : Nat → Player → UInt32 → Player
  | 0, p, _ => p
  | depth + 1, p, spell =>
    if p.hasSpell spell then p
    else
      let p := { p with spells := spell :: p.spells }
      if p.inWorld = false then p
      else
        match dbc.spellSkill spell with
        | none => p
        | some line =>
          if (OrderedMap.find line p.skills).isSome then p
          else
            let skill := dbc.lookupEntry line
            let max := spellMaximum dbc p spell skill
            let p :=
              if skill.type = SKILL_TYPE_PROFESSION then p.decrement PLAYER_CHARACTER_POINTS2
              else p
            updateMaxSkillCounts (addSpellIn dbc depth)
              (addSkillLine dbc (addSpellIn dbc depth) p line 1 max)

def addSpell (dbc : Dbc) (p : Player) (spell : UInt32) : Player := addSpellIn dbc 20 p spell

/-! ## Calls -/

/-- `_AdvanceSkillLine`. -/
def advanceSkillLine (dbc : Dbc) (p : Player) (SkillLine : Nat) (Count : UInt32) : Player :=
  match OrderedMap.find SkillLine p.skills with
  | none =>
    updateMaxSkillCounts (addSpell dbc)
      (addSkillLine dbc (addSpell dbc) p SkillLine Count (p.level * 5))
  | some s =>
    let CurrentValue := min (s.CurrentValue + Count) s.MaximumValue
    let p' :=
      { p with
        skills := OrderedMap.adjust (fun line s =>
          if line = SkillLine then { s with CurrentValue } else s) p.skills }
    if CurrentValue ≠ s.CurrentValue then updateSkillFields (addSpell dbc) p' else p'

/-- `_RemoveSkillLine`. -/
def removeSkillLine (dbc : Dbc) (p : Player) (SkillLine : Nat) : Player :=
  match OrderedMap.find SkillLine p.skills with
  | none => p
  | some _ =>
    updateSkillFields (addSpell dbc) { p with skills := OrderedMap.erase SkillLine p.skills }

/-- `_ModifySkillBonus`. -/
def modifySkillBonus (dbc : Dbc) (p : Player) (SkillLine : Nat) (Delta : UInt32) : Player :=
  match OrderedMap.find SkillLine p.skills with
  | none => p
  | some _ =>
    updateSkillFields (addSpell dbc)
      { p with
        skills := OrderedMap.adjust (fun line s =>
          if line = SkillLine then { s with BonusValue := s.BonusValue + Delta } else s) p.skills }

/-- `_RemoveLanguages`. -/
def removeLanguages (p : Player) : Player :=
  { p with skills := p.skills.filter fun e => e.2.Skill.type ≠ SKILL_TYPE_LANGUAGE }

/-- One turn of the loops of `_AddLanguages`. -/
def addLanguage (dbc : Dbc) (p : Player) (line : Nat) : Player :=
  let sk : PlayerSkill := ⟨dbc.lookupEntry line, 300, 300, 0⟩
  let p := { p with skills := OrderedMap.insertNew line sk p.skills }
  if getSpellForLanguage line ≠ 0 then addSpell dbc p (getSpellForLanguage line) else p

/-- The languages that are added. -/
def languagesFor (dbc : Dbc) (p : Player) (All : Bool) : List Nat :=
  if All then languages
  else p.startSkills.filter fun line => (dbc.lookupEntry line).type = SKILL_TYPE_LANGUAGE

/-- `_AddLanguages`. -/
def addLanguages (dbc : Dbc) (p : Player) (All : Bool) : Player :=
  updateSkillFields (addSpell dbc) ((p.languagesFor dbc All).foldl (addLanguage dbc) p)

/-- `_AdvanceAllSkills`. -/
def advanceAllSkills (dbc : Dbc) (p : Player) (count : UInt32) : Player :=
  let dirty := p.skills.any fun e => e.2.CurrentValue ≠ e.2.MaximumValue
  let p :=
    { p with
      skills := OrderedMap.adjust (fun _ s =>
        if s.CurrentValue ≠ s.MaximumValue then
          if s.MaximumValue ≤ s.CurrentValue + count then { s with CurrentValue := s.MaximumValue }
          else { s with CurrentValue := s.CurrentValue + count }
        else s) p.skills }
  if dirty then updateSkillFields (addSpell dbc) p else p

/-- `_ModifySkillMaximum`. -/
def modifySkillMaximum (dbc : Dbc) (p : Player) (SkillLine : Nat) (NewMax : UInt32) : Player :=
  match OrderedMap.find SkillLine p.skills with
  | none => p
  | some s =>
    if s.MaximumValue < NewMax then
      updateSkillFields (addSpell dbc)
        { p with
          skills := OrderedMap.adjust (fun line s =>
            if line = SkillLine then
              { s with
                CurrentValue := if SkillLine = SKILL_RIDING then NewMax else s.CurrentValue
                MaximumValue := NewMax }
            else s) p.skills }
    else p

/-! ## Steps -/

inductive Op
  | addSkillLine (SkillLine : Nat) (Curr_sk Max_sk : UInt32)
  | advanceSkillLine (SkillLine : Nat) (Count : UInt32)
  | removeSkillLine (SkillLine : Nat)
  | modifySkillMaximum (SkillLine : Nat) (NewMax : UInt32)
  | modifySkillBonus (SkillLine : Nat) (Delta : UInt32)
  | advanceAllSkills (count : UInt32)
  | updateMaxSkillCounts
  | removeLanguages
  | addLanguages (All : Bool)
  | setLevel (level : UInt32)
  | setInWorld (inWorld : Bool)

/-- One call; nothing follows an assertion that has failed. -/
def step (dbc : Dbc) (p : Player) (op : Op) : Option Player :=
  if p.aborted then none
  else
    let p := { p with refreshed := false }
    match op with
    | .addSkillLine SkillLine Curr_sk Max_sk =>
      some (addSkillLine dbc (addSpell dbc) p SkillLine Curr_sk Max_sk)
    | .advanceSkillLine SkillLine Count => some (advanceSkillLine dbc p SkillLine Count)
    | .removeSkillLine SkillLine => some (removeSkillLine dbc p SkillLine)
    | .modifySkillMaximum SkillLine NewMax => some (modifySkillMaximum dbc p SkillLine NewMax)
    | .modifySkillBonus SkillLine Delta => some (modifySkillBonus dbc p SkillLine Delta)
    | .advanceAllSkills count => some (advanceAllSkills dbc p count)
    | .updateMaxSkillCounts => some (updateMaxSkillCounts (addSpell dbc) p)
    | .removeLanguages => some (removeLanguages p)
    | .addLanguages All => some (addLanguages dbc p All)
    | .setLevel level => some { p with level }
    | .setInWorld inWorld => some { p with inWorld }

/-- A player without skills. -/
def start (values : Nat → UInt32) (level : UInt32) (tauren : Bool) (startSkills : List Nat) :
    Player :=
  ⟨[], values, level, tauren, false, [], startSkills, false, false⟩

end Player

end HearthStone.SkillTable
