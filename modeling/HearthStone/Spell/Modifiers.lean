/-
HearthStone.Spell.Modifiers — the modifiers of a unit for the spells of a
group (`Spell.h`).

A unit keeps a flat and a percent modifier for each of 96 groups, or none at
all. Those of the groups a spell belongs to are applied one after the other.
-/
import Mathlib

namespace HearthStone.SpellModifiers

/-- `SPELL_GROUPS` modifiers of one kind; a null pointer is `none`. -/
abbrev Modifiers := Option (Fin 96 → Int32)

/-- `SpellGroupType`. -/
abbrev GroupType := Fin 3 → UInt32

/-- `( 1 << intbit ) & group[groupnum]`. -/
def inGroup (group : GroupType) (bit : Fin 96) : Bool :=
  decide ((1 <<< UInt32.ofNat (bit.val % 32)) &&& group ⟨bit.val / 32, by omega⟩ ≠ 0)

/-- The loop of both functions. -/
def applyGroups (change : Int32 → Int32 → Int32) (m : Modifiers) (group : GroupType) (v : Int32) :
    Int32 :=
  match m with
  | none => v
  | some m => (List.finRange 96).foldl (fun v bit => if inGroup group bit then change v (m bit) else v) v

def SM_FIValue (m : Modifiers) (group : GroupType) (v : Int32) : Int32 :=
  applyGroups (fun v x => v + x) m group v

def SM_PIValue (m : Modifiers) (group : GroupType) (v : Int32) : Int32 :=
  applyGroups (fun v x => v + v * x / 100) m group v

/-- `SM[type][0]` and `SM[type][1]`. -/
structure ModifierPair where
  flat : Modifiers
  percent : Modifiers

/-- A value after both. -/
def ModifierPair.apply (sm : ModifierPair) (group : GroupType) (v : Int32) : Int32 :=
  SM_PIValue sm.percent group (SM_FIValue sm.flat group v)

/-- A unit without modifiers. -/
def ModifierPair.none : ModifierPair := ⟨Option.none, Option.none⟩

end HearthStone.SpellModifiers
