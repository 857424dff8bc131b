/-
HearthStone.Quest.LogFields — the four fields of the player that show a slot
of the quest log (`Quest.cpp`).

The counts are or-ed byte by byte into the word that holds the flag of the
explored areas; a byte of a word is where a little-endian host has it.
`now` is `time(NULL)`. The event of a timed quest is left out.
-/
import HearthStone.Lib.LittleEndian
import HearthStone.Quest.Progress

namespace HearthStone.QuestProgress

open Lib

/-- `UNIT_END + 0x000A`. -/
def PLAYER_QUEST_LOG_1_1 : Nat := 0x9E

/-- The update fields of a player. -/
abbrev Fields := Nat → UInt32

def Fields.SetUInt32Value (fields : Fields) (index : Nat) (value : UInt32) : Fields :=
  Function.update fields index value

def GetBaseField (slot : Fin 25) : Nat := PLAYER_QUEST_LOG_1_1 + slot * 4

namespace QuestLogEntry

variable (qle : QuestLogEntry)

/-- The required areas that count as explored. -/
def exploredCount : Nat :=
  (List.finRange 4).countP fun i =>
    qle.m_quest.required_triggers i ≠ 0 && qle.m_explored_areas i = 1

/-- `field1` after the areas. -/
def areaField : UInt32 :=
  if qle.m_quest.count_requiredtriggers ≠ 0 then
    if qle.exploredCount = qle.m_quest.count_requiredtriggers then 0x01000000 else 0
  else 0

/-- `p[i] |= (uint8)m_mobcount[i]`. -/
def countByte (i : Fin 4) (b : UInt8) : UInt8 :=
  if qle.m_quest.required_mob i ≠ 0 ∧ qle.m_mobcount i > 0 then b ||| (qle.m_mobcount i).toUInt8
  else b

/-- `field1` after the mobs. -/
def field1 : UInt32 :=
  if qle.m_quest.count_required_mob ≠ 0 then
    let p := leBytes 4 qle.areaField.toNat
    UInt32.ofNat (ofLeBytes ((List.finRange 4).map fun i => qle.countByte i (p.getD i 0)))
  else qle.areaField

/-- When the time is over, zero of a quest without a limit. -/
def timeField (now : Int64) : UInt32 :=
  if qle.m_time_left ≠ 0 then
    (now.toUInt64 + (qle.m_time_left / 1000).toUInt64).toUInt32
  else 0

def UpdatePlayerFields (now : Int64) (slot : Fin 25) (fields : Fields) : Fields :=
  (((fields.SetUInt32Value (PLAYER_QUEST_LOG_1_1 + slot * 4 + 0) qle.m_quest.id).SetUInt32Value
    (PLAYER_QUEST_LOG_1_1 + slot * 4 + 1) 0).SetUInt32Value
    (PLAYER_QUEST_LOG_1_1 + slot * 4 + 2) qle.field1).SetUInt32Value
    (PLAYER_QUEST_LOG_1_1 + slot * 4 + 3) (qle.timeField now)

end QuestLogEntry

/-- `Finish`: the slot is emptied and its fields are cleared. -/
def Finish (slot : Fin 25) (p : Player) (fields : Fields) : Player × Fields :=
  let base := GetBaseField slot
  ({ p with m_questlog := Function.update p.m_questlog slot none },
   ((fields.SetUInt32Value (base + 0) 0).SetUInt32Value (base + 1) 0).SetUInt32Value (base + 2) 0)

end HearthStone.QuestProgress

/-! ## Theorems

What the fields of a quest tell of its progress, and what stays of them.

The flag of the explored areas is the lowest bit of the byte of the fourth
count. And `Finish` clears three of the four fields.

* `bytes_field1` — the word, byte by byte.
* `field1_determines_iff` — it tells the states of a quest apart exactly
  when each count belongs to a mob, and a quest with areas has no fourth.
* `finish_clears_iff` — the slot is clear exactly when its time was zero.
* `quest_fields_iff` — both.
-/

namespace HearthStone.QuestProgress

open Lib

variable {q : Quest} {e e' : QuestLogEntry} {i : Fin 4}

/-! ## The word -/

/-- The required areas are explored: the flag of the word. -/
def Explored (e : QuestLogEntry) : Prop :=
  ∀ i, e.m_quest.required_triggers i ≠ 0 → e.m_explored_areas i = 1

instance (e : QuestLogEntry) : Decidable (Explored e) :=
  inferInstanceAs (Decidable (∀ _ : Fin 4, _))

theorem exploredCount_eq_iff : e.exploredCount = e.m_quest.count_requiredtriggers ↔ Explored e := by
  have hboth : e.exploredCount
      = ((List.finRange 4).filter fun i => e.m_quest.required_triggers i ≠ 0).countP
          fun i => e.m_explored_areas i = 1 := by
    rw [List.countP_filter]
    unfold QuestLogEntry.exploredCount
    refine List.countP_congr fun i _ => ?_
    simp [and_comm]
  rw [hboth, Quest.count_requiredtriggers, List.countP_eq_length_filter (l := List.finRange 4),
    List.countP_eq_length]
  simp [Explored]

/-- The byte of the areas. -/
def areaByte (e : QuestLogEntry) (i : Fin 4) : UInt8 :=
  if i = Fin.last 3 ∧ e.m_quest.count_requiredtriggers ≠ 0 ∧ Explored e then 1 else 0

theorem getD_areaField : (leBytes 4 e.areaField.toNat).getD i 0 = areaByte e i := by
  unfold QuestLogEntry.areaField areaByte
  simp only [exploredCount_eq_iff]
  by_cases htriggers : e.m_quest.count_requiredtriggers = 0
  · simp only [htriggers, ne_eq, not_true_eq_false, if_false, false_and, and_false]
    fin_cases i <;> rfl
  · by_cases hexplored : Explored e
    · simp only [htriggers, hexplored, ne_eq, not_false_eq_true, if_true, and_true]
      fin_cases i <;> rfl
    · simp only [htriggers, hexplored, ne_eq, not_false_eq_true, if_true, if_false, and_false]
      fin_cases i <;> rfl

/-- The byte of a count. -/
def shownByte (e : QuestLogEntry) (i : Fin 4) : UInt8 :=
  if e.m_quest.required_mob i ≠ 0 then (e.m_mobcount i).toUInt8 else 0

theorem countByte_eq (b : UInt8) : e.countByte i b = b ||| shownByte e i := by
  unfold QuestLogEntry.countByte shownByte
  by_cases hmob : e.m_quest.required_mob i = 0
  · simp [hmob]
  · by_cases hcount : e.m_mobcount i = 0
    · simp [hcount]
    · have hpos : e.m_mobcount i > 0 := UInt32.pos_iff_ne_zero.2 hcount
      simp [hmob, hpos]

/-- The word, byte by byte. -/
theorem bytes_field1 :
    leBytes 4 e.field1.toNat = (List.finRange 4).map fun i => areaByte e i ||| shownByte e i := by
  have hshown : ∀ bs : List UInt8, bs.length = 4 →
      leBytes 4 (UInt32.ofNat (ofLeBytes bs)).toNat = bs := by
    intro bs hbs
    have hlt := ofLeBytes_lt bs
    rw [hbs] at hlt
    rw [UInt32.toNat_ofNat', Nat.mod_eq_of_lt (by omega)]
    have hback := leBytes_ofLeBytes bs
    rwa [hbs] at hback
  unfold QuestLogEntry.field1
  split_ifs with hmob
  · rw [hshown _ (by simp)]
    refine List.map_congr_left fun i _ => ?_
    rw [getD_areaField, countByte_eq]
  · -- without mobs no byte shows a count
    have hnone : ∀ i, e.m_quest.required_mob i = 0 := by
      intro i
      have hzero := List.countP_eq_zero.1 (not_not.1 hmob) i (List.mem_finRange i)
      simpa using hzero
    have hplain : ∀ i, areaByte e i ||| shownByte e i = (leBytes 4 e.areaField.toNat).getD i 0 := by
      intro i
      rw [getD_areaField, shownByte, hnone i]
      simp
    simp only [hplain]
    rfl

theorem field1_eq_iff :
    e.field1 = e'.field1 ↔ ∀ i, areaByte e i ||| shownByte e i = areaByte e' i ||| shownByte e' i := by
  constructor
  · intro h i
    have hbytes := bytes_field1 (e := e)
    rw [h, bytes_field1, List.map_inj_left] at hbytes
    exact (hbytes i (List.mem_finRange i)).symm
  · intro h
    have hbytes : leBytes 4 e.field1.toNat = leBytes 4 e'.field1.toNat := by
      rw [bytes_field1, bytes_field1]
      exact List.map_congr_left fun i _ => h i
    have hnat := congrArg ofLeBytes hbytes
    rw [ofLeBytes_leBytes e.field1.toNat_lt, ofLeBytes_leBytes e'.field1.toNat_lt] at hnat
    exact UInt32.toNat.inj hnat

/-! ## The states of a quest -/

/-- A state of a quest: four counts, each at most its requirement, and four
flags. -/
structure StateOf (q : Quest) (e : QuestLogEntry) : Prop where
  quest : e.m_quest = q
  within : ∀ i, e.m_mobcount i ≤ q.required_mobcount i
  flag : ∀ i, e.m_explored_areas i = 0 ∨ e.m_explored_areas i = 1

/-- The same counts, and the required areas explored in both or neither. -/
def SameProgress (e e' : QuestLogEntry) : Prop :=
  (∀ i, e.m_mobcount i = e'.m_mobcount i) ∧ (e.AreasDone ↔ e'.AreasDone)

/-- Each required count belongs to a mob, and a quest with areas has no
fourth. -/
def Legible (q : Quest) : Prop :=
  (∀ i, q.required_mobcount i ≠ 0 → q.required_mob i ≠ 0) ∧
  (q.count_requiredtriggers ≠ 0 → q.required_mobcount (Fin.last 3) = 0)

theorem StateOf.areasDone_iff (h : StateOf q e) : e.AreasDone ↔ Explored e := by
  constructor
  · intro hdone i hi
    exact (h.flag i).resolve_left (hdone i hi)
  · intro hexplored i hi
    rw [hexplored i hi]
    decide

theorem StateOf.count_eq_zero (h : StateOf q e) (hreq : q.required_mobcount i = 0) :
    e.m_mobcount i = 0 := by
  have hle := h.within i
  rw [hreq] at hle
  exact UInt32.le_zero_iff.1 hle

theorem areaByte_of_ne (hi : i ≠ Fin.last 3) : areaByte e i = 0 := if_neg fun h => hi h.1

theorem areaByte_of_no_triggers (h : e.m_quest.count_requiredtriggers = 0) : areaByte e i = 0 :=
  if_neg fun hall => hall.2.1 h

/-- A count up to 255 is told by its byte. -/
theorem count_eq_of_shownByte (hsmall : ∀ i, q.required_mobcount i ≤ 255)
    (hlegible : Legible q) (h : StateOf q e) (h' : StateOf q e')
    (hbyte : shownByte e i = shownByte e' i) : e.m_mobcount i = e'.m_mobcount i := by
  by_cases hreq : q.required_mobcount i = 0
  · rw [h.count_eq_zero hreq, h'.count_eq_zero hreq]
  · have hmob := hlegible.1 i hreq
    unfold shownByte at hbyte
    rw [h.quest, h'.quest, if_pos hmob, if_pos hmob] at hbyte
    have hle : ∀ d, StateOf q d → (d.m_mobcount i).toNat ≤ 255 := fun d hd =>
      UInt32.le_iff_toNat_le.1 (UInt32.le_trans (hd.within i) (hsmall i))
    have hlow := hle e h
    have hlow' := hle e' h'
    have hnat := congrArg UInt8.toNat hbyte
    rw [UInt32.toNat_toUInt8, UInt32.toNat_toUInt8] at hnat
    refine UInt32.toNat.inj ?_
    omega

theorem determines_of_legible (hsmall : ∀ i, q.required_mobcount i ≤ 255)
    (hlegible : Legible q) (h : StateOf q e) (h' : StateOf q e') (hword : e.field1 = e'.field1) :
    SameProgress e e' := by
  rw [field1_eq_iff] at hword
  have hshown : ∀ i, (i ≠ Fin.last 3 ∨ q.count_requiredtriggers = 0) →
      shownByte e i = shownByte e' i := by
    rintro i hi
    have harea : ∀ d, StateOf q d → areaByte d i = 0 := by
      intro d hd
      rcases hi with hi | hi
      · exact areaByte_of_ne hi
      · exact areaByte_of_no_triggers (hd.quest ▸ hi)
    have hbyte := hword i
    rwa [harea e h, harea e' h', UInt8.zero_or, UInt8.zero_or] at hbyte
  constructor
  · intro i
    by_cases hi : i ≠ Fin.last 3 ∨ q.count_requiredtriggers = 0
    · exact count_eq_of_shownByte hsmall hlegible h h' (hshown i hi)
    · -- the fourth of a quest with areas
      rw [not_or, not_not] at hi
      obtain ⟨rfl, htriggers⟩ := hi
      have hzero := hlegible.2 htriggers
      rw [h.count_eq_zero hzero, h'.count_eq_zero hzero]
  · rw [h.areasDone_iff, h'.areasDone_iff]
    by_cases htriggers : q.count_requiredtriggers = 0
    · have hnone : ∀ d, StateOf q d → Explored d := by
        intro d hd i hi
        have hcount := List.countP_eq_zero.1 htriggers i (List.mem_finRange i)
        rw [hd.quest] at hi
        exact absurd (by simpa using hcount) hi
      exact iff_of_true (hnone e h) (hnone e' h')
    · have hzero := hlegible.2 htriggers
      have hbyte := hword (Fin.last 3)
      unfold areaByte shownByte at hbyte
      rw [h.count_eq_zero hzero, h'.count_eq_zero hzero, h.quest, h'.quest] at hbyte
      by_cases hexplored : Explored e <;> by_cases hexplored' : Explored e'
      · exact iff_of_true hexplored hexplored'
      · simp [htriggers, hexplored, hexplored'] at hbyte
      · simp [htriggers, hexplored, hexplored'] at hbyte
      · exact iff_of_false hexplored hexplored'

/-- All areas explored and one kill, or none, of the mob in a place. -/
def oneKill (q : Quest) (k : Fin 4) (count : UInt32) : QuestLogEntry where
  m_quest := q
  m_mobcount := fun i => if i = k then count else 0
  m_explored_areas := fun _ => 1
  m_player_slain := 0
  m_affected_units := ∅
  m_time_left := 0

theorem stateOf_oneKill {k : Fin 4} {count : UInt32} (h : count ≤ q.required_mobcount k) :
    StateOf q (oneKill q k count) where
  quest := rfl
  flag _ := Or.inr rfl
  within i := by
    by_cases hi : i = k
    · subst hi
      simpa [oneKill] using h
    · simp [oneKill, hi]

/-- Such a kill does not show where the word has no byte for it. -/
theorem hidden_kill {k : Fin 4} (hreq : q.required_mobcount k ≠ 0)
    (hhidden : areaByte (oneKill q k 1) k ||| shownByte (oneKill q k 1) k
      = areaByte (oneKill q k 0) k ||| shownByte (oneKill q k 0) k)
    (h : ∀ e e', StateOf q e → StateOf q e' → e.field1 = e'.field1 → SameProgress e e') : False := by
  have hone : (1 : UInt32) ≤ q.required_mobcount k := by
    have hpos := UInt32.lt_iff_toNat_lt.1 (UInt32.pos_iff_ne_zero.2 hreq)
    exact UInt32.le_iff_toNat_le.2 hpos
  have hword : (oneKill q k 1).field1 = (oneKill q k 0).field1 := by
    rw [field1_eq_iff]
    intro i
    by_cases hi : i = k
    · rw [hi]
      exact hhidden
    · simp [areaByte, Explored, shownByte, oneKill, hi]
  have hsame := (h _ _ (stateOf_oneKill hone) (stateOf_oneKill UInt32.zero_le) hword).1 k
  simp [oneKill] at hsame

theorem field1_determines_iff (hsmall : ∀ i, q.required_mobcount i ≤ 255) :
    (∀ e e', StateOf q e → StateOf q e' → e.field1 = e'.field1 → SameProgress e e') ↔
      Legible q := by
  constructor
  · intro h
    constructor
    · intro i hreq hmob
      exact hidden_kill hreq (by simp [areaByte, Explored, shownByte, oneKill, hmob]) h
    · intro htriggers
      by_contra hreq
      refine hidden_kill hreq ?_ h
      have hexplored : ∀ c, Explored (oneKill q (Fin.last 3) c) := fun _ _ _ => rfl
      have harea : ∀ c, areaByte (oneKill q (Fin.last 3) c) (Fin.last 3) = 1 := fun c =>
        if_pos ⟨rfl, htriggers, hexplored c⟩
      rw [harea, harea]
      by_cases hmob : q.required_mob 3 = 0
      · simp [shownByte, oneKill, hmob]
      · simp [shownByte, oneKill, hmob]
  · intro hlegible e e' h h' hword
    exact determines_of_legible hsmall hlegible h h' hword

/-! ## The fields of a slot -/

theorem updatePlayerFields_word (now : Int64) (slot : Fin 25) (fields : Fields) :
    e.UpdatePlayerFields now slot fields (PLAYER_QUEST_LOG_1_1 + slot * 4 + 2) = e.field1 := by
  simp [QuestLogEntry.UpdatePlayerFields, Fields.SetUInt32Value]

theorem updatePlayerFields_time (now : Int64) (slot : Fin 25) (fields : Fields) :
    e.UpdatePlayerFields now slot fields (PLAYER_QUEST_LOG_1_1 + slot * 4 + 3) = e.timeField now := by
  simp [QuestLogEntry.UpdatePlayerFields, Fields.SetUInt32Value]

/-- After `Finish` the slot is clear exactly when the time was. -/
theorem finish_clears_iff (slot : Fin 25) (p : Player) (fields : Fields) :
    (∀ k < 4, (Finish slot p fields).2 (GetBaseField slot + k) = 0) ↔
      fields (GetBaseField slot + 3) = 0 := by
  have hfields : ∀ k < 4, (Finish slot p fields).2 (GetBaseField slot + k)
      = if k = 3 then fields (GetBaseField slot + 3) else 0 := by
    intro k hk
    interval_cases k <;> simp [Finish, Fields.SetUInt32Value]
  constructor
  · intro h
    have hthree := h 3 (by decide)
    rwa [hfields 3 (by decide), if_pos rfl] at hthree
  · intro h k hk
    rw [hfields k hk, h, ite_self]

/-- The word that `UpdatePlayerFields` writes tells apart the states of a
quest with counts up to 255 exactly when the quest is legible; and `Finish`
leaves nothing of an entry in the fields of its slot exactly when no time
was shown: the quest has no limit, or its end falls on a multiple of
`2 ^ 32` seconds. -/
theorem quest_fields_iff (q : Quest) (hsmall : ∀ i, q.required_mobcount i ≤ 255) (now : Int64)
    (slot : Fin 25) (p : Player) (fields : Fields) :
    ((∀ e e', StateOf q e → StateOf q e' →
        e.UpdatePlayerFields now slot fields (PLAYER_QUEST_LOG_1_1 + slot * 4 + 2)
          = e'.UpdatePlayerFields now slot fields (PLAYER_QUEST_LOG_1_1 + slot * 4 + 2) →
        SameProgress e e') ↔ Legible q) ∧
    ∀ e, StateOf q e →
      ((∀ k < 4, (Finish slot p (e.UpdatePlayerFields now slot fields)).2
          (GetBaseField slot + k) = 0) ↔
        e.m_time_left = 0 ∨ (now.toUInt64 + (e.m_time_left / 1000).toUInt64).toUInt32 = 0) := by
  constructor
  · simp only [updatePlayerFields_word]
    exact field1_determines_iff hsmall
  · intro e _
    rw [finish_clears_iff]
    have htime : e.UpdatePlayerFields now slot fields (GetBaseField slot + 3) = e.timeField now :=
      updatePlayerFields_time now slot fields
    rw [htime, QuestLogEntry.timeField]
    by_cases hleft : e.m_time_left = 0
    · simp [hleft]
    · simp [hleft]

/-- A quest with an area and a fourth mob, and a limit of ten minutes. -/
def scoutQuest : Quest where
  id := 90
  required_mob := ![0, 0, 0, 5]
  required_mobcount := ![0, 0, 0, 1]
  required_mobtype := ![.none, .none, .none, .creature]
  required_spell := fun _ => 0
  required_item := fun _ => 0
  required_itemcount := fun _ => 0
  required_triggers := ![7, 0, 0, 0]
  required_money := 0
  required_kill_player := 0
  time := 600000

/-- With the area explored the kill does not show, and the time stays. -/
theorem scout_hidden :
    (oneKill scoutQuest 3 0).UpdatePlayerFields 1000 0 (fun _ => 0) (PLAYER_QUEST_LOG_1_1 + 2)
      = (oneKill scoutQuest 3 1).UpdatePlayerFields 1000 0 (fun _ => 0)
          (PLAYER_QUEST_LOG_1_1 + 2) ∧
    (oneKill scoutQuest 3 0).m_mobcount 3 ≠ (oneKill scoutQuest 3 1).m_mobcount 3 ∧
    (Finish 0 ⟨fun _ => none, ∅, ∅⟩
      ((QuestLogEntry.init scoutQuest).UpdatePlayerFields 1000 0 fun _ => 0)).2
        (GetBaseField 0 + 3) = 1600 := by
  decide +kernel

theorem quest_fields_wolves :
    let q := { scoutQuest with required_mob := ![5, 0, 0, 0], required_mobcount := ![8, 0, 0, 0] }
    ∀ e e', StateOf q e → StateOf q e' →
      e.UpdatePlayerFields 1000 0 (fun _ => 0) (PLAYER_QUEST_LOG_1_1 + 2)
        = e'.UpdatePlayerFields 1000 0 (fun _ => 0) (PLAYER_QUEST_LOG_1_1 + 2) →
      SameProgress e e' :=
  (quest_fields_iff { scoutQuest with
    required_mob := ![5, 0, 0, 0]
    required_mobcount := ![8, 0, 0, 0] } (by decide) 1000 0 ⟨fun _ => none, ∅, ∅⟩
    fun _ => 0).1.2 ⟨by decide, by decide⟩

end HearthStone.QuestProgress
