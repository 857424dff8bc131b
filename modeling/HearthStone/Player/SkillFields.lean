/-
HearthStone.Player.SkillFields — one refresh of the skill fields.

A spell that the refresh grants belongs to the gathering skill it stands
at, so it never adds a skill: the walk sees the map it has begun with.

* `Dbc.OwnSpells` — which skill the granted spells belong to.
* `refreshFrom_spec` — the walk, by induction on what it has not passed.
* `updateSkillFields_spec` — the fields list the skills.
-/
import HearthStone.Player.Skills

namespace HearthStone.SkillTable

open Lib

/-- The rows are indexed by their id, the first row is no gathering skill,
and the spells that are granted belong to the skill that grants them. -/
structure Dbc.OwnSpells (dbc : Dbc) : Prop where
  indexed : ∀ line e, dbc.skillLines line = some e → e.id = line
  first : ∀ tauren, grants tauren dbc.firstEntry.id = []
  gathering : ∀ tauren id, ∀ g ∈ grants tauren id, ∀ line,
    dbc.spellSkill g.spell = some line → line = id
  runes : ∀ line, dbc.spellSkill 53341 = some line ∨ dbc.spellSkill 53343 = some line →
    line = SKILL_RUNEFORGING
  languages : ∀ language line, getSpellForLanguage language ≠ 0 →
    dbc.spellSkill (getSpellForLanguage language) = some line → line = language

namespace Player

variable {dbc : Dbc} {p p' : Player} {line f i n : Nat} {s : PlayerSkill} {spell : UInt32}
  {passed : Option Nat} {done rest : List (Nat × PlayerSkill)}

/-! ## Spells -/

/-- A spell whose skill is held only becomes known. -/
theorem addSpell_held (p : Player) (spell : UInt32)
    (h : p.inWorld = true → ∀ line, dbc.spellSkill spell = some line →
      (OrderedMap.find line p.skills).isSome = true) :
    ∃ spells, addSpell dbc p spell = { p with spells } := by
  unfold addSpell addSpellIn
  split
  · exact ⟨p.spells, rfl⟩
  dsimp only
  split
  · exact ⟨_, rfl⟩
  case isFalse hworld =>
    split
    · exact ⟨_, rfl⟩
    case h_2 line hline =>
      rw [if_pos (h (by simpa using hworld) line hline)]
      exact ⟨_, rfl⟩

/-- The spells for a skill of the map. -/
theorem grantSpells_held (hdbc : dbc.OwnSpells) (hmem : (line, s) ∈ p.skills)
    (hs : s.Skill = dbc.lookupEntry line) :
    ∃ spells, grantSpells (addSpell dbc) p s = { p with spells } := by
  unfold grantSpells
  split
  · exact ⟨p.spells, rfl⟩
  case h_2 g hg =>
    have hgrant : g ∈ grants p.tauren s.Skill.id := List.mem_of_find?_eq_some hg
    have hown : ∀ l, dbc.spellSkill g.spell = some l →
        (OrderedMap.find l p.skills).isSome = true := by
      intro l hl
      obtain rfl := hdbc.gathering _ _ g hgrant l hl
      rw [hs] at hgrant ⊢
      unfold Dbc.lookupEntry at hgrant ⊢
      cases hrow : dbc.skillLines line with
      | none =>
        rw [hrow, Option.getD_none, hdbc.first] at hgrant
        cases hgrant
      | some e =>
        rw [Option.getD_some, hdbc.indexed line e hrow]
        exact OrderedMap.find_isSome_of_mem hmem
    split
    · exact addSpell_held p g.spell fun _ => hown
    case h_2 old _ =>
      obtain ⟨spells, hspells⟩ := addSpell_held (p.removeSpell old) g.spell fun _ => hown
      exact ⟨spells, hspells⟩

/-! ## Fields -/

/-- The three fields of a skill. -/
def fieldsOf (e : Nat × PlayerSkill) : List UInt32 :=
  [skillMark e.1 e.2, packed e.2, e.2.BonusValue]

/-- The fields from `f` on show a list of skills. -/
def writeFields (values : Nat → UInt32) (f : Nat) (skills : List (Nat × PlayerSkill)) :
    Nat → UInt32 :=
  fun i => if f ≤ i then ((skills.flatMap fieldsOf)[i - f]?).getD (values i) else values i

theorem writeFields_nil (values : Nat → UInt32) (f : Nat) : writeFields values f [] = values := by
  funext i
  simp [writeFields]

theorem writeFields_cons (values : Nat → UInt32) (f : Nat) (e : Nat × PlayerSkill)
    (rest : List (Nat × PlayerSkill)) :
    writeFields (Function.update (Function.update (Function.update values f (skillMark e.1 e.2))
      (f + 1) (packed e.2)) (f + 2) e.2.BonusValue) (f + 3) rest =
    writeFields values f (e :: rest) := by
  funext i
  unfold writeFields
  rw [List.flatMap_cons]
  by_cases hbefore : i < f
  · rw [if_neg (by omega), if_neg (by omega), Function.update_of_ne (by omega),
      Function.update_of_ne (by omega), Function.update_of_ne (by omega)]
  obtain ⟨j, rfl⟩ := Nat.exists_eq_add_of_le (Nat.le_of_not_lt hbefore)
  rw [if_pos (Nat.le_add_right f j), Nat.add_sub_cancel_left]
  match j with
  | 0 =>
    rw [if_neg (by omega), Function.update_of_ne (by omega), Function.update_of_ne (by omega)]
    simp [fieldsOf]
  | 1 =>
    rw [if_neg (by omega), Function.update_of_ne (by omega)]
    simp [fieldsOf]
  | 2 =>
    rw [if_neg (by omega)]
    simp [fieldsOf]
  | j + 3 =>
    rw [if_pos (by omega), Function.update_of_ne (by omega), Function.update_of_ne (by omega),
      Function.update_of_ne (by omega)]
    have hsub : f + (j + 3) - (f + 3) = j := by omega
    rw [hsub, show fieldsOf e ++ rest.flatMap fieldsOf = skillMark e.1 e.2 :: packed e.2 ::
      e.2.BonusValue :: rest.flatMap fieldsOf from rfl]
    rfl

theorem length_fields (skills : List (Nat × PlayerSkill)) :
    (skills.flatMap fieldsOf).length = 3 * skills.length := by
  induction skills with
  | nil => rfl
  | cons e rest ih =>
    rw [List.flatMap_cons, List.length_append, ih, List.length_cons]
    simp only [fieldsOf, List.length_cons, List.length_nil]
    omega

/-! ## The walk -/

/-- Where the iterator stands between two parts of the map. -/
def Between (passed : Option Nat) (done rest : List (Nat × PlayerSkill)) : Prop :=
  (done = [] ∧ passed = none) ∨
    ∃ k, passed = some k ∧ (∀ e ∈ done, e.1 ≤ k) ∧ ∀ e ∈ rest, k < e.1

theorem Between.next (h : Between passed done rest) :
    OrderedMap.next (done ++ rest) passed = rest.head? := by
  rcases h with ⟨rfl, rfl⟩ | ⟨k, rfl, hdone, hrest⟩
  · rfl
  · exact OrderedMap.next_split hdone hrest

/-- The walk erases the key 0 and shows the rest from `f` on; spells may
become known. -/
theorem refreshFrom_spec (done rest : List (Nat × PlayerSkill)) (hdbc : dbc.OwnSpells) (hskills : p.skills = done ++ rest)
    (hordered : OrderedMap.Ordered (done ++ rest))
    (hs : ∀ e ∈ done ++ rest, e.2.Skill = dbc.lookupEntry e.1)
    (hzero : ∀ e ∈ done, e.1 ≠ 0) (hbetween : Between passed done rest)
    (hn : rest.length ≤ n)
    (hroom : f + 3 * (rest.filter fun e => e.1 ≠ 0).length ≤ PLAYER_CHARACTER_POINTS1) :
    ∃ spells, refreshFrom (addSpell dbc) n p f passed =
      ({ p with
          skills := done ++ rest.filter fun e => e.1 ≠ 0
          values := writeFields p.values f (rest.filter fun e => e.1 ≠ 0)
          spells },
        f + 3 * (rest.filter fun e => e.1 ≠ 0).length) := by
  induction rest generalizing p done f passed n with
  | nil =>
    have hnext : OrderedMap.next p.skills passed = none := by rw [hskills, hbetween.next]; rfl
    refine ⟨p.spells, ?_⟩
    rw [List.filter_nil, writeFields_nil, ← hskills]
    cases n with
    | zero => rfl
    | succ n =>
      unfold refreshFrom
      rw [hnext]
      rfl
  | cons e rest ih =>
    obtain ⟨n, rfl⟩ : ∃ n', n = n' + 1 := Nat.exists_eq_succ_of_ne_zero (by
      rw [List.length_cons] at hn
      omega)
    have hnext : OrderedMap.next p.skills passed = some e := by rw [hskills, hbetween.next]; rfl
    obtain ⟨hdone, hrest, hcross⟩ := List.pairwise_append.1 hordered
    obtain ⟨hfirst, hrest'⟩ := List.pairwise_cons.1 hrest
    unfold refreshFrom
    rw [hnext]
    dsimp only
    by_cases hkey : e.1 = 0
    case pos =>
      -- no key is before it
      obtain rfl : done = [] := by
        rw [List.eq_nil_iff_forall_not_mem]
        intro d hd
        have hlt := hcross d hd e List.mem_cons_self
        omega
      have herase : OrderedMap.erase 0 p.skills = rest := by
        rw [hskills, List.nil_append]
        unfold OrderedMap.erase
        rw [List.filter_cons_of_neg (by simpa using hkey), List.filter_eq_self]
        intro x hx
        have hlt := hfirst x hx
        exact decide_eq_true (by omega)
      have hfilter : ((e :: rest).filter fun e => e.1 ≠ 0) = rest.filter fun e => e.1 ≠ 0 :=
        List.filter_cons_of_neg (by simpa using hkey)
      rw [if_pos hkey]
      rw [hfilter] at hroom ⊢
      exact ih (p := { p with skills := OrderedMap.erase 0 p.skills }) [] herase hrest'
        (fun x hx => hs x (List.mem_cons_of_mem _ hx)) nofun
        (.inr ⟨0, rfl, nofun, fun x hx => hkey ▸ hfirst x hx⟩) (Nat.le_of_succ_le_succ hn) hroom
    case neg =>
      have hfilter : ((e :: rest).filter fun e => e.1 ≠ 0) =
          e :: rest.filter fun e => e.1 ≠ 0 := List.filter_cons_of_pos (by simpa using hkey)
      rw [hfilter, List.length_cons] at hroom
      rw [if_neg hkey, if_neg (by omega), hfilter]
      have hmem : (e.1, e.2) ∈ p.skills := by
        rw [hskills]
        exact List.mem_append_right _ List.mem_cons_self
      obtain ⟨spells, hgrant⟩ := grantSpells_held
        (p := ((p.setUInt32Value f (skillMark e.1 e.2)).setUInt32Value (f + 1)
          (packed e.2)).setUInt32Value (f + 2) e.2.BonusValue) hdbc hmem
        (hs e (List.mem_append_right _ List.mem_cons_self))
      rw [hgrant]
      have happend : done ++ e :: rest = (done ++ [e]) ++ rest := by simp
      have hrun := @ih
        { ((p.setUInt32Value f (skillMark e.1 e.2)).setUInt32Value (f + 1)
          (packed e.2)).setUInt32Value (f + 2) e.2.BonusValue with spells } (f + 3) n (some e.1)
        (done ++ [e]) (hskills.trans happend) (happend ▸ hordered) (happend ▸ hs) ?_ ?_
        (Nat.le_of_succ_le_succ hn) (by omega)
      · obtain ⟨spells', hspells'⟩ := hrun
        refine ⟨spells', ?_⟩
        rw [hspells', ← writeFields_cons, List.length_cons]
        refine Prod.ext ?_ (by dsimp only; omega)
        simp [setUInt32Value]
      · intro x hx
        rcases List.mem_append.1 hx with hx | hx
        · exact hzero x hx
        · rw [List.mem_singleton.1 hx]
          exact hkey
      · refine .inr ⟨e.1, rfl, ?_, hfirst⟩
        intro x hx
        rcases List.mem_append.1 hx with hx | hx
        · exact (hcross x hx e List.mem_cons_self).le
        · rw [List.mem_singleton.1 hx]

/-- The fields list the skills in the order of the map, and zeros follow. -/
def Listed (p : Player) : Prop :=
  ∀ i, PLAYER_SKILL_INFO_1_1 + i < PLAYER_CHARACTER_POINTS1 →
    p.values (PLAYER_SKILL_INFO_1_1 + i) = ((p.skills.flatMap fieldsOf)[i]?).getD 0

/-- What a refresh does to a map with room for all of its skills. -/
structure Refreshed (p p' : Player) : Prop where
  skills : p'.skills = p.skills.filter fun e => e.1 ≠ 0
  listed : Listed p'
  past : ∀ i, PLAYER_CHARACTER_POINTS1 ≤ i → p'.values i = p.values i
  level : p'.level = p.level
  aborted : p'.aborted = p.aborted

theorem updateSkillFields_spec (hdbc : dbc.OwnSpells) (hordered : OrderedMap.Ordered p.skills)
    (hs : ∀ e ∈ p.skills, e.2.Skill = dbc.lookupEntry e.1)
    (hroom : (p.skills.filter fun e => e.1 ≠ 0).length ≤ 128) :
    Refreshed p (updateSkillFields (addSpell dbc) p) := by
  obtain ⟨spells, hrun⟩ := refreshFrom_spec (p := p) (f := PLAYER_SKILL_INFO_1_1)
    (n := p.skills.length + 20) [] p.skills hdbc rfl hordered hs nofun (.inl ⟨rfl, rfl⟩) (by omega)
    (by unfold PLAYER_SKILL_INFO_1_1 PLAYER_CHARACTER_POINTS1; omega)
  unfold updateSkillFields
  rw [hrun, List.nil_append]
  generalize hshown : (p.skills.filter fun e => e.1 ≠ 0) = shown at hroom
  have hlength := length_fields shown
  refine ⟨hshown.symm, ?_, ?_, rfl, rfl⟩
  · intro i hi
    change (if PLAYER_SKILL_INFO_1_1 + 3 * shown.length ≤ PLAYER_SKILL_INFO_1_1 + i ∧ _ then _ else
      writeFields p.values PLAYER_SKILL_INFO_1_1 shown (PLAYER_SKILL_INFO_1_1 + i)) =
      ((shown.flatMap fieldsOf)[i]?).getD 0
    by_cases hend : 3 * shown.length ≤ i
    · rw [if_pos ⟨by omega, hi⟩, List.getElem?_eq_none (by omega), Option.getD_none]
    · rw [if_neg (by omega)]
      unfold writeFields
      rw [if_pos (by omega), Nat.add_sub_cancel_left, List.getElem?_eq_getElem (by omega),
        Option.getD_some, Option.getD_some]
  · intro i hi
    change (if _ ∧ i < PLAYER_CHARACTER_POINTS1 then _ else
      writeFields p.values PLAYER_SKILL_INFO_1_1 shown i) = p.values i
    rw [if_neg (by omega)]
    unfold writeFields
    have hpast : (shown.flatMap fieldsOf).length ≤ i - PLAYER_SKILL_INFO_1_1 := by
      unfold PLAYER_SKILL_INFO_1_1
      unfold PLAYER_CHARACTER_POINTS1 at hi
      omega
    rw [List.getElem?_eq_none hpast, Option.getD_none, ite_self]

end Player

end HearthStone.SkillTable
