/-
HearthStone.Arena.Finish — what the end of a rated match does to the
ratings (`Arena::Finish`).

The sides are dealt with one after the other. The first writes its rating
into its team, and the second reads it there as its opponent's.
`CalcDeltaRating` is a parameter: nothing here depends on what it is.

* `rateSide` — the new team of a side and the change of its rating, from
  the rating of the opponent.
* `finish` — the loop over the two sides.
* `IndexFree` — the changes are the same when the sides have each other's
  index, and they are those from the ratings before the match.
* `finish_indexFree` — when this is so.

The two teams are different ones. `keys` are the numbers of the players
on a side as the loop over the hash map finds them. Saving, packets and
what follows for the players are left out.
-/
import Mathlib

namespace HearthStone.ArenaMatch

/-! ## The match -/

/-- `struct ArenaTeamMember`. -/
structure Member where
  info : Option UInt32
  wonThisWeek : UInt32
  wonThisSeason : UInt32
  personalRating : UInt32
  deriving DecidableEq

/-- What of an `ArenaTeam` the end of a match reads and writes. -/
structure Team where
  rating : UInt32
  gamesWonSeason : UInt32
  gamesWonWeek : UInt32
  members : List Member
  deriving DecidableEq

/-- An `Arena` with its two teams. -/
structure Arena where
  teams : Fin 2 → Team
  keys : Fin 2 → { l : List UInt32 // l.Nodup }
  losingTeam : UInt8
  deltaRating : Fin 2 → Int32

/-- `uint32 j = i ? 0 : 1`, the other end of the two. -/
def opposing (i : Fin 2) : Fin 2 := i.rev

/-- `bool outcome = (i != m_losingteam)`. -/
def Arena.outcome (a : Arena) (i : Fin 2) : Bool := UInt8.ofNat i.val ≠ a.losingTeam

/-- `rating += delta; if ((int32)rating < 0) rating = 0`. -/
def addRating (rating : UInt32) (delta : Int32) : UInt32 :=
  let rating := rating + delta.toUInt32
  if rating.toInt32 < 0 then 0 else rating

/-- `GetMember`. -/
def getMember (members : List Member) (info : UInt32) : Option Member :=
  members.find? (·.info = some info)

/-- A write through the pointer that `GetMember` returns. -/
def modifyMember (info : UInt32) (f : Member → Member) : List Member → List Member
  | [] => []
  | tp :: members =>
    if tp.info = some info then f tp :: members else tp :: modifyMember info f members

section

variable (calcDeltaRating : UInt32 → UInt32 → Bool → Int32) (known : UInt32 → Bool)

/-- What is written into a member that has taken part. -/
def rateMember (opponent : UInt32) (outcome : Bool) (tp : Member) : Member :=
  let tp :=
    { tp with
      personalRating :=
        addRating tp.personalRating (calcDeltaRating tp.personalRating opponent outcome) }
  if outcome then
    { tp with wonThisWeek := tp.wonThisWeek + 1, wonThisSeason := tp.wonThisSeason + 1 }
  else tp

/-- The loop over the players of a side. `known` is whether
`GetPlayerInfo` finds somebody. -/
def rateMembers (opponent : UInt32) (outcome : Bool) (keys : List UInt32)
    (members : List Member) : List Member :=
  keys.foldl (fun members key =>
    if known key then modifyMember key (rateMember calcDeltaRating opponent outcome) members
    else members) members

/-- The body of the loop over the sides: the change of the team's rating,
and the team. -/
def rateSide (opponent : UInt32) (outcome : Bool) (keys : List UInt32) (team : Team) :
    Int32 × Team :=
  let team :=
    if outcome then
      { team with
        gamesWonSeason := team.gamesWonSeason + 1, gamesWonWeek := team.gamesWonWeek + 1 }
    else team
  let delta := calcDeltaRating team.rating opponent outcome
  (delta,
    { team with
      rating := addRating team.rating delta
      members := rateMembers calcDeltaRating known opponent outcome keys team.members })

/-- A turn of the loop. -/
def finishSide (a : Arena) (i : Fin 2) : Arena :=
  let r := rateSide calcDeltaRating known (a.teams (opposing i)).rating (a.outcome i)
    (a.keys i).val (a.teams i)
  { a with
    deltaRating := Function.update a.deltaRating i r.1, teams := Function.update a.teams i r.2 }

/-- `Arena::Finish`, of a rated match of two teams. -/
def finish (a : Arena) : Arena := (List.finRange 2).foldl (finishSide calcDeltaRating known) a

/-! ## The statement -/

/-- The sides with each other's index. -/
def Arena.swap (a : Arena) : Arena where
  teams := fun i => a.teams (opposing i)
  keys := fun i => a.keys (opposing i)
  losingTeam := if a.losingTeam = 0 then 1 else if a.losingTeam = 1 then 0 else a.losingTeam
  deltaRating := fun i => a.deltaRating (opposing i)

/-- Every change from the ratings before the match. -/
def finishAtOnce (a : Arena) : Arena :=
  let r (i : Fin 2) := rateSide calcDeltaRating known (a.teams (opposing i)).rating (a.outcome i)
    (a.keys i).val (a.teams i)
  { a with deltaRating := fun i => (r i).1, teams := fun i => (r i).2 }

/-- The changes do not depend on the index, and are those from before. -/
def IndexFree (a : Arena) : Prop :=
  finish calcDeltaRating known a.swap = (finish calcDeltaRating known a).swap ∧
    finish calcDeltaRating known a = finishAtOnce calcDeltaRating known a

/-- The rating of a side as it is after the match. -/
def ratingAfter (a : Arena) (i : Fin 2) : UInt32 :=
  addRating (a.teams i).rating
    (calcDeltaRating (a.teams i).rating (a.teams (opposing i)).rating (a.outcome i))

/-- For neither team and for no member who took part does it matter
whether the opponent's rating is the one before or the one after. -/
def Settled (a : Arena) : Prop :=
  ∀ i : Fin 2,
    let before := (a.teams (opposing i)).rating
    let after := ratingAfter calcDeltaRating a (opposing i)
    let rating := (a.teams i).rating
    calcDeltaRating rating after (a.outcome i) = calcDeltaRating rating before (a.outcome i) ∧
      ∀ key ∈ (a.keys i).val, known key = true → ∀ tp ∈ getMember (a.teams i).members key,
        addRating tp.personalRating (calcDeltaRating tp.personalRating after (a.outcome i)) =
          addRating tp.personalRating (calcDeltaRating tp.personalRating before (a.outcome i))

end

variable {calcDeltaRating : UInt32 → UInt32 → Bool → Int32} {known : UInt32 → Bool}
  {members : List Member} {f g : Member → Member} {info key : UInt32} {keys : List UInt32}
  {opponent opponent' : UInt32} {outcome : Bool} {a : Arena}

/-! ## Members -/

theorem getMember_modifyMember (hf : ∀ tp, (f tp).info = tp.info) :
    getMember (modifyMember info f members) key =
      if key = info then (getMember members key).map f else getMember members key := by
  induction members with
  | nil => simp [modifyMember, getMember]
  | cons tp members ih =>
    unfold getMember at ih ⊢
    unfold modifyMember
    by_cases htp : tp.info = some info
    · rw [if_pos htp, List.find?_cons, List.find?_cons, hf, htp]
      by_cases hkey : key = info
      · simp [hkey]
      · simp [hkey, Ne.symm hkey]
    · rw [if_neg htp, List.find?_cons, List.find?_cons, ih]
      by_cases hkey : key = info
      · simp [hkey, htp]
      · simp [hkey]

/-- A member is modified alike by functions that agree on it. -/
theorem modifyMember_congr (h : ∀ tp ∈ getMember members info, f tp = g tp) :
    modifyMember info f members = modifyMember info g members := by
  induction members with
  | nil => rfl
  | cons tp members ih =>
    unfold getMember at h ih
    unfold modifyMember
    by_cases htp : tp.info = some info
    · rw [if_pos htp, if_pos htp, h tp (by simp [htp])]
    · rw [List.find?_cons_of_neg (by simp [htp])] at h
      rw [if_neg htp, if_neg htp, ih h]

theorem rateMember_info (tp : Member) :
    (rateMember calcDeltaRating opponent outcome tp).info = tp.info := by
  unfold rateMember
  split
  · rfl
  · rfl

theorem rateMember_eq_iff {tp : Member} :
    rateMember calcDeltaRating opponent outcome tp =
        rateMember calcDeltaRating opponent' outcome tp ↔
      addRating tp.personalRating (calcDeltaRating tp.personalRating opponent outcome) =
        addRating tp.personalRating (calcDeltaRating tp.personalRating opponent' outcome) := by
  unfold rateMember
  cases outcome with
  | false => simp
  | true => simp

/-- Each player is rated once. -/
theorem getMember_rateMembers (hkeys : keys.Nodup) :
    getMember (rateMembers calcDeltaRating known opponent outcome keys members) key =
      if key ∈ keys ∧ known key = true then
        (getMember members key).map (rateMember calcDeltaRating opponent outcome)
      else getMember members key := by
  unfold rateMembers
  induction keys generalizing members with
  | nil => simp
  | cons k keys ih =>
    obtain ⟨hk, hrest⟩ := List.nodup_cons.1 hkeys
    rw [List.foldl_cons, ih hrest]
    by_cases hknown : known k = true
    · rw [if_pos hknown, getMember_modifyMember rateMember_info]
      by_cases hkey : key = k
      · subst hkey
        simp [hk, hknown]
      · simp [hkey]
    · rw [if_neg hknown]
      by_cases hkey : key = k
      · subst hkey
        simp [hknown]
      · simp [hkey]

/-- The members come out alike exactly when all who took part do. -/
theorem rateMembers_eq_iff (hkeys : keys.Nodup) :
    rateMembers calcDeltaRating known opponent outcome keys members =
        rateMembers calcDeltaRating known opponent' outcome keys members ↔
      ∀ key ∈ keys, known key = true → ∀ tp ∈ getMember members key,
        rateMember calcDeltaRating opponent outcome tp =
          rateMember calcDeltaRating opponent' outcome tp := by
  constructor
  · intro heq key hkey hknown tp htp
    have hget := congrArg (getMember · key) heq
    rw [getMember_rateMembers hkeys, getMember_rateMembers hkeys, if_pos ⟨hkey, hknown⟩,
      if_pos ⟨hkey, hknown⟩, Option.mem_def.1 htp, Option.map_some, Option.map_some] at hget
    exact Option.some.inj hget
  · intro hall
    unfold rateMembers
    induction keys generalizing members with
    | nil => rw [List.foldl_nil, List.foldl_nil]
    | cons k keys ih =>
      obtain ⟨hk, hrest⟩ := List.nodup_cons.1 hkeys
      rw [List.foldl_cons, List.foldl_cons]
      by_cases hknown : known k = true
      · have hsame := modifyMember_congr (hall k List.mem_cons_self hknown)
        rw [if_pos hknown, if_pos hknown, hsame]
        refine ih hrest fun key hkey hkeyKnown tp htp => ?_
        have hne : key ≠ k := by
          rintro rfl
          exact hk hkey
        rw [getMember_modifyMember rateMember_info, if_neg hne] at htp
        exact hall key (List.mem_cons_of_mem k hkey) hkeyKnown tp htp
      · rw [if_neg hknown, if_neg hknown]
        exact ih hrest fun key hkey => hall key (List.mem_cons_of_mem k hkey)

/-! ## Sides -/

/-- A side, from some rating of the opponent. -/
def sideFrom (calcDeltaRating : UInt32 → UInt32 → Bool → Int32) (known : UInt32 → Bool)
    (a : Arena) (i : Fin 2) (opponent : UInt32) : Int32 × Team :=
  rateSide calcDeltaRating known opponent (a.outcome i) (a.keys i).val (a.teams i)

theorem rateSide_rating {team : Team} :
    (rateSide calcDeltaRating known opponent outcome keys team).2.rating =
      addRating team.rating (calcDeltaRating team.rating opponent outcome) := by
  cases outcome with
  | false => rfl
  | true => rfl

theorem rateSide_delta {team : Team} :
    (rateSide calcDeltaRating known opponent outcome keys team).1 =
      calcDeltaRating team.rating opponent outcome := by
  cases outcome with
  | false => rfl
  | true => rfl

theorem rateSide_members {team : Team} :
    (rateSide calcDeltaRating known opponent outcome keys team).2.members =
      rateMembers calcDeltaRating known opponent outcome keys team.members := by
  cases outcome with
  | false => rfl
  | true => rfl

/-- A side comes out alike when the change of the team and its members do. -/
theorem rateSide_eq_iff {team : Team} :
    rateSide calcDeltaRating known opponent outcome keys team =
        rateSide calcDeltaRating known opponent' outcome keys team ↔
      calcDeltaRating team.rating opponent outcome =
          calcDeltaRating team.rating opponent' outcome ∧
        rateMembers calcDeltaRating known opponent outcome keys team.members =
          rateMembers calcDeltaRating known opponent' outcome keys team.members := by
  constructor
  · intro heq
    have hdelta := congrArg Prod.fst heq
    have hmembers := congrArg (fun r => r.2.members) heq
    rw [rateSide_delta, rateSide_delta] at hdelta
    rw [rateSide_members, rateSide_members] at hmembers
    exact ⟨hdelta, hmembers⟩
  · rintro ⟨hdelta, hmembers⟩
    unfold rateSide
    cases outcome with
    | false => simp only [Bool.false_eq_true, if_false, hdelta, hmembers]
    | true => simp only [if_true, hdelta, hmembers]

theorem settled_iff : Settled calcDeltaRating known a ↔
    ∀ i, sideFrom calcDeltaRating known a i (ratingAfter calcDeltaRating a (opposing i)) =
      sideFrom calcDeltaRating known a i (a.teams (opposing i)).rating := by
  unfold Settled sideFrom
  refine forall_congr' fun i => ?_
  rw [rateSide_eq_iff, rateMembers_eq_iff (a.keys i).property]
  simp only [rateMember_eq_iff]

/-! ## The two turns -/

theorem outcome_swap (i : Fin 2) : a.swap.outcome i = a.outcome (opposing i) := by
  have hcases : ∀ i : Fin 2, i = 0 ∨ i = 1 := by decide
  unfold Arena.outcome Arena.swap
  dsimp only
  rw [decide_eq_decide, not_iff_not]
  by_cases hzero : a.losingTeam = 0
  · rw [if_pos hzero, hzero]
    revert i
    decide
  · rw [if_neg hzero]
    by_cases hone : a.losingTeam = 1
    · rw [if_pos hone, hone]
      revert i
      decide
    · rw [if_neg hone]
      rcases hcases i with rfl | rfl
      · exact iff_of_false (Ne.symm hzero) (Ne.symm hone)
      · exact iff_of_false (Ne.symm hone) (Ne.symm hzero)

theorem sideFrom_swap (i : Fin 2) :
    sideFrom calcDeltaRating known a.swap i opponent =
      sideFrom calcDeltaRating known a (opposing i) opponent := by
  unfold sideFrom
  rw [outcome_swap]
  rfl

theorem ratingAfter_swap (i : Fin 2) :
    ratingAfter calcDeltaRating a.swap i = ratingAfter calcDeltaRating a (opposing i) := by
  unfold ratingAfter
  rw [outcome_swap]
  rfl

/-- The first side from the rating before, the second from the one after. -/
theorem finish_sides (a : Arena) (i : Fin 2) :
    ((finish calcDeltaRating known a).deltaRating i, (finish calcDeltaRating known a).teams i) =
      sideFrom calcDeltaRating known a i
        (if i = 0 then (a.teams 1).rating else ratingAfter calcDeltaRating a 0) := by
  have hrange : List.finRange 2 = [0, 1] := rfl
  have hcases : i = 0 ∨ i = 1 := by
    revert i
    decide
  unfold finish
  rw [hrange, List.foldl_cons, List.foldl_cons, List.foldl_nil]
  rcases hcases with rfl | rfl
  · rfl
  · have hrating : ((finishSide calcDeltaRating known a 0).teams 0).rating =
        ratingAfter calcDeltaRating a 0 := rateSide_rating
    rw [if_neg (by decide), ← hrating]
    rfl

theorem Arena.ext_sides {a b : Arena}
    (hsides : ∀ i, (a.deltaRating i, a.teams i) = (b.deltaRating i, b.teams i))
    (hkeys : a.keys = b.keys) (hlosing : a.losingTeam = b.losingTeam) : a = b := by
  have hteams : a.teams = b.teams := funext fun i => congrArg Prod.snd (hsides i)
  have hdelta : a.deltaRating = b.deltaRating := funext fun i => congrArg Prod.fst (hsides i)
  cases a
  cases b
  dsimp only at hteams hdelta hkeys hlosing
  rw [hteams, hdelta, hkeys, hlosing]

/-- The second side of a run is the first of the other, and the other way
round. -/
theorem finish_swap_iff : finish calcDeltaRating known a.swap = (finish calcDeltaRating known a).swap ↔
    ∀ i, sideFrom calcDeltaRating known a i (ratingAfter calcDeltaRating a (opposing i)) =
      sideFrom calcDeltaRating known a i (a.teams (opposing i)).rating := by
  have hswap : ∀ i, ((finish calcDeltaRating known a).swap.deltaRating i,
        (finish calcDeltaRating known a).swap.teams i) =
      sideFrom calcDeltaRating known a (opposing i)
        (if opposing i = 0 then (a.teams 1).rating else ratingAfter calcDeltaRating a 0) :=
    fun i => finish_sides a (opposing i)
  have hother : ∀ i, ((finish calcDeltaRating known a.swap).deltaRating i,
        (finish calcDeltaRating known a.swap).teams i) =
      sideFrom calcDeltaRating known a (opposing i)
        (if i = 0 then (a.teams 0).rating else ratingAfter calcDeltaRating a 1) := by
    intro i
    rw [finish_sides, sideFrom_swap, ratingAfter_swap]
    rfl
  have hsides : finish calcDeltaRating known a.swap = (finish calcDeltaRating known a).swap ↔
      ∀ i, sideFrom calcDeltaRating known a (opposing i)
          (if i = 0 then (a.teams 0).rating else ratingAfter calcDeltaRating a 1) =
        sideFrom calcDeltaRating known a (opposing i)
          (if opposing i = 0 then (a.teams 1).rating else ratingAfter calcDeltaRating a 0) := by
    constructor
    · intro heq i
      rw [← hother, ← hswap, heq]
    · intro hall
      refine Arena.ext_sides (fun i => ?_) rfl rfl
      rw [hother, hswap, hall]
  rw [hsides, Fin.forall_fin_two, Fin.forall_fin_two]
  constructor
  · rintro ⟨hzero, hone⟩
    exact ⟨hone, hzero.symm⟩
  · rintro ⟨hzero, hone⟩
    exact ⟨hone.symm, hzero⟩

/-- The result does not depend on the index exactly where nothing depends
on which rating of the opponent is read. -/
theorem finish_indexFree (calcDeltaRating : UInt32 → UInt32 → Bool → Int32)
    (known : UInt32 → Bool) (a : Arena) :
    IndexFree calcDeltaRating known a ↔ Settled calcDeltaRating known a := by
  unfold IndexFree
  rw [finish_swap_iff, settled_iff]
  refine and_iff_left_of_imp fun hall => ?_
  refine Arena.ext_sides (fun i => ?_) rfl rfl
  rw [finish_sides]
  have hcases : i = 0 ∨ i = 1 := by
    revert i
    decide
  rcases hcases with rfl | rfl
  · rfl
  · exact hall 1

/-! ## Two teams of two -/

/-- A change that grows with the opponent's rating. -/
def towardsOpponent (rating opponent : UInt32) (_ : Bool) : Int32 :=
  opponent.toInt32 - rating.toInt32

/-- Teams of 1500 and 1600. -/
def unequalTeams : Arena where
  teams := fun i => ⟨if i.val = 0 then 1500 else 1600, 0, 0, []⟩
  keys := fun _ => ⟨[], List.nodup_nil⟩
  losingTeam := 0
  deltaRating := fun _ => 0

/-- The second team is rated against the new rating of the first. -/
theorem unequalTeams_not_indexFree : ¬ ∀ (calcDeltaRating : UInt32 → UInt32 → Bool → Int32)
    (known : UInt32 → Bool) (a : Arena), IndexFree calcDeltaRating known a := by
  intro hall
  have hbefore := (hall towardsOpponent (fun _ => true) unequalTeams).2
  have hdelta := congrArg (fun a => a.deltaRating 1) hbefore
  exact absurd hdelta (by decide)

end HearthStone.ArenaMatch
