/-
HearthStone.Chat.ChannelTheorems — what the calls to one channel do to its
members, to the owner's flag and to those who are banned.

* `keys` are the members, `owners` counts the entries with the flag.
* The loop of `SetOwner` leaves one owner when it looks for anyone, and
  one for each member of the name it is given who was not an owner.
* Each call has one lemma that says what it may change; the proofs about
  the manager use these.
-/
import HearthStone.Chat.Channel

namespace HearthStone

/-! ## Flags -/

theorem hasFlag_or_other {f x flag : UInt32} (h : x &&& flag = 0) :
    hasFlag (f ||| x) flag = hasFlag f flag := by
  have hsplit : (f ||| x) &&& flag = f &&& flag ||| x &&& flag :=
    UInt32.toBitVec_inj.1 BitVec.and_or_distrib_right
  unfold hasFlag
  rw [hsplit, h, UInt32.or_zero]

theorem hasFlag_and_other {f x flag : UInt32} (h : x &&& flag = flag) :
    hasFlag (f &&& x) flag = hasFlag f flag := by
  unfold hasFlag
  rw [UInt32.and_assoc, h]

theorem hasFlag_clear (f : UInt32) :
    hasFlag (f &&& ~~~channelFlagOwner) channelFlagOwner = false := by
  unfold hasFlag
  rw [UInt32.and_assoc, show ~~~channelFlagOwner &&& channelFlagOwner = 0 by decide,
    UInt32.and_zero]
  rfl

theorem hasFlag_set (f : UInt32) : hasFlag (f ||| channelFlagOwner) channelFlagOwner = true := by
  have hself : (f ||| channelFlagOwner) &&& channelFlagOwner = channelFlagOwner := by
    apply UInt32.toBitVec_inj.1
    ext i
    simp +contextual
  unfold hasFlag
  rw [hself]
  decide

namespace Channel

variable {c c' : Channel} {plr other guid : Nat} {flags : UInt32} {found : Bool}
  {named : Option Nat} {l members : List (Nat × UInt32)}

/-! ## The loop of `SetOwner` -/

/-- How many entries carry the flag. -/
def ownerCount (members : List (Nat × UInt32)) : Nat :=
  members.countP fun e => hasFlag e.2 channelFlagOwner

def owners (c : Channel) : Nat := ownerCount c.members

/-- The players on the channel. -/
def keys (c : Channel) : List Nat := c.members.map (·.1)

theorem ownerCount_cons (e : Nat × UInt32) : ownerCount (e :: members) =
    ownerCount members + if hasFlag e.2 channelFlagOwner then 1 else 0 := by
  unfold ownerCount
  rw [List.countP_cons]

theorem keys_passOwner :
    (passOwner named found members).map (·.1) = members.map (·.1) := by
  induction members generalizing found with
  | nil => rfl
  | cons e rest ih =>
    obtain ⟨p, f⟩ := e
    unfold passOwner
    split
    · simp [ih]
    · split <;> simp [ih]

/-- Once someone has been found nobody else gets the flag. -/
theorem ownerCount_passOwner_found : ownerCount (passOwner none true members) = 0 := by
  induction members with
  | nil => rfl
  | cons e rest ih =>
    obtain ⟨p, f⟩ := e
    unfold passOwner
    by_cases hf : hasFlag f channelFlagOwner = true
    · simp [hf, ownerCount_cons, hasFlag_clear, ih]
    · simp [hf, ownerCount_cons, ih]

/-- Without an owner the first member becomes one. -/
theorem ownerCount_passOwner_none (h : ownerCount members = 0) (hne : members ≠ []) :
    ownerCount (passOwner none false members) = 1 := by
  cases members with
  | nil => exact absurd rfl hne
  | cons e rest =>
    obtain ⟨p, f⟩ := e
    rw [ownerCount_cons] at h
    have hf : hasFlag f channelFlagOwner = false := by
      by_contra hf
      rw [Bool.not_eq_false] at hf
      rw [if_pos hf] at h
      omega
    unfold passOwner
    simp [hf, ownerCount_cons, hasFlag_set, ownerCount_passOwner_found]

/-- With a name, its members who were not owners become owners. -/
theorem ownerCount_passOwner_some : ownerCount (passOwner (some plr) found members) =
    members.countP fun e => !hasFlag e.2 channelFlagOwner && plr == e.1 := by
  induction members generalizing found with
  | nil => rfl
  | cons e rest ih =>
    obtain ⟨p, f⟩ := e
    unfold passOwner
    rw [List.countP_cons]
    by_cases hf : hasFlag f channelFlagOwner = true
    · simp [hf, ownerCount_cons, hasFlag_clear, ih]
    · by_cases hp : plr = p
      · subst hp
        simp [hf, ownerCount_cons, hasFlag_set]
        exact ih
      · simp [hf, hp, ownerCount_cons, ih]

/-! ## Members -/

theorem find_isSome : (c.find plr).isSome = true ↔ plr ∈ c.keys := by
  unfold find keys
  rw [Option.isSome_map, List.find?_isSome, List.mem_map]
  constructor
  · rintro ⟨e, he, heq⟩
    exact ⟨e, he, beq_iff_eq.1 heq⟩
  · rintro ⟨e, he, rfl⟩
    exact ⟨e, he, beq_self_eq_true _⟩

theorem find_none : c.find plr = none ↔ plr ∉ c.keys := by
  rw [← find_isSome, Bool.not_eq_true, Option.isSome_eq_false_iff, Option.isNone_iff_eq_none]

theorem mem_keys_of_find (h : c.find plr = some flags) : plr ∈ c.keys := by
  rw [← find_isSome, h]
  rfl

theorem find_mem (h : c.find plr = some flags) : (plr, flags) ∈ c.members := by
  obtain ⟨e, he, rfl⟩ := Option.map_eq_some_iff.1 h
  have heq : (e.1 == plr) = true := List.find?_some (p := fun e : Nat × UInt32 => e.1 == plr) he
  rw [← beq_iff_eq.1 heq]
  exact List.mem_of_find?_eq_some he

/-- The entry of a member, and the others. -/
theorem perm_erase (h : c.find plr = some flags) :
    c.members.Perm ((plr, flags) :: (c.erase plr).members) := by
  obtain ⟨e, he, rfl⟩ := Option.map_eq_some_iff.1 h
  obtain ⟨heq, front, back, hsplit, hfront⟩ := List.find?_eq_some_iff_append.1 he
  have hkey : e.1 = plr := beq_iff_eq.1 heq
  unfold erase
  rw [hsplit, List.eraseP_append_right _ (by
    intro a ha
    have hne := hfront a ha
    simpa using hne)]
  subst hkey
  rw [List.eraseP_cons_of_pos (p := fun a : Nat × UInt32 => a.1 == e.1) heq]
  exact List.perm_middle

theorem keys_erase (h : c.find plr = some flags) : c.keys.Perm (plr :: (c.erase plr).keys) :=
  (perm_erase h).map _

theorem owners_erase (h : c.find plr = some flags) : c.owners = (c.erase plr).owners +
    if hasFlag flags channelFlagOwner then 1 else 0 := by
  unfold owners ownerCount
  rw [(perm_erase h).countP_eq, List.countP_cons]

/-! ## The calls -/

/-- A call that touches neither the members nor the owner's flag, and bans
nobody. -/
structure SameRoster (c c' : Channel) : Prop where
  keys : c'.keys = c.keys
  owners : c'.owners = c.owners
  general : c'.general = c.general
  team : c'.team = c.team
  banned : ∀ g ∈ c'.bannedMembers, g ∈ c.bannedMembers

theorem changeMode_ok {change : UInt32 → UInt32}
    (hkeep : ∀ f, hasFlag (change f) channelFlagOwner = hasFlag f channelFlagOwner)
    (h : c.changeMode change plr other = .ok c') : SameRoster c c' := by
  unfold changeMode at h
  split at h
  · cases h
  · split at h
    · cases h
    · split at h
      · cases h
        refine ⟨?_, ?_, rfl, rfl, fun g hg => hg⟩
        · unfold Channel.keys
          rw [List.map_map]
          refine List.map_congr_left ?_
          intro e he
          dsimp only [Function.comp]
          split <;> rfl
        · unfold Channel.owners ownerCount
          rw [List.countP_map]
          refine List.countP_congr ?_
          intro e he
          dsimp only [Function.comp]
          split
          · rw [hkeep]
          · rfl
      · cases h

/-- A player on the channel who may moderate it. -/
def Moderates (c : Channel) (plr : Nat) : Prop :=
  ∃ flags, c.find plr = some flags ∧ mayModerate flags = true

theorem kick_ok {ban : Bool} (h : c.kick plr other ban = .ok c') :
    c.Moderates plr ∧ ∃ flags, c.find other = some flags ∧
      c' = { c.dropMember other flags with bannedMembers :=
        if ban then other :: (c.dropMember other flags).bannedMembers
        else (c.dropMember other flags).bannedMembers } := by
  unfold kick at h
  split at h
  · cases h
  · rename_i mine hmine
    split at h
    · cases h
    · rename_i flags hflags
      split at h
      · rename_i hmay
        cases h
        refine ⟨⟨mine, hmine, hmay⟩, flags, hflags, ?_⟩
        cases ban <;> rfl
      · cases h

theorem setOwner_ok (h : c.setOwner plr other = .ok c') :
    (∃ flags, c.find plr = some flags ∧ hasFlag flags channelFlagOwner = true) ∧
      c' = c.newOwner (some other) := by
  unfold setOwner at h
  split at h
  · cases h
  · rename_i flags hflags
    split at h
    · rename_i howner
      cases h
      exact ⟨⟨flags, hflags, howner⟩, rfl⟩
    · cases h

theorem attemptJoin_ok {canUse : Bool} {password : String}
    (h : c.attemptJoin plr canUse password = .ok c') :
    plr ∉ c.keys ∧ plr ∉ c.bannedMembers ∧ c'.keys.Perm (plr :: c.keys) ∧
      c'.owners = c.owners + (if c.members.isEmpty && !c.general then 1 else 0) ∧
      c'.general = c.general ∧ c'.team = c.team ∧ c'.bannedMembers = c.bannedMembers := by
  unfold attemptJoin at h
  dsimp only at h
  split at h
  · cases h
  · split at h
    · cases h
    · rename_i hban
      split at h
      · cases h
      · rename_i hnew
        cases h
        rw [find_isSome] at hnew
        refine ⟨hnew, hban, ?_, ?_, rfl, rfl, rfl⟩
        · exact (List.perm_orderedInsert _ _ _).map _
        · unfold Channel.owners ownerCount
          rw [(List.perm_orderedInsert _ _ _).countP_eq, List.countP_cons]
          congr 1
          -- only who comes first to a custom channel has the owner's flag
          have hmod : hasFlag channelFlagModerator channelFlagOwner = false := by decide
          have hzero : hasFlag 0 channelFlagOwner = false := by decide
          have howner : hasFlag channelFlagOwner channelFlagOwner = true := by decide
          cases c.members.isEmpty <;> cases c.general <;> cases canUse <;>
            simp [hmod, hzero, howner, hasFlag_set]

theorem unban_ok (h : c.unban plr guid = .ok c') : SameRoster c c' := by
  unfold unban at h
  split at h
  · cases h
  · split at h
    · split at h
      · cases h
        exact ⟨rfl, rfl, rfl, rfl, fun g hg => List.mem_of_mem_filter hg⟩
      · cases h
    · cases h

theorem setPassword_ok {pass : String} (h : c.setPassword plr pass = .ok c') :
    SameRoster c c' := by
  unfold setPassword at h
  split at h
  · cases h
  · split at h
    · cases h
      exact ⟨rfl, rfl, rfl, rfl, fun g hg => hg⟩
    · cases h

/-- What a request does when it is not refused. -/
theorem handle_ok {r : Request} (h : c.handle plr r = .ok c') :
    (∃ other, r = .setOwner other ∧ c.setOwner plr other = .ok c') ∨
      (∃ other ban, r = .kick other ban ∧ c.kick plr other ban = .ok c') ∨
      ((∀ other, r ≠ .setOwner other) ∧ (∀ other ban, r ≠ .kick other ban) ∧ SameRoster c c') := by
  have hrest : (∀ other, r ≠ .setOwner other) → (∀ other ban, r ≠ .kick other ban) →
      SameRoster c c' →
      (∃ other, r = .setOwner other ∧ c.setOwner plr other = .ok c') ∨
        (∃ other ban, r = .kick other ban ∧ c.kick plr other ban = .ok c') ∨
        ((∀ other, r ≠ .setOwner other) ∧ (∀ other ban, r ≠ .kick other ban) ∧
          SameRoster c c') :=
    fun howner hkick hsame => Or.inr (Or.inr ⟨howner, hkick, hsame⟩)
  cases r with
  | setOwner other => exact Or.inl ⟨other, rfl, h⟩
  | kick other ban => exact Or.inr (Or.inl ⟨other, ban, rfl, h⟩)
  | unban guid =>
    exact hrest nofun nofun (unban_ok h)
  | voice other | mute other | giveModerator other =>
    exact hrest nofun nofun (changeMode_ok (fun f => hasFlag_or_other (by decide)) h)
  | devoice other | unmute other | takeModerator other =>
    exact hrest nofun nofun (changeMode_ok (fun f => hasFlag_and_other (by decide)) h)
  | setPassword pass =>
    exact hrest nofun nofun (setPassword_ok h)

theorem part_ok (h : c.part plr = .ok c') :
    ∃ flags, c.find plr = some flags ∧ c' = c.dropMember plr flags := by
  unfold part at h
  split at h
  · cases h
  · rename_i flags hflags
    cases h
    exact ⟨flags, hflags, rfl⟩

theorem dropMember_general : (c.dropMember plr flags).general = c.general := by
  unfold dropMember
  split <;> rfl

theorem dropMember_team : (c.dropMember plr flags).team = c.team := by
  unfold dropMember
  split <;> rfl

theorem dropMember_banned : (c.dropMember plr flags).bannedMembers = c.bannedMembers := by
  unfold dropMember
  split <;> rfl

theorem keys_dropMember (h : c.find plr = some flags) :
    c.keys.Perm (plr :: (c.dropMember plr flags).keys) := by
  have hkeys : (c.dropMember plr flags).keys = (c.erase plr).keys := by
    unfold dropMember
    split
    · exact keys_passOwner
    · rfl
  rw [hkeys]
  exact keys_erase h

theorem members_eq_nil : c.members = [] ↔ c.keys = [] := by
  unfold keys
  rw [List.map_eq_nil_iff]

/-! ## Ownership of one channel -/

/-- A custom channel with members has one owner, a general one has none. -/
structure Owned (c : Channel) : Prop where
  general : c.general = true → c.owners = 0
  custom : c.general = false → c.members ≠ [] → c.owners = 1

theorem SameRoster.owned (h : SameRoster c c') (ho : Owned c) : Owned c' := by
  refine ⟨?_, ?_⟩
  · intro hg
    rw [h.owners]
    exact ho.general (h.general ▸ hg)
  · intro hg hne
    rw [h.owners]
    refine ho.custom (h.general ▸ hg) ?_
    rw [ne_eq, members_eq_nil] at hne ⊢
    rw [← h.keys]
    exact hne

/-- When a member leaves, the flag goes to another one or stays. -/
theorem Owned.dropMember (h : Owned c) (hfind : c.find plr = some flags) :
    Owned (c.dropMember plr flags) := by
  have hcount := owners_erase hfind
  have hne : c.members ≠ [] := by
    intro hnil
    have hmem := find_mem hfind
    rw [hnil] at hmem
    cases hmem
  refine ⟨?_, ?_⟩
  · intro hg
    rw [dropMember_general] at hg
    rw [h.general hg] at hcount
    unfold Channel.dropMember
    split
    · rename_i hf
      rw [if_pos hf] at hcount
      omega
    · omega
  · intro hg hleft
    rw [dropMember_general] at hg
    rw [h.custom hg hne] at hcount
    unfold Channel.dropMember at hleft ⊢
    split
    · rename_i hf
      rw [if_pos hf] at hleft hcount
      refine ownerCount_passOwner_none (Nat.succ.inj hcount.symm) ?_
      rintro hnil
      refine hleft ?_
      unfold newOwner
      rw [hnil]
      rfl
    · rename_i hf
      rw [if_neg hf] at hcount
      omega

theorem Owned.attemptJoin (h : Owned c) {canUse : Bool} {password : String}
    (hjoin : c.attemptJoin plr canUse password = .ok c') : Owned c' := by
  obtain ⟨-, -, -, howners, hgeneral, -, -⟩ := attemptJoin_ok hjoin
  refine ⟨?_, ?_⟩
  · intro hg
    rw [hgeneral] at hg
    rw [howners, h.general hg, hg]
    simp
  · intro hg _
    rw [hgeneral] at hg
    rw [howners, hg]
    cases hm : c.members with
    | nil =>
      have hzero : c.owners = 0 := by
        unfold owners
        rw [hm]
        rfl
      rw [hzero]
      rfl
    | cons e rest =>
      rw [h.custom hg (by rw [hm]; exact List.cons_ne_nil e rest)]
      rfl

/-- Of one owner there is only one entry. -/
theorem owner_unique (h : c.owners = 1) {a b : Nat × UInt32} (ha : a ∈ c.members)
    (hb : b ∈ c.members) (hfa : hasFlag a.2 channelFlagOwner = true)
    (hfb : hasFlag b.2 channelFlagOwner = true) : a = b := by
  unfold owners ownerCount at h
  rw [List.countP_eq_length_filter] at h
  obtain ⟨x, hx⟩ := List.length_eq_one_iff.1 h
  have hin : ∀ e ∈ c.members, hasFlag e.2 channelFlagOwner = true → e = x := by
    intro e he hf
    have hmem : e ∈ c.members.filter fun e => hasFlag e.2 channelFlagOwner :=
      List.mem_filter.2 ⟨he, hf⟩
    rw [hx, List.mem_singleton] at hmem
    exact hmem
  rw [hin a ha hfa, hin b hb hfb]

/-- The owner hands the channel on: it is owned when the other is another
member. -/
theorem Owned.newOwner_iff (h : Owned c) (hnodup : c.keys.Nodup) (hfind : c.find plr = some flags)
    (howner : hasFlag flags channelFlagOwner = true) :
    Owned (c.newOwner (some other)) ↔ other ≠ plr ∧ other ∈ c.keys := by
  have hmem := find_mem hfind
  have hne : c.members ≠ [] := List.ne_nil_of_mem hmem
  have hgeneral : c.general = false := by
    by_contra hg
    rw [Bool.not_eq_false] at hg
    have hnone := h.general hg
    exact List.countP_eq_zero.1 hnone _ hmem howner
  have hone := h.custom hgeneral hne
  have hkeys : (c.newOwner (some other)).keys = c.keys := keys_passOwner
  have hcount : (c.newOwner (some other)).owners =
      c.members.countP fun e => !hasFlag e.2 channelFlagOwner && other == e.1 :=
    ownerCount_passOwner_some
  constructor
  · intro hnew
    have hnew1 := hnew.custom hgeneral (by
      rw [ne_eq, members_eq_nil, hkeys, ← members_eq_nil]
      exact hne)
    rw [hcount] at hnew1
    have hpos : 0 < c.members.countP fun e => !hasFlag e.2 channelFlagOwner && other == e.1 := by
      omega
    obtain ⟨e, he, htest⟩ := List.countP_pos_iff.1 hpos
    rw [Bool.and_eq_true, Bool.not_eq_true', beq_iff_eq] at htest
    obtain ⟨hplain, rfl⟩ := htest
    refine ⟨?_, List.mem_map_of_mem he⟩
    rintro rfl
    have hsame := List.inj_on_of_nodup_map hnodup he hmem rfl
    rw [hsame] at hplain
    rw [howner] at hplain
    cases hplain
  · rintro ⟨hother, hin⟩
    refine ⟨?_, ?_⟩
    · intro hg
      rw [show c.general = true from hg] at hgeneral
      cases hgeneral
    · intro _ _
      rw [hcount]
      -- the name is on the list once, and not with the flag
      have hplain : (c.members.countP fun e => !hasFlag e.2 channelFlagOwner && other == e.1) =
          c.members.countP fun e => other == e.1 := by
        refine List.countP_congr ?_
        intro e he
        rw [Bool.and_eq_true, Bool.not_eq_true', and_iff_right_iff_imp]
        intro heq
        by_contra hf
        rw [Bool.not_eq_false] at hf
        have hsame := owner_unique hone he hmem hf howner
        rw [beq_iff_eq] at heq
        exact hother (heq.trans (congrArg Prod.fst hsame))
      rw [hplain, ← List.count_eq_one_of_mem hnodup hin]
      unfold keys List.count
      rw [List.countP_map]
      refine List.countP_congr ?_
      intro e he
      show (other == e.1) = true ↔ (e.1 == other) = true
      rw [beq_iff_eq, beq_iff_eq, eq_comm]

end Channel

end HearthStone
