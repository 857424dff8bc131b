/-
HearthStone.Guild.Leadership — who leads a guild, over whole runs.

* `Effect` is what a call can do, with the guards the source has
  established by then; `call_effects` derives it once, and each invariant
  below is proved effect by effect.
* `Linked` holds in every run: the ranks fill a prefix of `m_ranks` of
  length 5 to 10, members have ranks that exist, and players' pointers
  agree with the maps of members.
* `Led` says the guild has exactly one member in the master's rank and
  that he is the leader. Two calls break it: a master who hands the guild
  to himself, and a charter turned in by someone who is in a guild.
-/
import HearthStone.Guild.Roster
import HearthStone.Lib.Run

namespace HearthStone.Roster

open Lib

variable {γ ι : Type*}

/-! ## Contiguous ranks -/

/-- The ranks are those of the first `k` slots. -/
def Contiguous (ranks : Fin 10 → Option GuildRank) (k : Nat) : Prop :=
  ∀ i, (ranks i).isSome ↔ i.val < k

namespace Contiguous

variable {ranks : Fin 10 → Option GuildRank} {k : Nat} {i : Fin 10}

/-- The first free slot comes right after the ranks. -/
theorem val_of_find (h : Contiguous ranks k) (hi : Fin.find? (fun i => (ranks i).isNone) = some i) :
    i.val = k := by
  rw [Fin.find?_eq_some_iff] at hi
  obtain ⟨hnone, hbefore⟩ := hi
  have hle : ¬ i.val < k := by
    intro hlt
    have hsome := (h i).mpr hlt
    rw [Option.isNone_iff_eq_none] at hnone
    rw [hnone] at hsome
    cases hsome
  by_contra hne
  have hlt : k < i.val := by omega
  have hk := hbefore ⟨k, by omega⟩ hlt
  rw [Option.isNone_eq_false_iff, h] at hk
  exact absurd hk (Nat.lt_irrefl k)

theorem add (h : Contiguous ranks k) (rank : GuildRank)
    (hi : Fin.find? (fun i => (ranks i).isNone) = some i) :
    Contiguous (Function.update ranks i (some rank)) (k + 1) := by
  have hv := h.val_of_find hi
  intro j
  by_cases hj : j = i
  · subst hj
    rw [Function.update_self]
    simp only [Option.isSome_some, true_iff]
    omega
  · rw [Function.update_of_ne hj, h j]
    omega

theorem edit (h : Contiguous ranks k) (rank : GuildRank) (hi : (ranks i).isSome) :
    Contiguous (Function.update ranks i (some rank)) k := by
  intro j
  by_cases hj : j = i
  · subst hj
    rw [Function.update_self]
    simpa using (h j).mp hi
  · rw [Function.update_of_ne hj, h j]

/-- While there is a free slot the search finds one. -/
theorem find_of_lt (h : Contiguous ranks k) (hk : k < 10) :
    Fin.find? (fun i => (ranks i).isNone) = some ⟨k, hk⟩ := by
  cases hf : Fin.find? fun i => (ranks i).isNone with
  | none =>
    rw [Fin.find?_eq_none_iff] at hf
    have hsome := hf ⟨k, hk⟩
    rw [Option.isNone_eq_false_iff, h] at hsome
    exact absurd hsome (Nat.lt_irrefl k)
  | some i => exact congrArg some (Fin.ext (h.val_of_find hf))

end Contiguous

namespace Guild

variable {g : Guild ι} {k : Nat} {i r : Fin 10}

/-- The lowest rank is the last of contiguous ranks. -/
theorem val_findLowestRank (h : Contiguous g.ranks k) (hk : k ≤ 10)
    (hr : g.findLowestRank = some r) : r.val + 1 = k := by
  unfold findLowestRank at hr
  rw [Fin.findRev?_eq_some_iff, Bool.and_eq_true, decide_eq_true_iff] at hr
  obtain ⟨⟨hpos, hsome⟩, hafter⟩ := hr
  have hlt := (h r).mp hsome
  by_contra hne
  have hnext := hafter ⟨r.val + 1, by omega⟩ (Fin.lt_def.mpr (Nat.lt_succ_self _))
  rw [Bool.and_eq_false_iff, decide_eq_false_iff_not, Bool.eq_false_iff] at hnext
  rcases hnext with hmaster | hnone
  · exact hmaster (hpos.trans (Fin.lt_def.mpr (Nat.lt_succ_self _)))
  · have hin : r.val + 1 < k := by omega
    exact hnone ((h ⟨r.val + 1, by omega⟩).mpr hin)

theorem findLowestRank_spec (hr : g.findLowestRank = some r) :
    (g.ranks r).isSome ∧ r ≠ masterRank := by
  unfold findLowestRank at hr
  rw [Fin.findRev?_eq_some_iff, Bool.and_eq_true, decide_eq_true_iff] at hr
  exact ⟨hr.1.2, ne_of_gt hr.1.1⟩

theorem findHighestRank_spec (hr : g.findHighestRank = some r) :
    (g.ranks r).isSome ∧ r ≠ masterRank := by
  unfold findHighestRank at hr
  rw [Fin.find?_eq_some_iff, Bool.and_eq_true, decide_eq_true_iff] at hr
  exact ⟨hr.1.2, ne_of_gt hr.1.1⟩

theorem findPromotion_spec (hr : g.findPromotion i = some r) :
    (g.ranks r).isSome ∧ r ≠ masterRank ∧ r < i := by
  unfold findPromotion at hr
  rw [Fin.findRev?_eq_some_iff, Bool.and_eq_true, decide_eq_true_iff] at hr
  exact ⟨hr.1.2, ne_of_gt hr.1.1.1, hr.1.1.2⟩

theorem findDemotion_spec (hr : g.findDemotion i = some r) : (g.ranks r).isSome ∧ i < r := by
  unfold findDemotion at hr
  rw [Fin.find?_eq_some_iff, Bool.and_eq_true, decide_eq_true_iff] at hr
  exact ⟨hr.1.2, hr.1.1⟩

/-- `CreateGuildRank` while there is a free slot. -/
theorem createGuildRank_of_lt (h : Contiguous g.ranks k) (hk : k < 10) (t : UInt32) (b : Bool) :
    ∃ ranks, g.createGuildRank t b = ({ g with ranks := ranks }, some ⟨k, hk⟩) ∧
      Contiguous ranks (k + 1) := by
  have hfind := h.find_of_lt hk
  refine ⟨Function.update g.ranks ⟨k, hk⟩ (some (.new t b)), ?_, h.add _ hfind⟩
  unfold createGuildRank
  rw [hfind]

variable (ι) in
/-- A new guild has no members, five ranks, and the leader it was asked for. -/
theorem found_spec (leaderGuid : UInt32) :
    ∃ g : Guild ι,
      Guilds.found leaderGuid = (g, some masterRank, some ⟨4, by omega⟩) ∧
      Contiguous g.ranks 5 ∧ g.members = ∅ ∧ g.guildLeader = leaderGuid := by
  have h₀ : Contiguous (fun _ => none) 0 := by
    intro i
    simp
  have next : ∀ {ranks k}, Contiguous ranks k → ∀ (hk : k < 10) (t : UInt32) (b : Bool),
      ∃ ranks', (⟨leaderGuid, 0, ranks, ∅⟩ : Guild ι).createGuildRank t b =
        (⟨leaderGuid, 0, ranks', ∅⟩, some ⟨k, hk⟩) ∧ Contiguous ranks' (k + 1) :=
    fun h hk t b => createGuildRank_of_lt (g := ⟨leaderGuid, 0, _, ∅⟩) h hk t b
  obtain ⟨r₁, e₁, h₁⟩ := next h₀ (by omega) GR_RIGHT_ALL true
  obtain ⟨r₂, e₂, h₂⟩ := next h₁ (by omega) GR_RIGHT_ALL true
  obtain ⟨r₃, e₃, h₃⟩ := next h₂ (by omega) (GR_RIGHT_GCHATLISTEN ||| GR_RIGHT_GCHATSPEAK) false
  obtain ⟨r₄, e₄, h₄⟩ := next h₃ (by omega) (GR_RIGHT_GCHATLISTEN ||| GR_RIGHT_GCHATSPEAK) false
  obtain ⟨r₅, e₅, h₅⟩ := next h₄ (by omega) (GR_RIGHT_GCHATLISTEN ||| GR_RIGHT_GCHATSPEAK) false
  refine ⟨⟨leaderGuid, 0, r₅, ∅⟩, ?_, h₅, rfl, rfl⟩
  unfold Guilds.found Guild.new
  simp only [e₁, e₂, e₃, e₄, e₅]
  rfl

theorem rankAt_spec {F : Int} (hr : g.rankAt F = some (some r)) :
    (g.ranks r).isSome ∧ r.val = F.toNat := by
  unfold rankAt at hr
  split at hr
  · rw [Option.some.injEq, Option.ite_none_right_eq_some, Option.some.injEq] at hr
    obtain ⟨hsome, rfl⟩ := hr
    exact ⟨hsome, rfl⟩
  · cases hr

variable [DecidableEq ι] in
/-- The rank a new member gets exists, and it is the master's only in a
guild without members. -/
theorem rankForNew_spec {F : Int} (hr : g.rankForNew F = some (some r)) :
    (g.ranks r).isSome ∧ (r = masterRank → g.members = ∅) := by
  unfold rankForNew at hr
  rw [Option.map_eq_some_iff] at hr
  obtain ⟨s, hs, hr⟩ := hr
  rw [Option.or_eq_some_iff] at hr
  rcases hr with rfl | ⟨rfl, hlow⟩
  · split_ifs at hs with hempty hF hF
    · obtain ⟨hsome, hne⟩ := findLowestRank_spec (Option.some.inj hs)
      exact ⟨hsome, fun h => absurd h hne⟩
    · obtain ⟨hsome, hval⟩ := rankAt_spec hs
      refine ⟨hsome, ?_⟩
      intro h
      rw [h] at hval
      change 0 = F.toNat at hval
      omega
    · obtain ⟨hsome, hne⟩ := findLowestRank_spec (Option.some.inj hs)
      exact ⟨hsome, fun h => absurd h hne⟩
    · exact ⟨(rankAt_spec hs).1, fun _ => not_not.mp hempty⟩
  · obtain ⟨hsome, hne⟩ := findLowestRank_spec hlow
    exact ⟨hsome, fun h => absurd h hne⟩

end Guild

variable [DecidableEq γ] [DecidableEq ι]

/-! ## Field lemmas -/

theorem lookup_insert_ite (s : Finmap fun _ : ι => GuildMember) (p q : ι) (m : GuildMember) :
    (s.insert p m).lookup q = if q = p then some m else s.lookup q := by
  by_cases h : q = p
  · subst h
    rw [if_pos rfl, Finmap.lookup_insert]
  · rw [if_neg h, Finmap.lookup_insert_of_ne _ h]

theorem lookup_erase_ite (s : Finmap fun _ : ι => GuildMember) (p q : ι) :
    (s.erase p).lookup q = if q = p then none else s.lookup q := by
  by_cases h : q = p
  · subst h
    rw [if_pos rfl, Finmap.lookup_erase]
  · rw [if_neg h, Finmap.lookup_erase_ne h]

namespace Guild

variable (g : Guild ι) (p q : ι) (r : Fin 10) (f : GuildMember → GuildMember)

@[simp] theorem ranks_updateMember : (g.updateMember p f).ranks = g.ranks := by
  unfold updateMember
  cases g.members.lookup p <;> rfl

@[simp] theorem guildLeader_updateMember : (g.updateMember p f).guildLeader = g.guildLeader := by
  unfold updateMember
  cases g.members.lookup p <;> rfl

@[simp] theorem lookup_updateMember : (g.updateMember p f).members.lookup q =
    if q = p then (g.members.lookup p).map f else g.members.lookup q := by
  unfold updateMember
  cases h : g.members.lookup p with
  | none =>
    by_cases hq : q = p
    · subst hq
      simp [h]
    · simp [hq]
  | some m => rw [lookup_insert_ite]; rfl

@[simp] theorem ranks_setPRank : (g.setPRank p r).ranks = g.ranks := ranks_updateMember ..

@[simp] theorem guildLeader_setPRank : (g.setPRank p r).guildLeader = g.guildLeader :=
  guildLeader_updateMember ..

@[simp] theorem lookup_setPRank : (g.setPRank p r).members.lookup q =
    if q = p then (g.members.lookup p).map fun m => { m with pRank := r }
    else g.members.lookup q :=
  lookup_updateMember ..

theorem mem_setPRank : q ∈ (g.setPRank p r).members ↔ q ∈ g.members := by
  rw [← Finmap.lookup_isSome, ← Finmap.lookup_isSome, lookup_setPRank]
  by_cases hq : q = p
  · subst hq
    simp
  · simp [hq]

end Guild

namespace Guilds

variable (w : Guilds γ ι) (G G' : γ) (p q : ι) (i : PlayerInfo γ)

omit [DecidableEq ι] in
@[simp] theorem guild_setGuild (g : Option (Guild ι)) :
    (w.setGuild G g).guild G' = if G' = G then g else w.guild G' :=
  Function.update_apply ..

omit [DecidableEq ι] in
@[simp] theorem info_setGuild (g : Option (Guild ι)) : (w.setGuild G g).info = w.info := rfl

omit [DecidableEq γ] in
@[simp] theorem guild_setInfo : (w.setInfo p i).guild = w.guild := rfl

omit [DecidableEq γ] in
@[simp] theorem info_setInfo : (w.setInfo p i).info q = if q = p then i else w.info q :=
  Function.update_apply ..

omit [DecidableEq γ] in
@[simp] theorem memberOf_setInfo : (w.setInfo p i).memberOf G q = w.memberOf G q := rfl

@[simp] theorem memberOf_setGuild (g : Option (Guild ι)) : (w.setGuild G g).memberOf G' q =
    if G' = G then g.bind fun g => g.members.lookup q else w.memberOf G' q := by
  unfold memberOf
  rw [guild_setGuild]
  split <;> rfl

omit [DecidableEq γ] in
theorem memberOf_eq {w : Guilds γ ι} {G : γ} {g : Guild ι} (hg : w.guild G = some g) (q : ι) :
    w.memberOf G q = g.members.lookup q := by
  unfold memberOf
  rw [hg, Option.bind_some]

end Guilds

/-! ## What a call can do -/

/-- One change to the guilds, and what the source has checked before it.
`Safe` stands for the promise that no one founds a guild while he is in
one, or for somebody else, or hands his guild to himself. -/
inductive Effect (objmgr : ObjectMgr ι) (Safe : Prop) (w : Guilds γ ι) : Guilds γ ι → Prop
  | found {G : γ} (leaderGuid : UInt32) (hG : w.guild G = none) (hs : ¬ Safe) :
      Effect objmgr Safe w (w.setGuild G (some (Guilds.found leaderGuid).1))
  | foundBy {G : γ} {p : ι} (leaderGuid : UInt32) (hG : w.guild G = none)
      (hp : (w.info p).guild = none) (hs : Safe → objmgr.guid p = leaderGuid) :
      Effect objmgr Safe w
        ((w.setGuild G (some (Guilds.found leaderGuid).1)).join G (Guilds.found leaderGuid).1 p
          masterRank)
  | addRank {G : γ} {g : Guild ι} {i : Fin 10} (rank : GuildRank) (hG : w.guild G = some g)
      (hi : Fin.find? (fun i => (g.ranks i).isNone) = some i) :
      Effect objmgr Safe w
        (w.setGuild G (some { g with ranks := Function.update g.ranks i (some rank) }))
  | editRank {G : γ} {g : Guild ι} {i : Fin 10} (rank : GuildRank) (hG : w.guild G = some g)
      (hi : (g.ranks i).isSome) :
      Effect objmgr Safe w
        (w.setGuild G (some { g with ranks := Function.update g.ranks i (some rank) }))
  | dropRank {G : γ} {g : Guild ι} {i : Fin 10} (hG : w.guild G = some g)
      (hi : g.findLowestRank = some i) (h5 : 5 ≤ i.val)
      (hfree : ∀ p m, g.members.lookup p = some m → m.pRank ≠ i) :
      Effect objmgr Safe w
        (w.setGuild G (some { g with ranks := Function.update g.ranks i none }))
  | assign {G : γ} {g : Guild ι} {p : ι} {r : Fin 10} (hG : w.guild G = some g)
      (hp : p ∈ g.members) (hr : (g.ranks r).isSome) (hm : r ≠ masterRank)
      (hl : (w.info p).guildRank = masterRank → objmgr.guid p ≠ g.guildLeader) :
      Effect objmgr Safe w (w.assignRank G g p r)
  | join {G : γ} {g : Guild ι} {p : ι} {r : Fin 10} (hG : w.guild G = some g)
      (hp : (w.info p).guild = none) (hr : (g.ranks r).isSome)
      (hm : r = masterRank → g.members = ∅) :
      Effect objmgr Safe w (w.join G g p r)
  | leave {G : γ} {g : Guild ι} {p : ι} (hG : w.guild G = some g)
      (hp : (w.info p).guild = some G) (hm : (w.info p).guildRank ≠ masterRank) :
      Effect objmgr Safe w (w.leave G g p)
  | handOver {G : γ} {g : Guild ι} {pNew pOld : ι} {newRank : Fin 10} (hG : w.guild G = some g)
      (hr : (g.ranks newRank).isSome) (hm : newRank ≠ masterRank) (hnew : pNew ∈ g.members)
      (hold : pOld ∈ g.members) (hl : objmgr.guid pOld = g.guildLeader)
      (hs : Safe → pNew ≠ pOld) :
      Effect objmgr Safe w (w.handOver objmgr G g pNew pOld newRank)
  | disband {G : γ} {g : Guild ι} (hG : w.guild G = some g) :
      Effect objmgr Safe w (w.disband G g)

/-! ## What holds in every run -/

namespace Guilds

variable {w : Guilds γ ι} {G : γ} {g : Guild ι} {p : ι} {r : Fin 10}

/-- The entry that `assignRank` changes. -/
theorem memberOf_assignRank (hG : w.guild G = some g) (G' : γ) (q : ι) :
    (w.assignRank G g p r).memberOf G' q =
      if G' = G ∧ q = p then (w.memberOf G p).map fun m => { m with pRank := r }
      else w.memberOf G' q := by
  unfold assignRank
  rw [memberOf_setInfo, memberOf_setGuild, memberOf_eq hG]
  by_cases hG' : G' = G
  · subst hG'
    simp [memberOf_eq hG]
  · simp [hG']

/-- The entry that `join` adds. -/
theorem memberOf_join (hG : w.guild G = some g) (hp : w.memberOf G p = none) (G' : γ) (q : ι) :
    (w.join G g p r).memberOf G' q =
      if G' = G ∧ q = p then some (.new r) else w.memberOf G' q := by
  unfold join
  rw [memberOf_eq hG, Finmap.lookup_eq_none] at hp
  rw [memberOf_setInfo, memberOf_setGuild, if_neg hp, Option.bind_some, lookup_insert_ite]
  by_cases hG' : G' = G
  · subst hG'
    simp [memberOf_eq hG]
  · simp [hG']

/-- The entry that `leave` removes. -/
theorem memberOf_leave (hG : w.guild G = some g) (G' : γ) (q : ι) :
    (w.leave G g p).memberOf G' q = if G' = G ∧ q = p then none else w.memberOf G' q := by
  unfold leave
  rw [memberOf_setInfo, memberOf_setGuild, Option.bind_some, lookup_erase_ite]
  by_cases hG' : G' = G
  · subst hG'
    simp [memberOf_eq hG]
  · simp [hG']

/-- A guild is edited without touching its members. -/
theorem memberOf_edit (hG : w.guild G = some g) {g' : Guild ι} (hm : g'.members = g.members)
    (G' : γ) (q : ι) : (w.setGuild G (some g')).memberOf G' q = w.memberOf G' q := by
  rw [memberOf_setGuild, Option.bind_some, hm]
  by_cases hG' : G' = G
  · subst hG'
    rw [if_pos rfl, memberOf_eq hG]
  · rw [if_neg hG']

@[simp] theorem info_disband (q : ι) : (w.disband G g).info q =
    if q ∈ g.members then { w.info q with guild := none, guildRank := masterRank }
    else w.info q := rfl

/-- Nobody is a member of a guild that is deleted. -/
theorem memberOf_disband (G' : γ) (q : ι) :
    (w.disband G g).memberOf G' q = if G' = G then none else w.memberOf G' q := by
  unfold disband memberOf
  dsimp only
  rw [Function.update_apply]
  split <;> rfl

/-- A guild without members appears. -/
theorem memberOf_found (hG : w.guild G = none) (hm : g.members = ∅) (G' : γ) (q : ι) :
    (w.setGuild G (some g)).memberOf G' q = w.memberOf G' q := by
  rw [memberOf_setGuild, Option.bind_some, hm, Finmap.lookup_empty]
  by_cases hG' : G' = G
  · subst hG'
    rw [if_pos rfl, memberOf, hG, Option.bind_none]
  · rw [if_neg hG']

end Guilds

/-- The ranks fill the first slots, from 5 to 10 of them, and every member
has a rank that exists. -/
structure Guild.Ranked (g : Guild ι) : Prop where
  contiguous : ∃ k, 5 ≤ k ∧ k ≤ 10 ∧ Contiguous g.ranks k
  existing : ∀ p m, g.members.lookup p = some m → (g.ranks m.pRank).isSome

/-- The guilds are ranked, and the players' records point to the guild
that has them as a member, and to the rank they have there. -/
structure Guilds.Linked (w : Guilds γ ι) : Prop where
  ranked : ∀ G g, w.guild G = some g → g.Ranked
  guild : ∀ p G, (w.info p).guild = some G ↔ (w.memberOf G p).isSome
  rank : ∀ p G m, w.memberOf G p = some m → (w.info p).guildRank = m.pRank

namespace Guild.Ranked

variable {g : Guild ι} {i : Fin 10}

omit [DecidableEq γ] in
theorem addRank (h : g.Ranked) (rank : GuildRank)
    (hi : Fin.find? (fun i => (g.ranks i).isNone) = some i) :
    ({ g with ranks := Function.update g.ranks i (some rank) } : Guild ι).Ranked := by
  obtain ⟨k, h5, -, hk⟩ := h.contiguous
  have hv := hk.val_of_find hi
  refine ⟨⟨k + 1, by omega, by omega, hk.add rank hi⟩, ?_⟩
  intro p m hm
  have hin := (hk m.pRank).mp (h.existing p m hm)
  rw [hk.add rank hi]
  omega

theorem editRank (h : g.Ranked) (rank : GuildRank) (hi : (g.ranks i).isSome) :
    ({ g with ranks := Function.update g.ranks i (some rank) } : Guild ι).Ranked := by
  obtain ⟨k, h5, h10, hk⟩ := h.contiguous
  refine ⟨⟨k, h5, h10, hk.edit rank hi⟩, ?_⟩
  intro p m hm
  rw [hk.edit rank hi, ← hk]
  exact h.existing p m hm

/-- The last rank goes, unless it is one of the first five or in use. -/
theorem dropRank (h : g.Ranked) (hi : g.findLowestRank = some i) (h5 : 5 ≤ i.val)
    (hfree : ∀ p m, g.members.lookup p = some m → m.pRank ≠ i) :
    ({ g with ranks := Function.update g.ranks i none } : Guild ι).Ranked := by
  obtain ⟨k, -, h10, hk⟩ := h.contiguous
  have hlast := Guild.val_findLowestRank hk h10 hi
  have hdrop : Contiguous (Function.update g.ranks i none) i.val := by
    intro j
    by_cases hj : j = i
    · subst hj
      simp
    · have hne : j.val ≠ i.val := fun he => hj (Fin.ext he)
      rw [Function.update_of_ne hj, hk j]
      omega
  refine ⟨⟨i.val, h5, by omega, hdrop⟩, ?_⟩
  intro p m hm
  have hin := (hk m.pRank).mp (h.existing p m hm)
  have hne : m.pRank.val ≠ i.val := fun he => hfree p m hm (Fin.ext he)
  rw [hdrop]
  omega

end Guild.Ranked

namespace Guilds.Linked

variable {w : Guilds γ ι} {G : γ} {g : Guild ι} {p : ι} {r : Fin 10}

omit [DecidableEq γ] in
theorem empty (coinage : ι → UInt32) : (Guilds.empty coinage : Guilds γ ι).Linked where
  ranked := by
    intro G g h
    cases h
  guild := by
    intro p G
    simp [Guilds.empty, memberOf]
  rank := by
    intro p G m h
    simp [Guilds.empty, memberOf] at h

omit [DecidableEq γ] in
/-- A player of no guild is a member nowhere. -/
theorem memberOf_none (h : w.Linked) (hp : (w.info p).guild = none) (G : γ) :
    w.memberOf G p = none := by
  cases hm : w.memberOf G p with
  | none => rfl
  | some m =>
    have := (h.guild p G).mpr (by rw [hm]; rfl)
    rw [hp] at this
    cases this

omit [DecidableEq γ] in
/-- A player is a member of the one guild his record points to. -/
theorem eq_of_memberOf (h : w.Linked) (hp : (w.info p).guild = some G) {G' : γ} {m : GuildMember}
    (hm : w.memberOf G' p = some m) : G' = G := by
  have hG' := (h.guild p G').mpr (by rw [hm]; rfl)
  rw [hp, Option.some.injEq] at hG'
  exact hG'.symm

/-- The guild is edited and keeps its members. -/
theorem edit (h : w.Linked) (hG : w.guild G = some g) {g' : Guild ι} (hm : g'.members = g.members)
    (hr : g'.Ranked) : (w.setGuild G (some g')).Linked where
  ranked := by
    intro G'' g'' hg''
    rw [guild_setGuild] at hg''
    split at hg''
    · cases hg''
      exact hr
    · exact h.ranked G'' g'' hg''
  guild := by
    intro q G'
    rw [memberOf_edit hG hm, info_setGuild]
    exact h.guild q G'
  rank := by
    intro q G' m hq
    rw [memberOf_edit hG hm] at hq
    rw [info_setGuild]
    exact h.rank q G' m hq

/-- A rank that exists is assigned to a member. -/
theorem assignRank (h : w.Linked) (hG : w.guild G = some g) (hp : p ∈ g.members)
    (hr : (g.ranks r).isSome) : (w.assignRank G g p r).Linked where
  ranked := by
    intro G' g' hg'
    unfold Guilds.assignRank at hg'
    rw [guild_setInfo, guild_setGuild] at hg'
    split at hg'
    · cases hg'
      have hold := h.ranked G g hG
      refine ⟨by rw [Guild.ranks_setPRank]; exact hold.contiguous, ?_⟩
      intro q m hm
      rw [Guild.lookup_setPRank] at hm
      rw [Guild.ranks_setPRank]
      split at hm
      · obtain ⟨m', -, rfl⟩ := Option.map_eq_some_iff.mp hm
        exact hr
      · exact hold.existing q m hm
    · exact h.ranked G' g' hg'
  guild := by
    intro q G'
    rw [memberOf_assignRank hG, Guilds.assignRank, info_setInfo]
    by_cases hq : q = p
    · subst hq
      rw [if_pos rfl]
      change (w.info q).guild = some G' ↔ _
      rw [h.guild]
      by_cases hG' : G' = G
      · subst hG'
        simp
      · simp [hG']
    · rw [if_neg hq, if_neg fun hc => hq hc.2, info_setGuild]
      exact h.guild q G'
  rank := by
    intro q G' m hm
    rw [memberOf_assignRank hG] at hm
    rw [Guilds.assignRank, info_setInfo]
    have hpG : (w.info p).guild = some G := by
      rw [h.guild, memberOf_eq hG, Finmap.lookup_isSome]
      exact hp
    split at hm
    · rename_i hc
      rw [if_pos hc.2]
      obtain ⟨m', -, rfl⟩ := Option.map_eq_some_iff.mp hm
      rfl
    · rename_i hc
      have hq : q ≠ p := by
        rintro rfl
        exact hc ⟨h.eq_of_memberOf hpG hm, rfl⟩
      rw [if_neg hq, info_setGuild]
      exact h.rank q G' m hm

/-- A player of no guild joins one, in a rank that exists. -/
theorem join (h : w.Linked) (hG : w.guild G = some g) (hp : (w.info p).guild = none)
    (hr : (g.ranks r).isSome) : (w.join G g p r).Linked where
  ranked := by
    intro G' g' hg'
    have hnot : p ∉ g.members := by
      rw [← Finmap.lookup_eq_none, ← memberOf_eq hG]
      exact h.memberOf_none hp G
    unfold Guilds.join at hg'
    rw [guild_setInfo, guild_setGuild, if_neg hnot] at hg'
    split at hg'
    · cases hg'
      have hold := h.ranked G g hG
      refine ⟨hold.contiguous, ?_⟩
      intro q m hm
      rw [lookup_insert_ite] at hm
      split at hm
      · cases hm
        exact hr
      · exact hold.existing q m hm
    · exact h.ranked G' g' hg'
  guild := by
    intro q G'
    rw [memberOf_join hG (h.memberOf_none hp G), Guilds.join, info_setInfo]
    by_cases hq : q = p
    · subst hq
      rw [if_pos rfl]
      by_cases hG' : G' = G
      · subst hG'
        simp
      · simp [hG', h.memberOf_none hp G', Ne.symm hG']
    · rw [if_neg hq, if_neg fun hc : G' = G ∧ q = p => hq hc.2, info_setGuild]
      exact h.guild q G'
  rank := by
    intro q G' m hm
    rw [memberOf_join hG (h.memberOf_none hp G)] at hm
    rw [Guilds.join, info_setInfo]
    split at hm
    · rename_i hc
      rw [if_pos hc.2]
      cases hm
      rfl
    · have hq : q ≠ p := by
        rintro rfl
        rw [h.memberOf_none hp G'] at hm
        cases hm
      rw [if_neg hq, info_setGuild]
      exact h.rank q G' m hm

/-- A member leaves. -/
theorem leave (h : w.Linked) (hG : w.guild G = some g) (hp : (w.info p).guild = some G) :
    (w.leave G g p).Linked where
  ranked := by
    intro G' g' hg'
    unfold Guilds.leave at hg'
    rw [guild_setInfo, guild_setGuild] at hg'
    split at hg'
    · cases hg'
      have hold := h.ranked G g hG
      refine ⟨hold.contiguous, ?_⟩
      intro q m hm
      rw [lookup_erase_ite] at hm
      split at hm
      · cases hm
      · exact hold.existing q m hm
    · exact h.ranked G' g' hg'
  guild := by
    intro q G'
    rw [memberOf_leave hG, Guilds.leave, info_setInfo]
    by_cases hq : q = p
    · subst hq
      rw [if_pos rfl]
      by_cases hG' : G' = G
      · subst hG'
        simp
      · have hnone : w.memberOf G' q = none := by
          rw [Option.eq_none_iff_forall_ne_some]
          intro m hm
          exact hG' (h.eq_of_memberOf hp hm)
        simp [hG', hnone]
    · rw [if_neg hq, if_neg fun hc => hq hc.2, info_setGuild]
      exact h.guild q G'
  rank := by
    intro q G' m hm
    rw [memberOf_leave hG] at hm
    rw [Guilds.leave, info_setInfo]
    split at hm
    · cases hm
    · rename_i hc
      have hq : q ≠ p := by
        rintro rfl
        exact hc ⟨h.eq_of_memberOf hp hm, rfl⟩
      rw [if_neg hq, info_setGuild]
      exact h.rank q G' m hm

/-- The members of a guild that is deleted belong nowhere. -/
theorem disband (h : w.Linked) (hG : w.guild G = some g) : (w.disband G g).Linked where
  ranked := by
    intro G' g' hg'
    change Function.update w.guild G none G' = some g' at hg'
    rw [Function.update_apply] at hg'
    split at hg'
    · cases hg'
    · exact h.ranked G' g' hg'
  guild := by
    intro q G'
    rw [memberOf_disband, info_disband]
    by_cases hq : q ∈ g.members
    · have hqG : (w.info q).guild = some G := by
        rw [h.guild, memberOf_eq hG, Finmap.lookup_isSome]
        exact hq
      have hnone : G' ≠ G → w.memberOf G' q = none := by
        intro hG'
        rw [Option.eq_none_iff_forall_ne_some]
        intro m hm
        exact hG' (h.eq_of_memberOf hqG hm)
      by_cases hG' : G' = G
      · simp [hq, hG']
      · simp [hq, hG', hnone hG']
    · rw [if_neg hq, h.guild]
      by_cases hG' : G' = G
      · subst hG'
        rw [memberOf_eq hG, if_pos rfl, Finmap.lookup_eq_none.mpr hq]
      · rw [if_neg hG']
  rank := by
    intro q G' m hm
    rw [memberOf_disband] at hm
    rw [info_disband]
    split at hm
    · cases hm
    · rename_i hG'
      have hq : q ∉ g.members := by
        intro hq
        have hqG : (w.info q).guild = some G := by
          rw [h.guild, memberOf_eq hG, Finmap.lookup_isSome]
          exact hq
        exact hG' (h.eq_of_memberOf hqG hm)
      rw [if_neg hq]
      exact h.rank q G' m hm

/-- A new guild, at an address no guild is at. -/
theorem found (h : w.Linked) (hG : w.guild G = none) (hr : g.Ranked) (hm : g.members = ∅) :
    (w.setGuild G (some g)).Linked where
  ranked := by
    intro G' g' hg'
    rw [guild_setGuild] at hg'
    split at hg'
    · cases hg'
      exact hr
    · exact h.ranked G' g' hg'
  guild := by
    intro q G'
    rw [memberOf_found hG hm, info_setGuild]
    exact h.guild q G'
  rank := by
    intro q G' m hq
    rw [memberOf_found hG hm] at hq
    rw [info_setGuild]
    exact h.rank q G' m hq

/-- The guild is handed over: two assignments, and a new leader. -/
theorem handOver (h : w.Linked) (objmgr : ObjectMgr ι) (hG : w.guild G = some g) {pNew pOld : ι}
    (hr : (g.ranks r).isSome) (hnew : pNew ∈ g.members) (hold : pOld ∈ g.members) :
    (w.handOver objmgr G g pNew pOld r).Linked := by
  have hmaster : (g.ranks masterRank).isSome := by
    obtain ⟨k, h5, -, hk⟩ := (h.ranked G g hG).contiguous
    rw [hk]
    exact Nat.lt_of_lt_of_le (by decide) h5
  let g₁ := g.setPRank pNew masterRank
  let w₁ := w.assignRank G g pNew masterRank
  have hw₁ : w₁.Linked := h.assignRank hG hnew hmaster
  have hG₁ : w₁.guild G = some g₁ := by simp [w₁, g₁, Guilds.assignRank]
  let w₂ := w₁.assignRank G g₁ pOld r
  have hw₂ : w₂.Linked := by
    refine hw₁.assignRank hG₁ ?_ ?_
    · rw [Guild.mem_setPRank]
      exact hold
    · rw [Guild.ranks_setPRank]
      exact hr
  have hG₂ : w₂.guild G = some (g₁.setPRank pOld r) := by simp [w₂, Guilds.assignRank]
  have hranked := hw₂.ranked G _ hG₂
  have hlast : (w₂.setGuild G
      (some { g₁.setPRank pOld r with guildLeader := objmgr.guid pNew })).Linked :=
    hw₂.edit hG₂ rfl ⟨hranked.contiguous, hranked.existing⟩
  have heq : w.handOver objmgr G g pNew pOld r =
      w₂.setGuild G (some { g₁.setPRank pOld r with guildLeader := objmgr.guid pNew }) := by
    unfold Guilds.handOver
    simp [w₂, w₁, g₁, Guilds.assignRank, setGuild, setInfo]
  rw [heq]
  exact hlast

end Guilds.Linked

/-- The new guild of a charter. -/
theorem Guilds.Linked.founded {w : Guilds γ ι} (h : w.Linked) {G : γ} (hG : w.guild G = none)
    (leaderGuid : UInt32) :
    (w.setGuild G (some (Guilds.found leaderGuid).1)).Linked ∧
      (((Guilds.found leaderGuid).1 : Guild ι).ranks masterRank).isSome ∧
      ((Guilds.found leaderGuid).1 : Guild ι).members = ∅ := by
  obtain ⟨g, he, hr, hm, -⟩ := Guild.found_spec ι leaderGuid
  rw [he]
  refine ⟨h.found hG ⟨⟨5, by omega, by omega, hr⟩, ?_⟩ hm, (hr masterRank).mpr (by decide), hm⟩
  intro p m hp
  rw [hm, Finmap.lookup_empty] at hp
  cases hp

/-- Every effect keeps the guilds linked. -/
theorem Effect.linked {objmgr : ObjectMgr ι} {Safe : Prop} {w w' : Guilds γ ι}
    (he : Effect objmgr Safe w w') (h : w.Linked) : w'.Linked := by
  cases he with
  | found l hG hs => exact (h.founded hG l).1
  | foundBy l hG hp hs => exact (h.founded hG l).1.join (by simp) hp (h.founded hG l).2.1
  | addRank rank hG hi => exact h.edit hG rfl ((h.ranked _ _ hG).addRank rank hi)
  | editRank rank hG hi => exact h.edit hG rfl ((h.ranked _ _ hG).editRank rank hi)
  | dropRank hG hi h5 hfree => exact h.edit hG rfl ((h.ranked _ _ hG).dropRank hi h5 hfree)
  | assign hG hp hr hm hl => exact h.assignRank hG hp hr
  | join hG hp hr hm => exact h.join hG hp hr
  | leave hG hp hm => exact h.leave hG hp
  | handOver hG hr hm hnew hold hl hs => exact h.handOver objmgr hG hr hnew hold
  | disband hG => exact h.disband hG

/-! ## Every call is a chain of effects -/

/-- What `Safe` promises of a call. -/
def GuildCall.Safe (objmgr : ObjectMgr ι) (w : Guilds γ ι) : GuildCall γ ι → Prop
  | .createFromCharter _ pCharter pTurnIn =>
    (w.info pTurnIn).guild = none ∧ objmgr.guid pTurnIn = pCharter.leaderGuid
  | .changeGuildMaster G pNewMaster pClient =>
    (w.guild G).map (·.guildLeader) = some (objmgr.guid pClient) → pNewMaster ≠ pClient
  | _ => True

namespace Guilds

variable {objmgr : ObjectMgr ι} {Safe : Prop} {w w' : Guilds γ ι} {G : γ} {g : Guild ι}

/-- `AddGuildMember` changes nothing, or a player of no guild joins. -/
theorem addGuildMember_cases {p : ι} {c : Option ι} {F : Int}
    (hstep : w.addGuildMember G g p c F = some w') :
    w' = w ∨ ∃ r, (w.info p).guild = none ∧ (g.ranks r).isSome ∧
      (r = masterRank → g.members = ∅) ∧ w' = w.join G g p r := by
  unfold addGuildMember at hstep
  split at hstep
  · exact .inl (Option.some.inj hstep).symm
  · rename_i hno
    rw [Option.map_eq_some_iff] at hstep
    obtain ⟨r, hr, hw⟩ := hstep
    cases r with
    | none => exact .inl hw.symm
    | some r =>
      obtain ⟨hsome, hm⟩ := Guild.rankForNew_spec hr
      refine .inr ⟨r, ?_, hsome, hm, hw.symm⟩
      cases hp : (w.info p).guild with
      | none => rfl
      | some G' =>
        rw [addRefused, hp, Option.isSome_some, Bool.true_or] at hno
        exact absurd rfl hno

theorem addGuildMember_effects (hG : w.guild G = some g) {p : ι} {c : Option ι} {F : Int}
    (hstep : w.addGuildMember G g p c F = some w') :
    Relation.ReflGen (Effect objmgr Safe) w w' := by
  rcases addGuildMember_cases hstep with rfl | ⟨r, hp, hr, hm, rfl⟩
  · exact .refl
  · exact .single (.join hG hp hr hm)

theorem removeGuildMember_effects (hG : w.guild G = some g) {p : ι} {c : Option ι} :
    Relation.ReflGen (Effect objmgr Safe) w (w.removeGuildMember G g p c).1 := by
  unfold removeGuildMember
  cases hr : w.removeRefusal G g p c with
  | some reply => exact .refl
  | none =>
    unfold removeRefusal at hr
    split at hr
    · cases hr
    · rename_i hguild
      split at hr
      · cases hr
      · rename_i hm
        exact .single (.leave hG (not_not.mp hguild) hm)

theorem promoteGuildMember_effects (hG : w.guild G = some g) {p c : ι} :
    Relation.ReflGen (Effect objmgr Safe) w (w.promoteGuildMember G g p c).1 := by
  unfold promoteGuildMember
  cases w.promoteRefusal G g p c with
  | some reply => exact .refl
  | none =>
    cases hf : g.findPromotion (w.info p).guildRank with
    | none => exact .refl
    | some newRank =>
      obtain ⟨hsome, hm, hlt⟩ := Guild.findPromotion_spec hf
      dsimp only
      split
      · rename_i hp
        refine .single (.assign hG hp hsome hm ?_)
        intro hmaster
        -- nobody is promoted from the master's rank
        rw [hmaster] at hlt
        exact absurd hlt (Fin.not_lt_zero newRank)
      · exact .refl

theorem demoteGuildMember_effects (hG : w.guild G = some g) {p c : ι} :
    Relation.ReflGen (Effect objmgr Safe) w (w.demoteGuildMember objmgr G g p c).1 := by
  unfold demoteGuildMember
  cases hr : w.demoteRefusal objmgr G g p c with
  | some reply => exact .refl
  | none =>
    cases hf : g.findDemotion (w.info p).guildRank with
    | none => exact .refl
    | some newRank =>
      obtain ⟨hsome, hlt⟩ := Guild.findDemotion_spec hf
      dsimp only
      split
      · rename_i hp
        refine .single (.assign hG hp hsome ?_ ?_)
        · exact Fin.ne_zero_of_lt hlt
        · intro _ hleader
          unfold demoteRefusal at hr
          rw [decide_eq_true hleader, Bool.or_true] at hr
          simp only [if_true] at hr
          split at hr <;> cases hr
      · exact .refl

theorem removeGuildRank_effects (hG : w.guild G = some g) :
    Relation.ReflGen (Effect objmgr Safe) w (w.removeGuildRank G g).1 := by
  unfold removeGuildRank
  cases hf : g.findLowestRank with
  | none => exact .refl
  | some r =>
    dsimp only
    split
    · exact .refl
    · rename_i h5
      split
      · exact .refl
      · rename_i hfree
        refine .single (.dropRank hG hf (not_lt.mp h5) ?_)
        intro p m hm hrank
        refine hfree ⟨p, ?_, ?_⟩
        · rw [Finmap.mem_keys, ← Finmap.lookup_isSome, hm]
          rfl
        · rw [hm, Option.map_some, hrank]

theorem changeGuildMaster_effects (hG : w.guild G = some g) {pNew c : ι}
    (hs : Safe → objmgr.guid c = g.guildLeader → pNew ≠ c) :
    Relation.ReflGen (Effect objmgr Safe) w (w.changeGuildMaster objmgr G g pNew c).1 := by
  unfold changeGuildMaster
  split
  · exact .refl
  · rename_i hleader
    rw [not_not] at hleader
    cases hf : g.findHighestRank with
    | none => exact .refl
    | some newRank =>
      obtain ⟨hsome, hm⟩ := Guild.findHighestRank_spec hf
      dsimp only
      split
      · rename_i hin
        exact .single (.handOver hG hsome hm hin.1 hin.2 hleader fun h => hs h hleader)
      · exact .refl

theorem createGuildRank_effects (hG : w.guild G = some g) (t : UInt32) (b : Bool) :
    Relation.ReflGen (Effect objmgr Safe) w
      (w.setGuild G (some (g.createGuildRank t b).1)) := by
  unfold Guild.createGuildRank
  cases hf : Fin.find? fun i => (g.ranks i).isNone with
  | some i => exact .single (.addRank _ hG hf)
  | none =>
    have heq : w.setGuild G (some g) = w := by
      unfold setGuild
      rw [← hG, Function.update_eq_self]
    rw [heq]

theorem handleGuildRank_effects (c : ι) (rankId : UInt32) (rank : GuildRank) :
    Relation.ReflGen (Effect objmgr Safe) w (w.handleGuildRank objmgr c rankId rank).1 := by
  unfold handleGuildRank
  cases he : w.editedRank objmgr c rankId with
  | error reply => exact .refl
  | ok e =>
    obtain ⟨G, g, i⟩ := e
    unfold editedRank at he
    cases hg : (w.info c).guild with
    | none =>
      rw [hg] at he
      cases he
    | some G' =>
      rw [hg] at he
      dsimp only at he
      cases hG : w.guild G' with
      | none =>
        rw [hG] at he
        cases he
      | some g' =>
        rw [hG] at he
        dsimp only at he
        split at he
        · cases he
        · cases hr : g'.rankAt rankId.toNat with
          | none =>
            rw [hr] at he
            cases he
          | some o =>
            cases o with
            | none =>
              rw [hr] at he
              cases he
            | some j =>
              rw [hr] at he
              cases he
              exact .single (.editRank rank hG (Guild.rankAt_spec hr).1)

/-- The signers join one after another. -/
theorem addSigners_effects (defRank : Fin 10) (signatures : List UInt32)
    (hstep : signatures.foldlM (addSigner objmgr G defRank) w = some w') :
    Relation.ReflTransGen (Effect objmgr Safe) w w' := by
  induction signatures generalizing w with
  | nil =>
    cases hstep
    exact .refl
  | cons signature signatures ih =>
    rw [List.foldlM_cons, Option.bind_eq_bind, Option.bind_eq_some_iff] at hstep
    obtain ⟨w₁, hfirst, hrest⟩ := hstep
    refine Relation.ReflTransGen.trans ?_ (ih hrest)
    unfold addSigner at hfirst
    cases hp : objmgr.getPlayerInfo signature with
    | none =>
      rw [hp] at hfirst
      cases hfirst
      exact .refl
    | some p =>
      rw [hp] at hfirst
      obtain ⟨g₁, hG₁, hadd⟩ := Option.bind_eq_some_iff.mp hfirst
      exact (addGuildMember_effects hG₁ hadd).to_reflTransGen

/-- The founder of a new guild is put in the master's rank. -/
theorem rankForNew_founder (hr : (g.ranks masterRank).isSome) (hm : g.members = ∅) :
    g.rankForNew (masterRank.val : Nat) = some (some masterRank) := by
  unfold Guild.rankForNew
  rw [if_neg (not_not.mpr hm), if_neg (by decide)]
  have hat : g.rankAt (masterRank.val : Nat) = some (some masterRank) := by
    unfold Guild.rankAt
    rw [dif_pos (by decide)]
    exact congrArg some (if_pos hr)
  rw [hat]
  rfl

/-- The steps of `CreateFromCharter`. -/
theorem createFromCharter_steps {c : Charter} {p : ι}
    (hstep : w.createFromCharter objmgr G c p = some w') :
    ∃ g w₁, w.guild G = none ∧ (found c.leaderGuid).1 = g ∧ Contiguous g.ranks 5 ∧
      g.members = ∅ ∧
      (w.setGuild G (some g)).addGuildMember G g p none masterRank.val = some w₁ ∧
      c.signatures.foldlM (addSigner objmgr G ⟨4, by omega⟩) w₁ = some w' := by
  obtain ⟨g, hf, hranks, hm, -⟩ := Guild.found_spec ι c.leaderGuid
  unfold createFromCharter at hstep
  rw [hf] at hstep
  cases hG : w.guild G with
  | some g' =>
    rw [hG] at hstep
    cases hstep
  | none =>
    rw [hG] at hstep
    obtain ⟨w₁, hadd, hsigners⟩ := Option.bind_eq_some_iff.mp hstep
    exact ⟨g, w₁, rfl, by rw [hf], hranks, hm, hadd, hsigners⟩

theorem createFromCharter_effects {c : Charter} {p : ι}
    (hs : Safe → (w.info p).guild = none ∧ objmgr.guid p = c.leaderGuid)
    (hstep : w.createFromCharter objmgr G c p = some w') :
    Relation.ReflTransGen (Effect objmgr Safe) w w' := by
  obtain ⟨g, w₁, hG, hg, hranks, hm, hadd, hsigners⟩ := createFromCharter_steps hstep
  refine Relation.ReflTransGen.trans ?_ (addSigners_effects _ _ hsigners)
  unfold addGuildMember addRefused at hadd
  rw [Option.any_none, Bool.or_false, info_setGuild] at hadd
  split at hadd
  · rename_i hguild
    cases hadd
    have heff : Effect objmgr Safe w _ := .found c.leaderGuid hG fun h => by
      rw [(hs h).1] at hguild
      cases hguild
    rw [hg] at heff
    exact .single heff
  · rename_i hguild
    rw [Bool.not_eq_true, Option.isSome_eq_false_iff, Option.isNone_iff_eq_none] at hguild
    rw [rankForNew_founder ((hranks masterRank).mpr (by decide)) hm] at hadd
    cases hadd
    have heff : Effect objmgr Safe w _ :=
      .foundBy c.leaderGuid hG hguild fun h => (hs h).2
    rw [hg] at heff
    exact .single heff

/-- A call is a single effect, or none, apart from the one that founds a guild. -/
theorem call_effect {call : GuildCall γ ι} (hs : Safe → call.Safe objmgr w)
    (hstep : w.call objmgr call = some w') :
    (∃ G c p, call = .createFromCharter G c p) ∨ Relation.ReflGen (Effect objmgr Safe) w w' := by
  cases call with
  | createFromCharter G c p => exact .inl ⟨G, c, p, rfl⟩
  | createGuildRank G t b =>
    obtain ⟨g, hG, rfl⟩ := Option.map_eq_some_iff.mp hstep
    exact .inr (createGuildRank_effects hG t b)
  | addGuildMember G p c F =>
    obtain ⟨g, hG, hadd⟩ := Option.bind_eq_some_iff.mp hstep
    exact .inr (addGuildMember_effects hG hadd)
  | removeGuildMember G p c =>
    obtain ⟨g, hG, rfl⟩ := Option.map_eq_some_iff.mp hstep
    exact .inr (removeGuildMember_effects hG)
  | promoteGuildMember G p c =>
    obtain ⟨g, hG, rfl⟩ := Option.map_eq_some_iff.mp hstep
    exact .inr (promoteGuildMember_effects hG)
  | demoteGuildMember G p c =>
    obtain ⟨g, hG, rfl⟩ := Option.map_eq_some_iff.mp hstep
    exact .inr (demoteGuildMember_effects hG)
  | removeGuildRank G =>
    obtain ⟨g, hG, rfl⟩ := Option.map_eq_some_iff.mp hstep
    exact .inr (removeGuildRank_effects hG)
  | changeGuildMaster G pNew c =>
    obtain ⟨g, hG, rfl⟩ := Option.map_eq_some_iff.mp hstep
    exact .inr (changeGuildMaster_effects hG fun h hl => hs h (by rw [hG, hl]; rfl))
  | disband G =>
    obtain ⟨g, hG, rfl⟩ := Option.map_eq_some_iff.mp hstep
    exact .inr (.single (.disband hG))
  | handleGuildRank c rankId rank =>
    obtain rfl := Option.some.inj hstep
    exact .inr (handleGuildRank_effects c rankId rank)

/-- Every call is a chain of effects. -/
theorem call_effects {call : GuildCall γ ι} (hs : Safe → call.Safe objmgr w)
    (hstep : w.call objmgr call = some w') : Relation.ReflTransGen (Effect objmgr Safe) w w' := by
  rcases call_effect hs hstep with ⟨G, c, p, rfl⟩ | he
  · exact createFromCharter_effects hs hstep
  · exact he.to_reflTransGen

end Guilds

/-! ## One master, while every call is safe -/

omit [DecidableEq ι] in
/-- Two players have two guids. -/
theorem ObjectMgr.guid_injective (objmgr : ObjectMgr ι) : Function.Injective objmgr.guid := by
  intro p q h
  have hp := objmgr.getPlayerInfo_guid p
  rw [h, objmgr.getPlayerInfo_guid q] at hp
  exact (Option.some.inj hp).symm

/-- The member `p` is the leader, and the only member in the master's rank. -/
structure Guild.LedBy (objmgr : ObjectMgr ι) (g : Guild ι) (p : ι) : Prop where
  leader : objmgr.guid p = g.guildLeader
  only : ∀ q, (g.members.lookup q).map (·.pRank) = some masterRank ↔ q = p

/-- Every guild has a leader who is its only master. -/
def Guilds.Led (objmgr : ObjectMgr ι) (w : Guilds γ ι) : Prop :=
  ∀ G g, w.guild G = some g → ∃ p, g.LedBy objmgr p

namespace Guild.LedBy

variable {objmgr : ObjectMgr ι} {g : Guild ι} {p ℓ : ι} {r : Fin 10}

/-- The leader is a member. -/
theorem mem (h : g.LedBy objmgr ℓ) : ℓ ∈ g.members := by
  obtain ⟨m, hm, -⟩ := Option.map_eq_some_iff.mp ((h.only ℓ).mpr rfl)
  rw [← Finmap.lookup_isSome, hm]
  rfl

/-- Another member is put in another rank than the master's. -/
theorem setPRank (h : g.LedBy objmgr ℓ) (hp : p ≠ ℓ) (hr : r ≠ masterRank) :
    (g.setPRank p r).LedBy objmgr ℓ where
  leader := by
    rw [Guild.guildLeader_setPRank]
    exact h.leader
  only := by
    intro q
    rw [Guild.lookup_setPRank]
    by_cases hq : q = p
    · subst hq
      rw [if_pos rfl, Option.map_map]
      constructor
      · intro hm
        obtain ⟨m, -, hm⟩ := Option.map_eq_some_iff.mp hm
        exact absurd hm hr
      · intro hq
        exact absurd hq hp
    · rw [if_neg hq]
      exact h.only q

/-- The guild is handed to another member. -/
theorem handOver (h : g.LedBy objmgr ℓ) (hp : p ∈ g.members) (hne : p ≠ ℓ) (hr : r ≠ masterRank) :
    ({ (g.setPRank p masterRank).setPRank ℓ r with
        guildLeader := objmgr.guid p } : Guild ι).LedBy objmgr p where
  leader := rfl
  only := by
    intro q
    rw [Guild.lookup_setPRank, Guild.lookup_setPRank, Guild.lookup_setPRank]
    by_cases hq : q = ℓ
    · subst hq
      rw [if_pos rfl, if_neg (Ne.symm hne), Option.map_map]
      constructor
      · intro hm
        obtain ⟨m, -, hm⟩ := Option.map_eq_some_iff.mp hm
        exact absurd hm hr
      · intro hqp
        exact absurd hqp.symm hne
    · rw [if_neg hq]
      by_cases hqp : q = p
      · subst hqp
        obtain ⟨m, hm⟩ := Finmap.mem_iff.mp hp
        simp [hm]
      · rw [if_neg hqp, h.only q]
        exact iff_of_false hq hqp

end Guild.LedBy

namespace Guilds.Led

variable {objmgr : ObjectMgr ι} {w w' : Guilds γ ι} {G : γ} {g : Guild ι} {p ℓ : ι}

omit [DecidableEq γ] in
theorem congr (h : w.Led objmgr) (hw : w'.guild = w.guild) : w'.Led objmgr := by
  intro G g hG
  rw [hw] at hG
  exact h G g hG

theorem setGuild (h : w.Led objmgr) (hg : g.LedBy objmgr p) :
    (w.setGuild G (some g)).Led objmgr := by
  intro G' g' hG'
  rw [guild_setGuild] at hG'
  split at hG'
  · cases hG'
    exact ⟨p, hg⟩
  · exact h G' g' hG'

end Guilds.Led

omit [DecidableEq γ] in
/-- A member in another rank than the master's is not the leader. -/
theorem Guilds.Linked.ne_leader {objmgr : ObjectMgr ι} {w : Guilds γ ι} {G : γ} {g : Guild ι}
    {p ℓ : ι} (h : w.Linked) (hG : w.guild G = some g) (hl : g.LedBy objmgr ℓ)
    (hr : (w.info p).guildRank ≠ masterRank) : p ≠ ℓ := by
  rintro rfl
  obtain ⟨m, hm, hrank⟩ := Option.map_eq_some_iff.mp ((hl.only p).mpr rfl)
  rw [h.rank p G m (by rw [Guilds.memberOf_eq hG, hm])] at hr
  exact hr hrank

/-- An effect of a safe call keeps every guild led by its only master. -/
theorem Effect.led {objmgr : ObjectMgr ι} {w w' : Guilds γ ι} (he : Effect objmgr True w w')
    (hw : w.Linked) (h : w.Led objmgr) : w'.Led objmgr := by
  cases he with
  | found l hG hs => exact absurd trivial hs
  | @foundBy G p l hG hp hs =>
    obtain ⟨g, hf, -, hm, hl⟩ := Guild.found_spec ι l
    have hg : (Guilds.found l : Guild ι × _).1 = g := by rw [hf]
    rw [hg, Guilds.join, Guilds.setGuild, Guilds.setGuild, Function.update_idem]
    refine Guilds.Led.congr (h.setGuild (G := G) (p := p) ?_) rfl
    rw [if_neg (by rw [hm]; exact Finmap.notMem_empty)]
    constructor
    · rw [hl]
      exact hs trivial
    · intro q
      rw [hm, lookup_insert_ite, Finmap.lookup_empty]
      by_cases hq : q = p
      · simp [hq, GuildMember.new]
      · simp [hq]
  | addRank rank hG hi | editRank rank hG hi | dropRank hG hi h5 hfree =>
    obtain ⟨ℓ, hℓ⟩ := h _ _ hG
    exact h.setGuild (p := ℓ) ⟨hℓ.leader, hℓ.only⟩
  | @assign G g p r hG hp hr hm hl =>
    obtain ⟨ℓ, hℓ⟩ := h _ _ hG
    have hne : p ≠ ℓ := by
      by_cases hrank : (w.info p).guildRank = masterRank
      · rintro rfl
        exact hl hrank hℓ.leader
      · exact hw.ne_leader hG hℓ hrank
    exact (h.setGuild (hℓ.setPRank hne hm)).congr rfl
  | @join G g p r hG hp hr hm =>
    obtain ⟨ℓ, hℓ⟩ := h _ _ hG
    have hnone : g.members.lookup p = none := by
      rw [← Guilds.memberOf_eq hG]
      exact hw.memberOf_none hp G
    have hmaster : r ≠ masterRank := by
      intro hr
      have := hℓ.mem
      rw [hm hr] at this
      exact absurd this Finmap.notMem_empty
    refine Guilds.Led.congr (h.setGuild (G := G) (p := ℓ) ?_) rfl
    rw [if_neg (Finmap.lookup_eq_none.mp hnone)]
    refine ⟨hℓ.leader, ?_⟩
    intro q
    rw [lookup_insert_ite]
    by_cases hq : q = p
    · subst hq
      rw [if_pos rfl, ← hℓ.only q, hnone]
      simp [GuildMember.new, hmaster]
    · rw [if_neg hq]
      exact hℓ.only q
  | @leave G g p hG hp hm =>
    obtain ⟨ℓ, hℓ⟩ := h _ _ hG
    have hne := hw.ne_leader hG hℓ hm
    refine Guilds.Led.congr (h.setGuild (G := G) (g := { g with members := g.members.erase p })
      (p := ℓ) ⟨hℓ.leader, ?_⟩) rfl
    intro q
    rw [lookup_erase_ite]
    by_cases hq : q = p
    · subst hq
      simp [hne]
    · rw [if_neg hq]
      exact hℓ.only q
  | @handOver G g pNew pOld r hG hr hm hnew hold hl hs =>
    obtain ⟨ℓ, hℓ⟩ := h _ _ hG
    have hold' : pOld = ℓ := objmgr.guid_injective (hl.trans hℓ.leader.symm)
    subst hold'
    exact (h.setGuild (hℓ.handOver hnew (hs trivial) hm)).congr rfl
  | disband hG =>
    intro G' g' hG'
    change Function.update w.guild _ none G' = some g' at hG'
    rw [Function.update_apply] at hG'
    split at hG'
    · cases hG'
    · exact h G' g' hG'

/-! ## Runs -/

namespace Guilds

variable {objmgr : ObjectMgr ι} {Safe : Prop} {w w' : Guilds γ ι}

theorem Linked.effects (h : w.Linked) (he : Relation.ReflTransGen (Effect objmgr Safe) w w') :
    w'.Linked := by
  induction he with
  | refl => exact h
  | tail _ hlast ih => exact hlast.linked ih

theorem Led.effects (hw : w.Linked) (h : w.Led objmgr)
    (he : Relation.ReflTransGen (Effect objmgr True) w w') : w'.Led objmgr := by
  induction he with
  | refl => exact h
  | tail hfirst hlast ih => exact hlast.led (hw.effects hfirst) ih

/-- Players' records and guilds stay linked, whatever is called. -/
theorem linked_run {coinage : ι → UInt32} {calls : List (GuildCall γ ι)}
    (hrun : Run (PartialStep (call objmgr)) (empty coinage) calls w) : w.Linked :=
  hrun.invariant Linked
    (fun _ _ _ h hstep => h.effects (call_effects False.elim hstep))
    (Linked.empty coinage)

/-- While calls are safe every guild stays led by its only master. -/
theorem led_run {coinage : ι → UInt32} {calls : List (GuildCall γ ι)}
    (hrun : Run (Guarded (fun w call => call.Safe objmgr w) (PartialStep (call objmgr)))
      (empty coinage) calls w) : w.Led objmgr := by
  have hboth : w.Linked ∧ w.Led objmgr := by
    refine hrun.invariant (fun w => w.Linked ∧ w.Led objmgr) ?_ ⟨Linked.empty coinage, ?_⟩
    · rintro s call t ⟨hlinked, hled⟩ ⟨hsafe, hstep⟩
      have he : Relation.ReflTransGen (Effect objmgr True) s t :=
        call_effects (fun _ => hsafe) hstep
      exact ⟨hlinked.effects he, hled.effects hlinked he⟩
    · intro G g hG
      cases hG
  exact hboth.2

end Guilds

/-- What is expected of a guild: while it has members, exactly one of them
is in the master's rank and he is the leader; every member has a rank that
exists; and the ranks are the first 5 to 10 slots. -/
def Guild.WellLed (objmgr : ObjectMgr ι) (g : Guild ι) : Prop :=
  (g.members ≠ ∅ → ∃ p, (g.members.lookup p).map (·.pRank) = some masterRank ∧
    objmgr.guid p = g.guildLeader ∧
    ∀ q, (g.members.lookup q).map (·.pRank) = some masterRank → q = p) ∧
  (∀ p m, g.members.lookup p = some m → (g.ranks m.pRank).isSome) ∧
  ∃ k, 5 ≤ k ∧ k ≤ 10 ∧ Contiguous g.ranks k

/-- The ranks are in order after any calls. The leadership is while no
master hands his guild to himself, and while founders are in no guild and
turn in a charter of their own. -/
theorem leadership_of_safe (objmgr : ObjectMgr ι) (coinage : ι → UInt32)
    (calls : List (GuildCall γ ι)) (w : Guilds γ ι) :
    (Run (PartialStep (Guilds.call objmgr)) (Guilds.empty coinage) calls w →
      ∀ G g, w.guild G = some g → g.Ranked) ∧
    (Run (Guarded (fun w call => call.Safe objmgr w) (PartialStep (Guilds.call objmgr)))
        (Guilds.empty coinage) calls w →
      ∀ G g, w.guild G = some g → g.WellLed objmgr) := by
  constructor
  · intro hrun
    exact (Guilds.linked_run hrun).ranked
  · intro hrun G g hG
    have hweak : Run (PartialStep (Guilds.call objmgr)) (Guilds.empty coinage) calls w :=
      hrun.mono fun _ _ _ h => h.2
    have hranked := (Guilds.linked_run hweak).ranked G g hG
    obtain ⟨ℓ, hℓ⟩ := Guilds.led_run hrun G g hG
    refine ⟨?_, hranked.existing, hranked.contiguous⟩
    intro _
    exact ⟨ℓ, (hℓ.only ℓ).mpr rfl, hℓ.leader, fun q hq => (hℓ.only q).mp hq⟩

/-- Two players, with the guids 1 and 2. -/
def twoPlayers : ObjectMgr (Fin 2) where
  guid p := UInt32.ofNat (p.val + 1)
  getPlayerInfo guid := if guid = 1 then some ⟨0, by omega⟩ else if guid = 2 then some ⟨1, by omega⟩ else none
  getPlayerInfo_guid := by decide

instance GuildCall.decidableSafe (objmgr : ObjectMgr ι) (w : Guilds γ ι) (call : GuildCall γ ι) :
    Decidable (call.Safe objmgr w) := by
  unfold GuildCall.Safe
  cases call <;> infer_instance

/-- Calls one after another, as long as each is defined and meets `Ok`. -/
def Guilds.calls (objmgr : ObjectMgr ι) (Ok : Guilds γ ι → GuildCall γ ι → Prop)
    [∀ w call, Decidable (Ok w call)] (w : Guilds γ ι) (calls : List (GuildCall γ ι)) :
    Option (Guilds γ ι) :=
  calls.foldlM (fun w call => if Ok w call then w.call objmgr call else none) w

/-- The first player founds a guild, the second signs, and is made master. -/
theorem leadership_of_safe_handed_over : ∃ (w : Guilds (Fin 1) (Fin 2)) (g : Guild (Fin 2)),
    w.guild 0 = some g ∧ g.members.keys.card = 2 ∧ g.WellLed twoPlayers := by
  have hdone : ((Guilds.empty fun _ => 0).calls twoPlayers
      (fun w call => GuildCall.Safe twoPlayers w call)
      [.createFromCharter (0 : Fin 1) ⟨1, [2]⟩ 0, .changeGuildMaster 0 1 0]).any
      (fun w => (w.guild 0).any fun g => decide (g.members.keys.card = 2)) = true := by
    decide +kernel
  obtain ⟨w, hw, hany⟩ := (Option.any_eq_true _ _).mp hdone
  obtain ⟨g, hg, hcard⟩ := (Option.any_eq_true _ _).mp hany
  exact ⟨w, g, hg, of_decide_eq_true hcard,
    (leadership_of_safe twoPlayers (fun _ => 0) _ w).2 (.of_foldlM hw) 0 g hg⟩

/-- A master who hands his guild to himself leaves it without one. And a
player who is in a guild founds another one that has no master. -/
theorem leadership_lost :
    (∃ (w : Guilds (Fin 2) (Fin 2)) (g : Guild (Fin 2)),
      Run (PartialStep (Guilds.call twoPlayers)) (Guilds.empty fun _ => 0)
        [.createFromCharter 0 ⟨1, []⟩ 0, .changeGuildMaster 0 0 0] w ∧
      w.guild 0 = some g ∧ ¬ g.WellLed twoPlayers) ∧
    (∃ (w : Guilds (Fin 2) (Fin 2)) (g : Guild (Fin 2)),
      Run (PartialStep (Guilds.call twoPlayers)) (Guilds.empty fun _ => 0)
        [.createFromCharter 0 ⟨1, []⟩ 0, .createFromCharter 1 ⟨1, [2]⟩ 0] w ∧
      w.guild 1 = some g ∧ ¬ g.WellLed twoPlayers) := by
  have hlost : ∀ (G : Fin 2) (calls : List (GuildCall (Fin 2) (Fin 2))),
      (((Guilds.empty fun _ => 0).calls twoPlayers (fun _ _ => True) calls).any fun w =>
        (w.guild G).any fun g => decide (g.members ≠ ∅) && decide (∀ p,
          (g.members.lookup p).map (·.pRank) ≠ some masterRank)) = true →
      ∃ (w : Guilds (Fin 2) (Fin 2)) (g : Guild (Fin 2)),
        Run (PartialStep (Guilds.call twoPlayers)) (Guilds.empty fun _ => 0) calls w ∧
        w.guild G = some g ∧ ¬ g.WellLed twoPlayers := by
    intro G calls hdone
    obtain ⟨w, hw, hany⟩ := (Option.any_eq_true _ _).mp hdone
    obtain ⟨g, hg, hnone⟩ := (Option.any_eq_true _ _).mp hany
    rw [Bool.and_eq_true, decide_eq_true_iff, decide_eq_true_iff] at hnone
    refine ⟨w, g, (Run.of_foldlM hw).mono fun _ _ _ h => h.2, hg, ?_⟩
    rintro ⟨hmaster, -⟩
    obtain ⟨p, hp, -⟩ := hmaster hnone.1
    exact hnone.2 p hp
  exact ⟨hlost 0 _ (by decide +kernel), hlost 1 _ (by decide +kernel)⟩

/-- In every run a player is in one guild at most, and his record says in
which one and with which rank. -/
theorem guild_records {objmgr : ObjectMgr ι} {coinage : ι → UInt32} {calls : List (GuildCall γ ι)}
    {w : Guilds γ ι} (hrun : Run (PartialStep (Guilds.call objmgr)) (.empty coinage) calls w)
    (p : ι) :
    (∀ G m, w.memberOf G p = some m → (w.info p).guild = some G ∧
      (w.info p).guildRank = m.pRank ∧ ∀ H, (w.memberOf H p).isSome → H = G) ∧
    ∀ G, (w.info p).guild = some G → (w.memberOf G p).isSome := by
  have hw := Guilds.linked_run hrun
  refine ⟨?_, fun G => (hw.guild p G).1⟩
  intro G m hm
  have hG : (w.info p).guild = some G := (hw.guild p G).2 (by rw [hm]; rfl)
  refine ⟨hG, hw.rank p G m hm, ?_⟩
  intro H hH
  exact Option.some.inj (((hw.guild p H).2 hH).symm.trans hG)

theorem guild_records_signer : ∃ w : Guilds (Fin 1) (Fin 2), (w.info 1).guildRank = 4 := by
  have hdone : (((Guilds.empty fun _ => 0).calls twoPlayers (fun _ _ => True)
      [.createFromCharter (0 : Fin 1) ⟨1, [2]⟩ 0]).any
        fun w => (w.memberOf 0 1).any fun m => m.pRank = 4) = true := by
    decide +kernel
  obtain ⟨w, hw, hany⟩ := (Option.any_eq_true _ _).mp hdone
  obtain ⟨m, hm, hrank⟩ := (Option.any_eq_true _ _).mp hany
  have h := (guild_records ((Run.of_foldlM hw).mono fun _ _ _ h => h.2) 1).1 0 m hm
  exact ⟨w, h.2.1.trans (of_decide_eq_true hrank)⟩

end HearthStone.Roster
