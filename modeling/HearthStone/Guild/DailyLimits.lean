/-
HearthStone.Guild.DailyLimits — how much a member takes out of the guild
bank in a reset period, against the limits in force in that period.

* `Ledger` keeps the books of a member: the gold and the items per tab he
  has taken since the counter in question was last reset, and the largest
  limit meanwhile. `Audited` runs the books beside the guilds.
* `Sound` says the counters cover the books. Roster calls keep it since
  they leave counters alone (`Carried`), withdrawals by `Covers.charge`.
* The gold counter grows by one where it should grow by the amount, and
  the allowance wraps when a limit drops below the counter. `Counted` is
  the condition that keeps clear of both.
-/
import HearthStone.Guild.Allowance
import HearthStone.Guild.Leadership
import HearthStone.Lib.Quota

namespace HearthStone.Roster

open Lib

variable {γ ι : Type*} [DecidableEq γ] [DecidableEq ι]

/-! ## The counters as quotas -/

namespace GuildMember

variable (m : GuildMember)

def goldQuota : Quota := ⟨m.uLastWithdrawReset, m.uWithdrawlsSinceLastReset⟩

def itemQuota (tab : Fin 6) : Quota :=
  ⟨m.uLastItemWithdrawReset tab, m.uItemWithdrawlsSinceLastReset tab⟩

/-- Only the rank differs. -/
def SameCounters (m m' : GuildMember) : Prop := m' = { m with pRank := m'.pRank }

end GuildMember

/-! ## Roster calls leave the counters alone -/

namespace Guilds

variable {objmgr : ObjectMgr ι} {Safe : Prop} {w w' w'' : Guilds γ ι} {G : γ} {g : Guild ι} {p : ι}

omit [DecidableEq γ] in
theorem guildMember_eq (w : Guilds γ ι) (p : ι) :
    w.guildMember p = (w.info p).guild.bind fun G => w.memberOf G p := by
  unfold guildMember guildOf memberOf
  cases (w.info p).guild with
  | none => rfl
  | some G =>
    simp only [Option.bind_some]
    cases w.guild G <;> rfl

/-- The counters of a player are carried over, or he has just joined. -/
def Carried (w w' : Guilds γ ι) (p : ι) : Prop :=
  ∀ m', w'.guildMember p = some m' →
    (∃ m, w.guildMember p = some m ∧ m.SameCounters m') ∨
      (w.guildMember p = none ∧ m' = .new m'.pRank)

/-- A member stays one and keeps his counters, and who joins is new. -/
def Grows (w w' : Guilds γ ι) (p : ι) : Prop :=
  (∀ m, w.guildMember p = some m → ∃ m', w'.guildMember p = some m' ∧ m.SameCounters m') ∧
    (w.guildMember p = none → ∀ m', w'.guildMember p = some m' → m' = .new m'.pRank)

omit [DecidableEq γ] in
theorem Grows.refl (w : Guilds γ ι) (p : ι) : w.Grows w p :=
  ⟨fun m hm => ⟨m, hm, rfl⟩, fun hnone m' hm' => by rw [hnone] at hm'; cases hm'⟩

omit [DecidableEq γ] in
theorem Grows.trans (h : w.Grows w' p) (h' : w'.Grows w'' p) : w.Grows w'' p := by
  constructor
  · intro m hm
    obtain ⟨m', hm', hsame⟩ := h.1 m hm
    obtain ⟨m'', hm'', hsame'⟩ := h'.1 m' hm'
    refine ⟨m'', hm'', ?_⟩
    unfold GuildMember.SameCounters at hsame hsame' ⊢
    rw [hsame', hsame]
  · intro hnone m'' hm''
    cases hmid : w'.guildMember p with
    | none => exact h'.2 hmid m'' hm''
    | some m' =>
      obtain ⟨m₂, hm₂, hsame⟩ := h'.1 m' hmid
      rw [hm'', Option.some.injEq] at hm₂
      subst hm₂
      rw [hsame, h.2 hnone m' hmid]
      rfl

omit [DecidableEq γ] in
theorem Grows.carried (h : w.Grows w' p) : w.Carried w' p := by
  intro m' hm'
  cases hm : w.guildMember p with
  | none => exact .inr ⟨rfl, h.2 hm m' hm'⟩
  | some m =>
    obtain ⟨m₂, hm₂, hsame⟩ := h.1 m hm
    rw [hm', Option.some.injEq] at hm₂
    subst hm₂
    exact .inl ⟨m, rfl, hsame⟩

omit [DecidableEq γ] in
/-- A player whose record points to the same guild, and whose entry keeps
its counters. -/
theorem carried_of (hguild : (w'.info p).guild = (w.info p).guild)
    (hentry : ∀ G m', w'.memberOf G p = some m' →
      ∃ m, w.memberOf G p = some m ∧ m.SameCounters m') : w.Carried w' p := by
  intro m' hm'
  rw [guildMember_eq, hguild] at hm'
  obtain ⟨G, hG, hm'⟩ := Option.bind_eq_some_iff.mp hm'
  obtain ⟨m, hm, hsame⟩ := hentry G m' hm'
  refine .inl ⟨m, ?_, hsame⟩
  rw [guildMember_eq, hG]
  exact hm

omit [DecidableEq γ] in
/-- A player whose record and entry are the same. -/
theorem guildMember_congr (hguild : (w'.info p).guild = (w.info p).guild)
    (hentry : ∀ G, w'.memberOf G p = w.memberOf G p) : w'.guildMember p = w.guildMember p := by
  rw [guildMember_eq, guildMember_eq, hguild]
  simp only [hentry]

omit [DecidableEq γ] in
theorem Grows.of_eq (h : w'.guildMember p = w.guildMember p) : w.Grows w' p := by
  constructor
  · intro m hm
    exact ⟨m, by rw [h, hm], rfl⟩
  · intro hnone m' hm'
    rw [h, hnone] at hm'
    cases hm'

/-- Who joins is new, and nobody else notices. -/
theorem grows_join (hw : w.Linked) (hG : w.guild G = some g) {q : ι} {r : Fin 10}
    (hq : (w.info q).guild = none) : w.Grows (w.join G g q r) p := by
  have hinfo : ((w.join G g q r).info p).guild = if p = q then some G else (w.info p).guild := by
    unfold join
    rw [info_setInfo, info_setGuild]
    split <;> rfl
  by_cases hp : p = q
  · subst hp
    rw [if_pos rfl] at hinfo
    constructor
    · intro m hm
      rw [guildMember_eq, hq] at hm
      cases hm
    · intro _ m' hm'
      rw [guildMember_eq, hinfo, Option.bind_some,
        memberOf_join hG (hw.memberOf_none hq G), if_pos ⟨rfl, rfl⟩] at hm'
      cases hm'
      rfl
  · rw [if_neg hp] at hinfo
    refine Grows.of_eq (guildMember_congr hinfo fun G' => ?_)
    rw [memberOf_join hG (hw.memberOf_none hq G), if_neg fun h : G' = G ∧ p = q => hp h.2]

/-- A guild is edited without touching its members. -/
theorem grows_edit (hG : w.guild G = some g) {g' : Guild ι} (hm : g'.members = g.members) :
    w.Grows (w.setGuild G (some g')) p :=
  .of_eq (guildMember_congr rfl fun G' => memberOf_edit hG hm G' p)

/-- A guild without members appears. -/
theorem grows_found (hG : w.guild G = none) (hm : g.members = ∅) :
    w.Grows (w.setGuild G (some g)) p :=
  .of_eq (guildMember_congr rfl fun G' => memberOf_found hG hm G' p)

end Guilds

/-- Every effect carries the counters over. -/
theorem Effect.carried {objmgr : ObjectMgr ι} {Safe : Prop} {w w' : Guilds γ ι}
    (he : Effect objmgr Safe w w') (hw : w.Linked) (p : ι) : w.Carried w' p := by
  have hinfo : ∀ (w : Guilds γ ι) (q : ι) (r : Fin 10),
      ((w.setInfo q { w.info q with guildRank := r }).info p).guild = (w.info p).guild := by
    intro w q r
    rw [Guilds.info_setInfo]
    split
    · rename_i h
      rw [h]
    · rfl
  cases he with
  | found l hG hs => exact (Guilds.grows_found hG (hw.founded hG l).2.2).carried
  | foundBy l hG hq hs =>
    obtain ⟨hlinked, -, hm⟩ := hw.founded hG l
    exact ((Guilds.grows_found hG hm).trans (Guilds.grows_join hlinked (by simp) hq)).carried
  | addRank rank hG hi | editRank rank hG hi | dropRank hG hi h5 hfree => exact (Guilds.grows_edit hG (by rfl)).carried
  | @assign G g q r hG hq hr hm hl =>
    refine Guilds.carried_of ?_ ?_
    · exact hinfo (w.setGuild G _) q r
    · intro G' m' hm'
      rw [Guilds.memberOf_assignRank hG] at hm'
      split at hm'
      · rename_i h
        obtain ⟨rfl, rfl⟩ := h
        obtain ⟨m, hm, rfl⟩ := Option.map_eq_some_iff.mp hm'
        exact ⟨m, hm, rfl⟩
      · exact ⟨m', hm', rfl⟩
  | join hG hq hr hm => exact (Guilds.grows_join hw hG hq).carried
  | @leave G g q hG hq hm =>
    by_cases hp : p = q
    · intro m' hm'
      rw [Guilds.guildMember_eq, Guilds.leave, Guilds.info_setInfo, if_pos hp] at hm'
      cases hm'
    · refine (Guilds.Grows.of_eq (Guilds.guildMember_congr ?_ fun G' => ?_)).carried
      · rw [Guilds.leave, Guilds.info_setInfo, if_neg hp, Guilds.info_setGuild]
      · rw [Guilds.memberOf_leave hG, if_neg fun h : G' = G ∧ p = q => hp h.2]
  | @handOver G g pNew pOld r hG hr hm hnew hold hl hs =>
    refine Guilds.carried_of ?_ ?_
    · unfold Guilds.handOver
      rw [Guilds.info_setGuild, hinfo, hinfo]
    · intro G' m' hm'
      unfold Guilds.handOver at hm'
      rw [Guilds.memberOf_setGuild] at hm'
      split at hm'
      · rename_i h
        subst h
        rw [Guilds.memberOf_eq hG]
        simp only [Option.bind_some, Guild.lookup_setPRank] at hm'
        split at hm'
        · rename_i hp
          subst hp
          split at hm'
          · rename_i hp
            subst hp
            obtain ⟨m₁, hm₁, rfl⟩ := Option.map_eq_some_iff.mp hm'
            obtain ⟨m, hm, rfl⟩ := Option.map_eq_some_iff.mp hm₁
            exact ⟨m, hm, rfl⟩
          · obtain ⟨m, hm, rfl⟩ := Option.map_eq_some_iff.mp hm'
            exact ⟨m, hm, rfl⟩
        · split at hm'
          · rename_i hp
            subst hp
            obtain ⟨m, hm, rfl⟩ := Option.map_eq_some_iff.mp hm'
            exact ⟨m, hm, rfl⟩
          · exact ⟨m', hm', rfl⟩
      · exact ⟨m', hm', rfl⟩
  | @disband G g hG =>
    by_cases hp : p ∈ g.members
    · intro m' hm'
      rw [Guilds.guildMember_eq, Guilds.info_disband, if_pos hp] at hm'
      cases hm'
    · have hne : (w.info p).guild ≠ some G := by
        intro h
        rw [hw.guild, Guilds.memberOf_eq hG, Finmap.lookup_isSome] at h
        exact hp h
      refine (Guilds.Grows.of_eq ?_).carried
      rw [Guilds.guildMember_eq, Guilds.guildMember_eq, Guilds.info_disband, if_neg hp]
      cases hguild : (w.info p).guild with
      | none => rfl
      | some G' =>
        have hG' : G' ≠ G := fun h => hne (by rw [hguild, h])
        rw [Option.bind_some, Option.bind_some, Guilds.memberOf_disband, if_neg hG']

namespace Guilds

variable {objmgr : ObjectMgr ι} {w w' : Guilds γ ι} {G : γ} {g : Guild ι}

/-- A player added to a guild is new there. -/
theorem addGuildMember_grows (hw : w.Linked) (hG : w.guild G = some g) {q : ι} {c : Option ι}
    {F : Int} (hstep : w.addGuildMember G g q c F = some w') (p : ι) :
    w.Grows w' p ∧ w'.Linked := by
  rcases addGuildMember_cases hstep with rfl | ⟨r, hq, hr, hm, rfl⟩
  · exact ⟨.refl w' p, hw⟩
  · exact ⟨grows_join hw hG hq, hw.join hG hq hr⟩

theorem addSigners_grows (hw : w.Linked) (defRank : Fin 10) (signatures : List UInt32)
    (hstep : signatures.foldlM (addSigner objmgr G defRank) w = some w') (p : ι) :
    w.Grows w' p := by
  induction signatures generalizing w with
  | nil =>
    cases hstep
    exact .refl _ p
  | cons signature signatures ih =>
    rw [List.foldlM_cons, Option.bind_eq_bind, Option.bind_eq_some_iff] at hstep
    obtain ⟨w₁, hfirst, hrest⟩ := hstep
    unfold addSigner at hfirst
    cases hp : objmgr.getPlayerInfo signature with
    | none =>
      rw [hp] at hfirst
      cases hfirst
      exact ih hw hrest
    | some q =>
      rw [hp] at hfirst
      obtain ⟨g₁, hG₁, hadd⟩ := Option.bind_eq_some_iff.mp hfirst
      obtain ⟨hgrows, hw₁⟩ := addGuildMember_grows hw hG₁ hadd p
      exact hgrows.trans (ih hw₁ hrest)

/-- Every roster call carries the counters over. -/
theorem call_carried (hw : w.Linked) {call : GuildCall γ ι} (hstep : w.call objmgr call = some w')
    (p : ι) : w.Carried w' p := by
  rcases call_effect False.elim hstep with ⟨G, c, q, rfl⟩ | he
  · obtain ⟨g, w₁, hG, hg, hranks, hm, hadd, hsigners⟩ := createFromCharter_steps hstep
    have hw₀ : (w.setGuild G (some g)).Linked := by
      rw [← hg]
      exact (hw.founded hG c.leaderGuid).1
    obtain ⟨hgrows, hw₁⟩ := addGuildMember_grows hw₀ (by simp) hadd p
    exact (((grows_found hG hm).trans hgrows).trans (addSigners_grows hw₁ _ _ hsigners p)).carried
  · cases he with
    | refl => exact (Grows.refl w p).carried
    | single he => exact he.carried hw p

/-! ## Calls on the bank write one entry -/

/-- The entry of `p` was written to, and nothing else of the rosters. -/
structure Wrote (w w' : Guilds γ ι) (p : ι) (f : GuildMember → GuildMember) : Prop where
  info : ∀ q, (w'.info q).guild = (w.info q).guild ∧ (w'.info q).guildRank = (w.info q).guildRank
  ranks : ∀ G, (w'.guild G).map Guild.ranks = (w.guild G).map Guild.ranks
  member : ∀ G q, w'.memberOf G q = if q = p then (w.memberOf G q).map f else w.memberOf G q

omit [DecidableEq γ] in
theorem memberRank_eq (w : Guilds γ ι) (p : ι) :
    w.memberRank p = (w.info p).guild.bind fun G => (w.memberOf G p).bind fun m =>
      ((w.guild G).map Guild.ranks).bind fun ranks => ranks m.pRank := by
  unfold memberRank guildOf memberOf
  cases (w.info p).guild with
  | none => rfl
  | some G =>
    simp only [Option.bind_some]
    cases w.guild G <;> rfl

namespace Wrote

variable {p : ι} {f : GuildMember → GuildMember}

omit [DecidableEq γ] in
theorem guildMember (h : w.Wrote w' p f) (q : ι) : w'.guildMember q =
    if q = p then (w.guildMember q).map f else w.guildMember q := by
  rw [guildMember_eq, guildMember_eq, (h.info q).1]
  simp only [h.member]
  split
  · cases (w.info q).guild <;> rfl
  · rfl

omit [DecidableEq γ] in
theorem memberRank (h : w.Wrote w' p f) (hf : ∀ m, (f m).pRank = m.pRank) (q : ι) :
    w'.memberRank q = w.memberRank q := by
  rw [memberRank_eq, memberRank_eq, (h.info q).1]
  simp only [h.member, h.ranks]
  split
  · cases (w.info q).guild with
    | none => rfl
    | some G =>
      simp only [Option.bind_some]
      cases w.memberOf G q with
      | none => rfl
      | some m => simp only [Option.map_some, Option.bind_some, hf]
  · rfl

omit [DecidableEq γ] in
theorem linked (h : w.Wrote w' p f) (hf : ∀ m, (f m).pRank = m.pRank) (hw : w.Linked) :
    w'.Linked where
  ranked := by
    intro G g' hG'
    have hranks := h.ranks G
    rw [hG', Option.map_some] at hranks
    obtain ⟨g, hG, heq⟩ := Option.map_eq_some_iff.mp hranks.symm
    have hold := hw.ranked G g hG
    refine ⟨by rw [← heq]; exact hold.contiguous, ?_⟩
    intro q m hm
    have hentry := h.member G q
    rw [memberOf_eq hG', memberOf_eq hG, hm] at hentry
    rw [← heq]
    split at hentry
    · obtain ⟨m₀, hm₀, rfl⟩ := Option.map_eq_some_iff.mp hentry.symm
      rw [hf]
      exact hold.existing q m₀ hm₀
    · exact hold.existing q m hentry.symm
  guild := by
    intro q G
    rw [(h.info q).1, hw.guild, h.member]
    split
    · rw [Option.isSome_map]
    · rfl
  rank := by
    intro q G m hm
    rw [(h.info q).2]
    rw [h.member] at hm
    split at hm
    · obtain ⟨m₀, hm₀, rfl⟩ := Option.map_eq_some_iff.mp hm
      rw [hf]
      exact hw.rank q G m₀ hm₀
    · exact hw.rank q G m hm

end Wrote

/-- The entry of a member is written to, and the bank of his guild. -/
theorem wrote_updateMember (hw : w.Linked) (hG : w.guild G = some g) {p : ι}
    (hp : (w.info p).guild = some G) (f : GuildMember → GuildMember) (b : UInt32) :
    w.Wrote (w.setGuild G (some { g.updateMember p f with bankBalance := b })) p f where
  info := fun q => ⟨rfl, rfl⟩
  ranks := by
    intro G'
    rw [guild_setGuild]
    split
    · rename_i h
      rw [h, hG, Option.map_some, Option.map_some, Guild.ranks_updateMember]
    · rfl
  member := by
    intro G' q
    rw [memberOf_setGuild, Option.bind_some]
    by_cases hG' : G' = G
    · subst hG'
      rw [if_pos rfl, memberOf_eq hG, Guild.lookup_updateMember]
      split
      · rename_i h
        rw [h]
      · rfl
    · rw [if_neg hG']
      split
      · rename_i h
        subst h
        cases hm : w.memberOf G' q with
        | none => rfl
        | some m => exact absurd (hw.eq_of_memberOf hp hm) hG'
      · rfl

omit [DecidableEq γ] [DecidableEq ι] in
theorem guildOf_eq_some {p : ι} (h : w.guildOf p = some (G, g)) :
    (w.info p).guild = some G ∧ w.guild G = some g := by
  obtain ⟨G', hG', hmap⟩ := Option.bind_eq_some_iff.mp h
  obtain ⟨g', hg', he⟩ := Option.map_eq_some_iff.mp hmap
  cases he
  exact ⟨hG', hg'⟩

/-- What a gold call writes back. -/
theorem wrote_setBank (hw : w.Linked) {p : ι} (h : w.guildOf p = some (G, g))
    (b : HearthStone.Guild.GuildBank ι) :
    w.Wrote (w.setBank G g p b) p fun m => Guild.setMemberView m (b.clients p).guildMember := by
  obtain ⟨hp, hG⟩ := guildOf_eq_some h
  have hwrote := wrote_updateMember hw hG hp
    (fun m => Guild.setMemberView m (b.clients p).guildMember) b.bankBalance
  refine ⟨?_, hwrote.ranks, hwrote.member⟩
  intro q
  unfold setBank
  rw [info_setInfo, info_setGuild]
  split
  · rename_i h
    rw [h]
    exact ⟨rfl, rfl⟩
  · exact ⟨rfl, rfl⟩

omit [DecidableEq γ] in
/-- The member and the rank that the bank of his guild sees. -/
theorem bank_client (hw : w.Linked) {p : ι} (h : w.guildOf p = some (G, g)) :
    ∃ m rank, w.guildMember p = some m ∧ w.memberRank p = some rank ∧
      ((w.bank g).clients p).guildMember = some (g.memberView m) ∧
      (g.memberView m).pRank.iGoldLimitPerDay = rank.iGoldLimitPerDay ∧
      (((w.bank g).clients p).guildRank.iId = 0 ↔ m.pRank = masterRank) := by
  obtain ⟨hp, hG⟩ := guildOf_eq_some h
  have hentry := (hw.guild p G).mp hp
  rw [memberOf_eq hG, Option.isSome_iff_exists] at hentry
  obtain ⟨m, hm⟩ := hentry
  obtain ⟨rank, hrank⟩ := Option.isSome_iff_exists.mp ((hw.ranked G g hG).existing p m hm)
  refine ⟨m, rank, ?_, ?_, ?_, ?_, ?_⟩
  · rw [guildMember, h, Option.bind_some, hm]
  · rw [memberRank, h, Option.bind_some, hm, Option.bind_some, hrank]
  · unfold bank
    dsimp only
    rw [hm, Option.map_some]
  · unfold Guild.memberView Guild.rankView
    rw [hrank, Option.elim_some]
  · have hr := hw.rank p G m (by rw [memberOf_eq hG, hm])
    unfold bank Guild.rankView
    dsimp only
    rw [hr]
    constructor
    · intro h0
      have hval := congrArg UInt32.toNat h0
      rw [UInt32.toNat_ofNat_of_lt' (m.pRank.isLt.trans (by decide))] at hval
      exact Fin.ext hval
    · intro hm0
      rw [hm0]
      rfl

end Guilds

/-- What `WithdrawMoney` does to the member's counters. -/
theorem clients_withdrawMoney (b : HearthStone.Guild.GuildBank ι) (p : ι) (uAmount : UInt32)
    (now : Nat) : ((b.withdrawMoney p uAmount now).1.clients p).guildMember =
      if b.withdrawRefusal p uAmount now = none then
        (b.clients p).guildMember.map fun v => v.onMoneyWithdraw now uAmount
      else (b.clients p).guildMember := by
  unfold HearthStone.Guild.GuildBank.withdrawMoney HearthStone.Guild.GuildBank.setClient
  cases b.withdrawRefusal p uAmount now with
  | some message => rfl
  | none =>
    dsimp only
    rw [if_pos rfl, Function.update_self]

omit [DecidableEq ι] in
/-- What `WithdrawMoney` has checked before it pays. -/
theorem withdrawRefusal_none {b : HearthStone.Guild.GuildBank ι} {p : ι} {uAmount : UInt32}
    {now : Nat} {v : HearthStone.Guild.GuildMember} (hv : (b.clients p).guildMember = some v)
    (h : b.withdrawRefusal p uAmount now = none) :
    (b.clients p).guildRank.iId = 0 ∨ (v.pRank.iGoldLimitPerDay ≠ 0 ∧
      (0 < v.pRank.iGoldLimitPerDay → uAmount ≤ v.calculateAvailableAmount now)) := by
  unfold HearthStone.Guild.GuildBank.withdrawRefusal at h
  rw [hv] at h
  dsimp only at h
  split at h
  · cases h
  · split at h
    · cases h
    · split at h
      · split at h
        · cases h
        · rename_i hover
          split at h
          · cases h
          · rename_i hzero
            refine .inr ⟨hzero, ?_⟩
            intro hpos
            exact UInt32.not_lt.mp fun hlt => hover ⟨hpos, hlt⟩
      · rename_i hmaster
        exact .inl (not_not.mp hmaster)

/-! ## Charging the counters -/

namespace GuildMember

variable (m : GuildMember) (rank : GuildRank) (now : Nat) (tab : Fin 6) (g : Guild ι)

theorem calculateAllowedItemWithdraws_eq : m.calculateAllowedItemWithdraws rank now tab =
    (m.itemQuota tab).remaining HearthStone.Guild.timeDay (rank.iTabPermissions tab).iStacksPerDay
      now := rfl

/-- `OnItemWithdraw` charges the counter of the tab. -/
theorem itemQuota_onItemWithdraw (tab' : Fin 6) : (m.onItemWithdraw rank now tab).itemQuota tab' =
    if tab' = tab then
      (m.itemQuota tab).charge HearthStone.Guild.timeDay (rank.iTabPermissions tab).iStacksPerDay
        now 1
    else m.itemQuota tab' := by
  unfold onItemWithdraw Quota.charge
  by_cases hlimit : (rank.iTabPermissions tab).iStacksPerDay ≤ 0
  · rw [if_pos hlimit, if_pos hlimit]
    split
    · rename_i h
      rw [h]
    · rfl
  · rw [if_neg hlimit, if_neg hlimit]
    by_cases hover : (UInt32.ofNat now - m.uLastItemWithdrawReset tab).toNat ≥
        HearthStone.Guild.timeDay
    · have hquota : (m.itemQuota tab).Over32 HearthStone.Guild.timeDay now := hover
      rw [if_pos hover, if_pos hquota]
      unfold itemQuota
      by_cases ht : tab' = tab
      · subst ht
        simp
      · simp [ht]
    · have hquota : ¬ (m.itemQuota tab).Over32 HearthStone.Guild.timeDay now := hover
      rw [if_neg hover, if_neg hquota]
      unfold itemQuota
      by_cases ht : tab' = tab
      · subst ht
        simp
      · simp [ht]

theorem goldQuota_onItemWithdraw : (m.onItemWithdraw rank now tab).goldQuota = m.goldQuota := by
  unfold onItemWithdraw
  split
  · rfl
  · split <;> rfl

theorem goldQuota_charged : (m.charged rank now tab).goldQuota = m.goldQuota := by
  unfold charged
  split
  · exact m.goldQuota_onItemWithdraw rank now tab
  · rfl

theorem itemQuota_charged (tab' : Fin 6) (h : tab' ≠ tab) :
    (m.charged rank now tab).itemQuota tab' = m.itemQuota tab' := by
  unfold charged
  split
  · rw [itemQuota_onItemWithdraw, if_neg h]
  · rfl

theorem pRank_charged : (m.charged rank now tab).pRank = m.pRank := by
  unfold charged onItemWithdraw
  split
  · split
    · rfl
    · split <;> rfl
  · rfl

omit [DecidableEq ι] in
/-- What remains of the gold of a day. -/
theorem calculateAvailableAmount_eq : (g.memberView m).calculateAvailableAmount now =
    m.goldQuota.remaining HearthStone.Guild.timeDay (g.rankView m.pRank).iGoldLimitPerDay now :=
  rfl

omit [DecidableEq ι] in
/-- `OnMoneyWithdraw` charges the gold counter. -/
theorem goldQuota_onMoneyWithdraw (amt : UInt32) :
    (Guild.setMemberView m (some ((g.memberView m).onMoneyWithdraw now amt))).goldQuota =
      m.goldQuota.charge HearthStone.Guild.timeDay (g.rankView m.pRank).iGoldLimitPerDay now
        amt := by
  unfold HearthStone.Guild.GuildMember.onMoneyWithdraw Quota.charge
  by_cases hlimit : (g.rankView m.pRank).iGoldLimitPerDay ≤ 0
  · have hview : (g.memberView m).pRank.iGoldLimitPerDay ≤ 0 := hlimit
    rw [if_pos hlimit, if_pos hview]
    rfl
  · have hview : ¬ (g.memberView m).pRank.iGoldLimitPerDay ≤ 0 := hlimit
    rw [if_neg hlimit, if_neg hview]
    by_cases hover : m.goldQuota.Over32 HearthStone.Guild.timeDay now
    · have hclock : (UInt32.ofNat now - (g.memberView m).uLastWithdrawReset).toNat ≥
          HearthStone.Guild.timeDay := hover
      rw [if_pos hover, if_pos hclock]
      rfl
    · have hclock : ¬ (UInt32.ofNat now - (g.memberView m).uLastWithdrawReset).toNat ≥
          HearthStone.Guild.timeDay := hover
      rw [if_neg hover, if_neg hclock]
      rfl

end GuildMember

/-! ## The books -/

/-- What a member has taken out since the last resets, and under which limits. -/
structure Ledger where
  gold : Period
  items : Fin 6 → Period

def Ledger.new : Ledger := ⟨.new, fun _ => .new⟩

/-- The books of a member after a step that took this much out. -/
def Ledger.next (l : Ledger) (before after : Option GuildMember) (gold : Nat)
    (goldLimit : WithTop ℕ) (items : Fin 6 → Nat) (itemLimit : Fin 6 → WithTop ℕ) : Ledger :=
  match after with
  | none => .new
  | some m =>
    { gold := l.gold.next (before.map (·.goldQuota.lastReset)) m.goldQuota.lastReset gold goldLimit
      items := fun tab => (l.items tab).next (before.map fun m => (m.itemQuota tab).lastReset)
        (m.itemQuota tab).lastReset (items tab) (itemLimit tab) }

namespace Guilds

variable (w : Guilds γ ι) (p : ι) (tab : Fin 6)

/-- The daily gold limit in force for a player. A guild master has none. -/
def goldLimit : WithTop ℕ :=
  match w.guildMember p, w.memberRank p with
  | some m, some rank => if m.pRank = masterRank then ⊤ else limitOf rank.iGoldLimitPerDay
  | _, _ => 0

/-- The daily limit of items from a tab in force for a player. -/
def itemLimit : WithTop ℕ :=
  (w.memberRank p).elim 0 fun rank => limitOf (rank.iTabPermissions tab).iStacksPerDay

end Guilds

omit [DecidableEq γ] in
theorem Guilds.goldLimit_eq {w : Guilds γ ι} {p : ι} {m : GuildMember} {rank : GuildRank}
    (hm : w.guildMember p = some m) (hr : w.memberRank p = some rank) :
    w.goldLimit p = if m.pRank = masterRank then ⊤ else limitOf rank.iGoldLimitPerDay := by
  unfold goldLimit
  rw [hm, hr]

namespace VaultCall

variable (w : Guilds γ ι) (p : ι)

/-- The gold a player takes out by a call. -/
def goldTaken : VaultCall γ ι → Nat
  | withdrawMoney q uAmount now =>
    if p = q ∧ w.withdrawRefusal q uAmount now = none then uAmount.toNat else 0
  | _ => 0

/-- The items a player takes out of a tab by a call. -/
def itemsTaken (call : VaultCall γ ι) (tab : Fin 6) : Nat :=
  match call with
  | takeItem q tab' now =>
    if p = q ∧ tab = tab' ∧ w.takeRefusal q tab' now = none then 1 else 0
  | _ => 0

end VaultCall

/-- The guilds, and the books of all players. -/
structure Audited (γ ι : Type*) where
  guilds : Guilds γ ι
  ledger : ι → Ledger

/-- The step to `w` by a call is entered in the books. -/
def Audited.enter (s : Audited γ ι) (call : VaultCall γ ι) (w : Guilds γ ι) : Audited γ ι where
  guilds := w
  ledger p := (s.ledger p).next (s.guilds.guildMember p) (w.guildMember p)
    (call.goldTaken s.guilds p) (w.goldLimit p) (call.itemsTaken s.guilds p) (w.itemLimit p)

/-- A call, entered in the books. -/
def Audited.vault (objmgr : ObjectMgr ι) (s : Audited γ ι) (call : VaultCall γ ι) :
    Option (Audited γ ι) :=
  (s.guilds.vault objmgr call).map (s.enter call)

/-- Under a limit in force, a withdrawal finds the counter within the
limit, or the period over; and one of gold is the first of the period, or
of a single copper. -/
def VaultCall.Counted (w : Guilds γ ι) : VaultCall γ ι → Prop
  | withdrawMoney p uAmount now =>
    ∀ m ∈ w.guildMember p, ∀ rank ∈ w.memberRank p,
      w.withdrawRefusal p uAmount now = none → m.pRank ≠ masterRank → 0 < rank.iGoldLimitPerDay →
        now < 2 ^ 32 ∧
        (m.goldQuota.Over HearthStone.Guild.timeDay now ∨
          m.uWithdrawlsSinceLastReset ≤ rank.iGoldLimitPerDay.toUInt32) ∧
        (m.goldQuota.Over32 HearthStone.Guild.timeDay now ∨ uAmount = 1)
  | takeItem p tab now =>
    ∀ m ∈ w.guildMember p, ∀ rank ∈ w.memberRank p,
      w.takeRefusal p tab now = none → 0 < (rank.iTabPermissions tab).iStacksPerDay →
        now < 2 ^ 32 ∧
        ((m.itemQuota tab).Over HearthStone.Guild.timeDay now ∨
          m.uItemWithdrawlsSinceLastReset tab ≤ (rank.iTabPermissions tab).iStacksPerDay.toUInt32)
  | _ => True

/-! ## The counters cover the books -/

/-- The counters of a member account for what he has taken. -/
def Ledger.Sound (l : Ledger) (m : GuildMember) : Prop :=
  Covers m.goldQuota.used l.gold ∧ ∀ tab, Covers (m.itemQuota tab).used (l.items tab)

namespace Ledger.Sound

variable {l : Ledger} {m m' : GuildMember} {goldLimit : WithTop ℕ} {itemLimit : Fin 6 → WithTop ℕ}

theorem carried (h : l.Sound m) (hsame : m.SameCounters m') :
    (l.next (some m) (some m') 0 goldLimit (fun _ => 0) itemLimit).Sound m' := by
  rw [hsame]
  exact ⟨h.1.idle _ _, fun tab => (h.2 tab).idle _ _⟩

/-- The books after a step, counter by counter. -/
theorem next {gold : Nat} {items : Fin 6 → Nat}
    (hgold : Covers m'.goldQuota.used
      (l.gold.next (some m.goldQuota.lastReset) m'.goldQuota.lastReset gold goldLimit))
    (hitems : ∀ tab, Covers (m'.itemQuota tab).used ((l.items tab).next
      (some (m.itemQuota tab).lastReset) (m'.itemQuota tab).lastReset (items tab)
      (itemLimit tab))) :
    (l.next (some m) (some m') gold goldLimit items itemLimit).Sound m' :=
  ⟨hgold, hitems⟩

theorem joined : (l.next none (some m') 0 goldLimit (fun _ => 0) itemLimit).Sound m' :=
  ⟨.start _ _, fun _ => .start _ _⟩

end Ledger.Sound

/-- An accepted withdrawal of gold keeps the gold counter covering. -/
theorem covers_withdraw {m : GuildMember} {rank : GuildRank} {p : Period} {uAmount : UInt32}
    {now : Nat} (h : Covers m.goldQuota.used p)
    (hpaid : m.pRank = masterRank ∨ (rank.iGoldLimitPerDay ≠ 0 ∧
      (0 < rank.iGoldLimitPerDay →
        uAmount ≤ m.goldQuota.remaining HearthStone.Guild.timeDay rank.iGoldLimitPerDay now)))
    (hok : m.pRank ≠ masterRank → 0 < rank.iGoldLimitPerDay →
      now < 2 ^ 32 ∧ (m.goldQuota.Over HearthStone.Guild.timeDay now ∨
        m.uWithdrawlsSinceLastReset ≤ rank.iGoldLimitPerDay.toUInt32) ∧
      (m.goldQuota.Over32 HearthStone.Guild.timeDay now ∨ uAmount = 1)) :
    Covers (m.goldQuota.charge HearthStone.Guild.timeDay rank.iGoldLimitPerDay now uAmount).used
      (p.next (some m.goldQuota.lastReset)
        (m.goldQuota.charge HearthStone.Guild.timeDay rank.iGoldLimitPerDay now uAmount).lastReset
        uAmount.toNat
        (if m.pRank = masterRank then ⊤ else limitOf rank.iGoldLimitPerDay)) := by
  by_cases hmaster : m.pRank = masterRank
  · rw [if_pos hmaster]
    exact .unlimited _ _ _
  · rw [if_neg hmaster]
    obtain ⟨hzero, hle⟩ := hpaid.resolve_left hmaster
    by_cases hpos : 0 < rank.iGoldLimitPerDay
    · obtain ⟨hnow, hover, hone⟩ := hok hmaster hpos
      exact h.charge hpos hnow (hle hpos) hover hone (by decide)
    · rw [limitOf_neg (Int32.lt_of_le_of_ne (Int32.not_lt.mp hpos) hzero)]
      exact .unlimited _ _ _

/-- What has been checked before an item leaves a tab. -/
theorem GuildMember.takeRefusal_none {m : GuildMember} {rank : GuildRank} {now : Nat}
    {tab : Fin 6} (h : m.takeRefusal rank now tab = none) :
    (rank.iTabPermissions tab).iStacksPerDay ≠ 0 ∧
      (0 < (rank.iTabPermissions tab).iStacksPerDay →
        m.calculateAllowedItemWithdraws rank now tab ≠ 0) := by
  unfold GuildMember.takeRefusal at h
  split at h
  · cases h
  · split at h
    · cases h
    · rename_i hzero
      split at h
      · cases h
      · rename_i hnone
        exact ⟨hzero, fun hpos hz => hnone ⟨hpos, hz⟩⟩

/-- An accepted item keeps the counter of its tab covering. -/
theorem covers_take {m : GuildMember} {rank : GuildRank} {p : Period} {now : Nat} {tab : Fin 6}
    (h : Covers (m.itemQuota tab).used p) (hr : m.takeRefusal rank now tab = none)
    (hok : 0 < (rank.iTabPermissions tab).iStacksPerDay → now < 2 ^ 32 ∧
      ((m.itemQuota tab).Over HearthStone.Guild.timeDay now ∨
        m.uItemWithdrawlsSinceLastReset tab ≤
          (rank.iTabPermissions tab).iStacksPerDay.toUInt32)) :
    Covers ((m.charged rank now tab).itemQuota tab).used
      (p.next (some (m.itemQuota tab).lastReset) ((m.charged rank now tab).itemQuota tab).lastReset
        1 (limitOf (rank.iTabPermissions tab).iStacksPerDay)) := by
  obtain ⟨hzero, hleft⟩ := GuildMember.takeRefusal_none hr
  unfold GuildMember.charged
  by_cases hpos : 0 < (rank.iTabPermissions tab).iStacksPerDay
  · rw [if_pos hpos, GuildMember.itemQuota_onItemWithdraw, if_pos rfl]
    obtain ⟨hnow, hover⟩ := hok hpos
    refine h.charge hpos hnow ?_ hover (.inr rfl) (by decide)
    have hne := hleft hpos
    rw [GuildMember.calculateAllowedItemWithdraws_eq] at hne
    rw [UInt32.le_iff_toNat_le]
    have hpos' : 0 < UInt32.toNat _ := UInt32.pos_iff_ne_zero.mpr hne
    exact hpos'
  · rw [limitOf_neg (Int32.lt_of_le_of_ne (Int32.not_lt.mp hpos) hzero)]
    exact .unlimited _ _ _

/-- The counters of all members account for what they have taken. -/
structure Audited.Sound (s : Audited γ ι) : Prop where
  linked : s.guilds.Linked
  covers : ∀ p m, s.guilds.guildMember p = some m → (s.ledger p).Sound m
  outside : ∀ p, s.guilds.guildMember p = none → s.ledger p = .new

namespace Audited.Sound

variable {objmgr : ObjectMgr ι} {s t : Audited γ ι} {w : Guilds γ ι} {call : VaultCall γ ι}

omit [DecidableEq γ] in
/-- The books after a step, given them member by member. -/
theorem enter (hw : w.Linked)
    (hcovers : ∀ p m, w.guildMember p = some m →
      ((s.ledger p).next (s.guilds.guildMember p) (some m) (call.goldTaken s.guilds p)
        (w.goldLimit p) (call.itemsTaken s.guilds p) (w.itemLimit p)).Sound m) :
    (s.enter call w).Sound where
  linked := hw
  covers := by
    intro p m hm
    change w.guildMember p = some m at hm
    unfold Audited.enter
    dsimp only
    rw [hm]
    exact hcovers p m hm
  outside := by
    intro p hp
    change w.guildMember p = none at hp
    unfold Audited.enter
    dsimp only
    rw [hp]
    rfl

theorem roster (h : s.Sound) {call : GuildCall γ ι} (hstep : s.guilds.call objmgr call = some w) :
    (s.enter (.roster call) w).Sound := by
  have he : Relation.ReflTransGen (Effect objmgr False) s.guilds w :=
    Guilds.call_effects False.elim hstep
  refine enter (h.linked.effects he) ?_
  intro p m' hm'
  rcases Guilds.call_carried h.linked hstep p m' hm' with ⟨m, hm, hsame⟩ | ⟨hnone, -⟩
  · rw [hm]
    exact (h.covers p m hm).carried hsame
  · rw [hnone]
    exact .joined

omit [DecidableEq γ] in
/-- One entry was written to; the books of the others see nothing. -/
theorem wrote (h : s.Sound) {p : ι} {f : GuildMember → GuildMember}
    (hwrote : s.guilds.Wrote w p f) (hf : ∀ m, (f m).pRank = m.pRank)
    (hp : ∀ m, s.guilds.guildMember p = some m →
      ((s.ledger p).next (some m) (some (f m)) (call.goldTaken s.guilds p) (w.goldLimit p)
        (call.itemsTaken s.guilds p) (w.itemLimit p)).Sound (f m))
    (hq : ∀ q, q ≠ p → call.goldTaken s.guilds q = 0 ∧ call.itemsTaken s.guilds q = fun _ => 0) :
    (s.enter call w).Sound := by
  refine enter (hwrote.linked hf h.linked) ?_
  intro q m' hm'
  rw [hwrote.guildMember] at hm'
  split at hm'
  · rename_i heq
    subst heq
    obtain ⟨m, hm, rfl⟩ := Option.map_eq_some_iff.mp hm'
    rw [hm]
    exact hp m hm
  · rename_i hne
    rw [(hq q hne).1, (hq q hne).2, hm']
    exact (h.covers q m' hm').carried rfl

omit [DecidableEq γ] in
/-- Nothing happened. -/
theorem idle (h : s.Sound)
    (hq : ∀ q, call.goldTaken s.guilds q = 0 ∧ call.itemsTaken s.guilds q = fun _ => 0) :
    (s.enter call s.guilds).Sound := by
  refine enter h.linked ?_
  intro q m hm
  rw [(hq q).1, (hq q).2, hm]
  exact (h.covers q m hm).carried rfl

theorem depositMoney (h : s.Sound) (p : ι) (uAmount : UInt32) :
    (s.enter (.depositMoney p uAmount) (s.guilds.depositMoney p uAmount)).Sound := by
  unfold Guilds.depositMoney
  cases hp : s.guilds.guildOf p with
  | none => exact h.idle fun q => ⟨rfl, rfl⟩
  | some e =>
    obtain ⟨G, g⟩ := e
    refine h.wrote (Guilds.wrote_setBank h.linked hp _) (fun m => rfl) ?_ fun q _ => ⟨rfl, rfl⟩
    intro m hm
    obtain ⟨m₁, -, hm₁, -, hclient, -⟩ := Guilds.bank_client h.linked hp
    rw [hm, Option.some.injEq] at hm₁
    subst hm₁
    have hsame : (((s.guilds.bank g).depositMoney p uAmount).clients p).guildMember =
        some (g.memberView m) := by
      rw [← hclient]
      unfold HearthStone.Guild.GuildBank.depositMoney HearthStone.Guild.GuildBank.setClient
      split
      · rfl
      · split
        · rfl
        · dsimp only
          rw [Function.update_self]
    rw [hsame]
    exact (h.covers p m hm).carried rfl

theorem withdrawMoney (h : s.Sound) (p : ι) (uAmount : UInt32) (now : Nat)
    (hok : VaultCall.Counted s.guilds (.withdrawMoney p uAmount now)) :
    (s.enter (.withdrawMoney p uAmount now) (s.guilds.withdrawMoney p uAmount now).1).Sound := by
  have htaken : ∀ q, VaultCall.goldTaken s.guilds q (.withdrawMoney p uAmount now) =
      if q = p ∧ s.guilds.withdrawRefusal p uAmount now = none then uAmount.toNat else 0 :=
    fun _ => rfl
  have hitems : ∀ q, VaultCall.itemsTaken s.guilds q (.withdrawMoney p uAmount now) =
      fun _ => 0 := fun _ => rfl
  unfold Guilds.withdrawMoney
  cases hp : s.guilds.guildOf p with
  | none =>
    refine h.idle fun q => ⟨?_, hitems q⟩
    rw [htaken, Guilds.withdrawRefusal, hp, if_neg]
    simp
  | some e =>
    obtain ⟨G, g⟩ := e
    have hwrote := Guilds.wrote_setBank h.linked hp ((s.guilds.bank g).withdrawMoney p uAmount now).1
    refine h.wrote hwrote (fun m => rfl) ?_ fun q hq => ⟨?_, hitems q⟩
    · intro m hm
      obtain ⟨m₁, rank, hm₁, hrank, hclient, hlimit, hid⟩ := Guilds.bank_client h.linked hp
      rw [hm, Option.some.injEq] at hm₁
      subst hm₁
      have hrefusal : s.guilds.withdrawRefusal p uAmount now =
          (s.guilds.bank g).withdrawRefusal p uAmount now := by
        rw [Guilds.withdrawRefusal, hp]
      have hentry := clients_withdrawMoney (s.guilds.bank g) p uAmount now
      rw [htaken, hitems, hrefusal]
      cases hr : (s.guilds.bank g).withdrawRefusal p uAmount now with
      | some message =>
        -- refused: the books and the entry stay
        rw [hr, if_neg (by simp), hclient] at hentry
        rw [if_neg (by simp), hentry]
        exact (h.covers p m hm).carried rfl
      | none =>
        rw [hr, if_pos rfl, hclient, Option.map_some] at hentry
        have hlim : (s.guilds.setBank G g p ((s.guilds.bank g).withdrawMoney p uAmount now).1).goldLimit
            p = if m.pRank = masterRank then ⊤ else limitOf rank.iGoldLimitPerDay := by
          have hm' := hwrote.guildMember p
          rw [if_pos rfl, hm, Option.map_some] at hm'
          have hlim := Guilds.goldLimit_eq hm' (by rw [hwrote.memberRank fun m => rfl, hrank])
          exact hlim
        have hpaid := withdrawRefusal_none hclient hr
        rw [hid, hlimit, GuildMember.calculateAvailableAmount_eq] at hpaid
        have hview : (g.rankView m.pRank).iGoldLimitPerDay = rank.iGoldLimitPerDay := hlimit
        rw [hview] at hpaid
        rw [if_pos ⟨rfl, rfl⟩, hlim, hentry]
        refine .next ?_ fun tab => ((h.covers p m hm).2 tab).idle _ _
        rw [GuildMember.goldQuota_onMoneyWithdraw, hview]
        exact covers_withdraw (h.covers p m hm).1 hpaid (hok m hm rank hrank (hrefusal.trans hr))
    · rw [htaken, if_neg fun hc => hq hc.1]

theorem takeItem (h : s.Sound) (p : ι) (tab : Fin 6) (now : Nat)
    (hok : VaultCall.Counted s.guilds (.takeItem p tab now)) :
    (s.enter (.takeItem p tab now) (s.guilds.takeItem p tab now).1).Sound := by
  have hgold : ∀ q, VaultCall.goldTaken s.guilds q (.takeItem p tab now) = 0 := fun _ => rfl
  have htaken : ∀ q tab', VaultCall.itemsTaken s.guilds q (.takeItem p tab now) tab' =
      if q = p ∧ tab' = tab ∧ s.guilds.takeRefusal p tab now = none then 1 else 0 :=
    fun _ _ => rfl
  unfold Guilds.takeItem
  cases hr : s.guilds.takeRefusal p tab now with
  | some message =>
    refine h.idle fun q => ⟨hgold q, funext fun tab' => ?_⟩
    rw [htaken, hr, if_neg (by simp)]
  | none =>
    cases hp : s.guilds.guildOf p with
    | none =>
      rw [Guilds.takeRefusal, Guilds.guildMember, hp] at hr
      cases hr
    | some e =>
      obtain ⟨G, g⟩ := e
      obtain ⟨m, rank, hm, hrank, -⟩ := Guilds.bank_client h.linked hp
      rw [hrank]
      obtain ⟨hguild, hG⟩ := Guilds.guildOf_eq_some hp
      have hwrote := Guilds.wrote_updateMember h.linked hG hguild
        (fun m => m.charged rank now tab) (g.updateMember p fun m => m.charged rank now tab).bankBalance
      refine h.wrote hwrote (fun m => m.pRank_charged rank now tab) ?_ fun q hq => ⟨hgold q, ?_⟩
      · intro m₁ hm₁
        rw [hm, Option.some.injEq] at hm₁
        subst hm₁
        rw [Guilds.takeRefusal, hm, hrank] at hr
        refine .next ?_ fun tab' => ?_
        · rw [GuildMember.goldQuota_charged]
          exact (h.covers p m hm).1.idle _ _
        · rw [htaken, Guilds.itemLimit,
            hwrote.memberRank fun m => m.pRank_charged rank now tab, hrank, Option.elim_some]
          by_cases ht : tab' = tab
          · subst ht
            rw [if_pos ⟨rfl, rfl, by rw [Guilds.takeRefusal, hm, hrank]; exact hr⟩]
            exact covers_take ((h.covers p m hm).2 tab') hr
              (hok m hm rank hrank (by rw [Guilds.takeRefusal, hm, hrank]; exact hr))
          · rw [if_neg fun hc => ht hc.2.1, GuildMember.itemQuota_charged _ _ _ _ _ ht]
            exact ((h.covers p m hm).2 tab').idle _ _
      · funext tab'
        rw [htaken, if_neg fun hc => hq hc.1]

/-- A counted call keeps the books sound. -/
theorem vault (h : s.Sound) (hok : call.Counted s.guilds)
    (hstep : s.vault objmgr call = some t) : t.Sound := by
  obtain ⟨w, hw, rfl⟩ := Option.map_eq_some_iff.mp hstep
  cases call with
  | roster call => exact h.roster hw
  | depositMoney p uAmount =>
    obtain rfl := Option.some.inj hw
    exact h.depositMoney p uAmount
  | withdrawMoney p uAmount now =>
    obtain rfl := Option.some.inj hw
    exact h.withdrawMoney p uAmount now hok
  | takeItem p tab now =>
    obtain rfl := Option.some.inj hw
    exact h.takeItem p tab now hok

omit [DecidableEq γ] in
/-- Sound books are within the limits. -/
theorem within (h : s.Sound) (p : ι) :
    ((s.ledger p).gold.withdrawn : WithTop ℕ) ≤ (s.ledger p).gold.limit ∧
      ∀ tab, (((s.ledger p).items tab).withdrawn : WithTop ℕ) ≤ ((s.ledger p).items tab).limit := by
  cases hm : s.guilds.guildMember p with
  | none =>
    rw [h.outside p hm]
    exact ⟨le_refl _, fun _ => le_refl _⟩
  | some m => exact ⟨(h.covers p m hm).1.within, fun tab => ((h.covers p m hm).2 tab).within⟩

end Audited.Sound

/-! ## Runs -/

/-- No guild yet, and empty books. -/
def Audited.empty (coinage : ι → UInt32) : Audited γ ι := ⟨.empty coinage, fun _ => .new⟩

/-- Who only makes counted withdrawals stays within the limits in force:
the gold of a reset period is at most its largest daily limit, and so is
the number of items from a tab. An allowance is at most its limit just
when there is no limit, or a day has passed, or the counter has not
passed the limit. -/
theorem daily_limits_of_counted (objmgr : ObjectMgr ι) (coinage : ι → UInt32)
    (calls : List (VaultCall γ ι)) (s : Audited γ ι) :
    (Run (Guarded (fun s call => VaultCall.Counted s.guilds call)
        (PartialStep (Audited.vault objmgr))) (.empty coinage) calls s →
      ∀ p, ((s.ledger p).gold.withdrawn : WithTop ℕ) ≤ (s.ledger p).gold.limit ∧
        ∀ tab, (((s.ledger p).items tab).withdrawn : WithTop ℕ) ≤
          ((s.ledger p).items tab).limit) ∧
    (∀ (m : HearthStone.Guild.GuildMember) (now : Nat),
      ((m.calculateAvailableAmount now).toNat : WithTop ℕ) ≤ limitOf m.pRank.iGoldLimitPerDay ↔
        m.pRank.iGoldLimitPerDay ≤ 0 ∨
        (now : Int) - m.uLastWithdrawReset.toNat ≥ HearthStone.Guild.timeDay ∨
        m.uWithdrawlsSinceLastReset ≤ m.pRank.iGoldLimitPerDay.toUInt32) ∧
    (∀ (m : GuildMember) (rank : GuildRank) (now : Nat) (tab : Fin 6),
      ((m.calculateAllowedItemWithdraws rank now tab).toNat : WithTop ℕ) ≤
          limitOf (rank.iTabPermissions tab).iStacksPerDay ↔
        (rank.iTabPermissions tab).iStacksPerDay ≤ 0 ∨
        (now : Int) - (m.uLastItemWithdrawReset tab).toNat ≥ HearthStone.Guild.timeDay ∨
        m.uItemWithdrawlsSinceLastReset tab ≤
          (rank.iTabPermissions tab).iStacksPerDay.toUInt32) := by
  refine ⟨?_, ?_, ?_⟩
  · intro hrun
    have hempty : (Audited.empty coinage : Audited γ ι).Sound := by
      refine ⟨.empty coinage, ?_, fun _ _ => rfl⟩
      intro p m hm
      cases hm
    exact (hrun.invariant Audited.Sound (fun _ _ _ h hstep => h.vault hstep.1 hstep.2) hempty).within
  · intro m now
    exact remaining_le_iff (q := ⟨m.uLastWithdrawReset, m.uWithdrawlsSinceLastReset⟩)
  · intro m rank now tab
    exact remaining_le_iff (q := m.itemQuota tab)

instance VaultCall.decidableCounted (w : Guilds γ ι) (call : VaultCall γ ι) :
    Decidable (call.Counted w) := by
  unfold VaultCall.Counted
  cases call <;> infer_instance

/-- Calls one after another, entered in the books, as long as each is
defined and meets `Ok`. -/
def Audited.calls (objmgr : ObjectMgr ι) (Ok : Audited γ ι → VaultCall γ ι → Prop)
    [∀ s call, Decidable (Ok s call)] (s : Audited γ ι) (calls : List (VaultCall γ ι)) :
    Option (Audited γ ι) :=
  calls.foldlM (fun s call => if Ok s call then s.vault objmgr call else none) s

/-- A guild of two with 500 copper in its bank. Its master lets the lowest
rank take out 100 copper and two items of the first tab a day. -/
def pocketMoney : List (VaultCall (Fin 1) (Fin 2)) :=
  [.roster (.createFromCharter 0 ⟨1, [2]⟩ 0), .depositMoney 0 500,
    .roster (.handleGuildRank 0 4 ⟨3, 100, fun _ => ⟨3, 2⟩⟩)]

/-- The second player takes out 50 copper, one more, and two items. -/
theorem daily_limits_of_counted_pocketMoney : ∃ s : Audited (Fin 1) (Fin 2),
    (s.ledger 1).gold.withdrawn = 51 ∧ ((s.ledger 1).items 0).withdrawn = 2 ∧
    ((s.ledger 1).gold.withdrawn : WithTop ℕ) ≤ (s.ledger 1).gold.limit := by
  have hdone : ((Audited.empty fun _ => 1000).calls twoPlayers
      (fun s call => VaultCall.Counted s.guilds call)
      (pocketMoney ++ [.withdrawMoney 1 50 100000, .withdrawMoney 1 1 100010,
        .takeItem 1 0 100020, .takeItem 1 0 100030])).any
      (fun s => decide ((s.ledger 1).gold.withdrawn = 51) &&
        decide (((s.ledger 1).items 0).withdrawn = 2)) = true := by
    decide +kernel
  obtain ⟨s, hs, hany⟩ := (Option.any_eq_true _ _).mp hdone
  rw [Bool.and_eq_true, decide_eq_true_iff, decide_eq_true_iff] at hany
  exact ⟨s, hany.1, hany.2,
    ((daily_limits_of_counted twoPlayers (fun _ => 1000) _ s).1 (.of_foldlM hs) 1).1⟩

/-- Under a limit of 100 copper the second player takes out 149 in a day.
And when the limit of items drops from two to one after he has taken two,
his allowance is no longer at most the limit and he takes a third. -/
theorem daily_limits_exceeded :
    (∃ s : Audited (Fin 1) (Fin 2),
      Run (PartialStep (Audited.vault twoPlayers)) (.empty fun _ => 1000)
        (pocketMoney ++ [.withdrawMoney 1 50 100000, .withdrawMoney 1 50 100010,
          .withdrawMoney 1 49 100020]) s ∧
      ¬ ((s.ledger 1).gold.withdrawn : WithTop ℕ) ≤ (s.ledger 1).gold.limit) ∧
    (∃ s : Audited (Fin 1) (Fin 2),
      Run (PartialStep (Audited.vault twoPlayers)) (.empty fun _ => 1000)
        (pocketMoney ++ [.takeItem 1 0 100000, .takeItem 1 0 100010,
          .roster (.handleGuildRank 0 4 ⟨3, 100, fun _ => ⟨3, 1⟩⟩), .takeItem 1 0 100020]) s ∧
      ¬ (((s.ledger 1).items 0).withdrawn : WithTop ℕ) ≤ ((s.ledger 1).items 0).limit) := by
  have hlost : ∀ (calls : List (VaultCall (Fin 1) (Fin 2))) (period : Audited (Fin 1) (Fin 2) → Period),
      (((Audited.empty fun _ => 1000).calls twoPlayers (fun _ _ => True) calls).any fun s =>
        decide (¬ ((period s).withdrawn : WithTop ℕ) ≤ (period s).limit)) = true →
      ∃ s, Run (PartialStep (Audited.vault twoPlayers)) (.empty fun _ => 1000) calls s ∧
        ¬ ((period s).withdrawn : WithTop ℕ) ≤ (period s).limit := by
    intro calls period hdone
    obtain ⟨s, hs, hany⟩ := (Option.any_eq_true _ _).mp hdone
    exact ⟨s, (Run.of_foldlM hs).mono fun _ _ _ h => h.2, of_decide_eq_true hany⟩
  exact ⟨hlost _ (fun s => (s.ledger 1).gold) (by decide +kernel),
    hlost _ (fun s => (s.ledger 1).items 0) (by decide +kernel)⟩

end HearthStone.Roster
