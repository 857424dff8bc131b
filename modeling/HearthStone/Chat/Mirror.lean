/-
HearthStone.Chat.Mirror — a player's list of channels and the members of
the channels say the same.

`Part` and the destructor of a channel tell the player that he has left,
and `Kick` does not: the channel stays in the list of the player who was
kicked, also when it has been removed, and a channel whose last member is
kicked stays in the manager.

* `Linked` is what every call keeps: who is on a channel has it in his
  list, who is banned from it is not on it, and the lists of names are
  those of the channels that are there.
* `Mirrored` is the property, and `Spared` the condition on a step: it is
  no kick that removes anyone.
-/
import HearthStone.Chat.Ownership

namespace HearthStone

open Lib

namespace ChannelMgr

variable {conf : ChannelConf} {m m' : ChannelMgr} {cid i : UInt32} {c c' : Channel} {plr p : Nat}

/-- What every call keeps. -/
structure Linked (conf : ChannelConf) (m : ChannelMgr) : Prop where
  distinct : Each Distinct m
  known : ∀ cid c p, m.channel cid = some c → p ∈ c.keys → cid ∈ m.playerChannels p
  banned : ∀ cid c p, m.channel cid = some c → p ∈ c.bannedMembers → p ∉ c.keys
  listed : ∀ j cid, (∃ name, (name, cid) ∈ m.lists j) ↔
    ∃ c, m.channel cid = some c ∧ listOf conf c.team = j

/-- A channel in a player's list is there and has him. -/
def Exact (m : ChannelMgr) : Prop :=
  ∀ p cid, cid ∈ m.playerChannels p → ∃ c, m.channel cid = some c ∧ p ∈ c.keys

/-- A player's list has a channel exactly when the channel has the player,
the manager has no empty channel and no name of a channel that is gone,
and nobody is on a channel that has banned him. -/
structure Mirrored (m : ChannelMgr) : Prop where
  mirror : ∀ p cid, cid ∈ m.playerChannels p ↔ ∃ c, m.channel cid = some c ∧ p ∈ c.keys
  nonEmpty : ∀ cid c, m.channel cid = some c → c.members ≠ []
  listed : ∀ j name cid, (name, cid) ∈ m.lists j → ∃ c, m.channel cid = some c
  banned : ∀ cid c p, m.channel cid = some c → p ∈ c.bannedMembers → p ∉ c.keys

theorem Linked.mirrored (h : Linked conf m) (hexact : Exact m)
    (hne : Each (·.members ≠ []) m) : Mirrored m := by
  refine ⟨?_, hne, ?_, h.banned⟩
  · intro p cid
    constructor
    · exact hexact p cid
    · rintro ⟨c, hc, hp⟩
      exact h.known cid c p hc hp
  · intro j name cid hin
    obtain ⟨c, hc, -⟩ := (h.listed j cid).1 ⟨name, hin⟩
    exact ⟨c, hc⟩

/-! ## A channel changes -/

theorem setChannel_self : (m.setChannel cid (some c)).channel cid = some c := if_pos rfl

theorem setChannel_of_ne {o : Option Channel} (h : i ≠ cid) :
    (m.setChannel cid o).channel i = m.channel i := if_neg h

/-- The members of a channel change, and with them the players' lists. -/
theorem Linked.setChannel (h : Linked conf m) (hc : m.channel cid = some c)
    (hteam : c'.team = c.team) (hdistinct : Distinct c') {own : Nat → List UInt32}
    (hother : ∀ p i, i ≠ cid → (i ∈ own p ↔ i ∈ m.playerChannels p))
    (hknown : ∀ p ∈ c'.keys, cid ∈ own p) (hbanned : ∀ p ∈ c'.bannedMembers, p ∉ c'.keys) :
    Linked conf { m.setChannel cid (some c') with playerChannels := own } := by
  have hchannel : ∀ i d, (m.setChannel cid (some c')).channel i = some d →
      (i = cid ∧ d = c') ∨ (i ≠ cid ∧ m.channel i = some d) := by
    intro i d hd
    by_cases hi : i = cid
    · subst hi
      rw [setChannel_self] at hd
      cases hd
      exact Or.inl ⟨rfl, rfl⟩
    · rw [setChannel_of_ne hi] at hd
      exact Or.inr ⟨hi, hd⟩
  refine ⟨?_, ?_, ?_, ?_⟩
  · intro i d hd
    rcases hchannel i d hd with ⟨-, rfl⟩ | ⟨-, hold⟩
    · exact hdistinct
    · exact h.distinct i d hold
  · intro i d p hd hp
    rcases hchannel i d hd with ⟨rfl, rfl⟩ | ⟨hi, hold⟩
    · exact hknown p hp
    · exact (hother p i hi).2 (h.known i d p hold hp)
  · intro i d p hd hp
    rcases hchannel i d hd with ⟨-, rfl⟩ | ⟨-, hold⟩
    · exact hbanned p hp
    · exact h.banned i d p hold hp
  · intro j i
    refine (h.listed j i).trans ?_
    by_cases hi : i = cid
    · subst hi
      rw [setChannel_self, hc]
      constructor
      · rintro ⟨d, hd, hj⟩
        cases hd
        exact ⟨c', rfl, by rw [hteam]; exact hj⟩
      · rintro ⟨d, hd, hj⟩
        cases hd
        exact ⟨c, rfl, by rw [← hteam]; exact hj⟩
    · dsimp only
      rw [setChannel_of_ne hi]

theorem exact_setChannel (h : Exact m) {own : Nat → List UInt32}
    (hother : ∀ p i, i ≠ cid → (i ∈ own p ↔ i ∈ m.playerChannels p))
    (hown : ∀ p, cid ∈ own p → p ∈ c'.keys) :
    Exact { m.setChannel cid (some c') with playerChannels := own } := by
  intro p i hi
  by_cases hcid : i = cid
  · subst hcid
    exact ⟨c', setChannel_self, hown p hi⟩
  · obtain ⟨d, hd, hp⟩ := h p i ((hother p i hcid).1 hi)
    exact ⟨d, (setChannel_of_ne hcid).trans hd, hp⟩

/-! ## The lists of the players -/

theorem mem_joinedChannel : i ∈ (m.joinedChannel plr cid).playerChannels p ↔
    (p = plr ∧ i = cid) ∨ i ∈ m.playerChannels p := by
  unfold joinedChannel
  dsimp only
  by_cases hp : p = plr
  · rw [if_pos hp, List.mem_insert_iff]
    simp [hp]
  · rw [if_neg hp]
    simp [hp]

theorem mem_leftChannel {left : Nat → Bool} : i ∈ (m.leftChannel left cid).playerChannels p ↔
    ¬ (left p = true ∧ i = cid) ∧ i ∈ m.playerChannels p := by
  unfold leftChannel
  dsimp only
  by_cases hp : left p = true
  · rw [if_pos hp, List.mem_filter]
    simp [hp, and_comm]
  · rw [if_neg hp]
    simp [hp]

/-! ## A channel is removed -/

theorem removeChannel_none (h : m.channel cid = none) : m.removeChannel conf cid = m := by
  unfold removeChannel
  rw [h]

/-- The list of the channel's team has it, so it is removed for good. -/
theorem removeChannel_eq (h : Linked conf m) (hc : m.channel cid = some c) :
    m.removeChannel conf cid =
      { (m.setChannel cid none).leftChannel (fun p => (c.find p).isSome) cid with
        lists := fun j => if j = listOf conf c.team then
          (m.lists j).filter (fun e => e.2 ≠ cid) else m.lists j } := by
  have hfound : (m.lists (listOf conf c.team)).any (fun e => e.2 == cid) = true := by
    obtain ⟨name, hin⟩ := (h.listed (listOf conf c.team) cid).2 ⟨c, hc, rfl⟩
    exact List.any_eq_true.2 ⟨(name, cid), hin, beq_self_eq_true cid⟩
  unfold removeChannel
  rw [hc]
  exact if_pos hfound

theorem setChannel_none (hd : (m.setChannel cid none).channel i = some c) :
    i ≠ cid ∧ m.channel i = some c := by
  by_cases hi : i = cid
  · subst hi
    rw [show (m.setChannel i none).channel i = none from if_pos rfl] at hd
    cases hd
  · rw [setChannel_of_ne hi] at hd
    exact ⟨hi, hd⟩

theorem mem_removeChannel (h : Linked conf m) (hc : m.channel cid = some c) :
    i ∈ (m.removeChannel conf cid).playerChannels p ↔
      ¬ (p ∈ c.keys ∧ i = cid) ∧ i ∈ m.playerChannels p := by
  rw [removeChannel_eq h hc]
  show i ∈ ((m.setChannel cid none).leftChannel (fun p => (c.find p).isSome) cid).playerChannels p
    ↔ _
  rw [mem_leftChannel, Channel.find_isSome]
  rfl

theorem Linked.removeChannel (h : Linked conf m) : Linked conf (m.removeChannel conf cid) := by
  cases hc : m.channel cid with
  | none =>
    rw [removeChannel_none hc]
    exact h
  | some c =>
    refine ⟨h.distinct.removeChannel, ?_, ?_, ?_⟩
    · intro i d p hd hp
      rw [removeChannel_channel] at hd
      obtain ⟨hi, hold⟩ := setChannel_none hd
      rw [mem_removeChannel h hc]
      exact ⟨fun hgone => hi hgone.2, h.known i d p hold hp⟩
    · intro i d p hd hp
      rw [removeChannel_channel] at hd
      exact h.banned i d p (setChannel_none hd).2 hp
    · intro j i
      rw [removeChannel_channel]
      have hlist : (∃ name, (name, i) ∈ (m.removeChannel conf cid).lists j) ↔
          i ≠ cid ∧ ∃ name, (name, i) ∈ m.lists j := by
        rw [removeChannel_eq h hc]
        dsimp only
        by_cases hj : j = listOf conf c.team
        · rw [if_pos hj]
          simp only [List.mem_filter, decide_eq_true_eq]
          exact ⟨fun ⟨name, hin, hi⟩ => ⟨hi, name, hin⟩, fun ⟨hi, name, hin⟩ => ⟨name, hin, hi⟩⟩
        · rw [if_neg hj]
          refine ⟨fun hin => ⟨?_, hin⟩, fun hin => hin.2⟩
          -- the other lists never had it
          rintro rfl
          obtain ⟨d, hd, hteam⟩ := (h.listed j i).1 hin
          rw [hc] at hd
          cases hd
          exact hj hteam.symm
      rw [hlist, h.listed j i]
      constructor
      · rintro ⟨hi, d, hd, hj⟩
        exact ⟨d, (setChannel_of_ne hi).trans hd, hj⟩
      · rintro ⟨d, hd, hj⟩
        obtain ⟨hi, hold⟩ := setChannel_none hd
        exact ⟨hi, d, hold, hj⟩

theorem exact_removeChannel (h : Linked conf m) (he : Exact m) :
    Exact (m.removeChannel conf cid) := by
  cases hc : m.channel cid with
  | none =>
    rw [removeChannel_none hc]
    exact he
  | some c =>
    intro p i hi
    rw [mem_removeChannel h hc] at hi
    obtain ⟨d, hd, hp⟩ := he p i hi.2
    rw [removeChannel_channel]
    by_cases hcid : i = cid
    · subst hcid
      rw [hc] at hd
      cases hd
      exact absurd ⟨hp, rfl⟩ hi.1
    · exact ⟨d, (setChannel_of_ne hcid).trans hd, hp⟩

theorem nonEmpty_removeChannel
    (h : ∀ i c, i ≠ cid → m.channel i = some c → c.members ≠ []) :
    Each (·.members ≠ []) (m.removeChannel conf cid) := by
  intro i d hd
  rw [removeChannel_channel] at hd
  obtain ⟨hi, hold⟩ := setChannel_none hd
  exact h i d hi hold

/-! ## Joining and leaving -/

theorem mem_keys_perm {l : List Nat} {keys : List Nat} (h : keys.Perm (plr :: l)) :
    p ∈ keys ↔ p = plr ∨ p ∈ l := by
  rw [h.mem_iff, List.mem_cons]

/-- A player joins a channel that is there. -/
theorem linked_attemptJoin (h : Linked conf m) {canUse : Bool} {password : String} :
    Linked conf (m.attemptJoin plr canUse cid password) := by
  unfold ChannelMgr.attemptJoin
  split
  · exact h
  · rename_i c hc
    split
    · exact h
    · rename_i c' hok
      obtain ⟨hnew, hban, hkeys, -, -, hteam, hbanned⟩ := Channel.attemptJoin_ok hok
      show Linked conf { m.setChannel cid (some c') with
        playerChannels := (m.joinedChannel plr cid).playerChannels }
      refine h.setChannel hc hteam (distinct_attemptJoin (h.distinct cid c hc) hok) ?_ ?_ ?_
      · intro q i hi
        rw [mem_joinedChannel]
        exact or_iff_right (fun hjoined => hi hjoined.2)
      · intro q hq
        rw [mem_joinedChannel]
        rcases (mem_keys_perm hkeys).1 hq with rfl | hq
        · exact Or.inl ⟨rfl, rfl⟩
        · exact Or.inr (h.known cid c q hc hq)
      · intro q hq hin
        rw [hbanned] at hq
        rcases (mem_keys_perm hkeys).1 hin with rfl | hin
        · exact hban hq
        · exact h.banned cid c q hc hq hin

theorem exact_attemptJoin (h : Exact m) {canUse : Bool} {password : String} :
    Exact (m.attemptJoin plr canUse cid password) := by
  unfold ChannelMgr.attemptJoin
  split
  · exact h
  · rename_i c hc
    split
    · exact h
    · rename_i c' hok
      obtain ⟨hnew, -, hkeys, -⟩ := Channel.attemptJoin_ok hok
      show Exact { m.setChannel cid (some c') with
        playerChannels := (m.joinedChannel plr cid).playerChannels }
      refine exact_setChannel h ?_ ?_
      · intro q i hi
        rw [mem_joinedChannel]
        exact or_iff_right (fun hjoined => hi hjoined.2)
      · intro q hq
        rw [mem_joinedChannel] at hq
        rw [mem_keys_perm hkeys]
        rcases hq with ⟨rfl, -⟩ | hq
        · exact Or.inl rfl
        · obtain ⟨d, hd, hin⟩ := h q cid hq
          rw [hc] at hd
          cases hd
          exact Or.inr hin

/-- The members after `Part`. -/
theorem mem_keys_part (hd : Distinct c) (hok : c.part plr = .ok c') :
    p ∈ c'.keys ↔ p ≠ plr ∧ p ∈ c.keys := by
  obtain ⟨flags, hfind, rfl⟩ := Channel.part_ok hok
  have hkeys := Channel.keys_dropMember hfind
  have hnot := (List.nodup_cons.1 (hkeys.nodup_iff.1 hd)).1
  rw [mem_keys_perm hkeys]
  constructor
  · intro hp
    refine ⟨?_, Or.inr hp⟩
    rintro rfl
    exact hnot hp
  · rintro ⟨hne, hp⟩
    exact hp.resolve_left hne

/-- The manager when a player has left a channel that is there. -/
def left (m : ChannelMgr) (plr : Nat) (cid : UInt32) (c : Channel) : ChannelMgr :=
  { m.setChannel cid (some c) with
    playerChannels := (m.leftChannel (fun p => p == plr) cid).playerChannels }

theorem part_cases (conf : ChannelConf) (m : ChannelMgr) (plr : Nat) (cid : UInt32) :
    ((∀ c, m.channel cid = some c → plr ∉ c.keys) ∧ m.part conf plr cid = m) ∨
      ∃ c c', m.channel cid = some c ∧ c.part plr = .ok c' ∧
        m.part conf plr cid =
          if c'.members.isEmpty then (m.left plr cid c').removeChannel conf cid
          else m.left plr cid c' := by
  unfold ChannelMgr.part
  split
  · rename_i hnone
    left
    refine ⟨?_, rfl⟩
    intro c hc
    rw [hnone] at hc
    cases hc
  · rename_i c hc
    split
    · rename_i e herror
      left
      refine ⟨?_, rfl⟩
      intro d hd
      cases hc.symm.trans hd
      unfold Channel.part at herror
      split at herror
      · rename_i hfind
        exact Channel.find_none.1 hfind
      · cases herror
    · rename_i c' hok
      exact Or.inr ⟨c, c', hc, hok, rfl⟩

theorem linked_left (h : Linked conf m) (hc : m.channel cid = some c)
    (hok : c.part plr = .ok c') : Linked conf (m.left plr cid c') := by
  have hkeys := fun p => mem_keys_part (p := p) (h.distinct cid c hc) hok
  obtain ⟨flags, hfind, heq⟩ := Channel.part_ok hok
  refine h.setChannel hc (by rw [heq, Channel.dropMember_team])
    (distinct_part (h.distinct cid c hc) hok) ?_ ?_ ?_
  · intro q i hi
    rw [mem_leftChannel]
    exact and_iff_right (fun hleft => hi hleft.2)
  · intro q hq
    obtain ⟨hne, hin⟩ := (hkeys q).1 hq
    rw [mem_leftChannel]
    refine ⟨fun hleft => hne (beq_iff_eq.1 hleft.1), h.known cid c q hc hin⟩
  · intro q hq hin
    rw [heq, Channel.dropMember_banned] at hq
    exact h.banned cid c q hc hq ((hkeys q).1 hin).2

theorem exact_left (h : Linked conf m) (he : Exact m) (hc : m.channel cid = some c)
    (hok : c.part plr = .ok c') : Exact (m.left plr cid c') := by
  refine exact_setChannel he ?_ ?_
  · intro q i hi
    rw [mem_leftChannel]
    exact and_iff_right (fun hleft => hi hleft.2)
  · intro q hq
    rw [mem_leftChannel] at hq
    obtain ⟨hstay, hq⟩ := hq
    obtain ⟨d, hd, hin⟩ := he q cid hq
    cases hc.symm.trans hd
    rw [mem_keys_part (h.distinct cid c hc) hok]
    refine ⟨?_, hin⟩
    rintro rfl
    exact hstay ⟨beq_self_eq_true q, rfl⟩

theorem linked_part (h : Linked conf m) : Linked conf (m.part conf plr cid) := by
  rcases part_cases conf m plr cid with ⟨-, heq⟩ | ⟨c, c', hc, hok, heq⟩
  · rw [heq]
    exact h
  · rw [heq]
    split
    · exact (linked_left h hc hok).removeChannel
    · exact linked_left h hc hok

theorem exact_part (h : Linked conf m) (he : Exact m) : Exact (m.part conf plr cid) := by
  rcases part_cases conf m plr cid with ⟨-, heq⟩ | ⟨c, c', hc, hok, heq⟩
  · rw [heq]
    exact he
  · rw [heq]
    split
    · exact exact_removeChannel (linked_left h hc hok) (exact_left h he hc hok)
    · exact exact_left h he hc hok

theorem nonEmpty_part (hne : Each (·.members ≠ []) m) :
    Each (·.members ≠ []) (m.part conf plr cid) := by
  rcases part_cases conf m plr cid with ⟨-, heq⟩ | ⟨c, c', hc, hok, heq⟩
  · rw [heq]
    exact hne
  · rw [heq]
    split
    · refine nonEmpty_removeChannel ?_
      intro i d hi hd
      exact hne i d ((setChannel_of_ne hi).symm.trans hd)
    · rename_i hleft
      intro i d hd
      by_cases hi : i = cid
      · subst hi
        cases setChannel_self.symm.trans hd
        rw [List.isEmpty_iff] at hleft
        exact hleft
      · exact hne i d ((setChannel_of_ne hi).symm.trans hd)

/-- After `Part` the player is on no more channels, and not on this one. -/
theorem keys_part (h : Linked conf m) {d : Channel}
    (hd : (m.part conf plr cid).channel i = some d) (hp : p ∈ d.keys) :
    (i = cid → p ≠ plr) ∧ ∃ c, m.channel i = some c ∧ p ∈ c.keys := by
  rcases part_cases conf m plr cid with ⟨hnot, heq⟩ | ⟨c, c', hc, hok, heq⟩
  · rw [heq] at hd
    refine ⟨?_, d, hd, hp⟩
    rintro rfl rfl
    exact hnot d hd hp
  · have hleft : (m.left plr cid c').channel i = some d := by
      rw [heq] at hd
      split at hd
      · rw [removeChannel_channel] at hd
        exact (setChannel_none hd).2
      · exact hd
    by_cases hi : i = cid
    · subst hi
      cases setChannel_self.symm.trans hleft
      obtain ⟨hne, hin⟩ := (mem_keys_part (h.distinct i c hc) hok).1 hp
      exact ⟨fun _ => hne, c, hc, hin⟩
    · exact ⟨fun heq => absurd heq hi, d, (setChannel_of_ne hi).symm.trans hleft, hp⟩

/-! ## A player is gone -/

/-- The channels a player may still be on. -/
def OnlyOn (plr : Nat) (cids : List UInt32) (m : ChannelMgr) : Prop :=
  ∀ cid c, m.channel cid = some c → plr ∈ c.keys → cid ∈ cids

theorem onlyOn_part {cids : List UInt32} (h : Linked conf m) (hon : OnlyOn plr (cid :: cids) m) :
    OnlyOn plr cids (m.part conf plr cid) := by
  intro i d hd hp
  obtain ⟨hne, c, hc, hin⟩ := keys_part h hd hp
  rcases List.mem_cons.1 (hon i c hc hin) with hi | hi
  · exact absurd rfl (hne hi)
  · exact hi

/-- The loop of `CleanupChannels`. -/
theorem cleanup {cids : List UInt32} (h : Linked conf m) (hon : OnlyOn plr cids m) :
    Linked conf (cids.foldl (fun m cid => m.part conf plr cid) m) ∧
      OnlyOn plr [] (cids.foldl (fun m cid => m.part conf plr cid) m) ∧
      (Exact m → Exact (cids.foldl (fun m cid => m.part conf plr cid) m)) ∧
      (Each (·.members ≠ []) m →
        Each (·.members ≠ []) (cids.foldl (fun m cid => m.part conf plr cid) m)) := by
  induction cids generalizing m with
  | nil => exact ⟨h, hon, fun he => he, fun hne => hne⟩
  | cons cid cids ih =>
    obtain ⟨hlinked, hnone, hexact, hempty⟩ := ih (linked_part h) (onlyOn_part h hon)
    exact ⟨hlinked, hnone, fun he => hexact (exact_part h he),
      fun hne => hempty (nonEmpty_part hne)⟩

/-- The list of a player who is on no channel is emptied. -/
theorem linked_forget (h : Linked conf m) (hon : OnlyOn plr [] m) :
    Linked conf { m with
      playerChannels := fun p => if p = plr then [] else m.playerChannels p } := by
  refine ⟨h.distinct, ?_, h.banned, h.listed⟩
  intro cid c p hc hp
  have hne : p ≠ plr := by
    rintro rfl
    exact List.not_mem_nil (hon cid c hc hp)
  show cid ∈ if p = plr then [] else m.playerChannels p
  rw [if_neg hne]
  exact h.known cid c p hc hp

theorem exact_forget (h : Exact m) :
    Exact { m with playerChannels := fun p => if p = plr then [] else m.playerChannels p } := by
  intro p cid hin
  dsimp only at hin
  split at hin
  · exact absurd hin List.not_mem_nil
  · exact h p cid hin

/-! ## A channel is made -/

/-- The team a new channel is made for. -/
def newTeam (conf : ChannelConf) (plr : Nat) : Nat :=
  if conf.seperateChannels then conf.team plr else 0

theorem listOf_newTeam : listOf conf (newTeam conf plr) = newTeam conf plr := by
  unfold listOf newTeam
  split <;> rfl

/-- A new channel that nobody has joined. -/
theorem linked_createChannel (h : Linked conf m) {name : String} {typeId : UInt32}
    (hfresh : m.channel (m.idHigh + 1) = none) :
    Linked conf (m.createChannel conf plr name typeId) := by
  have hchannel : ∀ i d, (m.createChannel conf plr name typeId).channel i = some d →
      (i = m.idHigh + 1 ∧ d = .new name (newTeam conf plr) (conf.chatChannels typeId)) ∨
        (i ≠ m.idHigh + 1 ∧ m.channel i = some d) := by
    intro i d hd
    by_cases hi : i = m.idHigh + 1
    · subst hi
      cases setChannel_self.symm.trans hd
      exact Or.inl ⟨rfl, rfl⟩
    · exact Or.inr ⟨hi, (setChannel_of_ne hi).symm.trans hd⟩
  refine ⟨?_, ?_, ?_, ?_⟩
  · intro i d hd
    rcases hchannel i d hd with ⟨-, rfl⟩ | ⟨-, hold⟩
    · exact List.nodup_nil
    · exact h.distinct i d hold
  · intro i d p hd hp
    rcases hchannel i d hd with ⟨-, rfl⟩ | ⟨-, hold⟩
    · exact absurd hp List.not_mem_nil
    · exact h.known i d p hold hp
  · intro i d p hd hp
    rcases hchannel i d hd with ⟨-, rfl⟩ | ⟨-, hold⟩
    · exact absurd hp List.not_mem_nil
    · exact h.banned i d p hold hp
  · intro j i
    show (∃ n, (n, i) ∈ if j = newTeam conf plr then (name, m.idHigh + 1) :: m.lists j
      else m.lists j) ↔ _
    by_cases hi : i = m.idHigh + 1
    · subst hi
      have hnone : ¬ ∃ n, (n, m.idHigh + 1) ∈ m.lists j := by
        rw [h.listed, hfresh]
        rintro ⟨d, hd, -⟩
        cases hd
      have hnew : (m.createChannel conf plr name typeId).channel (m.idHigh + 1) =
          some (.new name (newTeam conf plr) (conf.chatChannels typeId)) := setChannel_self
      rw [hnew]
      by_cases hj : j = newTeam conf plr
      · rw [if_pos hj]
        exact iff_of_true ⟨name, List.mem_cons_self⟩ ⟨_, rfl, listOf_newTeam.trans hj.symm⟩
      · rw [if_neg hj]
        refine iff_of_false hnone ?_
        rintro ⟨d, hd, hteam⟩
        cases hd
        exact hj (hteam.symm.trans listOf_newTeam)
    · have hold : (m.createChannel conf plr name typeId).channel i = m.channel i :=
        setChannel_of_ne hi
      rw [hold, ← h.listed j i]
      split
      · simp [hi]
      · rfl

theorem exact_createChannel (h : Exact m) {name : String} {typeId : UInt32}
    (hfresh : m.channel (m.idHigh + 1) = none) :
    Exact (m.createChannel conf plr name typeId) := by
  intro p i hi
  obtain ⟨d, hd, hp⟩ := h p i hi
  refine ⟨d, (setChannel_of_ne ?_).trans hd, hp⟩
  rintro rfl
  rw [hfresh] at hd
  cases hd

/-- The first player always gets on a new channel. -/
theorem new_attemptJoin (name password : String) (team : Nat) (known canUse : Bool) :
    ∃ c', (Channel.new name team known).attemptJoin plr canUse password = .ok c' := by
  exact ⟨_, rfl⟩

theorem nonEmpty_attemptJoin {canUse : Bool} {password : String}
    (h : ∀ i c, i ≠ cid → m.channel i = some c → c.members ≠ [])
    (hcid : ∀ c, m.channel cid = some c → c.members = [] →
      ∃ c', c.attemptJoin plr canUse password = .ok c') :
    Each (·.members ≠ []) (m.attemptJoin plr canUse cid password) := by
  intro i d hd
  unfold ChannelMgr.attemptJoin at hd
  by_cases hi : i = cid
  · subst hi
    split at hd
    · rename_i hnone
      rw [hnone] at hd
      cases hd
    · rename_i c hc
      split at hd
      · rename_i herror
        cases hc.symm.trans hd
        intro hnil
        obtain ⟨c', hok⟩ := hcid d hc hnil
        rw [herror] at hok
        cases hok
      · rename_i c' hok
        cases setChannel_self.symm.trans hd
        obtain ⟨-, -, hkeys, -⟩ := Channel.attemptJoin_ok hok
        intro hnil
        rw [Channel.members_eq_nil] at hnil
        rw [hnil] at hkeys
        exact absurd hkeys.symm.eq_nil (List.cons_ne_nil _ _)
  · refine h i d hi ?_
    split at hd
    · exact hd
    · split at hd
      · exact hd
      · exact (setChannel_of_ne hi).symm.trans hd

/-! ## Requests -/

/-- The members of a channel become fewer and the players' lists stay. -/
theorem linked_fewer (h : Linked conf m) (hc : m.channel cid = some c) (hteam : c'.team = c.team)
    (hdistinct : Distinct c') (hkeys : ∀ p ∈ c'.keys, p ∈ c.keys)
    (hbanned : ∀ p ∈ c'.bannedMembers, p ∉ c'.keys) :
    Linked conf (m.setChannel cid (some c')) :=
  h.setChannel hc hteam hdistinct (fun _ _ _ => Iff.rfl)
    (fun p hp => h.known cid c p hc (hkeys p hp)) hbanned

theorem linked_request (h : Linked conf m) {r : Channel.Request} :
    Linked conf (m.request plr cid r) := by
  unfold ChannelMgr.request
  split
  · exact h
  · rename_i c hc
    split
    · exact h
    · rename_i c' hok
      have hdistinct := distinct_handle (h.distinct cid c hc) hok
      rcases Channel.handle_ok hok with ⟨other, -, howner⟩ | ⟨other, ban, -, hkick⟩ |
        ⟨-, -, hsame⟩
      · obtain ⟨-, rfl⟩ := Channel.setOwner_ok howner
        have hkeys : (c.newOwner (some other)).keys = c.keys := Channel.keys_passOwner
        refine linked_fewer h hc rfl hdistinct ?_ ?_
        · intro p hp
          rw [hkeys] at hp
          exact hp
        · intro p hp
          rw [hkeys]
          exact h.banned cid c p hc hp
      · obtain ⟨-, flags, hfind, rfl⟩ := Channel.kick_ok hkick
        have hperm := Channel.keys_dropMember hfind
        have hgone := (List.nodup_cons.1 (hperm.nodup_iff.1 (h.distinct cid c hc))).1
        have hfewer : ∀ p ∈ (c.dropMember other flags).keys, p ∈ c.keys :=
          fun p hp => (mem_keys_perm hperm).2 (Or.inr hp)
        refine linked_fewer h hc Channel.dropMember_team hdistinct hfewer ?_
        intro p hp hin
        -- who is banned now is the one who was kicked, or was banned before
        have hold : p = other ∨ p ∈ c.bannedMembers := by
          rw [Channel.dropMember_banned] at hp
          cases ban with
          | false => exact Or.inr hp
          | true => exact List.mem_cons.1 hp
        rcases hold with rfl | hold
        · exact hgone hin
        · exact h.banned cid c p hc hold (hfewer p hin)
      · refine linked_fewer h hc hsame.team hdistinct ?_ ?_
        · intro p hp
          rw [hsame.keys] at hp
          exact hp
        · intro p hp
          rw [hsame.keys]
          exact h.banned cid c p hc (hsame.banned p hp)

end ChannelMgr

/-- A kick that removes somebody. -/
def Channel.kicks (c : Channel) (plr : Nat) : Channel.Request → Bool
  | .kick other _ => (c.find plr).any mayModerate && (c.find other).isSome
  | _ => false

namespace ChannelMgr

variable {conf : ChannelConf} {m m' : ChannelMgr} {cid : UInt32} {c c' : Channel} {plr : Nat}

/-- The condition on a step. -/
def Spared (m : ChannelMgr) : Action → Prop
  | .request plr cid r => (m.channel cid).all (fun c => !c.kicks plr r) = true
  | _ => True

instance (m : ChannelMgr) : (a : Action) → Decidable (m.Spared a)
  | .join _ _ _ _ _ => .isTrue trivial
  | .part _ _ => .isTrue trivial
  | .request plr cid r => inferInstanceAs (Decidable
      ((m.channel cid).all (fun c => !c.kicks plr r) = true))
  | .removeChannel _ => .isTrue trivial
  | .logout _ => .isTrue trivial

/-- A request that kicks nobody leaves the members as they are. -/
theorem keys_handle {r : Channel.Request} (hspared : c.kicks plr r = false)
    (hok : c.handle plr r = .ok c') : c'.keys = c.keys := by
  rcases Channel.handle_ok hok with ⟨other, -, howner⟩ | ⟨other, ban, rfl, hkick⟩ | ⟨-, -, hsame⟩
  · obtain ⟨-, rfl⟩ := Channel.setOwner_ok howner
    exact Channel.keys_passOwner
  · obtain ⟨⟨mine, hmine, hmay⟩, flags, hfind, -⟩ := Channel.kick_ok hkick
    change ((c.find plr).any Channel.mayModerate && (c.find other).isSome) = false at hspared
    rw [hmine, hfind, Option.any_some, hmay] at hspared
    cases hspared
  · exact hsame.keys

/-- A kick takes the player from the channel. -/
theorem kick_takes {r : Channel.Request} (hkicks : c.kicks plr r = true) (hd : Distinct c) :
    ∃ c' other, c.handle plr r = .ok c' ∧ other ∈ c.keys ∧ other ∉ c'.keys := by
  cases r with
  | kick other ban =>
    unfold Channel.kicks at hkicks
    rw [Bool.and_eq_true] at hkicks
    obtain ⟨hmay, hother⟩ := hkicks
    cases hmine : c.find plr with
    | none =>
      rw [hmine] at hmay
      cases hmay
    | some mine =>
      rw [hmine, Option.any_some] at hmay
      obtain ⟨flags, hfind⟩ := Option.isSome_iff_exists.1 hother
      have hok : ∃ c', c.kick plr other ban = .ok c' := by
        unfold Channel.kick
        rw [hmine, hfind]
        exact ⟨_, if_pos hmay⟩
      obtain ⟨c', hok⟩ := hok
      refine ⟨c', other, hok, Channel.mem_keys_of_find hfind, ?_⟩
      obtain ⟨-, flags', hfind', rfl⟩ := Channel.kick_ok hok
      have hperm := Channel.keys_dropMember hfind'
      exact (List.nodup_cons.1 (hperm.nodup_iff.1 hd)).1
  | _ => cases hkicks

/-! ## Steps -/

theorem linked_logout (h : Linked conf m) : Linked conf (m.logout conf plr) := by
  have hon : OnlyOn plr (m.playerChannels plr) m := fun cid c hc hp => h.known cid c plr hc hp
  obtain ⟨hlinked, hnone, -, -⟩ := cleanup h hon
  exact linked_forget hlinked hnone

theorem linked_step {a : Action} (h : Linked conf m) (hstep : m.step conf a = some m') :
    Linked conf m' := by
  cases a with
  | join plr canUse name typeId password =>
    change m.join conf plr canUse name typeId password = some m' at hstep
    unfold ChannelMgr.join at hstep
    split at hstep
    · cases hstep
      exact linked_attemptJoin h
    · split at hstep
      · cases hstep
        exact h
      · split at hstep
        · cases hstep
        · rename_i hfresh
          cases hstep
          rw [Option.not_isSome_iff_eq_none] at hfresh
          exact linked_attemptJoin (linked_createChannel h hfresh)
  | part plr cid =>
    cases hstep
    exact linked_part h
  | request plr cid r =>
    cases hstep
    exact linked_request h
  | removeChannel cid =>
    cases hstep
    exact h.removeChannel
  | logout plr =>
    cases hstep
    exact linked_logout h

/-- The condition keeps the other half. -/
structure Whole (conf : ChannelConf) (m : ChannelMgr) : Prop where
  linked : Linked conf m
  exact : Exact m
  nonEmpty : Each (·.members ≠ []) m

theorem whole_join (h : Whole conf m) {canUse : Bool} {name password : String} {typeId : UInt32}
    (hstep : m.join conf plr canUse name typeId password = some m') :
    Exact m' ∧ Each (·.members ≠ []) m' := by
  unfold ChannelMgr.join at hstep
  split at hstep
  · cases hstep
    refine ⟨exact_attemptJoin h.exact, nonEmpty_attemptJoin (fun i c _ => h.nonEmpty i c) ?_⟩
    intro c hc hnil
    exact absurd hnil (h.nonEmpty _ c hc)
  · split at hstep
    · cases hstep
      exact ⟨h.exact, h.nonEmpty⟩
    · split at hstep
      · cases hstep
      · rename_i hfresh
        cases hstep
        rw [Option.not_isSome_iff_eq_none] at hfresh
        refine ⟨exact_attemptJoin (exact_createChannel h.exact hfresh), nonEmpty_attemptJoin ?_ ?_⟩
        · intro i c hi hc
          exact h.nonEmpty i c ((setChannel_of_ne hi).symm.trans hc)
        · intro c hc _
          cases setChannel_self.symm.trans hc
          exact new_attemptJoin name password _ _ canUse

theorem whole_request (h : Whole conf m) {r : Channel.Request}
    (hok : (m.channel cid).all (fun c => !c.kicks plr r) = true) :
    Exact (m.request plr cid r) ∧ Each (·.members ≠ []) (m.request plr cid r) := by
  unfold ChannelMgr.request
  split
  · exact ⟨h.exact, h.nonEmpty⟩
  · rename_i c hc
    rw [hc, Option.all_some, Bool.not_eq_true'] at hok
    split
    · exact ⟨h.exact, h.nonEmpty⟩
    · rename_i c' hhandle
      have hkeys := keys_handle hok hhandle
      constructor
      · refine exact_setChannel h.exact (fun _ _ _ => Iff.rfl) ?_
        intro p hp
        obtain ⟨d, hd, hin⟩ := h.exact p cid hp
        cases hc.symm.trans hd
        rw [hkeys]
        exact hin
      · refine h.nonEmpty.setChannel ?_
        intro d hd
        cases hd
        rw [ne_eq, Channel.members_eq_nil, hkeys, ← Channel.members_eq_nil]
        exact h.nonEmpty cid c hc

theorem whole_step {a : Action} (h : Whole conf m) (hok : m.Spared a)
    (hstep : m.step conf a = some m') : Whole conf m' := by
  have hlinked := linked_step h.linked hstep
  cases a with
  | join plr canUse name typeId password =>
    obtain ⟨hexact, hne⟩ := whole_join h hstep
    exact ⟨hlinked, hexact, hne⟩
  | part plr cid =>
    cases hstep
    exact ⟨hlinked, exact_part h.linked h.exact, nonEmpty_part h.nonEmpty⟩
  | request plr cid r =>
    cases hstep
    obtain ⟨hexact, hne⟩ := whole_request h hok
    exact ⟨hlinked, hexact, hne⟩
  | removeChannel cid =>
    cases hstep
    exact ⟨hlinked, exact_removeChannel h.linked h.exact,
      nonEmpty_removeChannel (fun i c _ => h.nonEmpty i c)⟩
  | logout plr =>
    cases hstep
    have hon : OnlyOn plr (m.playerChannels plr) m :=
      fun cid c hc hp => h.linked.known cid c plr hc hp
    obtain ⟨-, -, hexact, hne⟩ := cleanup h.linked hon
    exact ⟨hlinked, exact_forget (hexact h.exact), hne h.nonEmpty⟩

/-- The list of the player who was kicked still has the channel. -/
theorem not_mirrored_step {a : Action} (h : Whole conf m) (hbad : ¬ m.Spared a)
    (hstep : m.step conf a = some m') : ¬ Mirrored m' := by
  cases a with
  | request plr cid r =>
    cases hstep
    change ¬ (m.channel cid).all (fun c => !c.kicks plr r) = true at hbad
    cases hc : m.channel cid with
    | none =>
      rw [hc] at hbad
      exact absurd rfl hbad
    | some c =>
      rw [hc, Option.all_some, Bool.not_eq_true', Bool.not_eq_false] at hbad
      obtain ⟨c', other, hok, hwas, hgone⟩ := kick_takes hbad (h.linked.distinct cid c hc)
      have heq : m.request plr cid r = m.setChannel cid (some c') := by
        unfold ChannelMgr.request
        rw [hc]
        dsimp only
        rw [hok]
      intro hmirrored
      rw [heq] at hmirrored
      obtain ⟨d, hd, hin⟩ := (hmirrored.mirror other cid).1 (h.linked.known cid c other hc hwas)
      cases setChannel_self.symm.trans hd
      exact hgone hin
  | join plr canUse name typeId password => exact absurd trivial hbad
  | part plr cid => exact absurd trivial hbad
  | removeChannel cid => exact absurd trivial hbad
  | logout plr => exact absurd trivial hbad

/-! ## Runs -/

theorem linked_init : Linked conf .init := by
  refine ⟨?_, ?_, ?_, ?_⟩
  · intro cid c hc
    cases hc
  · intro cid c p hc
    cases hc
  · intro cid c p hc
    cases hc
  · intro j cid
    refine iff_of_false ?_ ?_
    · rintro ⟨name, hin⟩
      exact List.not_mem_nil hin
    · rintro ⟨c, hc, -⟩
      cases hc

/-- Along every run of steps that meet the condition the two sides say the
same, and the condition is what the next step has to meet; whatever comes
after, who is on a channel has it in his list and is not banned. -/
theorem membership_mirrored {as : List Action}
    (hrun : Run (Guarded Spared (PartialStep (step conf))) .init as m) :
    Mirrored m ∧ (∀ a m', m.step conf a = some m' → (Mirrored m' ↔ m.Spared a)) ∧
      ∀ bs n, Run (PartialStep (step conf)) m bs n → Linked conf n := by
  have hwhole : Whole conf m := by
    refine hrun.invariant (Whole conf) ?_ ?_
    · rintro u a v hinv ⟨hok, hstep⟩
      exact whole_step hinv hok hstep
    · refine ⟨linked_init, ?_, ?_⟩
      · intro p cid hin
        exact absurd hin List.not_mem_nil
      · intro cid c hc
        cases hc
  refine ⟨hwhole.linked.mirrored hwhole.exact hwhole.nonEmpty, ?_, ?_⟩
  · intro a m' hstep
    constructor
    · intro hmirrored
      by_contra hbad
      exact not_mirrored_step hwhole hbad hstep hmirrored
    · intro hok
      have hnext := whole_step hwhole hok hstep
      exact hnext.linked.mirrored hnext.exact hnext.nonEmpty
  · intro bs n hmore
    exact hmore.invariant (Linked conf) (fun u b v => linked_step) hwhole.linked

/-- Two players join, a player who is not there cannot be kicked, and the
first logs out. -/
def comesAndGoes : List Action :=
  [.join 1 false "Trade" 0 "", .join 2 false "Trade" 0 "", .request 1 1 (.giveModerator 2),
    .request 2 1 (.kick 3 true), .logout 1]

theorem membership_mirrored_logout :
    ∃ m, Run (Guarded Spared (PartialStep (step customOnly))) .init comesAndGoes m ∧
      Mirrored m ∧ m.playerChannels 1 = [] ∧ m.playerChannels 2 = [1] := by
  have hplay : ((comesAndGoes.foldlM (fun m a => if Spared m a then m.step customOnly a else none)
      .init).map fun m => (m.playerChannels 1, m.playerChannels 2)) = some ([], [1]) := by
    decide +kernel
  obtain ⟨m, hm, hlists⟩ := Option.map_eq_some_iff.1 hplay
  have hrun := Run.of_foldlM hm
  exact ⟨m, hrun, (membership_mirrored hrun).1, congrArg Prod.fst hlists,
    congrArg Prod.snd hlists⟩

/-- The owner kicks another member and leaves. -/
def kicksAndLeaves : List Action :=
  [.join 1 false "Trade" 0 "", .join 2 false "Trade" 0 "", .request 1 1 (.kick 2 true), .part 1 1]

/-- The channel is gone, and the player who was kicked still has it. -/
theorem kicked_player_keeps_channel :
    ∃ m, kicksAndLeaves.foldlM (step customOnly) .init = some m ∧ m.channel 1 = none ∧
      m.playerChannels 2 = [1] ∧ ¬ Mirrored m := by
  have hplay : ((kicksAndLeaves.foldlM (step customOnly) .init).map fun m =>
      (m.channel 1, m.playerChannels 2)) = some (none, [1]) := by decide +kernel
  obtain ⟨m, hm, heq⟩ := Option.map_eq_some_iff.1 hplay
  have hgone : m.channel 1 = none := congrArg Prod.fst heq
  have hlist : m.playerChannels 2 = [1] := congrArg Prod.snd heq
  refine ⟨m, hm, hgone, hlist, ?_⟩
  intro hmirrored
  obtain ⟨c, hc, -⟩ := (hmirrored.mirror 2 1).1 (by rw [hlist]; exact List.mem_cons_self)
  rw [hgone] at hc
  cases hc

end ChannelMgr

end HearthStone
