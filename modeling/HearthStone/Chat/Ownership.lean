/-
HearthStone.Chat.Ownership — when every channel has its owner.

`SetOwner` takes the flag from the owner and gives it to the member who
was named in the same loop over the members. An owner who names himself
has lost the flag when the loop looks at the name, and one who names
somebody who is not on the channel gives it to nobody; "obviously no
members", says the comment, of a channel full of them.

* `AllOwned` is the property, `Named` the condition on a step.
* Every other step keeps the property: whoever comes first to a custom
  channel owns it, and an owner who leaves or is kicked is replaced.
-/
import HearthStone.Lib.Run
import HearthStone.Chat.ChannelTheorems

namespace HearthStone

open Lib

namespace ChannelMgr

variable {conf : ChannelConf} {m m' : ChannelMgr} {cid : UInt32} {c c' : Channel} {plr : Nat}
  {P : Channel → Prop}

/-- Every channel of the manager. -/
def Each (P : Channel → Prop) (m : ChannelMgr) : Prop := ∀ cid c, m.channel cid = some c → P c

theorem Each.setChannel (h : Each P m) {o : Option Channel} (ho : ∀ c, o = some c → P c) :
    Each P (m.setChannel cid o) := by
  intro i d hd
  unfold ChannelMgr.setChannel at hd
  dsimp only at hd
  split at hd
  · exact ho d hd
  · exact h i d hd

theorem removeChannel_channel : (m.removeChannel conf cid).channel = (m.setChannel cid none).channel := by
  unfold removeChannel
  split
  · rename_i hnone
    unfold setChannel
    funext i
    dsimp only
    split
    · rename_i hi
      rw [hi, hnone]
    · rfl
  · dsimp only
    split <;> rfl

/-! ## What holds of each channel -/

theorem Each.removeChannel (h : Each P m) : Each P (m.removeChannel conf cid) := by
  have hnone : Each P (m.setChannel cid none) := h.setChannel (fun c hc => by cases hc)
  intro i d hd
  rw [removeChannel_channel] at hd
  exact hnone i d hd

theorem Each.attemptJoin (h : Each P m) {canUse : Bool} {password : String}
    (hjoin : ∀ c c', P c → c.attemptJoin plr canUse password = .ok c' → P c') :
    Each P (m.attemptJoin plr canUse cid password) := by
  unfold ChannelMgr.attemptJoin
  split
  · exact h
  · rename_i c hc
    split
    · exact h
    · rename_i c' hok
      have hnew : Each P ((m.joinedChannel plr cid).setChannel cid (some c')) := by
        refine Each.setChannel (m := m.joinedChannel plr cid) h ?_
        intro d hd
        cases hd
        exact hjoin c c' (h cid c hc) hok
      exact hnew

theorem Each.part (h : Each P m) (hpart : ∀ c c', P c → c.part plr = .ok c' → P c') :
    Each P (m.part conf plr cid) := by
  unfold ChannelMgr.part
  split
  · exact h
  · rename_i c hc
    split
    · exact h
    · rename_i c' hok
      have hnew : Each P ((m.leftChannel (fun p => p == plr) cid).setChannel cid (some c')) := by
        refine Each.setChannel (m := m.leftChannel (fun p => p == plr) cid) h ?_
        intro d hd
        cases hd
        exact hpart c c' (h cid c hc) hok
      split
      · exact hnew.removeChannel
      · exact hnew

theorem Each.logout (h : Each P m) (hpart : ∀ c c', P c → c.part plr = .ok c' → P c') :
    Each P (m.logout conf plr) := by
  have hfold : ∀ (cids : List UInt32) (n : ChannelMgr), Each P n →
      Each P (cids.foldl (fun n cid => n.part conf plr cid) n) := by
    intro cids
    induction cids with
    | nil => exact fun n hn => hn
    | cons cid cids ih => exact fun n hn => ih _ (hn.part hpart)
  exact hfold (m.playerChannels plr) m h

theorem Each.join (h : Each P m) {canUse : Bool} {name password : String} {typeId : UInt32}
    (hnew : ∀ team known, P (.new name team known))
    (hjoin : ∀ c c', P c → c.attemptJoin plr canUse password = .ok c' → P c')
    (hstep : m.join conf plr canUse name typeId password = some m') : Each P m' := by
  unfold ChannelMgr.join at hstep
  split at hstep
  · cases hstep
    exact h.attemptJoin hjoin
  · split at hstep
    · cases hstep
      exact h
    · split at hstep
      · cases hstep
      · cases hstep
        refine Each.attemptJoin ?_ hjoin
        have hcreated : Each P (m.setChannel (m.idHigh + 1)
            (some (.new name (if conf.seperateChannels then conf.team plr else 0)
              (conf.chatChannels typeId)))) := by
          refine h.setChannel ?_
          intro d hd
          cases hd
          exact hnew _ _
        exact hcreated

theorem Each.request (h : Each P m) {r : Channel.Request}
    (hrequest : ∀ c c', m.channel cid = some c → P c → c.handle plr r = .ok c' → P c') :
    Each P (m.request plr cid r) := by
  unfold ChannelMgr.request
  split
  · exact h
  · rename_i c hc
    split
    · exact h
    · rename_i c' hok
      refine h.setChannel ?_
      intro d hd
      cases hd
      exact hrequest c c' hc (h cid c hc) hok

/-! ## The owner -/

/-- Every channel has one owner when it is custom and not empty, and none
when it is general. -/
def AllOwned (m : ChannelMgr) : Prop := Each Channel.Owned m

/-- The members are different players. -/
def Distinct (c : Channel) : Prop := c.keys.Nodup

theorem distinct_attemptJoin {canUse : Bool} {password : String} (h : Distinct c)
    (hjoin : c.attemptJoin plr canUse password = .ok c') : Distinct c' := by
  obtain ⟨hnew, -, hkeys, -⟩ := Channel.attemptJoin_ok hjoin
  exact hkeys.nodup_iff.2 (List.nodup_cons.2 ⟨hnew, h⟩)

theorem distinct_dropMember {flags : UInt32} (h : Distinct c) (hfind : c.find plr = some flags) :
    Distinct (c.dropMember plr flags) :=
  (List.nodup_cons.1 ((Channel.keys_dropMember hfind).nodup_iff.1 h)).2

theorem distinct_part (h : Distinct c) (hpart : c.part plr = .ok c') : Distinct c' := by
  obtain ⟨flags, hfind, rfl⟩ := Channel.part_ok hpart
  exact distinct_dropMember h hfind

theorem distinct_handle {r : Channel.Request} (h : Distinct c) (hok : c.handle plr r = .ok c') :
    Distinct c' := by
  rcases Channel.handle_ok hok with ⟨other, -, howner⟩ | ⟨other, ban, -, hkick⟩ | ⟨-, -, hsame⟩
  · obtain ⟨-, rfl⟩ := Channel.setOwner_ok howner
    unfold Distinct Channel.keys Channel.newOwner
    rw [Channel.keys_passOwner]
    exact h
  · obtain ⟨-, flags, hfind, rfl⟩ := Channel.kick_ok hkick
    exact distinct_dropMember h hfind
  · unfold Distinct
    rw [hsame.keys]
    exact h

theorem owned_part (h : c.Owned) (hpart : c.part plr = .ok c') : c'.Owned := by
  obtain ⟨flags, hfind, rfl⟩ := Channel.part_ok hpart
  exact h.dropMember hfind

theorem owned_new (name : String) (team : Nat) (known : Bool) :
    (Channel.new name team known).Owned :=
  ⟨fun _ => rfl, fun _ hne => absurd rfl hne⟩

end ChannelMgr

/-- An owner who calls `SetOwner` names another member. -/
def Channel.ownerNames (c : Channel) (plr : Nat) : Channel.Request → Bool
  | .setOwner other =>
    !(c.find plr).any (hasFlag · channelFlagOwner) || (other != plr && (c.find other).isSome)
  | _ => true

namespace ChannelMgr

variable {conf : ChannelConf} {m m' : ChannelMgr} {cid : UInt32} {c c' : Channel} {plr : Nat}

/-- The condition on a step. -/
def Named (m : ChannelMgr) : Action → Prop
  | .request plr cid r => (m.channel cid).all (·.ownerNames plr r) = true
  | _ => True

instance (m : ChannelMgr) : (a : Action) → Decidable (m.Named a)
  | .join _ _ _ _ _ => .isTrue trivial
  | .part _ _ => .isTrue trivial
  | .request plr cid r => inferInstanceAs (Decidable
      ((m.channel cid).all (·.ownerNames plr r) = true))
  | .removeChannel _ => .isTrue trivial
  | .logout _ => .isTrue trivial

/-- A request keeps a channel owned when it meets the condition, and only
then. -/
theorem owned_handle {r : Channel.Request} (h : c.Owned) (hd : Distinct c)
    (hok : c.handle plr r = .ok c') : c'.Owned ↔ c.ownerNames plr r = true := by
  rcases Channel.handle_ok hok with ⟨other, rfl, howner⟩ | ⟨other, ban, rfl, hkick⟩ | ⟨hne, -, hsame⟩
  · obtain ⟨⟨flags, hfind, hflag⟩, rfl⟩ := Channel.setOwner_ok howner
    rw [h.newOwner_iff hd hfind hflag, ← Channel.find_isSome]
    unfold Channel.ownerNames
    rw [hfind, Option.any_some, hflag]
    simp
  · obtain ⟨-, flags, hfind, rfl⟩ := Channel.kick_ok hkick
    have hdrop := h.dropMember hfind
    exact iff_of_true ⟨hdrop.general, hdrop.custom⟩ rfl
  · refine iff_of_true (hsame.owned h) ?_
    cases r with
    | setOwner other => exact absurd rfl (hne other)
    | _ => rfl

/-- A request that does not meet the condition is not refused. -/
theorem handle_of_not_named {r : Channel.Request} (h : ¬ c.ownerNames plr r = true) :
    ∃ c', c.handle plr r = .ok c' := by
  cases r with
  | setOwner other =>
    unfold Channel.ownerNames at h
    rw [Bool.not_eq_true, Bool.or_eq_false_iff, Bool.not_eq_false'] at h
    refine ⟨c.newOwner (some other), ?_⟩
    change c.setOwner plr other = _
    unfold Channel.setOwner
    cases hfind : c.find plr with
    | none =>
      rw [hfind] at h
      cases h.1
    | some flags =>
      rw [hfind] at h
      exact if_pos h.1
  | _ => exact absurd rfl h

/-! ## Runs -/

/-- What every run keeps: the members of a channel are different, and it
has its owner. -/
def Kept (c : Channel) : Prop := Distinct c ∧ c.Owned

theorem kept_attemptJoin {canUse : Bool} {password : String} (h : Kept c)
    (hjoin : c.attemptJoin plr canUse password = .ok c') : Kept c' :=
  ⟨distinct_attemptJoin h.1 hjoin, h.2.attemptJoin hjoin⟩

theorem kept_part (h : Kept c) (hpart : c.part plr = .ok c') : Kept c' :=
  ⟨distinct_part h.1 hpart, owned_part h.2 hpart⟩

theorem kept_step {a : Action} (h : Each Kept m) (hok : m.Named a)
    (hstep : m.step conf a = some m') : Each Kept m' := by
  cases a with
  | join plr canUse name typeId password =>
    exact h.join (fun team known => ⟨List.nodup_nil, owned_new name team known⟩)
      (fun c c' => kept_attemptJoin) hstep
  | part plr cid =>
    cases hstep
    exact h.part (fun c c' => kept_part)
  | request plr cid r =>
    cases hstep
    refine h.request ?_
    intro c c' hc hkept hhandle
    change (m.channel cid).all (·.ownerNames plr r) = true at hok
    rw [hc, Option.all_some] at hok
    exact ⟨distinct_handle hkept.1 hhandle, (owned_handle hkept.2 hkept.1 hhandle).2 hok⟩
  | removeChannel cid =>
    cases hstep
    exact h.removeChannel
  | logout plr =>
    cases hstep
    exact h.logout (fun c c' => kept_part)

/-- A step that does not meet the condition leaves a channel without its
owner. -/
theorem not_owned_step {a : Action} (h : Each Kept m) (hbad : ¬ m.Named a)
    (hstep : m.step conf a = some m') : ¬ AllOwned m' := by
  cases a with
  | request plr cid r =>
    cases hstep
    change ¬ (m.channel cid).all (·.ownerNames plr r) = true at hbad
    cases hc : m.channel cid with
    | none =>
      rw [hc] at hbad
      exact absurd rfl hbad
    | some c =>
      rw [hc, Option.all_some] at hbad
      obtain ⟨c', hok⟩ := handle_of_not_named hbad
      intro hall
      refine hbad ((owned_handle (h cid c hc).2 (h cid c hc).1 hok).1 (hall cid c' ?_))
      unfold ChannelMgr.request
      rw [hc]
      dsimp only
      rw [hok]
      exact if_pos rfl
  | join plr canUse name typeId password => exact absurd trivial hbad
  | part plr cid => exact absurd trivial hbad
  | removeChannel cid => exact absurd trivial hbad
  | logout plr => exact absurd trivial hbad

/-- Along every run of steps that meet the condition every channel has its
owner, and the condition is what the next step has to meet. -/
theorem channels_owned {as : List Action}
    (hrun : Run (Guarded Named (PartialStep (step conf))) .init as m) :
    AllOwned m ∧ ∀ a m', m.step conf a = some m' → (AllOwned m' ↔ m.Named a) := by
  have hkept : Each Kept m := by
    refine hrun.invariant (Each Kept) ?_ ?_
    · rintro u a v hinv ⟨hok, hstep⟩
      exact kept_step hinv hok hstep
    · intro cid c hc
      cases hc
  refine ⟨fun cid c hc => (hkept cid c hc).2, ?_⟩
  intro a m' hstep
  constructor
  · intro hall
    by_contra hbad
    exact not_owned_step hkept hbad hstep hall
  · intro hok cid c hc
    exact (kept_step hkept hok hstep cid c hc).2

/-- One list of channels, no banned name, and no general channel. -/
def customOnly : ChannelConf := ⟨false, [], fun _ => false, fun _ => 0⟩

/-- The owner hands the channel on, the new one is kicked, and the first,
who gets it back, leaves. -/
def handedOn : List Action :=
  [.join 1 false "Trade" 0 "", .join 2 true "Trade" 0 "", .join 3 false "Trade" 0 "",
    .request 1 1 (.setOwner 3), .request 2 1 (.kick 3 true), .part 1 1]

theorem channels_owned_handed_on :
    ∃ m, Run (Guarded Named (PartialStep (step customOnly))) .init handedOn m ∧ AllOwned m ∧
      (m.channel 1).map (·.members) = some [(2, 3)] := by
  have hplay : ((handedOn.foldlM (fun m a => if Named m a then m.step customOnly a else none)
      .init).map fun m => (m.channel 1).map (·.members)) = some (some [(2, 3)]) := by decide +kernel
  obtain ⟨m, hm, hmembers⟩ := Option.map_eq_some_iff.1 hplay
  have hrun := Run.of_foldlM hm
  exact ⟨m, hrun, (channels_owned hrun).1, hmembers⟩

/-- The owner of a channel with two members names himself. -/
def namesHimself : List Action :=
  [.join 1 false "Trade" 0 "", .join 2 false "Trade" 0 "", .request 1 1 (.setOwner 1)]

/-- Nobody owns the channel. -/
theorem owner_names_himself :
    ∃ m, namesHimself.foldlM (step customOnly) .init = some m ∧
      (m.channel 1).map (fun c => (c.general, c.members)) = some (false, [(1, 0), (2, 0)]) ∧
      ¬ AllOwned m := by
  have hplay : ((namesHimself.foldlM (step customOnly) .init).map fun m =>
      (m.channel 1).map fun c => (c.general, c.members)) =
        some (some (false, [(1, 0), (2, 0)])) := by decide +kernel
  obtain ⟨m, hm, hchannel⟩ := Option.map_eq_some_iff.1 hplay
  refine ⟨m, hm, hchannel, ?_⟩
  intro hall
  obtain ⟨c, hc, heq⟩ := Option.map_eq_some_iff.1 hchannel
  have hgeneral : c.general = false := congrArg Prod.fst heq
  have hmembers : c.members = [(1, 0), (2, 0)] := congrArg Prod.snd heq
  have hone := (hall 1 c hc).custom hgeneral (by rw [hmembers]; exact List.cons_ne_nil _ _)
  unfold Channel.owners at hone
  rw [hmembers] at hone
  exact absurd hone (by decide +kernel)

end ChannelMgr

end HearthStone
