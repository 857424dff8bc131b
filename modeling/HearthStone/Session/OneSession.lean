/-
HearthStone.Session.OneSession — one session for each account.

`login` looks for a session of the account in `m_sessions`, but a session
that waits in the queue is not in there, nor is one whose socket left the
queue. The rest keeps the accounts apart by itself.

* `Registry` — the sessions and the entries of `m_sessions` agree, and no
  two sessions have one account. `Registry.allocate`, `Registry.enter` and
  `Registry.delete` are its steps.
* `Inv.welcome` — the first of the queue moves behind those admitted, so
  the two lists together stay in order of arrival.
* `one_session` — the law in every state of a run whose logins find no
  session of the account outside of `m_sessions`.
-/
import HearthStone.Lib.Run
import HearthStone.Session.World

namespace HearthStone.Sessions

open Lib

/-! ## Sessions and entries -/

structure Registry (live : List WorldSession) (next : Nat) (sessions : AList fun _ : Nat => Nat) :
    Prop where
  ids : (live.map WorldSession.id).Nodup
  bound : ∀ S ∈ live, S.id < next
  accounts : (live.map WorldSession.account).Nodup
  entry : ∀ a i, sessions.lookup a = some i ↔
    ∃ S ∈ live, S.id = i ∧ S.account = a ∧ S.entered = true
  fromQueue : ∀ S ∈ live, S.fromQueue = true → S.entered = true

variable {live : List WorldSession} {next : Nat} {sessions : AList fun _ : Nat => Nat}
  {S : WorldSession}

theorem registry_nil : Registry [] 0 ∅ := by
  constructor <;> simp

/-- A session is known by its id. -/
theorem Registry.eq_of_id (h : Registry live next sessions) {T : WorldSession} (hS : S ∈ live)
    (hT : T ∈ live) (hid : S.id = T.id) : S = T :=
  List.inj_on_of_nodup_map h.ids hS hT hid

/-- A session is known by its account. -/
theorem Registry.eq_of_account (h : Registry live next sessions) {T : WorldSession}
    (hS : S ∈ live) (hT : T ∈ live) (haccount : S.account = T.account) : S = T :=
  List.inj_on_of_nodup_map h.accounts hS hT haccount

/-- Writes that leave id, account and the two marks of a session alone. -/
theorem Registry.map (h : Registry live next sessions) {g : WorldSession → WorldSession}
    (hid : ∀ S, (g S).id = S.id) (haccount : ∀ S, (g S).account = S.account)
    (hentered : ∀ S, (g S).entered = S.entered) (hqueue : ∀ S, (g S).fromQueue = S.fromQueue) :
    Registry (live.map g) next sessions where
  ids := by
    have hsame : (live.map g).map WorldSession.id = live.map WorldSession.id := by
      simp [Function.comp_def, hid]
    rw [hsame]
    exact h.ids
  bound := by
    intro S hS
    obtain ⟨T, hT, rfl⟩ := List.mem_map.1 hS
    rw [hid]
    exact h.bound T hT
  accounts := by
    have hsame : (live.map g).map WorldSession.account = live.map WorldSession.account := by
      simp [Function.comp_def, haccount]
    rw [hsame]
    exact h.accounts
  entry := by
    intro a i
    rw [h.entry]
    simp [hid, haccount, hentered]
  fromQueue := by
    intro S hS hfrom
    obtain ⟨T, hT, rfl⟩ := List.mem_map.1 hS
    rw [hqueue] at hfrom
    rw [hentered]
    exact h.fromQueue T hT hfrom

/-- `new WorldSession` for an account that has none. -/
theorem Registry.allocate (h : Registry live next sessions) {account s : Nat} {gm : Bool}
    (hnone : ∀ S ∈ live, S.account ≠ account) :
    Registry (live ++ [⟨next, account, some s, gm, false, false⟩]) (next + 1) sessions where
  ids := by
    rw [List.map_append, List.map_singleton, List.nodup_append]
    refine ⟨h.ids, List.nodup_singleton _, ?_⟩
    intro a ha b hb
    obtain ⟨S, hS, rfl⟩ := List.mem_map.1 ha
    rw [List.mem_singleton.1 hb]
    exact Nat.ne_of_lt (h.bound S hS)
  bound := by
    intro S hS
    rcases List.mem_append.1 hS with hold | hnew
    · exact Nat.lt_succ_of_lt (h.bound S hold)
    · rw [List.mem_singleton.1 hnew]
      exact Nat.lt_succ_self next
  accounts := by
    rw [List.map_append, List.map_singleton, List.nodup_append]
    refine ⟨h.accounts, List.nodup_singleton _, ?_⟩
    intro a ha b hb
    obtain ⟨S, hS, rfl⟩ := List.mem_map.1 ha
    rw [List.mem_singleton.1 hb]
    exact hnone S hS
  entry := by
    intro a i
    rw [h.entry]
    constructor
    · rintro ⟨S, hS, hrest⟩
      exact ⟨S, List.mem_append_left _ hS, hrest⟩
    · rintro ⟨S, hS, hid, haccount, hentered⟩
      rcases List.mem_append.1 hS with hold | hnew
      · exact ⟨S, hold, hid, haccount, hentered⟩
      · rw [List.mem_singleton.1 hnew] at hentered
        cases hentered
  fromQueue := by
    intro S hS hfrom
    rcases List.mem_append.1 hS with hold | hnew
    · exact h.fromQueue S hold hfrom
    · rw [List.mem_singleton.1 hnew] at hfrom
      cases hfrom

/-- A session is entered into `m_sessions`. -/
theorem Registry.enter (h : Registry live next sessions) (hS : S ∈ live) (fromQueue : Bool) :
    Registry
      (live.map fun T => if T.id = S.id then { T with entered := true, fromQueue } else T)
      next (sessions.insert S.account S.id) where
  ids := by
    have hsame : (live.map fun T => if T.id = S.id then { T with entered := true, fromQueue }
        else T).map WorldSession.id = live.map WorldSession.id := by
      rw [List.map_map]
      refine List.map_congr_left ?_
      intro T _
      dsimp only [Function.comp_apply]
      split_ifs <;> rfl
    rw [hsame]
    exact h.ids
  bound := by
    intro T' hT'
    obtain ⟨T, hT, rfl⟩ := List.mem_map.1 hT'
    have hbound := h.bound T hT
    split_ifs <;> exact hbound
  accounts := by
    have hsame : (live.map fun T => if T.id = S.id then { T with entered := true, fromQueue }
        else T).map WorldSession.account = live.map WorldSession.account := by
      rw [List.map_map]
      refine List.map_congr_left ?_
      intro T _
      dsimp only [Function.comp_apply]
      split_ifs <;> rfl
    rw [hsame]
    exact h.accounts
  entry := by
    intro a i
    by_cases ha : a = S.account
    · subst ha
      rw [AList.lookup_insert]
      constructor
      · intro hi
        refine ⟨{ S with entered := true, fromQueue }, ?_, Option.some.inj hi, rfl, rfl⟩
        exact List.mem_map.2 ⟨S, hS, if_pos rfl⟩
      · rintro ⟨T', hT', hid, haccount, -⟩
        obtain ⟨T, hT, rfl⟩ := List.mem_map.1 hT'
        have haccount' : T.account = S.account := by
          revert haccount
          split_ifs <;> exact id
        have hTS := h.eq_of_account hT hS haccount'
        subst hTS
        rw [if_pos rfl] at hid
        exact congrArg some hid
    · rw [AList.lookup_insert_ne ha, h.entry]
      constructor
      · rintro ⟨T, hT, hid, haccount, hentered⟩
        have hne : T.id ≠ S.id := by
          intro heq
          rw [h.eq_of_id hT hS heq] at haccount
          exact ha haccount.symm
        exact ⟨T, List.mem_map.2 ⟨T, hT, if_neg hne⟩, hid, haccount, hentered⟩
      · rintro ⟨T', hT', hid, haccount, hentered⟩
        obtain ⟨T, hT, rfl⟩ := List.mem_map.1 hT'
        by_cases hne : T.id = S.id
        · rw [if_pos hne] at haccount
          rw [h.eq_of_id hT hS hne] at haccount
          exact absurd haccount.symm ha
        · rw [if_neg hne] at hid haccount hentered
          exact ⟨T, hT, hid, haccount, hentered⟩
  fromQueue := by
    intro T' hT'
    obtain ⟨T, hT, rfl⟩ := List.mem_map.1 hT'
    have hold := h.fromQueue T hT
    split_ifs
    · exact fun _ => rfl
    · exact hold

/-- `DeleteGlobalSession` erases the entry of no other session. -/
theorem Registry.delete (h : Registry live next sessions) (hS : S ∈ live) :
    Registry (live.filter fun T => T.id ≠ S.id) next (sessions.erase S.account) where
  ids := h.ids.sublist ((List.filter_sublist).map _)
  bound := fun T hT => h.bound T (List.mem_of_mem_filter hT)
  accounts := h.accounts.sublist ((List.filter_sublist).map _)
  entry := by
    intro a i
    by_cases ha : a = S.account
    · subst ha
      rw [AList.lookup_erase]
      constructor
      · intro hi
        cases hi
      · rintro ⟨T, hT, -, haccount, -⟩
        have hTS := h.eq_of_account (List.mem_of_mem_filter hT) hS haccount
        rw [hTS] at hT
        simp at hT
    · rw [AList.lookup_erase_ne ha, h.entry]
      constructor
      · rintro ⟨T, hT, hid, haccount, hentered⟩
        have hne : T.id ≠ S.id := by
          intro heq
          rw [h.eq_of_id hT hS heq] at haccount
          exact ha haccount.symm
        exact ⟨T, List.mem_filter.2 ⟨hT, by simpa using hne⟩, hid, haccount, hentered⟩
      · rintro ⟨T, hT, hrest⟩
        exact ⟨T, List.mem_of_mem_filter hT, hrest⟩
  fromQueue := fun T hT => h.fromQueue T (List.mem_of_mem_filter hT)

/-- Every session that came through the queue has an entry. -/
theorem Registry.countP_fromQueue_le (h : Registry live next sessions) :
    live.countP WorldSession.fromQueue ≤ sessions.entries.length := by
  have hnodup : ((live.filter WorldSession.fromQueue).map WorldSession.account).Nodup :=
    h.accounts.sublist ((List.filter_sublist).map _)
  have hsub : (live.filter WorldSession.fromQueue).map WorldSession.account ⊆ sessions.keys := by
    intro a ha
    obtain ⟨S, hS, rfl⟩ := List.mem_map.1 ha
    obtain ⟨hlive, hfrom⟩ := List.mem_filter.1 hS
    have hentry := (h.entry S.account S.id).2 ⟨S, hlive, rfl, rfl, h.fromQueue S hlive hfrom⟩
    have hmem : S.account ∈ sessions := by
      rw [← AList.lookup_isSome, hentry]
      rfl
    exact hmem
  have hlength := (List.subperm_of_subset hnodup hsub).length_le
  rw [List.length_map, ← List.countP_eq_length_filter] at hlength
  simpa [AList.keys, List.keys] using hlength

namespace World

/-! ## The law -/

structure OneSession (w : World) : Prop where
  /-- no two sessions have one account -/
  single : (w.live.map WorldSession.account).Nodup
  /-- the entry of an account is its session -/
  entry : ∀ S ∈ w.live, ∀ i, w.findSession S.account = some i → i = S.id
  /-- to delete a session leaves the entries of the others -/
  apart : ∀ S ∈ w.live, ∀ T ∈ w.live, T ≠ S →
    (w.deleteGlobalSession S).findSession T.account = w.findSession T.account
  /-- those who came through the queue are within the limit -/
  limit : w.live.countP WorldSession.fromQueue ≤ w.playerLimit
  /-- those admitted, and behind them those who wait, are in order of
  arrival -/
  order : (w.admitted ++ w.queued).Sublist w.arrived

/-- A login that finds no entry is for an account without a session. -/
def Good (w : World) : Event → Prop
  | .login s account _ proof =>
    (w.socket s).authed = false → (w.socket s).connected = true → proof = true →
      w.findSession account = none → ∀ S ∈ w.live, S.account ≠ account
  | _ => True

instance (w : World) : (e : Event) → Decidable (w.Good e)
  | .login .. => inferInstanceAs (Decidable (_ → _ → _ → _ → ∀ S ∈ w.live, _))
  | .updateQueue _ | .disconnect _ | .delete _ => .isTrue trivial

/-! ## The invariant -/

structure Inv (w : World) : Prop where
  registry : Registry w.live w.next w.sessions
  limit : w.live.countP WorldSession.fromQueue ≤ w.playerLimit
  order : (w.admitted ++ w.queued).Sublist w.arrived

variable {w : World} {s i account : Nat} {sock : WorldSocket} {gm proof : Bool}

theorem inv_start (playerLimit interval : Nat) : (start playerLimit interval).Inv :=
  ⟨registry_nil, Nat.zero_le _, List.Sublist.refl _⟩

theorem Inv.oneSession (h : w.Inv) : w.OneSession where
  single := h.registry.accounts
  entry := by
    intro S hS i hi
    obtain ⟨T, hT, hid, haccount, -⟩ := (h.registry.entry S.account i).1 hi
    rw [← hid, h.registry.eq_of_account hT hS haccount]
  apart := by
    intro S hS T hT hne
    have haccount : T.account ≠ S.account :=
      fun heq => hne (h.registry.eq_of_account hT hS heq)
    exact AList.lookup_erase_ne haccount
  limit := h.limit
  order := h.order

theorem Inv.setSocket (h : w.Inv) : (w.setSocket s sock).Inv :=
  ⟨h.registry, h.limit, h.order⟩

theorem get_mem (hget : w.get i = some S) : S ∈ w.live ∧ S.id = i := by
  refine ⟨List.mem_of_find?_eq_some hget, ?_⟩
  simpa using List.find?_some hget

/-! ## The ends -/

theorem Inv.dropSocket (h : w.Inv) (session : Option Nat) : (w.dropSocket session).Inv := by
  cases session with
  | none => exact h
  | some i =>
    refine ⟨h.registry.map ?_ ?_ ?_ ?_, ?_, h.order⟩
    · intro S
      split_ifs <;> rfl
    · intro S
      split_ifs <;> rfl
    · intro S
      split_ifs <;> rfl
    · intro S
      split_ifs <;> rfl
    · have hsame : WorldSession.fromQueue ∘ (fun S : WorldSession =>
          if S.id = i then { S with socket := none } else S) = WorldSession.fromQueue := by
        funext S
        dsimp only [Function.comp_apply]
        split_ifs <;> rfl
      change (w.live.map _).countP _ ≤ w.playerLimit
      rw [List.countP_map, hsame]
      exact h.limit

theorem Inv.removeQueuedSocket (h : w.Inv) : (w.removeQueuedSocket s).Inv := by
  refine ⟨h.registry, h.limit, ?_⟩
  exact ((List.Sublist.refl w.admitted).append List.erase_sublist).trans h.order

theorem Inv.onDisconnect (h : w.Inv) : (w.onDisconnect s).Inv := by
  unfold World.onDisconnect
  refine Inv.setSocket ?_
  split_ifs
  · exact (h.dropSocket _).removeQueuedSocket
  · exact h.dropSocket _

theorem Inv.disconnectSession (h : w.Inv) : (w.disconnectSession S).Inv := by
  unfold World.disconnectSession
  split
  · exact h
  · split_ifs
    · exact h.onDisconnect
    · exact h

theorem forget_eq (w : World) (S : WorldSession) :
    ∃ socket, w.forget S = { w with socket } := by
  unfold forget
  split
  · exact ⟨w.socket, rfl⟩
  · exact ⟨_, rfl⟩

theorem Inv.deleteGlobalSession (h : w.Inv) (hS : S ∈ w.live) : (w.deleteGlobalSession S).Inv := by
  obtain ⟨socket, heq⟩ := forget_eq w S
  unfold World.deleteGlobalSession
  rw [heq]
  refine ⟨h.registry.delete hS, ?_, h.order⟩
  exact (List.filter_sublist.countP_le).trans h.limit

/-! ## The ways in -/

theorem length_insert_le (sessions : AList fun _ : Nat => Nat) (a i : Nat) :
    (sessions.insert a i).entries.length ≤ sessions.entries.length + 1 := by
  have herase : (List.kerase a sessions.entries).length ≤ sessions.entries.length :=
    (List.kerase_sublist a sessions.entries).length_le
  simpa [AList.insert, List.kinsert] using herase

/-- Who enters from the queue finds room; nobody else takes a place of the
queue. -/
theorem Inv.authenticate (h : w.Inv) {fromQueue : Bool}
    (hroom : fromQueue = true → w.sessions.entries.length < w.playerLimit) :
    (w.authenticate s fromQueue).Inv := by
  unfold World.authenticate
  split
  · exact h.setSocket
  · next i hi =>
    split
    · exact h.setSocket
    · next S hget =>
      obtain ⟨hS, rfl⟩ := get_mem hget
      have henter := h.registry.enter hS fromQueue
      refine ⟨henter, ?_, h.order⟩
      cases fromQueue with
      | true =>
        have hcount := henter.countP_fromQueue_le
        have hlength := length_insert_le w.sessions S.account S.id
        have hless := hroom rfl
        exact hcount.trans (hlength.trans hless)
      | false =>
        refine le_trans ?_ h.limit
        change (w.live.map _).countP _ ≤ _
        rw [List.countP_map]
        refine List.countP_mono_left ?_
        intro T _ hT
        dsimp only [Function.comp_apply] at hT
        split_ifs at hT
        exact hT

theorem Inv.allocate (h : w.Inv) (hnone : ∀ S ∈ w.live, S.account ≠ account) :
    (w.allocate s account gm).Inv := by
  refine ⟨h.registry.allocate hnone, ?_, h.order⟩
  change (w.live ++ [_]).countP _ ≤ w.playerLimit
  simpa using h.limit

theorem Inv.addQueuedSocket (h : w.Inv) : (w.addQueuedSocket s).Inv := by
  refine ⟨h.registry, h.limit, ?_⟩
  change (w.admitted ++ (w.queued ++ [s])).Sublist (w.arrived ++ [s])
  rw [← List.append_assoc]
  exact h.order.append (List.Sublist.refl [s])

theorem Inv.informationRetreiveCallback (h : w.Inv)
    (hnone : proof = true → w.findSession account = none → ∀ S ∈ w.live, S.account ≠ account) :
    (w.informationRetreiveCallback s account gm proof).Inv := by
  unfold World.informationRetreiveCallback
  split
  · split
    · exact h
    · exact h.disconnectSession
  · next hfind =>
    split_ifs with hproof hroom
    · exact (h.allocate (hnone hproof hfind)).authenticate (fun hfrom => by cases hfrom)
    · exact (h.allocate (hnone hproof hfind)).addQueuedSocket
    · exact h

theorem Inv.login (h : w.Inv) (hgood : w.Good (.login s account gm proof)) :
    (w.login s account gm proof).Inv := by
  unfold World.login
  split_ifs with htaken
  · exact h
  · rw [not_or] at htaken
    refine Inv.informationRetreiveCallback h.setSocket ?_
    exact hgood (by simpa using htaken.1) (by simpa using htaken.2)

/-- `Authenticate` leaves the queue and its records alone. -/
theorem authenticate_queue (w : World) (s : Nat) (fromQueue : Bool) :
    (w.authenticate s fromQueue).queued = w.queued ∧
      (w.authenticate s fromQueue).admitted = w.admitted ∧
      (w.authenticate s fromQueue).arrived = w.arrived := by
  unfold World.authenticate
  split
  · exact ⟨rfl, rfl, rfl⟩
  · split <;> exact ⟨rfl, rfl, rfl⟩

/-- The first of the queue moves from its head to the end of those
admitted. -/
theorem Inv.welcome {rest : List Nat} (h : { w with queued := s :: rest }.Inv)
    (hroom : w.sessions.entries.length < w.playerLimit) :
    ({ w with queued := rest }.welcome s).Inv ∧
      ({ w with queued := rest }.welcome s).queued = rest := by
  have hrest : { w with queued := rest }.Inv := by
    refine ⟨h.registry, h.limit, ?_⟩
    exact ((List.Sublist.refl w.admitted).append (List.sublist_cons_self s rest)).trans h.order
  have hauth : ({ w with queued := rest }.authenticate s true).Inv :=
    hrest.authenticate (fun _ => hroom)
  obtain ⟨hqueued, hadmitted, harrived⟩ := authenticate_queue { w with queued := rest } s true
  unfold World.welcome
  split
  · exact ⟨hrest, rfl⟩
  · refine ⟨⟨hauth.registry, hauth.limit, ?_⟩, hqueued⟩
    change (_ ++ [s] ++ ({ w with queued := rest }.authenticate s true).queued).Sublist
      ({ w with queued := rest }.authenticate s true).arrived
    rw [hqueued, harrived, List.append_assoc]
    exact h.order

/-- By induction on the queue. -/
theorem Inv.admitLoop {queue : List Nat} (h : { w with queued := queue }.Inv) :
    (admitLoop queue w).Inv := by
  induction queue generalizing w with
  | nil => exact h
  | cons s rest ih =>
    unfold World.admitLoop
    split_ifs with hroom
    · obtain ⟨hinv, hqueued⟩ := h.welcome hroom
      generalize World.welcome { w with queued := rest } s = v at hinv hqueued ⊢
      subst hqueued
      exact ih hinv
    · exact h

theorem Inv.updateQueuedSessions (h : w.Inv) {diff : Nat} : (w.updateQueuedSessions diff).Inv := by
  unfold World.updateQueuedSessions
  split_ifs
  · exact Inv.admitLoop ⟨h.registry, h.limit, h.order⟩
  · exact ⟨h.registry, h.limit, h.order⟩

/-! ## Runs -/

/-- The step lemma. -/
theorem Inv.step (h : w.Inv) {e : Event} (hgood : w.Good e) : (w.step e).Inv := by
  cases e with
  | login s account gm proof => exact h.login hgood
  | updateQueue diff => exact h.updateQueuedSessions
  | disconnect s => exact h.onDisconnect
  | delete i =>
    unfold World.step
    dsimp only
    split
    · exact h
    · next S hget =>
      split_ifs
      · exact h.deleteGlobalSession (get_mem hget).1
      · exact h

/-- Where a login that finds no entry is for an account without a session,
every state reached has the law. -/
theorem one_session (playerLimit interval : Nat) (es : List Event) (w : World)
    (hrun : Run (Guarded Good (FunStep step)) (start playerLimit interval) es w) :
    w.OneSession := by
  have hinv : w.Inv := by
    refine hrun.invariant Inv ?_ (inv_start playerLimit interval)
    rintro s e t hs ⟨hgood, rfl⟩
    exact hs.step hgood
  exact hinv.oneSession

/-! ## A world for one -/

/-- The account 10 plays, 20 and 30 wait and come in when there is room;
an account that plays already is turned away. -/
def evening : List Event :=
  [.login 1 10 false true, .login 2 20 false true, .login 3 30 false true, .login 4 10 false true,
    .delete 0, .updateQueue 60, .disconnect 2, .delete 1, .updateQueue 60]

theorem one_session_evening : ∃ w,
    Run (Guarded Good (FunStep step)) (start 1 60) evening w ∧ w.OneSession ∧
      w.admitted = [2, 3] := by
  have hrun : Run (Guarded Good (FunStep step)) (start 1 60) evening _ :=
    .cons ⟨by decide +kernel, rfl⟩ (.cons ⟨by decide +kernel, rfl⟩ (.cons ⟨by decide +kernel, rfl⟩
      (.cons ⟨by decide +kernel, rfl⟩ (.cons ⟨by decide +kernel, rfl⟩
        (.cons ⟨by decide +kernel, rfl⟩ (.cons ⟨by decide +kernel, rfl⟩
          (.cons ⟨by decide +kernel, rfl⟩ (.cons ⟨by decide +kernel, rfl⟩ (.nil _)))))))))
  exact ⟨_, hrun, one_session 1 60 evening _ hrun, by decide +kernel⟩

/-- One account waits on two sockets and enters twice when two players
have gone: deleting its first session erases the entry of its second. A
socket that leaves the queue leaves its session behind, and the account
gets another. -/
theorem account_waits_twice :
    (∃ w, Run (FunStep step) (start 2 60)
      [.login 1 10 false true, .login 2 20 false true, .login 3 30 false true,
        .login 4 30 false true, .delete 0, .delete 1, .updateQueue 60] w ∧
      ¬ w.OneSession ∧ w.findSession 30 = some 3 ∧ (w.step (.delete 2)).findSession 30 = none) ∧
    (∃ w, Run (FunStep step) (start 1 60)
      [.login 1 10 false true, .login 2 20 false true, .disconnect 2, .login 3 20 false true] w ∧
      ¬ w.OneSession) := by
  constructor
  · refine ⟨_, Run.foldl step _ _, ?_, by decide +kernel, by decide +kernel⟩
    intro h
    have hone := h.single
    revert hone
    decide +kernel
  · refine ⟨_, Run.foldl step _ _, ?_⟩
    intro h
    have hone := h.single
    revert hone
    decide +kernel

end World

end HearthStone.Sessions
