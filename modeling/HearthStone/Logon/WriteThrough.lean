/-
HearthStone.Logon.WriteThrough — when the cache of the logon server is
what a reload would load.

* `reloadAccounts_find` — what a reload makes of the accounts.
* `coherent_iff` — coherence row by row.
* `Ok` — the requests after which it still holds, for any database.
* `write_through` — every run of such requests, and that any other
  request breaks it.
-/
import HearthStone.Lib.Run
import HearthStone.Logon.AccountCache

namespace HearthStone

namespace Logon

namespace LogonServer

open Lib

variable {s u : LogonServer} {row : AccountRow} {rows : List AccountRow} {name : Text}
  {columns : Columns}

/-- The keys of the tables. -/
structure Keys (s : LogonServer) : Prop where
  accts : (s.accounts.map (·.acct)).Nodup
  logins : (s.accounts.map fun r => toUpper r.login).Nodup
  ips : (s.ipbans.map (·.ip)).Nodup

/-- The row of an account. -/
def rowOf (rows : List AccountRow) (name : Text) : Option AccountRow :=
  rows.find? fun r => decide (toUpper r.login = name)

theorem rowOf_some (h : rowOf rows name = some row) : row ∈ rows ∧ toUpper row.login = name := by
  refine ⟨List.mem_of_find?_eq_some h, ?_⟩
  simpa using List.find?_some h

/-- With the key on the login, a row is the row of its account. -/
theorem rowOf_of_mem (hkey : (rows.map fun r => toUpper r.login).Nodup) (hrow : row ∈ rows) :
    rowOf rows (toUpper row.login) = some row := by
  cases h : rowOf rows (toUpper row.login) with
  | none =>
    unfold rowOf at h
    rw [List.find?_eq_none] at h
    exact absurd (decide_eq_true rfl) (h row hrow)
  | some r =>
    obtain ⟨hr, hlogin⟩ := rowOf_some h
    rw [List.inj_on_of_nodup_map hkey hr hrow hlogin]

/-- An account in memory has the id of its row. -/
def IdsMatch (s : LogonServer) : Prop :=
  ∀ name acct, s.accountDatabase name = some acct →
    ∃ row ∈ s.accounts, toUpper row.login = name ∧ row.acct = acct.accountId

/-! ## What a reload loads -/

theorem reloadRow_eq (h : ∀ acct, s.accountDatabase (toUpper row.login) = some acct →
    row.acct = acct.accountId) : s.reloadRow row = s.addAccount row := by
  unfold reloadRow
  cases hacct : s.accountDatabase (toUpper row.login) with
  | none => rfl
  | some acct =>
    unfold updateAccount
    simp [h acct hacct]

/-- The loop of `ReloadAccounts`: the accounts with a row are loaded, and
the others are not touched. -/
theorem reloadRows_find (hkey : (rows.map fun r => toUpper r.login).Nodup)
    (hids : ∀ row ∈ rows, ∀ acct, s.accountDatabase (toUpper row.login) = some acct →
      row.acct = acct.accountId) (name : Text) :
    (s.reloadRows rows).accountDatabase name =
      ((rowOf rows name).map (AccountRow.load s.now)).or (s.accountDatabase name) := by
  induction rows generalizing s with
  | nil => rfl
  | cons row rows ih =>
    rw [List.map_cons, List.nodup_cons] at hkey
    have hother : ∀ r ∈ rows, toUpper r.login ≠ toUpper row.login := by
      intro r hr heq
      exact hkey.1 (List.mem_map.2 ⟨r, hr, heq⟩)
    have hstep : s.reloadRows (row :: rows) = (s.addAccount row).reloadRows rows := by
      unfold reloadRows
      rw [List.foldl_cons, reloadRow_eq (hids row (List.mem_cons_self ..))]
    have hrest := ih (s := s.addAccount row) hkey.2 (by
      intro r hr acct hacct
      refine hids r (List.mem_cons_of_mem _ hr) acct ?_
      rw [← hacct]
      exact (Function.update_of_ne (hother r hr) _ _).symm)
    rw [hstep, hrest]
    change ((rowOf rows name).map (AccountRow.load s.now)).or
      (Function.update s.accountDatabase (toUpper row.login) (some (row.load s.now)) name) = _
    by_cases hname : toUpper row.login = name
    · subst hname
      have hnone : rowOf rows (toUpper row.login) = none := by
        unfold rowOf
        rw [List.find?_eq_none]
        intro r hr
        simpa using hother r hr
      have hsome : rowOf (row :: rows) (toUpper row.login) = some row := by simp [rowOf]
      rw [hnone, hsome, Function.update_self]
      rfl
    · have hsame : rowOf (row :: rows) name = rowOf rows name := by simp [rowOf, hname]
      rw [hsame, Function.update_of_ne (Ne.symm hname)]

theorem reloadRows_now (rows : List AccountRow) : (s.reloadRows rows).now = s.now := by
  induction rows generalizing s with
  | nil => rfl
  | cons row rows ih =>
    unfold reloadRows at ih ⊢
    rw [List.foldl_cons, ih]
    unfold reloadRow updateAccount
    split
    · rfl
    · split <;> rfl

theorem reloadRows_ipbans (rows : List AccountRow) : (s.reloadRows rows).ipbans = s.ipbans := by
  induction rows generalizing s with
  | nil => rfl
  | cons row rows ih =>
    unfold reloadRows at ih ⊢
    rw [List.foldl_cons, ih]
    unfold reloadRow updateAccount
    split
    · rfl
    · split <;> rfl

theorem reloadAccounts_find (hkeys : Keys s) (hids : IdsMatch s) (name : Text) :
    s.reloadAccounts.accountDatabase name = (rowOf s.accounts name).map (AccountRow.load s.now) := by
  have hmatch : ∀ row ∈ s.accounts, ∀ acct,
      s.accountDatabase (toUpper row.login) = some acct → row.acct = acct.accountId := by
    intro row hrow acct hacct
    obtain ⟨r, hr, hlogin, hid⟩ := hids _ acct hacct
    rw [← hid, List.inj_on_of_nodup_map hkeys.logins hr hrow hlogin]
  change (if name ∈ s.accounts.map (fun row => toUpper row.login) then
    (s.reloadRows s.accounts).accountDatabase name else none) = _
  rw [reloadRows_find hkeys.logins hmatch]
  by_cases hmem : name ∈ s.accounts.map fun row => toUpper row.login
  · obtain ⟨row, hrow, rfl⟩ := List.mem_map.1 hmem
    rw [if_pos hmem, rowOf_of_mem hkeys.logins hrow]
    rfl
  · rw [if_neg hmem]
    cases h : rowOf s.accounts name with
    | none => rfl
    | some row =>
      obtain ⟨hrow, hlogin⟩ := rowOf_some h
      exact absurd (List.mem_map.2 ⟨row, hrow, hlogin⟩) hmem

/-- The cache is what a reload would load; the order of the bans does not
matter. -/
def Coherent (s : LogonServer) : Prop :=
  s.reloadAccounts.accountDatabase = s.accountDatabase ∧ s.reloadAccounts.banList.Perm s.banList

/-- Coherence, account by account. -/
structure Cached (s : LogonServer) : Prop where
  accounts : ∀ name, s.accountDatabase name = (rowOf s.accounts name).map (AccountRow.load s.now)
  bans : (s.ipbans.filterMap IPBanRow.load).Perm s.banList

theorem coherent_iff (hkeys : Keys s) (hids : IdsMatch s) : Coherent s ↔ Cached s := by
  have hfind := reloadAccounts_find hkeys hids
  have hbans : s.reloadAccounts.banList = s.ipbans.filterMap IPBanRow.load := by
    change ((s.reloadRows s.accounts).dropUnknown s.accounts).ipbans.filterMap _ = _
    change (s.reloadRows s.accounts).ipbans.filterMap _ = _
    rw [reloadRows_ipbans]
  unfold Coherent
  rw [hbans]
  constructor
  · rintro ⟨haccounts, hperm⟩
    refine ⟨?_, hperm⟩
    intro name
    rw [← haccounts, hfind name]
  · rintro ⟨haccounts, hperm⟩
    refine ⟨?_, hperm⟩
    funext name
    rw [hfind name, haccounts name]

theorem Cached.idsMatch (h : Cached s) : IdsMatch s := by
  intro name acct hacct
  rw [h.accounts name, Option.map_eq_some_iff] at hacct
  obtain ⟨row, hrow, rfl⟩ := hacct
  exact ⟨row, (rowOf_some hrow).1, (rowOf_some hrow).2, rfl⟩

/-! ## The requests -/

/-- After the request the cache is what a reload would load. -/
def Keeps (columns : Columns) (s : LogonServer) (a : Event) : Prop := Coherent (s.step columns a)

/-- What a request may write: the value that the reload makes of what the
column keeps is the one in memory, and no ban runs out meanwhile. -/
def Ok (columns : Columns) (s : LogonServer) : Event → Prop
  | .request true (.ban account duration reason) => ∀ row ∈ rowOf s.accounts (toUpper account),
      unexpired s.now ((columns.banned duration reason).getD row.banned) = duration
  | .request true (.setGM account gm) => ∀ row ∈ rowOf s.accounts (toUpper account),
      gmFlagsOf ((columns.gm gm).getD row.gm) = gmFlagsOf (toUpper account)
  | .request true (.mute account duration) => ∀ row ∈ rowOf s.accounts (toUpper account),
      unexpired s.now ((columns.muted duration).getD row.muted) = duration
  | .request true (.ipBanAdd ip duration memory) => ∀ _ban ∈ addBan ip memory,
      columns.ipban ip duration = some ⟨ip, memory⟩ ∧ ip ∉ s.ipbans.map (·.ip)
  | .clock now => ∀ row ∈ s.accounts, unexpired now row.banned = unexpired s.now row.banned ∧
      unexpired now row.muted = unexpired s.now row.muted
  | _ => True

theorem toUpper_toUpper (name : Text) : toUpper (toUpper name) = toUpper name := by
  simp [toUpper, Char.toUpper_toUpper_eq_toUpper]

/-- A change of rows that keeps logins and ids. -/
structure KeepsKeys (g : AccountRow → AccountRow) : Prop where
  login : ∀ row, (g row).login = row.login
  acct : ∀ row, (g row).acct = row.acct

variable {g : AccountRow → AccountRow} {f : Account → Account}

theorem rowOf_updateRow (hg : KeepsKeys g) (account name : Text) :
    rowOf (s.updateRow account g) name =
      (rowOf s.accounts name).map fun row => if name = toUpper account then g row else row := by
  have hlogin : ∀ r : AccountRow,
      (if toUpper r.login = toUpper account then g r else r).login = r.login := by
    intro r
    split
    · exact hg.login r
    · rfl
  unfold rowOf updateRow
  rw [List.find?_map]
  have hpred : (fun r : AccountRow => decide (toUpper r.login = name)) ∘
      (fun r => if toUpper r.login = toUpper account then g r else r) =
        fun r => decide (toUpper r.login = name) := by
    funext r
    simp [hlogin r]
  rw [hpred]
  cases h : s.accounts.find? fun r => decide (toUpper r.login = name) with
  | none => rfl
  | some row =>
    obtain ⟨-, rfl⟩ := rowOf_some h
    rfl

theorem keys_updateRow (hkeys : Keys s) (hg : KeepsKeys g) (account : Text)
    (db : Text → Option Account) :
    Keys { s with accountDatabase := db, accounts := s.updateRow account g } := by
  have haccts : (s.updateRow account g).map (·.acct) = s.accounts.map (·.acct) := by
    unfold updateRow
    rw [List.map_map]
    refine List.map_congr_left ?_
    intro r _
    simp only [Function.comp_apply]
    split
    · exact hg.acct r
    · rfl
  have hlogins : ((s.updateRow account g).map fun r => toUpper r.login) =
      s.accounts.map fun r => toUpper r.login := by
    unfold updateRow
    rw [List.map_map]
    refine List.map_congr_left ?_
    intro r _
    simp only [Function.comp_apply]
    split
    · rw [hg.login r]
    · rfl
  refine ⟨?_, ?_, hkeys.ips⟩
  · rw [haccts]
    exact hkeys.accts
  · rw [hlogins]
    exact hkeys.logins

/-- A write to an account and to its row. -/
theorem writeAccount_coherent_iff (hkeys : Keys s) (hs : Cached s) (hg : KeepsKeys g)
    (hf : ∀ acct, (f acct).accountId = acct.accountId) (account : Text) :
    Keys (s.writeAccount (toUpper account) f g) ∧
    IdsMatch (s.writeAccount (toUpper account) f g) ∧
    (Coherent (s.writeAccount (toUpper account) f g) ↔
      ∀ row ∈ rowOf s.accounts (toUpper account), (g row).load s.now = f (row.load s.now)) := by
  have hfind := hs.accounts (toUpper account)
  unfold writeAccount
  cases hrow : rowOf s.accounts (toUpper account) with
  | none =>
    rw [hrow] at hfind
    rw [hfind]
    exact ⟨hkeys, hs.idsMatch, iff_of_true ((coherent_iff hkeys hs.idsMatch).2 hs) (by simp)⟩
  | some row =>
    rw [hrow] at hfind
    rw [hfind]
    dsimp only [Option.map_some]
    have hkeys' := keys_updateRow hkeys hg (toUpper account)
      (Function.update s.accountDatabase (toUpper account) (some (f (row.load s.now))))
    -- the rows of the table after the write
    have hrows : ∀ name, rowOf (s.updateRow (toUpper account) g) name =
        (rowOf s.accounts name).map fun r => if name = toUpper account then g r else r := by
      intro name
      rw [rowOf_updateRow hg, toUpper_toUpper]
    have hids : IdsMatch { s with
        accountDatabase := Function.update s.accountDatabase (toUpper account)
          (some (f (row.load s.now)))
        accounts := s.updateRow (toUpper account) g } := by
      intro name acct hacct
      have hname := hrows name
      by_cases heq : name = toUpper account
      · subst heq
        rw [hrow, Option.map_some, if_pos rfl] at hname
        obtain ⟨hmem, hlogin⟩ := rowOf_some hname
        dsimp only at hacct
        rw [Function.update_self] at hacct
        cases hacct
        refine ⟨_, hmem, hlogin, ?_⟩
        rw [hg.acct, hf]
        rfl
      · dsimp only at hacct
        rw [Function.update_of_ne heq, hs.accounts name, Option.map_eq_some_iff] at hacct
        obtain ⟨r, hr, rfl⟩ := hacct
        rw [hr, Option.map_some, if_neg heq] at hname
        obtain ⟨hmem, hlogin⟩ := rowOf_some hname
        exact ⟨r, hmem, hlogin, rfl⟩
    refine ⟨hkeys', hids, (coherent_iff hkeys' hids).trans ?_⟩
    constructor
    · rintro ⟨haccounts, -⟩ r hr
      cases hr
      have hself := haccounts (toUpper account)
      dsimp only at hself
      rw [Function.update_self, hrows, hrow] at hself
      simpa using hself.symm
    · intro hload
      refine ⟨?_, hs.bans⟩
      intro name
      dsimp only
      rw [hrows name]
      by_cases heq : name = toUpper account
      · subst heq
        rw [Function.update_self, hrow]
        simp [hload row rfl]
      · rw [Function.update_of_ne heq, hs.accounts name]
        simp [heq]

/-! ## The bans -/

theorem ipBanOf_some {ip stmp smask : Text} {expire : UInt32} {ban : IPBan}
    (h : ipBanOf ip stmp smask expire = some ban) :
    ban.dbIp = ip ∧ ∀ expire', ipBanOf ip stmp smask expire' = some { ban with expire := expire' } := by
  unfold ipBanOf at h
  split at h
  · cases h
  · rename_i hne
    cases h
    refine ⟨rfl, fun expire' => ?_⟩
    unfold ipBanOf
    rw [if_neg hne]

theorem load_dbIp {r : IPBanRow} {ban : IPBan} (h : r.load = some ban) :
    ban.dbIp = r.ip ∧ ban.expire = r.expire := by
  have hdb := (ipBanOf_some h).1
  have hexp := (ipBanOf_some h).2 r.expire
  rw [show ipBanOf _ _ _ _ = some ban from h] at hexp
  exact ⟨hdb, congrArg IPBan.expire (Option.some.inj hexp)⟩

/-- A ban is read from its row as it was made, if the row has its values. -/
theorem load_addBan {ip : Text} {expire : UInt32} {ban : IPBan} (h : addBan ip expire = some ban) :
    (⟨ip, expire⟩ : IPBanRow).load = some ban := by
  unfold addBan at h
  split at h
  · rename_i hslash
    unfold IPBanRow.load
    rw [if_pos hslash]
    exact h
  · cases h

theorem addBan_eq {ip : Text} {expire : UInt32} {ban : IPBan} (h : addBan ip expire = some ban) :
    ban.dbIp = ip ∧ ban.expire = expire := load_dbIp (load_addBan h)

theorem not_perm_longer {l l' : List IPBan} (h : l.Perm l') (ban : IPBan) :
    ¬ l.Perm (l' ++ [ban]) := by
  intro hperm
  have hlen := hperm.length_eq
  rw [h.length_eq, List.length_append] at hlen
  simp at hlen

/-- What is added to the table is what was added in memory. -/
theorem ipBanAdd_coherent_iff (hkeys : Keys s) (hs : Cached s) (ip : Text)
    (duration memory : UInt32) :
    Keys (s.modify columns (.ipBanAdd ip duration memory)) ∧
    IdsMatch (s.modify columns (.ipBanAdd ip duration memory)) ∧
    (Coherent (s.modify columns (.ipBanAdd ip duration memory)) ↔ ∀ _ban ∈ addBan ip memory,
      columns.ipban ip duration = some ⟨ip, memory⟩ ∧ ip ∉ s.ipbans.map (·.ip)) := by
  cases hadd : addBan ip memory with
  | none =>
    rw [show s.modify columns (.ipBanAdd ip duration memory) = s by simp [modify, hadd]]
    exact ⟨hkeys, hs.idsMatch, iff_of_true ((coherent_iff hkeys hs.idsMatch).2 hs) (by simp)⟩
  | some ban =>
    obtain ⟨hip, hexp⟩ := addBan_eq hadd
    -- the tables with some other rows of bans
    have hother : ∀ ipbans : List IPBanRow, (ipbans.map (·.ip)).Nodup →
        Keys { s with banList := s.banList ++ [ban], ipbans := ipbans } ∧
        IdsMatch { s with banList := s.banList ++ [ban], ipbans := ipbans } ∧
        (Coherent { s with banList := s.banList ++ [ban], ipbans := ipbans } ↔
          (ipbans.filterMap IPBanRow.load).Perm (s.banList ++ [ban])) := by
      intro ipbans hnodup
      have hkeys' : Keys { s with banList := s.banList ++ [ban], ipbans := ipbans } :=
        ⟨hkeys.accts, hkeys.logins, hnodup⟩
      have hids : IdsMatch { s with banList := s.banList ++ [ban], ipbans := ipbans } :=
        hs.idsMatch
      refine ⟨hkeys', hids, (coherent_iff hkeys' hids).trans ?_⟩
      exact ⟨fun h => h.bans, fun h => ⟨hs.accounts, h⟩⟩
    have hstay : (s.ipbans.filterMap IPBanRow.load).Perm (s.banList ++ [ban]) ↔ False :=
      iff_of_false (not_perm_longer hs.bans ban) id
    rw [show s.modify columns (.ipBanAdd ip duration memory) = { s with
      banList := s.banList ++ [ban]
      ipbans := s.insertBan (columns.ipban ip duration) } by simp [modify, hadd]]
    unfold insertBan
    cases hins : columns.ipban ip duration with
    | none =>
      obtain ⟨hkeys', hids, hiff⟩ := hother s.ipbans hkeys.ips
      exact ⟨hkeys', hids, hiff.trans (hstay.trans (by simp))⟩
    | some row =>
      dsimp only
      by_cases hmem : row.ip ∈ s.ipbans.map (·.ip)
      · rw [if_pos hmem]
        obtain ⟨hkeys', hids, hiff⟩ := hother s.ipbans hkeys.ips
        refine ⟨hkeys', hids, hiff.trans (hstay.trans (iff_of_false id ?_))⟩
        intro hall
        obtain ⟨hrow, hfresh⟩ := hall ban rfl
        cases hrow
        exact hfresh hmem
      · rw [if_neg hmem]
        have hnodup : ((s.ipbans ++ [row]).map (·.ip)).Nodup := by
          rw [List.map_append, List.map_singleton, List.nodup_append_comm]
          exact List.nodup_cons.2 ⟨hmem, hkeys.ips⟩
        obtain ⟨hkeys', hids, hiff⟩ := hother (s.ipbans ++ [row]) hnodup
        refine ⟨hkeys', hids, hiff.trans ?_⟩
        have hcancel : ((s.ipbans ++ [row]).filterMap IPBanRow.load).Perm (s.banList ++ [ban]) ↔
            row.load.toList.Perm [ban] := by
          have hsplit : (s.ipbans ++ [row]).filterMap IPBanRow.load =
              s.ipbans.filterMap IPBanRow.load ++ row.load.toList := by
            rw [List.filterMap_append]
            cases h : row.load with
            | none => simp [h]
            | some b => simp [h]
          rw [hsplit]
          have hleft := hs.bans.append_right row.load.toList
          constructor
          · intro h
            exact (List.perm_append_left_iff s.banList).1 (hleft.symm.trans h)
          · intro h
            exact hleft.trans ((List.perm_append_left_iff s.banList).2 h)
        rw [hcancel]
        constructor
        · intro hperm b hb
          cases hb
          cases hload : row.load with
          | none =>
            rw [hload] at hperm
            simp at hperm
          | some b =>
            rw [hload] at hperm
            obtain rfl : b = ban := by simpa using hperm
            obtain ⟨hrip, hrexp⟩ := load_dbIp hload
            have hrow : row = ⟨ip, memory⟩ := by
              cases row
              rw [IPBanRow.mk.injEq]
              exact ⟨hrip.symm.trans hip, hrexp.symm.trans hexp⟩
            refine ⟨congrArg some hrow, ?_⟩
            rw [hrow] at hmem
            exact hmem
        · intro hall
          obtain ⟨hrow, -⟩ := hall ban rfl
          cases hrow
          rw [load_addBan hadd]
          exact List.Perm.refl _

theorem filterMap_load_filter (ipbans : List IPBanRow) (ip : Text) :
    (ipbans.filter fun row => decide (row.ip ≠ ip)).filterMap IPBanRow.load =
      (ipbans.filterMap IPBanRow.load).filter fun ban => !decide (ban.dbIp = ip) := by
  induction ipbans with
  | nil => rfl
  | cons row ipbans ih =>
    cases hload : row.load with
    | none => by_cases hip : row.ip = ip <;> simp [hload, hip, ← ih]
    | some ban =>
      have hdb := (load_dbIp hload).1
      by_cases hip : row.ip = ip
      · simp [hload, hip, hdb, ← ih]
      · simp [hload, hip, hdb, ← ih]

/-- Where the key is found at most once, erasing the first is removing all. -/
theorem eraseP_eq_filter {l : List IPBan} (ip : Text) (h : (l.map (·.dbIp)).Nodup) :
    (l.eraseP fun ban => decide (ban.dbIp = ip)) = l.filter fun ban => !decide (ban.dbIp = ip) := by
  induction l with
  | nil => rfl
  | cons b l ih =>
    rw [List.map_cons, List.nodup_cons] at h
    by_cases hb : b.dbIp = ip
    · subst hb
      have hrest : (l.filter fun ban => !decide (ban.dbIp = b.dbIp)) = l := by
        rw [List.filter_eq_self]
        intro c hc
        have hne : c.dbIp ≠ b.dbIp := fun heq => h.1 (List.mem_map.2 ⟨c, hc, heq⟩)
        simp [hne]
      simp [hrest]
    · simp [hb, ih h.2]

theorem nodup_load {ipbans : List IPBanRow} (h : (ipbans.map (·.ip)).Nodup) :
    ((ipbans.filterMap IPBanRow.load).map (·.dbIp)).Nodup := by
  induction ipbans with
  | nil => exact List.nodup_nil
  | cons row ipbans ih =>
    rw [List.map_cons, List.nodup_cons] at h
    cases hload : row.load with
    | none =>
      rw [List.filterMap_cons_none hload]
      exact ih h.2
    | some ban =>
      rw [List.filterMap_cons_some hload, List.map_cons, List.nodup_cons]
      refine ⟨?_, ih h.2⟩
      rw [(load_dbIp hload).1]
      intro hmem
      obtain ⟨b, hb, hbip⟩ := List.mem_map.1 hmem
      obtain ⟨r, hr, hrload⟩ := List.mem_filterMap.1 hb
      exact h.1 (List.mem_map.2 ⟨r, hr, (load_dbIp hrload).1.symm.trans hbip⟩)

theorem ipBanRemove_cached (columns : Columns) (hkeys : Keys s) (hs : Cached s) (ip : Text) :
    Keys (s.modify columns (.ipBanRemove ip)) ∧ Cached (s.modify columns (.ipBanRemove ip)) := by
  by_cases hany : (s.banList.any fun ban => decide (ban.dbIp = ip)) = true
  · rw [show s.modify columns (.ipBanRemove ip) = { s with
      banList := s.banList.eraseP fun ban => decide (ban.dbIp = ip)
      ipbans := s.ipbans.filter fun row => decide (row.ip ≠ ip) } from if_pos hany]
    refine ⟨⟨hkeys.accts, hkeys.logins, ?_⟩, hs.accounts, ?_⟩
    · exact hkeys.ips.sublist (List.filter_sublist.map _)
    · have hnodup : (s.banList.map (·.dbIp)).Nodup :=
        (hs.bans.map (·.dbIp)).nodup_iff.1 (nodup_load hkeys.ips)
      rw [filterMap_load_filter, eraseP_eq_filter ip hnodup]
      exact hs.bans.filter _
  · rw [show s.modify columns (.ipBanRemove ip) = s from if_neg hany]
    exact ⟨hkeys, hs⟩

/-! ## Time -/

theorem clock_coherent_iff (hkeys : Keys s) (hs : Cached s) (now : UInt32) :
    Coherent { s with now := now } ↔ ∀ row ∈ s.accounts,
      unexpired now row.banned = unexpired s.now row.banned ∧
        unexpired now row.muted = unexpired s.now row.muted := by
  have hkeys' : Keys { s with now := now } := ⟨hkeys.accts, hkeys.logins, hkeys.ips⟩
  rw [coherent_iff hkeys' hs.idsMatch]
  have hload : ∀ row : AccountRow, row.load now = row.load s.now ↔
      unexpired now row.banned = unexpired s.now row.banned ∧
        unexpired now row.muted = unexpired s.now row.muted := by
    intro row
    simp [AccountRow.load]
  constructor
  · intro hc row hrow
    rw [← hload row]
    have hold := hs.accounts (toUpper row.login)
    have hnew := hc.accounts (toUpper row.login)
    rw [rowOf_of_mem hkeys.logins hrow] at hold
    rw [hold, rowOf_of_mem hkeys.logins hrow] at hnew
    exact (Option.some.inj hnew).symm
  · intro hall
    refine ⟨?_, hs.bans⟩
    intro name
    rw [hs.accounts name]
    cases h : rowOf s.accounts name with
    | none => rfl
    | some row => exact congrArg some ((hload row).2 (hall row (rowOf_some h).1)).symm

/-! ## The runs -/

/-- What any event does to a coherent cache. -/
theorem step_spec (columns : Columns) (hkeys : Keys s) (hs : Cached s) (a : Event) :
    Keys (s.step columns a) ∧ IdsMatch (s.step columns a) ∧
      (Keeps columns s a ↔ Ok columns s a) := by
  have hcoherent : Coherent s := (coherent_iff hkeys hs.idsMatch).2 hs
  have hstay : Keys s ∧ IdsMatch s ∧ (Coherent s ↔ True) :=
    ⟨hkeys, hs.idsMatch, iff_of_true hcoherent trivial⟩
  cases a with
  | clock now =>
    exact ⟨⟨hkeys.accts, hkeys.logins, hkeys.ips⟩, hs.idsMatch, clock_coherent_iff hkeys hs now⟩
  | request allowed r =>
    cases allowed with
    | false => cases r <;> exact hstay
    | true =>
      change Keys (s.modify columns r) ∧ IdsMatch (s.modify columns r) ∧
        (Coherent (s.modify columns r) ↔ Ok columns s (.request true r))
      cases r with
      | ban account duration reason =>
        obtain ⟨h₁, h₂, hiff⟩ := writeAccount_coherent_iff hkeys hs
          (g := fun row => { row with banned := (columns.banned duration reason).getD row.banned })
          (f := fun acct => { acct with banned := duration })
          ⟨fun _ => rfl, fun _ => rfl⟩ (fun _ => rfl) account
        refine ⟨h₁, h₂, hiff.trans ?_⟩
        simp [Ok, AccountRow.load]
      | setGM account gm =>
        obtain ⟨h₁, h₂, hiff⟩ := writeAccount_coherent_iff hkeys hs
          (g := fun row => { row with gm := (columns.gm gm).getD row.gm })
          (f := fun acct => { acct with gmFlags := gmFlagsOf (toUpper account) })
          ⟨fun _ => rfl, fun _ => rfl⟩ (fun _ => rfl) account
        refine ⟨h₁, h₂, hiff.trans ?_⟩
        simp [Ok, AccountRow.load]
      | mute account duration =>
        obtain ⟨h₁, h₂, hiff⟩ := writeAccount_coherent_iff hkeys hs
          (g := fun row => { row with muted := (columns.muted duration).getD row.muted })
          (f := fun acct => { acct with muted := duration })
          ⟨fun _ => rfl, fun _ => rfl⟩ (fun _ => rfl) account
        refine ⟨h₁, h₂, hiff.trans ?_⟩
        simp [Ok, AccountRow.load]
      | ipBanAdd ip duration memory => exact ipBanAdd_coherent_iff hkeys hs ip duration memory
      | ipBanRemove ip =>
        obtain ⟨hkeys', hs'⟩ := ipBanRemove_cached columns hkeys hs ip
        exact ⟨hkeys', hs'.idsMatch,
          iff_of_true ((coherent_iff hkeys' hs'.idsMatch).2 hs') trivial⟩
      | other method => exact hstay

/-- The login and the account a row is loaded as. -/
def signature (now : UInt32) (row : AccountRow) : Text × Account := (row.login, row.load now)

theorem unexpired_zero (now : UInt32) : unexpired now 0 = 0 := by simp [unexpired]

theorem unexpired_eq_self_or (now t : UInt32) : unexpired now t = t ∨ unexpired now t = 0 := by
  unfold unexpired
  split
  · exact .inr rfl
  · exact .inl rfl

/-- Setting to 0 what has run out does not change what is loaded. -/
theorem settle_signature (h : ∀ r ∈ s.accounts, r.acct = row.acct → r.load s.now = row.load s.now) :
    (s.settle row).map (signature s.now) = s.accounts.map (signature s.now) := by
  have hcase : ∀ t t' : UInt32, unexpired s.now t = unexpired s.now t' →
      unexpired s.now (if unexpired s.now t' = t' then t else 0) = unexpired s.now t := by
    intro t t' heq
    split
    · rfl
    · rename_i hne
      rw [unexpired_zero, heq, (unexpired_eq_self_or s.now t').resolve_left hne]
  unfold settle
  rw [List.map_map]
  refine List.map_congr_left ?_
  intro r hr
  simp only [Function.comp_apply]
  split
  · rename_i hacct
    have hload := h r hr hacct
    simp only [AccountRow.load, Account.mk.injEq] at hload
    simp only [signature, AccountRow.load, hcase _ _ hload.2.2.1, hcase _ _ hload.2.2.2]
  · rfl

/-- The loop of `ReloadAccounts` changes rows of the table, but not what
they are loaded as. -/
theorem reloadRows_signature {table : List AccountRow} (haccts : (table.map (·.acct)).Nodup)
    (hsub : ∀ row ∈ rows, row ∈ table)
    (hkey : (rows.map fun r => toUpper r.login).Nodup)
    (hids : ∀ row ∈ rows, ∀ acct, s.accountDatabase (toUpper row.login) = some acct →
      row.acct = acct.accountId)
    (hsig : s.accounts.map (signature s.now) = table.map (signature s.now)) :
    (s.reloadRows rows).accounts.map (signature s.now) = table.map (signature s.now) := by
  induction rows generalizing s with
  | nil => exact hsig
  | cons row rows ih =>
    rw [List.map_cons, List.nodup_cons] at hkey
    have hother : ∀ r ∈ rows, toUpper r.login ≠ toUpper row.login := by
      intro r hr heq
      exact hkey.1 (List.mem_map.2 ⟨r, hr, heq⟩)
    have hsettle : (s.settle row).map (signature s.now) = s.accounts.map (signature s.now) := by
      refine settle_signature ?_
      intro r hr hacct
      -- the row of the table with this id is the one of the result
      have hmem : signature s.now r ∈ table.map (signature s.now) :=
        hsig ▸ List.mem_map.2 ⟨r, hr, rfl⟩
      obtain ⟨r', hr', heq⟩ := List.mem_map.1 hmem
      have hload : r'.load s.now = r.load s.now := congrArg Prod.snd heq
      have hid : r'.acct = row.acct := (congrArg Account.accountId hload).trans hacct
      rw [← hload, List.inj_on_of_nodup_map haccts hr' (hsub row (List.mem_cons_self ..)) hid]
    have hstep : s.reloadRows (row :: rows) = (s.addAccount row).reloadRows rows := by
      unfold reloadRows
      rw [List.foldl_cons, reloadRow_eq (hids row (List.mem_cons_self ..))]
    rw [hstep]
    refine ih (s := s.addAccount row) (fun r hr => hsub r (List.mem_cons_of_mem _ hr)) hkey.2 ?_
      (hsettle.trans hsig)
    intro r hr acct hacct
    refine hids r (List.mem_cons_of_mem _ hr) acct ?_
    rw [← hacct]
    exact (Function.update_of_ne (hother r hr) _ _).symm

theorem map_eq_of_signature {rows' : List AccountRow} {now : UInt32} {β : Type*}
    (h : rows.map (signature now) = rows'.map (signature now)) (F : Text × Account → β) :
    (rows.map fun r => F (signature now r)) = rows'.map fun r => F (signature now r) := by
  have hF := congrArg (List.map F) h
  rw [List.map_map, List.map_map] at hF
  exact hF

theorem rowOf_of_signature {rows' : List AccountRow} {now : UInt32}
    (h : rows.map (signature now) = rows'.map (signature now)) (name : Text) :
    (rowOf rows name).map (AccountRow.load now) = (rowOf rows' name).map (AccountRow.load now) := by
  have hfind : ∀ l : List AccountRow, (rowOf l name).map (AccountRow.load now) =
      ((l.map (signature now)).find? fun x => decide (toUpper x.1 = name)).map (·.2) := by
    intro l
    rw [List.find?_map, Option.map_map]
    rfl
  rw [hfind rows, hfind rows', h]

/-- The server starts with a coherent cache, whatever is in the tables. -/
theorem boot_cached (now : UInt32) {accounts : List AccountRow} {ipbans : List IPBanRow}
    (haccts : (accounts.map (·.acct)).Nodup)
    (hlogins : (accounts.map fun r => toUpper r.login).Nodup)
    (hips : (ipbans.map (·.ip)).Nodup) :
    Keys (boot now accounts ipbans) ∧ Cached (boot now accounts ipbans) := by
  obtain ⟨s₀, hs₀⟩ : ∃ s₀ : LogonServer, s₀ = ⟨now, fun _ => none, accounts, [], ipbans⟩ := ⟨_, rfl⟩
  have hboot : boot now accounts ipbans = s₀.reloadAccounts := by
    rw [hs₀]
    rfl
  have hkeys : Keys s₀ := by
    rw [hs₀]
    exact ⟨haccts, hlogins, hips⟩
  have hids : IdsMatch s₀ := by
    intro name acct hacct
    rw [hs₀] at hacct
    cases hacct
  have hempty : ∀ row ∈ s₀.accounts, ∀ acct, s₀.accountDatabase (toUpper row.login) = some acct →
      row.acct = acct.accountId := by
    intro row _ acct hacct
    rw [hs₀] at hacct
    cases hacct
  have hsig : s₀.reloadAccounts.accounts.map (signature s₀.now) =
      s₀.accounts.map (signature s₀.now) :=
    reloadRows_signature hkeys.accts (fun _ h => h) hkeys.logins hempty rfl
  have hnow : s₀.reloadAccounts.now = s₀.now := reloadRows_now s₀.accounts
  have hipbans : s₀.reloadAccounts.ipbans = s₀.ipbans := reloadRows_ipbans s₀.accounts
  rw [hboot]
  refine ⟨⟨?_, ?_, ?_⟩, ?_, ?_⟩
  · have hmap := map_eq_of_signature hsig fun x => x.2.accountId
    exact (congrArg List.Nodup hmap).mpr hkeys.accts
  · have hmap := map_eq_of_signature hsig fun x => toUpper x.1
    exact (congrArg List.Nodup hmap).mpr hkeys.logins
  · rw [hipbans]
    exact hkeys.ips
  · intro name
    rw [reloadAccounts_find hkeys hids, hnow]
    exact (rowOf_of_signature hsig name).symm
  · exact List.Perm.refl _

/-- From the start of the server, with any tables that have their keys:
after every run of events that meet the condition the cache is what a
reload would load, and the events that keep it so are just those. -/
theorem write_through (columns : Columns) (now : UInt32) (accounts : List AccountRow)
    (ipbans : List IPBanRow) (haccts : (accounts.map (·.acct)).Nodup)
    (hlogins : (accounts.map fun r => toUpper r.login).Nodup)
    (hips : (ipbans.map (·.ip)).Nodup) (as : List Event) (s : LogonServer)
    (hrun : Run (Guarded (Ok columns) (FunStep fun s a => s.step columns a)) (boot now accounts ipbans) as s) :
    Coherent s ∧ ∀ a, Keeps columns s a ↔ Ok columns s a := by
  have hinv : Keys s ∧ Cached s := by
    refine hrun.invariant (fun s => Keys s ∧ Cached s) ?_ (boot_cached now haccts hlogins hips)
    rintro s a t ⟨hkeys, hs⟩ ⟨hok, rfl⟩
    obtain ⟨hkeys', hids, hiff⟩ := step_spec columns hkeys hs a
    exact ⟨hkeys', (coherent_iff hkeys' hids).1 (hiff.2 hok)⟩
  obtain ⟨hkeys, hs⟩ := hinv
  exact ⟨(coherent_iff hkeys hs.idsMatch).2 hs, fun a => (step_spec columns hkeys hs a).2.2⟩

/-! ## The tables of the repository -/

/-- The columns as the tables are made: `banned` is a `tinyint`, `muted` an
`int`, `gm` has ten characters, and a row of `ipbans` has three values, so
that one of two is refused. A number that does not fit is cut down. -/
def tables : Columns where
  banned duration _ := some (min duration 127)
  gm flags := some (flags.take 10)
  muted duration := some (min duration 0x7FFFFFFF)
  ipban _ _ := none

def bob : AccountRow := ⟨1, ['b', 'o', 'b'], ['0'], 0, 0⟩

def localBan : IPBanRow := ⟨['1', '.', '2', '.', '3', '.', '4', '/', '8'], 0⟩

instance (columns : Columns) (s : LogonServer) : (a : Event) → Decidable (Ok columns s a)
  | .request true (.ban account duration reason) => inferInstanceAs (Decidable
      (∀ row ∈ rowOf s.accounts (toUpper account),
        unexpired s.now ((columns.banned duration reason).getD row.banned) = duration))
  | .request true (.setGM account gm) => inferInstanceAs (Decidable
      (∀ row ∈ rowOf s.accounts (toUpper account),
        gmFlagsOf ((columns.gm gm).getD row.gm) = gmFlagsOf (toUpper account)))
  | .request true (.mute account duration) => inferInstanceAs (Decidable
      (∀ row ∈ rowOf s.accounts (toUpper account),
        unexpired s.now ((columns.muted duration).getD row.muted) = duration))
  | .request true (.ipBanAdd ip duration memory) => inferInstanceAs (Decidable
      (∀ _ban ∈ addBan ip memory,
        columns.ipban ip duration = some ⟨ip, memory⟩ ∧ ip ∉ s.ipbans.map (·.ip)))
  | .clock now => inferInstanceAs (Decidable (∀ row ∈ s.accounts,
      unexpired now row.banned = unexpired s.now row.banned ∧
        unexpired now row.muted = unexpired s.now row.muted))
  | .request true (.ipBanRemove _) => .isTrue trivial
  | .request true (.other _) => .isTrue trivial
  | .request false (.ban _ _ _) => .isTrue trivial
  | .request false (.setGM _ _) => .isTrue trivial
  | .request false (.mute _ _) => .isTrue trivial
  | .request false (.ipBanAdd _ _ _) => .isTrue trivial
  | .request false (.ipBanRemove _) => .isTrue trivial
  | .request false (.other _) => .isTrue trivial

/-- Bob is banned for good, muted for a time and freed of his address. -/
def quietDay : List Event :=
  [.request true (.ban ['B', 'o', 'b'] 1 []), .request true (.mute ['b', 'o', 'b'] 2000),
    .request true (.setGM ['e', 'v', 'e'] ['a', 'z']),
    .request true (.ipBanRemove localBan.ip), .clock 1500]

theorem write_through_quietDay : ∃ s,
    Run (Guarded (Ok tables) (FunStep fun s a => s.step tables a)) (boot 1000 [bob] [localBan])
      quietDay s ∧ Coherent s := by
  have hrun : Run (Guarded (Ok tables) (FunStep fun s a => s.step tables a))
      (boot 1000 [bob] [localBan]) quietDay _ :=
    .cons ⟨by decide +kernel, rfl⟩ (.cons ⟨by decide +kernel, rfl⟩ (.cons ⟨by decide +kernel, rfl⟩
      (.cons ⟨by decide +kernel, rfl⟩ (.cons ⟨by decide +kernel, rfl⟩ (.nil _)))))
  exact ⟨_, hrun, (write_through tables 1000 [bob] [localBan] (by decide) (by decide) (by decide)
    quietDay _ hrun).1⟩

/-- GM flags become the name of the account, a ban that has an end is lost
in its column, and a ban of an address is not in the table. -/
theorem flags_are_the_name :
    (((boot 1000 [bob] []).step tables (.request true (.setGM ['b', 'o', 'b'] ['a', 'z']))
      ).accountDatabase ['B', 'O', 'B']).map (·.gmFlags) = some (some ['B', 'O', 'B']) ∧
    ¬ Coherent ((boot 1000 [bob] []).step tables
      (.request true (.setGM ['b', 'o', 'b'] ['a', 'z']))) ∧
    ¬ Coherent ((boot 1000 [bob] []).step tables (.request true (.ban ['b', 'o', 'b'] 5000 []))) ∧
    ¬ Coherent ((boot 1000 [bob] []).step tables (.request true (.ipBanAdd localBan.ip 0 77))) := by
  refine ⟨by decide +kernel, ?_, ?_, ?_⟩
  · intro h
    have hbob := congrArg (Option.map (·.gmFlags)) (congrFun h.1 ['B', 'O', 'B'])
    revert hbob
    decide +kernel
  · intro h
    have hbob := congrArg (Option.map (·.banned)) (congrFun h.1 ['B', 'O', 'B'])
    revert hbob
    decide +kernel
  · intro h
    have hlen := h.2.length_eq
    revert hlen
    decide +kernel

end LogonServer

end Logon

end HearthStone
