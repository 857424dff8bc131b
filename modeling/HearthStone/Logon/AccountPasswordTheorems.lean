/-
HearthStone.Logon.AccountPasswordTheorems — which password hashes survive
being loaded.

A number has no leading zeros, so a hash whose first byte is 0 has fewer than
20 bytes, is taken for a password and hashed again. The branch that would
fill in the zeros stands behind a test that has ruled them out.

* `srpHashOf_steady_iff` — a hash is loaded as it is and left alone exactly
  when it is `Steady`.
* `shows_reloadAccounts` — what one reload makes of an account.
* `reloads_loaded_iff` — every reload leaves what is expected exactly when
  the row `Meets` the condition.
-/
import HearthStone.Logon.AccountPassword

namespace HearthStone.Logon.Password

open Lib
open Database (cString)

variable {sha : Text → Digest} {upper : Text → Text} {fresh : Text → Digest} {s s' : Server}
  {row r : Row} {p : Text} {h d : Digest} {c : Option Account} {acct : Account}

/-! ## The number of a password -/

theorem getNumBytes_eq_twenty_iff {n : Nat} :
    getNumBytes n = 20 ↔ 16 ^ 38 ≤ n ∧ ¬ 16 ^ 40 ≤ n := by
  have hlow : (256 : Nat) ^ 19 = 16 ^ 38 := by norm_num
  have hhigh : (256 : Nat) ^ 20 = 16 ^ 40 := by norm_num
  rw [← hlow, ← hhigh, not_le]
  exact length_minBytes_eq_iff

theorem isHexDigit_minus : isHexDigit '-' = false := by decide

theorem isHexDigit_nul : isHexDigit '\x00' = false := by decide

theorem toUpper_minus_iff (c : Char) : c.toUpper = '-' ↔ c = '-' := by
  have hupper := toNat_toUpper c
  have hm : '-'.toNat = 45 := rfl
  have ha : 'a'.toNat = 97 := rfl
  have hz : 'z'.toNat = 122 := rfl
  have hnat : c.toUpper.toNat = 45 ↔ c.toNat = 45 := by
    rw [hupper, ha, hz]
    split_ifs <;> omega
  rw [← Char.toNat_inj, ← Char.toNat_inj, hm]
  exact hnat

theorem skipMinus_toUpper (p : Text) : skipMinus (toUpper p) = toUpper (skipMinus p) := by
  unfold skipMinus toUpper
  cases p with
  | nil => rfl
  | cons c p =>
    simp only [List.map_cons, List.head?_cons, Option.some.injEq, toUpper_minus_iff, List.tail_cons]
    by_cases h : c = '-'
    · rw [if_pos h, if_pos h]
    · rw [if_neg h, if_neg h, List.map_cons]

theorem leadingDigits_toUpper (p : Text) :
    leadingDigits (toUpper p) = (leadingDigits p).map Char.toUpper := by
  have hdigit : isHexDigit ∘ Char.toUpper = isHexDigit := funext isHexDigit_toUpper
  rw [leadingDigits, skipMinus_toUpper, toUpper, List.takeWhile_map, hdigit, leadingDigits]

/-- The digits end before a 0. -/
theorem takeWhile_cString (p : Text) :
    (cString p).takeWhile isHexDigit = p.takeWhile isHexDigit := by
  unfold cString
  rw [List.takeWhile_takeWhile]
  congr 1
  funext c
  by_cases hc : c = '\x00'
  · subst hc
    decide
  · simp [hc]

theorem leadingDigits_cString (p : Text) : leadingDigits (cString p) = leadingDigits p := by
  have hskip : skipMinus (cString p) = cString (skipMinus p) := by
    unfold skipMinus cString
    cases p with
    | nil => rfl
    | cons c p =>
      by_cases hc : c = '\x00'
      · subst hc
        simp
      · by_cases hm : c = '-'
        · simp [hm]
        · simp [hc, hm]
  rw [leadingDigits, hskip, takeWhile_cString, leadingDigits]

/-- Neither the case nor what stands behind a 0 changes the number. -/
theorem setHexStr_upperPassword (row : Row) :
    setHexStr row.upperPassword = hexValue (leadingDigits row.password) := by
  rw [setHexStr, Row.upperPassword, leadingDigits_toUpper, leadingDigits_cString,
    hexValue_map_toUpper]

/-- The text begins with digits that fill 20 bytes. -/
def LooksHashed (p : Text) : Prop :=
  (significant (leadingDigits p)).length = 39 ∨ (significant (leadingDigits p)).length = 40

instance (p : Text) : Decidable (LooksHashed p) := inferInstanceAs (Decidable (_ ∨ _))

theorem looksHashed_iff : LooksHashed row.password ↔
    getNumBytes (setHexStr row.upperPassword) = 20 := by
  have hdigits : ∀ c ∈ leadingDigits row.password, isHexDigit c = true :=
    fun c hc => List.mem_takeWhile_imp hc
  rw [setHexStr_upperPassword, getNumBytes_eq_twenty_iff, pow_le_hexValue_iff hdigits,
    pow_le_hexValue_iff hdigits, LooksHashed]
  omega

theorem converts_iff : converts true row = true ↔ ¬ LooksHashed row.password := by
  rw [looksHashed_iff]
  simp [converts]

/-! ## Stored hashes -/

/-- The hash whose 40 digits a password is. -/
def storedHash (p : Text) : Option Digest :=
  (hexBytes? p).bind fun bs => if h : bs.length = 20 then some ⟨bs, h⟩ else none

theorem hexBytes?_of_storedHash (hp : storedHash p = some h) : hexBytes? p = some h.bytes := by
  obtain ⟨bs, hbs, hlength⟩ := Option.bind_eq_some_iff.1 hp
  split at hlength
  · obtain rfl := Option.some.inj hlength
    exact hbs
  · cases hlength

theorem storedHash_hexText (h : Digest) : storedHash h.hexText = some h := by
  rw [storedHash, Digest.hexText, hexBytes?_hexChars, Option.bind_some, dif_pos h.length_eq]

theorem hexText_injective {h d : Digest} (heq : h.hexText = d.hexText) : h = d := by
  have hstored := storedHash_hexText h
  rw [heq, storedHash_hexText] at hstored
  exact (Option.some.inj hstored).symm

theorem isHexDigit_of_storedHash (hp : storedHash p = some h) : ∀ c ∈ p, isHexDigit c = true :=
  isHexDigit_of_hexBytes? (hexBytes?_of_storedHash hp)

theorem leadingDigits_of_storedHash (hp : storedHash p = some h) : leadingDigits p = p := by
  have hdigits := isHexDigit_of_storedHash hp
  have hskip : skipMinus p = p := by
    refine if_neg fun hhead => ?_
    have hminus := hdigits '-' (List.mem_of_mem_head? hhead)
    rw [isHexDigit_minus] at hminus
    cases hminus
  rw [leadingDigits, hskip]
  exact List.takeWhile_eq_self_iff.2 hdigits

/-- A stored hash is the number of its bytes, the first one the highest. -/
theorem setHexStr_of_storedHash (hp : storedHash row.password = some h) :
    setHexStr row.upperPassword = ofLeBytes h.bytes.reverse := by
  rw [setHexStr_upperPassword, leadingDigits_of_storedHash hp,
    hexValue_of_hexBytes? (hexBytes?_of_storedHash hp)]

theorem length_upperPassword (hp : storedHash row.password = some h) :
    row.upperPassword.length = 40 := by
  have hzero : cString row.password = row.password := by
    refine List.takeWhile_eq_self_iff.2 fun c hc => ?_
    have hdigit := isHexDigit_of_storedHash hp c hc
    by_cases hc : c = '\x00'
    · rw [hc, isHexDigit_nul] at hdigit
      cases hdigit
    · simp [hc]
  rw [Row.upperPassword, toUpper, List.length_map, hzero,
    length_of_hexBytes? (hexBytes?_of_storedHash hp), h.length_eq]

/-- The first byte is no zero exactly when the number has 20 bytes. -/
theorem head_ne_zero_iff (h : Digest) :
    h.bytes.head? ≠ some 0 ↔ getNumBytes (ofLeBytes h.bytes.reverse) = 20 := by
  rw [← List.getLast?_reverse, getLast_ne_zero_iff, List.length_reverse, h.length_eq]
  rfl

theorem bytesOf_of_head (hhead : h.bytes.head? ≠ some 0) :
    LogonAuth.bytesOf (ofLeBytes h.bytes.reverse) = h.bytes.reverse := by
  refine minBytes_ofLeBytes_iff.2 ?_
  rwa [List.getLast?_reverse]

/-- All bytes are read over what was there, and turned round. -/
theorem reverse_copy (h d : Digest) : (d.copy (h.bytes.reverse.take 20)).reverse = h := by
  have hcopy : d.copy (h.bytes.reverse.take 20) = h.reverse := by
    ext1
    rw [Digest.copy, Digest.reverse]
    dsimp only
    rw [List.take_of_length_le h.length_reverse.le, List.take_left' h.length_reverse]
  rw [hcopy]
  ext1
  exact List.reverse_reverse _

/-! ## One row -/

/-- The hash of a row, as it is expected in memory. -/
def wanted (sha : Text → Digest) (row : Row) : Digest :=
  (storedHash row.password).getD (sha row.userPassword)

/-- The password, as it is expected in the database. -/
def settled (sha : Text → Digest) (row : Row) : Text :=
  if (storedHash row.password).isSome then row.password else (sha row.userPassword).hexText

/-- The row after it was loaded. -/
def next (sha : Text → Digest) (upper : Text → Text) (row : Row) : Row :=
  if converts true row then { row with password := (sha (row.concat upper)).hexText } else row

theorem acct_next (row : Row) : (next sha upper row).acct = row.acct := by
  unfold next
  split_ifs
  · rfl
  · rfl

theorem username_next (row : Row) : (next sha upper row).username = row.username := by
  unfold next
  split_ifs
  · rfl
  · rfl

/-- The hash has 20 bytes as a number, or is what it would be converted to. -/
def Steady (sha : Text → Digest) (upper : Text → Text) (row : Row) (h : Digest) : Prop :=
  h.bytes.head? ≠ some 0 ∨
    (sha row.userPassword = h ∧ (sha (row.concat upper)).hexText = row.password)

theorem looksHashed_of_storedHash (hp : storedHash row.password = some h) :
    LooksHashed row.password ↔ h.bytes.head? ≠ some 0 := by
  rw [looksHashed_iff, setHexStr_of_storedHash hp, head_ne_zero_iff]

theorem srpHashOf_of_not_looksHashed (hp : ¬ LooksHashed row.password) (d : Digest) :
    srpHashOf sha true row d = sha row.userPassword := by
  rw [srpHashOf, if_pos rfl]
  exact if_pos (mt looksHashed_iff.2 hp)

theorem srpHashOf_of_storedHash (hp : storedHash row.password = some h)
    (hhead : h.bytes.head? ≠ some 0) (d : Digest) : srpHashOf sha true row d = h := by
  have hnumber := (head_ne_zero_iff h).1 hhead
  rw [srpHashOf, if_pos rfl]
  rw [setHexStr_of_storedHash hp, if_neg (not_not.2 hnumber), if_pos (length_upperPassword hp),
    if_neg (by omega), bytesOf_of_head hhead, reverse_copy]

/-- A stored hash is loaded as it is and its row left alone exactly when it
is steady. -/
theorem srpHashOf_steady_iff (hp : storedHash row.password = some h) (d : Digest) :
    (next sha upper row = row ∧ srpHashOf sha true row d = h) ↔ Steady sha upper row h := by
  by_cases hhead : h.bytes.head? = some 0
  · -- too short, so it is converted
    have hplain : ¬ LooksHashed row.password := by
      rw [looksHashed_of_storedHash hp]
      exact not_not.2 hhead
    rw [next, if_pos (converts_iff.2 hplain), srpHashOf_of_not_looksHashed hplain]
    constructor
    · rintro ⟨hrow, hhash⟩
      exact Or.inr ⟨hhash, congrArg Row.password hrow⟩
    · rintro (hne | ⟨hhash, hpassword⟩)
      · exact absurd hhead hne
      · rw [hpassword]
        exact ⟨rfl, hhash⟩
  · have hlooks := (looksHashed_of_storedHash hp).2 hhead
    rw [next, if_neg fun hconv => converts_iff.1 hconv hlooks]
    exact iff_of_true ⟨rfl, srpHashOf_of_storedHash hp hhead d⟩ (Or.inl hhead)

/-! ## One reload -/

variable (sha upper fresh)

/-- A row is in the table, and this is what is in memory under its name. -/
structure Shows (s : Server) (row : Row) (c : Option Account) : Prop where
  mem : row ∈ s.accounts.rows
  memory : s.accountDatabase row.username = c

theorem Table.eq_of_acct (t : Table) (hrow : row ∈ t.rows) (hr : r ∈ t.rows)
    (hacct : row.acct = r.acct) : row = r :=
  List.inj_on_of_nodup_map t.nodup hrow hr hacct

theorem mem_setPassword {t : Table} {f : Row → Text} (hrow : row ∈ t.rows) (acct : UInt32) :
    Table.updatePassword acct f row ∈ (t.setPassword acct f).rows :=
  List.mem_map_of_mem hrow

/-- The statement that converts another row leaves this one alone. -/
theorem mem_convert (hrow : row ∈ s.accounts.rows) (hacct : row.acct ≠ r.acct) :
    row ∈ (s.convert sha upper r).rows := by
  unfold Server.convert
  split_ifs
  · have hmem := mem_setPassword (f := fun r => (sha (r.concat upper)).hexText) hrow r.acct
    rwa [Table.updatePassword, if_neg hacct] at hmem
  · exact hrow

theorem next_mem_convert (henc : s.encrypted = true) (hrow : row ∈ s.accounts.rows) :
    next sha upper row ∈ (s.convert sha upper row).rows := by
  rw [Server.convert, next, henc]
  split_ifs
  · have hmem := mem_setPassword (f := fun r => (sha (r.concat upper)).hexText) hrow row.acct
    rwa [Table.updatePassword, if_pos rfl] at hmem
  · exact hrow

theorem memory_load_of_ne {name : Text} (hne : name ≠ r.username) (d : Digest) :
    (s.load sha upper r d).accountDatabase name = s.accountDatabase name :=
  Function.update_of_ne hne ..

theorem memory_load_self (d : Digest) :
    (s.load sha upper r d).accountDatabase r.username
      = some ⟨r.acct, srpHashOf sha s.encrypted r d⟩ :=
  Function.update_self ..

theorem encrypted_reloadRow :
    (Server.reloadRow sha upper fresh s r).encrypted = s.encrypted := by
  unfold Server.reloadRow Server.updateAccount
  split
  · rfl
  · split_ifs
    · rfl
    · rfl

/-- The row of the account in memory, or the one to be added first. -/
def Owns (c : Option Account) (rows : List Row) (row : Row) : Prop :=
  match c with
  | none => rows.find? (fun r => r.username = row.username) = some row
  | some acct => acct.accountId = row.acct

/-- Another row changes neither the row nor what is in memory under its name. -/
theorem shows_reloadRow_of_ne (h : Shows s row c) (hacct : row.acct ≠ r.acct)
    (hname : r.username = row.username → ∃ acct, c = some acct ∧ acct.accountId = row.acct) :
    Shows (Server.reloadRow sha upper fresh s r) row c := by
  have hload : r.username ≠ row.username → ∀ d, Shows (s.load sha upper r d) row c := by
    intro hne d
    refine ⟨mem_convert sha upper h.mem hacct, ?_⟩
    rw [memory_load_of_ne sha upper (Ne.symm hne), h.memory]
  unfold Server.reloadRow
  by_cases hsame : r.username = row.username
  · -- a duplicate of the row in memory
    obtain ⟨acct, rfl, hid⟩ := hname hsame
    rw [hsame, h.memory]
    dsimp only
    rw [Server.updateAccount, if_pos fun heq => hacct (hid ▸ heq.symm)]
    refine ⟨List.mem_filter.2 ⟨h.mem, ?_⟩, h.memory⟩
    simpa using hacct
  · split
    · exact hload hsame _
    case h_2 other _ =>
      unfold Server.updateAccount
      split_ifs
      · refine ⟨List.mem_filter.2 ⟨h.mem, ?_⟩, h.memory⟩
        simpa using hacct
      · exact hload hsame _

theorem shows_reloadRows_of_ne {rows : List Row} (h : Shows s row c)
    (hacct : ∀ r ∈ rows, row.acct ≠ r.acct)
    (hname : ∀ r ∈ rows, r.username = row.username →
      ∃ acct, c = some acct ∧ acct.accountId = row.acct) :
    Shows (rows.foldl (Server.reloadRow sha upper fresh) s) row c := by
  induction rows generalizing s with
  | nil => exact h
  | cons r rows ih =>
    have hfirst := shows_reloadRow_of_ne sha upper fresh h
      (hacct r List.mem_cons_self) (hname r List.mem_cons_self)
    exact ih hfirst (fun q hq => hacct q (List.mem_cons_of_mem _ hq))
      fun q hq => hname q (List.mem_cons_of_mem _ hq)

theorem encrypted_reloadRows (rows : List Row) :
    (rows.foldl (Server.reloadRow sha upper fresh) s).encrypted = s.encrypted := by
  induction rows generalizing s with
  | nil => rfl
  | cons r rows ih => rw [List.foldl_cons, ih, encrypted_reloadRow]

/-- What the account holds before it is loaded. -/
def hashIn (fresh : Text → Digest) (c : Option Account) (row : Row) : Digest :=
  c.elim (fresh row.username) Account.srpHash

/-- The row itself is loaded. -/
theorem shows_reloadRow_self (henc : s.encrypted = true) (h : Shows s row c)
    (hid : ∀ acct ∈ c, acct.accountId = row.acct) :
    Shows (Server.reloadRow sha upper fresh s row) (next sha upper row)
      (some ⟨row.acct, srpHashOf sha true row (hashIn fresh c row)⟩) := by
  have hload : Server.reloadRow sha upper fresh s row = s.load sha upper row (hashIn fresh c row) := by
    unfold Server.reloadRow
    rw [h.memory]
    cases c with
    | none => rfl
    | some acct => exact if_neg (not_not.2 (hid acct rfl).symm)
  rw [hload]
  refine ⟨next_mem_convert sha upper henc h.mem, ?_⟩
  rw [username_next, memory_load_self, henc]

/-- What one reload makes of an account: its row is the next one, and the hash
is that of the row as it was. -/
theorem shows_reloadAccounts (henc : s.encrypted = true) (h : Shows s row c)
    (howns : Owns c s.accounts.rows row) :
    Shows (s.reloadAccounts sha upper fresh) (next sha upper row)
      (some ⟨row.acct, srpHashOf sha true row (hashIn fresh c row)⟩) := by
  obtain ⟨before, after, hsplit⟩ := List.append_of_mem h.mem
  have hnodup := s.accounts.nodup
  rw [hsplit, List.map_append, List.map_cons] at hnodup
  have hacct : ∀ q ∈ before ++ after, row.acct ≠ q.acct := by
    intro q hq heq
    have hmem : row.acct ∈ (before ++ after).map Row.acct := heq ▸ List.mem_map_of_mem hq
    rw [List.map_append] at hmem
    exact (List.nodup_middle.1 hnodup).notMem hmem
  have hid : ∀ acct ∈ c, acct.accountId = row.acct := by
    intro acct hacct
    obtain rfl : c = some acct := hacct
    exact howns
  have hbefore : Shows (before.foldl (Server.reloadRow sha upper fresh) s) row c := by
    refine shows_reloadRows_of_ne sha upper fresh h (fun q hq => hacct q (List.mem_append_left _ hq)) ?_
    intro q hq hname
    cases c with
    | some acct => exact ⟨acct, rfl, howns⟩
    | none =>
      -- a row before this one would have been found first
      have hfirst : s.accounts.rows.find? (fun r => r.username = row.username) = some row := howns
      rw [hsplit, List.find?_append] at hfirst
      have hsome : (before.find? fun r => r.username = row.username).isSome := by
        rw [List.find?_isSome]
        exact ⟨q, hq, decide_eq_true hname⟩
      obtain ⟨q', hq'⟩ := Option.isSome_iff_exists.1 hsome
      rw [hq', Option.some_or] at hfirst
      obtain rfl := Option.some.inj hfirst
      exact absurd rfl (hacct q' (List.mem_append_left _ (List.mem_of_find?_eq_some hq')))
  have henc' : (before.foldl (Server.reloadRow sha upper fresh) s).encrypted = true := by
    rw [encrypted_reloadRows, henc]
  have hself := shows_reloadRow_self sha upper fresh henc' hbefore hid
  have hother : ∀ q ∈ after, (next sha upper row).acct ≠ q.acct := by
    intro q hq
    rw [acct_next]
    exact hacct q (List.mem_append_right _ hq)
  have hafter := shows_reloadRows_of_ne sha upper fresh hself hother
    fun q _ _ => ⟨_, rfl, (acct_next row).symm⟩
  have hrows : s.accounts.rows.foldl (Server.reloadRow sha upper fresh) s
      = after.foldl (Server.reloadRow sha upper fresh) (Server.reloadRow sha upper fresh
          (before.foldl (Server.reloadRow sha upper fresh) s) row) := by
    rw [hsplit, List.foldl_append, List.foldl_cons]
  rw [Server.reloadAccounts, hrows]
  refine ⟨hafter.mem, ?_⟩
  rw [Server.purge]
  dsimp only
  rw [if_pos, hafter.memory]
  rw [username_next, List.contains_iff_mem]
  exact List.mem_map_of_mem h.mem

/-! ## Any number of reloads -/

variable {later : Nat → Text → Digest}

theorem encrypted_reloads (n : Nat) :
    (s.reloads sha upper later n).encrypted = s.encrypted := by
  induction n with
  | zero => rfl
  | succ n ih =>
    rw [Server.reloads, Server.reloadAccounts, Server.purge]
    rw [encrypted_reloadRows, ih]

/-- After each reload the row is the next one, and in memory is the hash of
the row before. -/
theorem shows_reloads (henc : s.encrypted = true) (hrow : row ∈ s.accounts.rows)
    (howns : Owns (s.accountDatabase row.username) s.accounts.rows row) (n : Nat) :
    ∃ d, Shows (s.reloads sha upper later (n + 1)) ((next sha upper)^[n + 1] row)
      (some ⟨row.acct, srpHashOf sha true ((next sha upper)^[n] row) d⟩) := by
  induction n with
  | zero => exact ⟨_, shows_reloadAccounts sha upper (later 0) henc ⟨hrow, rfl⟩ howns⟩
  | succ n ih =>
    obtain ⟨d, hshows⟩ := ih
    have henc' : (s.reloads sha upper later (n + 1)).encrypted = true := by
      rw [encrypted_reloads, henc]
    have hacct : ((next sha upper)^[n + 1] row).acct = row.acct := by
      clear henc' hshows
      induction n with
      | zero => exact acct_next row
      | succ n ih => rw [Function.iterate_succ_apply', acct_next, ih]
    have hstep := shows_reloadAccounts sha upper (later (n + 1)) henc' hshows hacct.symm
    rw [← Function.iterate_succ_apply' (next sha upper), hacct] at hstep
    exact ⟨_, hstep⟩

/-- What is expected of an account: the hash in memory, and in the database
its password or, for a text, the digits of the hash. -/
def Loaded (s : Server) (row : Row) : Prop :=
  { row with password := settled sha row } ∈ s.accounts.rows ∧
    s.accountDatabase row.username = some ⟨row.acct, wanted sha row⟩

/-- The row a text is converted to. -/
def converted (row : Row) : Row := { row with password := (sha row.userPassword).hexText }

/-- A stored hash is steady. A text does not look like one, the database
computes the same hash of it, and the hash is steady. -/
def Meets (row : Row) : Prop :=
  match storedHash row.password with
  | some h => Steady sha upper row h
  | none => ¬ LooksHashed row.password ∧ sha (row.concat upper) = sha row.userPassword ∧
      Steady sha upper (converted sha row) (sha row.userPassword)

variable {sha upper}

theorem loaded_iff {row' : Row} (hacct : row'.acct = row.acct)
    (hname : row'.username = row.username) (hshows : Shows s row' (some ⟨row.acct, d⟩)) :
    Loaded sha s row ↔ row' = { row with password := settled sha row } ∧ d = wanted sha row := by
  rw [Loaded, ← hname, hshows.memory, Option.some.injEq, Account.mk.injEq]
  constructor
  · rintro ⟨hmem, -, hd⟩
    exact ⟨s.accounts.eq_of_acct hshows.mem hmem hacct, hd⟩
  · rintro ⟨rfl, rfl⟩
    exact ⟨hshows.mem, rfl, rfl⟩

theorem loaded_reloads_iff (henc : s.encrypted = true) (hrow : row ∈ s.accounts.rows)
    (howns : Owns (s.accountDatabase row.username) s.accounts.rows row) (n : Nat) :
    ∃ d, Loaded sha (s.reloads sha upper later (n + 1)) row ↔
      (next sha upper)^[n + 1] row = { row with password := settled sha row } ∧
        srpHashOf sha true ((next sha upper)^[n] row) d = wanted sha row := by
  have hacct : ∀ n, ((next sha upper)^[n] row).acct = row.acct := by
    intro n
    induction n with
    | zero => rfl
    | succ n ih => rw [Function.iterate_succ_apply', acct_next, ih]
  have hname : ∀ n, ((next sha upper)^[n] row).username = row.username := by
    intro n
    induction n with
    | zero => rfl
    | succ n ih => rw [Function.iterate_succ_apply', username_next, ih]
  obtain ⟨d, hshows⟩ := shows_reloads sha upper henc hrow howns n
  exact ⟨d, loaded_iff (hacct _) (hname _) hshows⟩

/-- A stored hash stays what it is. -/
theorem reloads_storedHash_iff (henc : s.encrypted = true) (hrow : row ∈ s.accounts.rows)
    (howns : Owns (s.accountDatabase row.username) s.accounts.rows row)
    (hp : storedHash row.password = some h) :
    (∀ n, Loaded sha (s.reloads sha upper later (n + 1)) row) ↔ Steady sha upper row h := by
  have hsettled : { row with password := settled sha row } = row := by simp [settled, hp]
  have hwanted : wanted sha row = h := by simp [wanted, hp]
  constructor
  · intro hall
    obtain ⟨d, hd⟩ := loaded_reloads_iff henc hrow howns 0
    have hfirst := hd.1 (hall 0)
    rw [hsettled, hwanted] at hfirst
    exact (srpHashOf_steady_iff hp d).1 hfirst
  · intro hsteady n
    have hnext : next sha upper row = row := ((srpHashOf_steady_iff hp h).2 hsteady).1
    obtain ⟨d, hd⟩ := loaded_reloads_iff henc hrow howns n
    rw [hd, hsettled, hwanted, Function.iterate_fixed hnext, Function.iterate_fixed hnext]
    exact ⟨rfl, ((srpHashOf_steady_iff hp d).2 hsteady).2⟩

theorem next_eq_converted_iff (hp : storedHash row.password = none) :
    next sha upper row = converted sha row ↔
      ¬ LooksHashed row.password ∧ sha (row.concat upper) = sha row.userPassword := by
  by_cases hlooks : LooksHashed row.password
  · rw [next, if_neg fun hconv => converts_iff.1 hconv hlooks]
    refine iff_of_false (fun heq => ?_) fun h => h.1 hlooks
    have hpassword : row.password = (sha row.userPassword).hexText := congrArg Row.password heq
    rw [hpassword, storedHash_hexText] at hp
    cases hp
  · rw [next, if_pos (converts_iff.2 hlooks), converted]
    constructor
    · intro heq
      exact ⟨hlooks, hexText_injective (congrArg Row.password heq)⟩
    · rintro ⟨-, hsame⟩
      rw [hsame]

/-- A text is converted once, and its hash stays what it is. -/
theorem reloads_text_iff (henc : s.encrypted = true) (hrow : row ∈ s.accounts.rows)
    (howns : Owns (s.accountDatabase row.username) s.accounts.rows row)
    (hp : storedHash row.password = none) :
    (∀ n, Loaded sha (s.reloads sha upper later (n + 1)) row) ↔
      ¬ LooksHashed row.password ∧ sha (row.concat upper) = sha row.userPassword ∧
        Steady sha upper (converted sha row) (sha row.userPassword) := by
  have hsettled : { row with password := settled sha row } = converted sha row := by
    simp [settled, hp, converted]
  have hwanted : wanted sha row = sha row.userPassword := by simp [wanted, hp]
  have hstored : storedHash (converted sha row).password = some (sha row.userPassword) :=
    storedHash_hexText _
  constructor
  · intro hall
    obtain ⟨d, hd⟩ := loaded_reloads_iff henc hrow howns 0
    obtain ⟨e, he⟩ := loaded_reloads_iff henc hrow howns 1
    have hfirst := (hd.1 (hall 0)).1
    have hsecond := he.1 (hall 1)
    rw [hsettled] at hfirst hsecond
    rw [Function.iterate_succ_apply', hfirst, hwanted] at hsecond
    obtain ⟨hlooks, hsame⟩ := (next_eq_converted_iff hp).1 hfirst
    exact ⟨hlooks, hsame, (srpHashOf_steady_iff hstored e).1 hsecond⟩
  · rintro ⟨hlooks, hsame, hsteady⟩ n
    have hfirst := (next_eq_converted_iff hp).2 ⟨hlooks, hsame⟩
    have hnext : next sha upper (converted sha row) = converted sha row :=
      ((srpHashOf_steady_iff hstored (sha row.userPassword)).2 hsteady).1
    have hrows : ∀ n, (next sha upper)^[n + 1] row = converted sha row := by
      intro n
      rw [Function.iterate_succ_apply, hfirst, Function.iterate_fixed hnext]
    obtain ⟨d, hd⟩ := loaded_reloads_iff henc hrow howns n
    rw [hd, hsettled, hwanted, hrows]
    refine ⟨rfl, ?_⟩
    cases n with
    | zero => exact srpHashOf_of_not_looksHashed hlooks d
    | succ n =>
      rw [hrows]
      exact ((srpHashOf_steady_iff hstored d).2 hsteady).2

/-- Every reload leaves what is expected of an account exactly when its row
meets the condition. -/
theorem reloads_loaded_iff (henc : s.encrypted = true) (hrow : row ∈ s.accounts.rows)
    (howns : Owns (s.accountDatabase row.username) s.accounts.rows row) :
    (∀ n, Loaded sha (s.reloads sha upper later (n + 1)) row) ↔ Meets sha upper row := by
  unfold Meets
  cases hp : storedHash row.password with
  | some h => exact reloads_storedHash_iff henc hrow howns hp
  | none => exact reloads_text_iff henc hrow howns hp

/-! ## Two passwords -/

def secretHash : Digest :=
  ⟨[0x90, 0xc3, 0x21, 0x92, 0x88, 0x38, 0x01, 0xdb, 0xbe, 0x09,
    0x47, 0xcf, 0x8e, 0x79, 0x4e, 0x72, 0x30, 0xaf, 0x3a, 0x56], rfl⟩

/-- A hash whose first byte is 0. -/
def shortHash : Digest := ⟨0 :: List.replicate 19 0x1a, rfl⟩

/-- The hash of the user and the digits of `shortHash`. -/
def rehashed : Digest :=
  ⟨[0xba, 0x83, 0xa6, 0x5e, 0x2d, 0xf5, 0xbc, 0x62, 0x89, 0x99,
    0xc6, 0x18, 0xcb, 0x9a, 0xfc, 0xa0, 0x56, 0x7e, 0xfe, 0xae], rfl⟩

def noHash : Digest := ⟨List.replicate 20 0, rfl⟩

/-- SHA1 on two texts. -/
def shaOf (t : Text) : Digest :=
  if t = "BOB:SECRET".toList then secretHash
  else if t = "BOB:".toList ++ toUpper shortHash.hexText then rehashed
  else noHash

def bob (password : Text) : Row := ⟨7, "bob".toList, password⟩

/-- A server with one account, not loaded yet. -/
def bobServer (password : Text) : Server :=
  ⟨true, fun _ => none, ⟨[bob password], List.nodup_singleton _⟩⟩

theorem meets_secret : Meets shaOf toUpper (bob "secret".toList) := by
  have hplain : storedHash (bob "secret".toList).password = none := by decide
  have hsame : shaOf ((bob "secret".toList).concat toUpper)
      = shaOf (bob "secret".toList).userPassword := rfl
  have hhead : (shaOf (bob "secret".toList).userPassword).bytes.head? ≠ some 0 := by decide
  rw [Meets, hplain]
  exact ⟨by decide, hsame, Or.inl hhead⟩

/-- A password in clear is converted, and every later reload keeps its hash. -/
theorem reloads_loaded_secret : Meets shaOf toUpper (bob "secret".toList) ∧
    ∀ n, Loaded shaOf ((bobServer "secret".toList).reloads shaOf toUpper
      (fun _ _ => shortHash) (n + 1)) (bob "secret".toList) :=
  ⟨meets_secret, (reloads_loaded_iff rfl List.mem_cons_self (by rfl)).2 meets_secret⟩

/-- A stored hash that begins with a zero byte is hashed again, in memory and
in the database. -/
theorem short_hash_rehashed :
    let s := (bobServer shortHash.hexText).reloads shaOf toUpper (fun _ _ => shortHash) 1
    storedHash shortHash.hexText = some shortHash ∧ rehashed ≠ shortHash ∧
    s.accountDatabase "BOB".toList = some ⟨7, rehashed⟩ ∧
    s.accounts.rows = [bob rehashed.hexText] := by
  decide +kernel

end HearthStone.Logon.Password
