/-
HearthStone.Logon.FixedWidth — where the log-in exchange takes a fixed number
of bytes of a number (`AuthSocket.cpp`, `BigNumber.cpp`, `Sha1.cpp`).

`AsByteArray` is as long as the number is. A place that takes more reads what
lies behind the array; `UpdateBigNumbers`, and the salt in the reply, take as
many bytes as there are, and then fewer than the client does.

* `Place.exact_iff` — a place gets what it should exactly when the number is
  `Full`.
* `challengePlaces`, `proofPlaces`, `reconnectPlaces` — the places of the
  three handlers.
* `fixed_width_iff` — in every session the salt, `N` and the random numbers
  are full, so that all depends on `B`, `S`, the session key and `M`.
-/
import HearthStone.Logon.AccountPasswordTheorems
import HearthStone.Logon.AuthTheorems

namespace HearthStone.LogonAuth

open Lib LogonAuth.Session
open Logon.Password (getNumBytes noHash secretHash)

/-! ## Places -/

/-- Where bytes of a number are taken: for a field of `width` bytes, and as
many as are `taken`. -/
structure Place where
  number : Nat
  width : Nat
  taken : Nat

/-- A place that takes its width. -/
def Place.fixed (width number : Nat) : Place := ⟨number, width, width⟩

/-- A place that takes `GetNumBytes()`. -/
def Place.minimal (width number : Nat) : Place := ⟨number, width, getNumBytes number⟩

/-- What the place gets is the number in its width, and nothing is read
behind the array. -/
structure Place.Exact (p : Place) (behind : Bytes) : Prop where
  inside : p.taken ≤ (bytesOf p.number).length
  encoding : readBytes behind p.taken p.number = leBytes p.width p.number

/-- The highest of the bytes is no zero. -/
def Full (width number : Nat) : Prop := 256 ^ (width - 1) ≤ number

instance (width number : Nat) : Decidable (Full width number) :=
  inferInstanceAs (Decidable (_ ≤ _))

variable {k n : Nat} {behind : Bytes} {p : Place}

theorem full_iff (hk : 0 < k) (hn : n < 256 ^ k) : Full k n ↔ (bytesOf n).length = k := by
  obtain ⟨w, rfl⟩ := Nat.exists_eq_succ_of_ne_zero (Nat.pos_iff_ne_zero.1 hk)
  have hlength : (bytesOf n).length = w + 1 ↔ 256 ^ w ≤ n ∧ n < 256 ^ (w + 1) :=
    length_minBytes_eq_iff
  rw [Full, Nat.succ_sub_one, hlength]
  exact (and_iff_left hn).symm

theorem readBytes_of_length (hlength : (bytesOf n).length = k) : readBytes behind k n = bytesOf n :=
  List.take_left' hlength

theorem encoding_of_length (hn : n < 256 ^ k) (hlength : (bytesOf n).length = k) :
    readBytes behind k n = leBytes k n := by
  rw [readBytes_of_length hlength]
  exact (minBytes_eq_leBytes_iff hn).2 hlength

theorem fixed_exact_iff (hk : 0 < k) (hn : n < 256 ^ k) :
    (Place.fixed k n).Exact behind ↔ Full k n := by
  have hle : (bytesOf n).length ≤ k := length_minBytes_le_iff.2 hn
  rw [full_iff hk hn]
  constructor
  · intro h
    exact Nat.le_antisymm hle h.inside
  · intro hlength
    exact ⟨hlength.ge, encoding_of_length hn hlength⟩

theorem minimal_exact_iff (hk : 0 < k) (hn : n < 256 ^ k) :
    (Place.minimal k n).Exact behind ↔ Full k n := by
  have hread : readBytes behind (getNumBytes n) n = bytesOf n := readBytes_of_length rfl
  rw [full_iff hk hn]
  constructor
  · intro h
    have hencoding : bytesOf n = leBytes k n := hread.symm.trans h.encoding
    rw [hencoding, length_leBytes]
  · intro hlength
    refine ⟨Nat.le_refl _, hread.trans ?_⟩
    exact (minBytes_eq_leBytes_iff hn).2 hlength

/-- A place of either kind, for a number that has room in it. -/
structure Place.Fits (p : Place) : Prop where
  kind : p = .fixed p.width p.number ∨ p = .minimal p.width p.number
  width_pos : 0 < p.width
  number_lt : p.number < 256 ^ p.width

/-- A place gets what it should exactly when the number is full. -/
theorem Place.exact_iff (h : p.Fits) : p.Exact behind ↔ Full p.width p.number := by
  rcases h.kind with hp | hp
  · rw [hp]
    exact fixed_exact_iff h.width_pos h.number_lt
  · rw [hp]
    exact minimal_exact_iff h.width_pos h.number_lt

theorem fits_fixed (hk : 0 < k) (hn : n < 256 ^ k) : (Place.fixed k n).Fits := ⟨Or.inl rfl, hk, hn⟩

theorem fits_minimal (hk : 0 < k) (hn : n < 256 ^ k) : (Place.minimal k n).Fits :=
  ⟨Or.inr rfl, hk, hn⟩

/-! ## Random numbers -/

/-- `SetRand`: the highest bit is set, and the lowest. -/
structure Rand (bits : Nat) where
  value : Nat
  high : 2 ^ (bits - 1) ≤ value
  below : value < 2 ^ bits
  odd : value % 2 = 1

theorem Rand.full (r : Rand (8 * k)) (hk : 0 < k) : Full k r.value := by
  have hbits : 8 * (k - 1) ≤ 8 * k - 1 := by omega
  calc 256 ^ (k - 1) = 2 ^ (8 * (k - 1)) := by rw [Nat.pow_mul]
    _ ≤ 2 ^ (8 * k - 1) := Nat.pow_le_pow_right (by omega) hbits
    _ ≤ r.value := r.high

theorem Rand.lt (r : Rand (8 * k)) : r.value < 256 ^ k := by
  have h := r.below
  rwa [Nat.pow_mul] at h

/-! ## The handlers -/

section Handlers

variable (sha : Bytes → Bytes) (y : Session)

/-- `UpdateBigNumbers`, on numbers with the widths they are sent in. -/
def updateBigNumbers (numbers : List (Nat × Nat)) : List Place :=
  numbers.map fun q => .minimal q.1 q.2

/-- The `B` that `HandleChallenge` computes for an account. -/
def Session.challengeB (acct b : Nat) (behind : Bytes) : Nat :=
  publicB (verifier sha behind y.sock.s (y.srv.accounts acct).srpHash) b

/-- The end of `HandleChallenge`: the hash for the verifier, and the reply. -/
def challengePlaces (acct b : Nat) (unk : Rand 128) (behind : Bytes) : List Place :=
  [.fixed 32 y.sock.s, .fixed 32 (y.challengeB sha acct b behind), .fixed 1 g, .fixed 32 N,
    .minimal 32 y.sock.s, .fixed 16 unk.value]

/-- The number `M1` is compared with. -/
def proofM (acct A : Nat) (behind : Bytes) : Nat :=
  ofLeBytes (sha
    (bytesOf (ofLeBytes (List.zipWith (· ^^^ ·) (sha (bytesOf N)) (sha (bytesOf g)))) ++
      bytesOf (ofLeBytes (sha (y.srv.accounts acct).username)) ++ bytesOf y.sock.s ++ bytesOf A ++
      bytesOf y.sock.B ++ bytesOf (y.proofKey sha A behind)))

/-- `HandleProof`, when the account of the socket is `acct`. -/
def proofPlaces (acct A : Nat) (M1 behind : Bytes) : List Place :=
  updateBigNumbers [(32, y.sock.B)] ++
  [.fixed 32 (secret sha y.sock.v y.sock.b y.sock.B A)] ++
  updateBigNumbers [(32, N)] ++
  updateBigNumbers [(32, y.sock.s), (32, y.sock.B), (40, y.proofKey sha A behind)] ++
  [.fixed 20 (proofM sha y acct A behind)] ++
  if M1 = y.proofM1 sha acct A behind then
    .fixed 40 (y.proofKey sha A behind) ::
      updateBigNumbers [(20, proofM sha y acct A behind), (40, y.proofKey sha A behind)]
  else []

end Handlers

/-- The reply of `HandleReconnectChallenge`. -/
def reconnectPlaces (rs : Rand 128) : List Place := [.minimal 16 rs.value]

/-! ## Bounds -/

theorem N_pos : 0 < N := by decide

theorem N_lt : N < 256 ^ 32 := by decide +kernel

theorem publicB_lt (v b : Nat) : publicB v b < N := Nat.mod_lt _ N_pos

theorem secret_lt {sha : Bytes → Bytes} (v b B A : Nat) : secret sha v b B A < N := by
  unfold secret
  rw [modExp_eq]
  exact Nat.mod_lt _ N_pos

theorem length_interleave {xs ys : Bytes} (h : xs.length = ys.length) :
    (interleave xs ys).length = 2 * xs.length := by
  induction xs generalizing ys with
  | nil => rfl
  | cons x xs ih =>
    cases ys with
    | nil => cases h
    | cons y ys =>
      have hlength := ih (Nat.succ.inj h)
      rw [interleave, List.length_cons, List.length_cons, hlength, List.length_cons]
      omega

section Digests

variable (sha : Bytes → Logon.Password.Digest)

/-- SHA1 as the exchange uses it. -/
def digestBytes (bs : Bytes) : Bytes := (sha bs).bytes

theorem ofLeBytes_digest_lt (bs : Bytes) : ofLeBytes (digestBytes sha bs) < 256 ^ 20 := by
  have h := ofLeBytes_lt (digestBytes sha bs)
  rwa [digestBytes, (sha bs).length_eq] at h

theorem sessionKeyOf_lt (behind : Bytes) (S : Nat) :
    sessionKeyOf (digestBytes sha) behind S < 256 ^ 40 := by
  have hlength : ∀ xs ys : Bytes,
      (interleave (digestBytes sha xs) (digestBytes sha ys)).length = 40 := by
    intro xs ys
    have hsame : (digestBytes sha xs).length = (digestBytes sha ys).length :=
      (sha xs).length_eq.trans (sha ys).length_eq.symm
    rw [length_interleave hsame, digestBytes, (sha xs).length_eq]
  have h := ofLeBytes_lt (interleave
    (digestBytes sha (everyOther 0 (readBytes behind 32 S)))
    (digestBytes sha (everyOther 1 (readBytes behind 32 S))))
  rwa [hlength] at h

end Digests

/-! ## Sessions -/

variable {sha : Bytes → Bytes} {y : Session} {s b : Nat} {packet : Bytes}

/-- The salt is that of the constructor, and `B` is below `N`. -/
structure Kept (s : Nat) (y : Session) : Prop where
  salt : y.sock.s = s
  below : y.sock.B < N

theorem Kept.of_sock {y' : Session} (h : Kept s y) (hs : y'.sock.s = y.sock.s)
    (hB : y'.sock.B = y.sock.B) : Kept s y' :=
  ⟨hs.trans h.salt, hB ▸ h.below⟩

theorem Kept.of_exchange {y' : Session} (h : Kept s y)
    (heq : exchange y'.sock = exchange y.sock) : Kept s y' := by
  simp only [exchange, Prod.mk.injEq] at heq
  exact h.of_sock heq.2.1 heq.2.2.2.2.1

theorem kept_computeB (h : Kept s y) (acct : Nat) : Kept s (y.computeB sha acct b behind) := by
  constructor
  · have hsalt : (y.computeB sha acct b behind).sock.s = (y.updateLocale acct).sock.s := rfl
    rw [hsalt, updateLocale_sock, h.salt]
  · exact publicB_lt _ _

theorem kept_handleChallenge (h : Kept s y) : Kept s (y.handleChallenge sha packet b behind) := by
  unfold handleChallenge
  split_ifs with hsize
  · exact h.of_sock rfl rfl
  · dsimp only
    split
    · exact h.of_sock rfl rfl
    · exact h.of_sock rfl rfl
    · exact h.of_sock rfl rfl
    · exact h.of_sock rfl rfl
    · exact h.of_sock rfl rfl
    · split
      · exact h.of_sock rfl rfl
      · split_ifs with hbanned
        · exact h.of_sock rfl rfl
        · refine kept_computeB ?_ _
          exact h.of_sock rfl rfl

theorem kept_handleReconnectChallenge (h : Kept s y) (rs : Nat) :
    Kept s (y.handleReconnectChallenge packet rs) := by
  unfold handleReconnectChallenge
  split_ifs with hsize
  · exact h.of_sock rfl rfl
  · dsimp only
    split
    · exact h.of_sock rfl rfl
    · exact h.of_sock rfl rfl
    · exact h.of_sock rfl rfl
    · exact h.of_sock rfl rfl
    · split
      · exact h.of_sock rfl rfl
      · split_ifs with hbanned hkey
        · exact h.of_sock rfl rfl
        · exact h.of_sock rfl rfl
        · exact h.of_sock rfl rfl

theorem kept_handleReconnectProof (h : Kept s y) (R1 R2 : Bytes) :
    Kept s (y.handleReconnectProof sha R1 R2) := by
  unfold handleReconnectProof
  split
  · exact h.of_sock rfl rfl
  · split
    · exact h.of_sock rfl rfl
    · split_ifs
      · exact h.of_sock rfl rfl
      · exact h.of_sock rfl rfl

theorem kept_step (h : Kept s y) (pkt : Packet) : Kept s (step sha y pkt) := by
  cases pkt with
  | challenge packet b behind =>
    unfold step
    split_ifs
    · exact kept_handleChallenge h
    · exact h
  | proof A M1 behind =>
    unfold step
    split_ifs
    · exact h.of_exchange (exchange_handleProof _ _)
    · exact h
  | reconnectChallenge packet rs =>
    unfold step
    split_ifs
    · exact kept_handleReconnectChallenge h rs
    · exact h
  | reconnectProof R1 R2 =>
    unfold step
    split_ifs
    · exact kept_handleReconnectProof h R1 R2
    · exact h
  | server srv => exact h.of_sock rfl rfl

theorem kept_run (srv : LogonServer) (s : Nat) (pkts : List Packet) :
    Kept s (pkts.foldl (step sha) ⟨srv, newSocket s⟩) := by
  refine (Run.foldl (step sha) _ pkts).invariant (Kept s) ?_ ⟨rfl, N_pos⟩
  rintro y₁ pkt y₂ hy₁ hstep
  rw [hstep]
  exact kept_step hy₁ pkt

/-! ## The places of the handlers -/

theorem full_N : Full 32 N := by decide +kernel

theorem forall_exact_iff {places : List Place} (h : ∀ p ∈ places, p.Fits) :
    (∀ p ∈ places, p.Exact behind) ↔ ∀ p ∈ places, Full p.width p.number :=
  forall₂_congr fun p hp => Place.exact_iff (h p hp)

theorem challengePlaces_exact_iff (r : Rand 256) (hs : y.sock.s = r.value) (acct : Nat)
    (unk : Rand 128) :
    (∀ p ∈ challengePlaces sha y acct b unk behind, p.Exact behind) ↔
      Full 32 (y.challengeB sha acct b behind) := by
  have hsalt : Full 32 y.sock.s := hs ▸ Rand.full (k := 32) r (by omega)
  have hsalt_lt : y.sock.s < 256 ^ 32 := hs ▸ Rand.lt (k := 32) r
  have hunk : Full 16 unk.value := Rand.full (k := 16) unk (by omega)
  have hunk_lt : unk.value < 256 ^ 16 := Rand.lt (k := 16) unk
  have hB_lt : y.challengeB sha acct b behind < 256 ^ 32 := (publicB_lt _ _).trans N_lt
  have hg_lt : g < 256 ^ 1 := by decide
  have hg : Full 1 g := by decide
  have hfits : ∀ p ∈ challengePlaces sha y acct b unk behind, p.Fits := by
    simp only [challengePlaces, List.forall_mem_cons]
    exact ⟨fits_fixed (by omega) hsalt_lt, fits_fixed (by omega) hB_lt, fits_fixed (by omega) hg_lt,
      fits_fixed (by omega) N_lt, fits_minimal (by omega) hsalt_lt, fits_fixed (by omega) hunk_lt,
      fun _ hp => by cases hp⟩
  rw [forall_exact_iff hfits]
  simp only [challengePlaces, List.forall_mem_cons]
  constructor
  · exact fun h => h.2.1
  · intro hB
    exact ⟨hsalt, hB, hg, full_N, hsalt, hunk, fun _ hp => by cases hp⟩

theorem proofPlaces_exact_iff (sha : Bytes → Logon.Password.Digest) (r : Rand 256) (h : Kept r.value y)
    (acct A : Nat) (M1 : Bytes) :
    (∀ p ∈ proofPlaces (digestBytes sha) y acct A M1 behind, p.Exact behind) ↔
      Full 32 y.sock.B ∧ Full 32 (secret (digestBytes sha) y.sock.v y.sock.b y.sock.B A) ∧
      Full 40 (y.proofKey (digestBytes sha) A behind) ∧
      Full 20 (proofM (digestBytes sha) y acct A behind) := by
  have hsalt : Full 32 y.sock.s := h.salt ▸ Rand.full (k := 32) r (by omega)
  have hsalt_lt : y.sock.s < 256 ^ 32 := h.salt ▸ Rand.lt (k := 32) r
  have hB_lt := h.below.trans N_lt
  have hS_lt : secret (digestBytes sha) y.sock.v y.sock.b y.sock.B A < 256 ^ 32 :=
    (secret_lt _ _ _ _).trans N_lt
  have hK_lt : y.proofKey (digestBytes sha) A behind < 256 ^ 40 := sessionKeyOf_lt sha _ _
  have hM_lt : proofM (digestBytes sha) y acct A behind < 256 ^ 20 := ofLeBytes_digest_lt sha _
  -- the places before the comparison, and those behind it
  have hsplit : ∀ P : Place → Prop,
      (∀ p ∈ proofPlaces (digestBytes sha) y acct A M1 behind, P p) ↔
        (P (.minimal 32 y.sock.B) ∧
          P (.fixed 32 (secret (digestBytes sha) y.sock.v y.sock.b y.sock.B A)) ∧
          P (.minimal 32 N) ∧ P (.minimal 32 y.sock.s) ∧ P (.minimal 32 y.sock.B) ∧
          P (.minimal 40 (y.proofKey (digestBytes sha) A behind)) ∧
          P (.fixed 20 (proofM (digestBytes sha) y acct A behind))) ∧
        (M1 = y.proofM1 (digestBytes sha) acct A behind →
          P (.fixed 40 (y.proofKey (digestBytes sha) A behind)) ∧
          P (.minimal 20 (proofM (digestBytes sha) y acct A behind)) ∧
          P (.minimal 40 (y.proofKey (digestBytes sha) A behind))) := by
    intro P
    unfold proofPlaces updateBigNumbers
    split_ifs with hM1
    · simp [hM1, and_assoc]
    · simp [hM1]
  have hfits : ∀ p ∈ proofPlaces (digestBytes sha) y acct A M1 behind, p.Fits := by
    rw [hsplit]
    exact ⟨⟨fits_minimal (by omega) hB_lt, fits_fixed (by omega) hS_lt, fits_minimal (by omega) N_lt,
      fits_minimal (by omega) hsalt_lt, fits_minimal (by omega) hB_lt,
      fits_minimal (by omega) hK_lt, fits_fixed (by omega) hM_lt⟩,
      fun _ => ⟨fits_fixed (by omega) hK_lt, fits_minimal (by omega) hM_lt,
        fits_minimal (by omega) hK_lt⟩⟩
  rw [forall_exact_iff hfits, hsplit]
  constructor
  · rintro ⟨⟨hB, hS, -, -, -, hK, hM⟩, -⟩
    exact ⟨hB, hS, hK, hM⟩
  · rintro ⟨hB, hS, hK, hM⟩
    exact ⟨⟨hB, hS, full_N, hsalt, hB, hK, hM⟩, fun _ => ⟨hK, hM, hK⟩⟩

theorem reconnectPlaces_exact (rs : Rand 128) : ∀ p ∈ reconnectPlaces rs, p.Exact behind := by
  intro p hp
  obtain rfl := List.mem_singleton.1 hp
  exact (minimal_exact_iff (k := 16) (by omega) (Rand.lt (k := 16) rs)).2
    (Rand.full (k := 16) rs (by omega))

/-- A byte string comes back from its number exactly when it does not end
with a zero. In every session all places of a challenge get what they should
exactly when `B` is full, those of a proof exactly when `B`, `S`, the session
key and `M` are, and that of a reconnect challenge always. -/
theorem fixed_width_iff (sha : Bytes → Logon.Password.Digest) (srv : LogonServer) (s : Rand 256)
    (pkts : List Packet) (behind : Bytes) :
    let y := pkts.foldl (step (digestBytes sha)) ⟨srv, newSocket s.value⟩
    (∀ bs, bytesOf (ofLeBytes bs) = bs ↔ bs.getLast? ≠ some 0) ∧
    (∀ acct b unk,
      (∀ p ∈ challengePlaces (digestBytes sha) y acct b unk behind, p.Exact behind) ↔
        Full 32 (y.challengeB (digestBytes sha) acct b behind)) ∧
    (∀ acct A M1, (∀ p ∈ proofPlaces (digestBytes sha) y acct A M1 behind, p.Exact behind) ↔
      Full 32 y.sock.B ∧ Full 32 (secret (digestBytes sha) y.sock.v y.sock.b y.sock.B A) ∧
      Full 40 (y.proofKey (digestBytes sha) A behind) ∧
      Full 20 (proofM (digestBytes sha) y acct A behind)) ∧
    ∀ rs, ∀ p ∈ reconnectPlaces rs, p.Exact behind := by
  intro y
  have hkept : Kept s.value y := kept_run srv s.value pkts
  exact ⟨fun bs => minBytes_ofLeBytes_iff,
    fun acct b unk => challengePlaces_exact_iff s hkept.salt acct unk,
    fun acct A M1 => proofPlaces_exact_iff sha s hkept acct A M1, reconnectPlaces_exact⟩

/-! ## A short `B` -/

/-- `ModExp` with one square for each bit. -/
def powMod (a n : Nat) : Nat → Nat → Nat
  | 0, _ => 1 % n
  | fuel + 1, e => powMod a n fuel (e / 2) ^ 2 * a ^ (e % 2) % n

theorem powMod_eq {a n fuel e : Nat} (h : e < 2 ^ fuel) : powMod a n fuel e = modExp a e n := by
  rw [modExp_eq]
  induction fuel generalizing e with
  | zero =>
    obtain rfl : e = 0 := by omega
    rw [powMod, Nat.pow_zero]
  | succ fuel ih =>
    have he : 2 * (e / 2) + e % 2 = e := Nat.div_add_mod e 2
    have hhalf : e / 2 < 2 ^ fuel := by
      rw [Nat.pow_succ] at h
      omega
    rw [powMod, ih hhalf]
    calc (a ^ (e / 2) % n) ^ 2 * a ^ (e % 2) % n = (a ^ (e / 2)) ^ 2 * a ^ (e % 2) % n := by
          rw [Nat.mul_mod, ← Nat.pow_mod, ← Nat.mul_mod]
      _ = a ^ e % n := by rw [← Nat.pow_mul, ← Nat.pow_add, Nat.mul_comm, he]

def salt : Rand 256 where
  value := 0xd76d4330f1446beab0c11fdecb91ce375bc8fbbcbde5c0994164d8399f767c45
  high := by decide +kernel
  below := by decide +kernel
  odd := by decide +kernel

/-- A number of 152 bits. -/
def shortB : Rand 152 where
  value := 2 ^ 151 + 383
  high := by decide +kernel
  below := by decide +kernel
  odd := by decide +kernel

/-- SHA1 of the salt and the hash of an account. -/
def saltedHash : Logon.Password.Digest :=
  ⟨[0xfd, 0xee, 0x77, 0x73, 0x34, 0x7a, 0x52, 0x55, 0xd1, 0xde,
    0x0d, 0xa7, 0x03, 0x50, 0x20, 0xbc, 0xc8, 0x59, 0x8a, 0x39], rfl⟩

/-- SHA1 on one input. -/
def saltedSha (bs : Bytes) : Logon.Password.Digest :=
  if bs = leBytes 32 salt.value ++ secretHash.bytes then saltedHash else noHash

/-- Account 1 with its password hash, and a new socket. -/
def bobSession : Session where
  srv := {
    minBuild := 12340
    maxBuild := 12340
    banStatus := .notBanned
    findPatch := fun _ _ => none
    getAccount := fun name => if name = [66, 79, 66] then some 1 else none
    accounts := fun acct => ⟨acct, [66, 79, 66], secretHash.bytes, 0, none, true, []⟩
    sessionKeyRow := fun _ => none }
  sock := newSocket salt.value

theorem challengeB_bob : bobSession.challengeB (digestBytes saltedSha) 1 shortB.value []
    = 52185918030109725308432659444474217016633064939853085680384487786710947692 := by
  have hsalted : digestBytes saltedSha (readBytes [] 32 salt.value ++ secretHash.bytes)
      = saltedHash.bytes := by decide +kernel
  have hx : ofLeBytes saltedHash.bytes < 2 ^ 160 := by decide +kernel
  have hb : shortB.value < 2 ^ 152 := shortB.below
  have hsalt : bobSession.sock.s = salt.value := rfl
  have hhash : (bobSession.srv.accounts 1).srpHash = secretHash.bytes := rfl
  rw [Session.challengeB, publicB, verifier, hsalt, hhash, hsalted, ← powMod_eq hx, ← powMod_eq hb]
  decide +kernel

/-- `B` has 31 bytes, and 32 are copied into the reply. -/
theorem short_B_overread :
    let B := bobSession.challengeB (digestBytes saltedSha) 1 shortB.value []
    (bytesOf B).length = 31 ∧ (∀ unk, .fixed 32 B ∈ challengePlaces (digestBytes saltedSha)
      bobSession 1 shortB.value unk []) ∧ ¬ (Place.fixed 32 B).Exact [] := by
  have hlength : (bytesOf 52185918030109725308432659444474217016633064939853085680384487786710947692).length
      = 31 := by decide +kernel
  refine ⟨?_, fun unk => ?_, fun h => ?_⟩
  · rw [challengeB_bob, hlength]
  · exact List.mem_cons_of_mem _ List.mem_cons_self
  · have hinside := h.inside
    change 32 ≤ (bytesOf (bobSession.challengeB (digestBytes saltedSha) 1 shortB.value [])).length
      at hinside
    rw [challengeB_bob, hlength] at hinside
    omega

end HearthStone.LogonAuth
