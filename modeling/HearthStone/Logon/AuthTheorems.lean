/-
HearthStone.Logon.AuthTheorems — whose session key does a proof store?

The account, the verifier and `B` are fields of the socket that are set at
different places of the challenge, and the proof takes what is there.

* `Completed`, `watch` — what the last challenge computed, if it came to
  its end; recorded beside the run.
* `Sound` — a proof that stores a key stores it for the account whose
  verifier it used, and the number of the client is not 0 modulo `N`.
* `Keeps` — the condition on a packet.
* `proof_run` — in every run of packets that meet it, every proof is
  sound.
* `proofM1_of_zero` — for a multiple of `N` no password is needed.
-/
import HearthStone.Lib.Run
import HearthStone.Logon.AuthSocket

namespace HearthStone.LogonAuth

open Lib LogonAuth.Session

variable {sha : Bytes → Bytes} {y y' : Session} {acct b : Nat} {behind packet : Bytes}

/-! ## Multiples of `N` -/

theorem modExp_eq (a e n : Nat) : modExp a e n = a ^ e % n := by
  unfold modExp
  induction e using Nat.binaryRec' with
  | zero => simp
  | bit bit e hbit ih =>
    rw [Nat.bits_append_bit e bit hbit, List.foldr_cons, ih, Nat.bit_val, pow_add, pow_mul', pow_two]
    cases bit with
    | false => simp [Nat.mul_mod]
    | true => simp [Nat.mul_mod]

/-- The secret is 0 for any verifier. -/
theorem secret_of_zero {v B A : Nat} (hA : A % N = 0) (hb : b ≠ 0) : secret sha v b B A = 0 := by
  have hdvd : N ∣ A * modExp v (ofLeBytes (sha (bytesOf A ++ bytesOf B))) N :=
    Dvd.dvd.mul_right (Nat.dvd_of_mod_eq_zero hA) _
  unfold secret
  rw [modExp_eq]
  exact Nat.mod_eq_zero_of_dvd (hdvd.trans (dvd_pow_self _ hb))

/-- What has to be proved does not depend on the verifier. -/
theorem proofM1_of_zero {A : Nat} (hA : A % N = 0) (hb : y.sock.b ≠ 0) (v : Nat) :
    { y with sock := { y.sock with v := v } }.proofM1 sha acct A behind =
      y.proofM1 sha acct A behind := by
  have hzero : secret sha v y.sock.b y.sock.B A = secret sha y.sock.v y.sock.b y.sock.B A := by
    rw [secret_of_zero hA hb, secret_of_zero hA hb]
  simp only [proofM1, proofKey, hzero]

/-! ## The last challenge -/

/-- A challenge that came to its end: the account as it was then, and
the random number. -/
structure Completed where
  account : Nat
  snapshot : Account
  b : Nat
  behind : Bytes

/-- What the challenge computes, if it comes to its end. -/
def completed (y : Session) (packet : Bytes) (b : Nat) (behind : Bytes) : Option Completed :=
  if packet.length > CHALLENGE_SIZE + 4 then none
  else
    match challengeCheck y.srv (y.sock.cache packet).challenge with
    | .lookup name =>
      (y.srv.getAccount name).bind fun acct =>
        if (y.srv.accounts acct).banned ≠ 0 then none
        else some ⟨acct, y.srv.accounts acct, b, behind⟩
    | _ => none

/-- One packet, with the last challenge recorded. -/
def watch (sha : Bytes → Bytes) (p : Session × Option Completed) (c : Packet) :
    Session × Option Completed :=
  (step sha p.1 c,
    match c with
    | .challenge packet b behind =>
      if p.1.sock.connected then completed p.1 packet b behind else p.2
    | _ => p.2)

/-- The verifier and `B` are those that the last challenge computed from
the password hash of the account, which was not banned. -/
def Computed (sha : Bytes → Bytes) (p : Session × Option Completed) (acct : Nat) : Prop :=
  ∃ c, p.2 = some c ∧ c.account = acct ∧ c.snapshot.banned = 0 ∧
    p.1.sock.v = verifier sha c.behind p.1.sock.s c.snapshot.srpHash ∧
    p.1.sock.b = c.b ∧ p.1.sock.B = publicB p.1.sock.v c.b

/-- What is expected of a packet: a proof that stores a session key does
it for an account whose values it used, and with a number that is not 0. -/
def Sound (sha : Bytes → Bytes) (p : Session × Option Completed) : Packet → Prop
  | .proof A M1 behind => p.1.sock.connected = true →
      ∀ acct, p.1.storesFor sha (ofLeBytes A) M1 behind = some acct →
        Computed sha p acct ∧ ofLeBytes A % N ≠ 0
  | _ => True

/-- The condition on a packet. A challenge that is refused finds no
account on the socket, or names none; one that names an account finds it
not banned. A reconnect challenge names no other account than the one on
the socket. The number of a proof is not 0 modulo `N`. -/
def Keeps (p : Session × Option Completed) : Packet → Prop
  | .challenge packet _ _ => p.1.sock.connected = true → packet.length ≤ CHALLENGE_SIZE + 4 →
      match challengeCheck p.1.srv (p.1.sock.cache packet).challenge with
      | .lookup name => ∀ acct, p.1.srv.getAccount name = some acct →
          (p.1.srv.accounts acct).banned = 0
      | .disconnect => True
      | _ => p.1.sock.account = none
  | .reconnectChallenge packet _ => p.1.sock.connected = true → packet.length ≤ CHALLENGE_SIZE →
      ∀ name acct, reconnectCheck p.1.srv (p.1.sock.cache packet).challenge = .lookup name →
        p.1.srv.getAccount name = some acct → p.1.sock.account = some acct
  | .proof A _ _ => p.1.sock.account ≠ none → ofLeBytes A % N ≠ 0
  | _ => True

/-! ## What the handlers leave -/

/-- The fields that the proof takes together. -/
def exchange (sock : AuthSocket) : Option Nat × Nat × Nat × Nat × Nat × Bool :=
  (sock.account, sock.s, sock.v, sock.b, sock.B, sock.connected)

/-- On a socket that is connected, the account is that of the last
challenge. -/
def Inv (sha : Bytes → Bytes) (p : Session × Option Completed) : Prop :=
  p.1.sock.connected = true → ∀ acct, p.1.sock.account = some acct → Computed sha p acct

theorem Inv.of_exchange {c : Option Completed} (h : Inv sha (y, c))
    (heq : exchange y'.sock = exchange y.sock) : Inv sha (y', c) := by
  simp only [exchange, Prod.mk.injEq] at heq
  obtain ⟨haccount, hs, hv, hb, hB, hconnected⟩ := heq
  intro hon acct hacct
  simp only [Computed, hs, hv, hb, hB]
  exact h (hconnected ▸ hon) acct (haccount ▸ hacct)

theorem Inv.of_disconnected {c : Option Completed} (h : y.sock.connected = false) :
    Inv sha (y, c) := by
  intro hon
  rw [h] at hon
  cases hon

theorem Inv.of_nobody {c : Option Completed} (h : y.sock.account = none) : Inv sha (y, c) := by
  intro _ acct hacct
  rw [h] at hacct
  cases hacct

theorem exchange_handleProof (A : Nat) (M1 : Bytes) :
    exchange (y.handleProof sha A M1 behind).sock = exchange y.sock := by
  unfold handleProof
  cases haccount : y.sock.account with
  | none =>
    split_ifs
    · rfl
    · rfl
  | some X =>
    cases hstores : y.storesFor sha A M1 behind with
    | none => simp [exchange, setSock, AuthSocket.sendChallengeError, AuthSocket.send]
    | some acct => simp [exchange, setSock, storeKey, AuthSocket.send]

theorem handleReconnectProof_cases (R1 R2 : Bytes) :
    exchange (y.handleReconnectProof sha R1 R2).sock = exchange y.sock ∨
      (y.handleReconnectProof sha R1 R2).sock.connected = false := by
  unfold handleReconnectProof
  cases y.sock.account with
  | none => exact Or.inl rfl
  | some acct =>
    dsimp only
    cases y.srv.sessionKeyRow (y.srv.accounts acct).accountId with
    | none => exact Or.inr rfl
    | some K =>
      dsimp only
      split_ifs
      · exact Or.inl rfl
      · exact Or.inl rfl

theorem updateLocale_srpHash (acct : Nat) :
    ((y.updateLocale acct).srv.accounts acct).srpHash = (y.srv.accounts acct).srpHash := by
  unfold updateLocale
  split_ifs
  · rfl
  · simp

theorem updateLocale_sock (acct : Nat) : (y.updateLocale acct).sock = y.sock := by
  unfold updateLocale
  split_ifs <;> rfl

/-! ## The challenges -/

theorem inv_challenge (hconnected : y.sock.connected = true) {c : Option Completed}
    (hkeeps : Keeps (y, c) (.challenge packet b behind)) :
    Inv sha (y.handleChallenge sha packet b behind, completed y packet b behind) := by
  unfold handleChallenge completed
  by_cases hsize : packet.length > CHALLENGE_SIZE + 4
  · rw [if_pos hsize, if_pos hsize]
    exact Inv.of_disconnected rfl
  · rw [if_neg hsize, if_neg hsize]
    have hcheck := hkeeps hconnected (Nat.not_lt.1 hsize)
    dsimp only [setSock] at hcheck ⊢
    cases hc : challengeCheck y.srv (y.sock.cache packet).challenge with
    | error error =>
      rw [hc] at hcheck
      exact Inv.of_nobody hcheck
    | patch patch =>
      rw [hc] at hcheck
      cases patch with
      | none => exact Inv.of_nobody hcheck
      | some patch => exact Inv.of_nobody hcheck
    | disconnect => exact Inv.of_disconnected rfl
    | hash name =>
      rw [hc] at hcheck
      exact Inv.of_nobody hcheck
    | lookup name =>
      rw [hc] at hcheck
      dsimp only
      cases hacct : y.srv.getAccount name with
      | none => exact Inv.of_nobody rfl
      | some acct =>
        have hbanned := hcheck acct hacct
        simp only [hbanned, ne_eq, not_true_eq_false, if_false, Option.bind_some]
        intro _ X hX
        refine ⟨_, rfl, ?_, hbanned, ?_⟩
        · simp only [computeB, setSock, AuthSocket.send, updateLocale_sock] at hX
          exact Option.some.inj hX
        · simp only [computeB, setSock, AuthSocket.send, updateLocale_sock, updateLocale_srpHash,
            and_self]

theorem inv_reconnectChallenge {c : Option Completed} (h : Inv sha (y, c))
    (hconnected : y.sock.connected = true) (rs : Nat)
    (hkeeps : Keeps (y, c) (.reconnectChallenge packet rs)) :
    Inv sha (y.handleReconnectChallenge packet rs, c) := by
  unfold handleReconnectChallenge
  by_cases hsize : packet.length > CHALLENGE_SIZE
  · rw [if_pos hsize]
    exact Inv.of_disconnected rfl
  · rw [if_neg hsize]
    have hcheck := hkeeps hconnected (Nat.not_lt.1 hsize)
    dsimp only [setSock] at hcheck ⊢
    cases hc : reconnectCheck y.srv (y.sock.cache packet).challenge with
    | error error => exact h.of_exchange rfl
    | patch patch => exact h.of_exchange rfl
    | disconnect => exact Inv.of_disconnected rfl
    | hash name => exact h.of_exchange rfl
    | lookup name =>
      dsimp only
      cases hacct : y.srv.getAccount name with
      | none => exact Inv.of_nobody rfl
      | some acct =>
        have hsame : y.sock.account = some acct := hcheck name acct hc hacct
        dsimp only
        split_ifs with hbanned hkey
        · exact h.of_exchange (by simp [exchange, AuthSocket.sendChallengeError, AuthSocket.send,
            AuthSocket.cache, hsame])
        · exact h.of_exchange (by simp [exchange, AuthSocket.sendChallengeError, AuthSocket.send,
            AuthSocket.cache, hsame])
        · exact h.of_exchange (by simp [exchange, AuthSocket.send, AuthSocket.cache, hsame])

/-! ## Runs -/

theorem inv_watch (p : Session × Option Completed) (pkt : Packet) (h : Inv sha p)
    (hkeeps : Keeps p pkt) : Inv sha (watch sha p pkt) := by
  obtain ⟨y, c⟩ := p
  cases hon : y.sock.connected with
  | false =>
    have hoff : (step sha y pkt).sock.connected = false := by
      cases pkt <;> simp [step, hon]
    exact Inv.of_disconnected hoff
  | true =>
    cases pkt with
    | challenge packet b behind =>
      simp only [watch, step, hon, if_true]
      exact inv_challenge hon hkeeps
    | proof A M1 behind =>
      simp only [watch, step, hon, if_true]
      exact h.of_exchange (exchange_handleProof _ _)
    | reconnectChallenge packet rs =>
      simp only [watch, step, hon, if_true]
      exact inv_reconnectChallenge h hon rs hkeeps
    | reconnectProof R1 R2 =>
      simp only [watch, step, hon, if_true]
      rcases @handleReconnectProof_cases sha y R1 R2 with heq | hoff
      · exact h.of_exchange heq
      · exact Inv.of_disconnected hoff
    | server srv => exact h.of_exchange rfl

theorem storesFor_account {A : Nat} {M1 : Bytes}
    (h : y.storesFor sha A M1 behind = some acct) : y.sock.account = some acct := by
  exact (Option.filter_eq_some_iff.1 h).1

/-- For every hash, every server and every salt: in every run of packets
that meet the condition, every further proof that meets it is sound. -/
theorem proof_run (sha : Bytes → Bytes) (srv : LogonServer) (s : Nat) (pkts : List Packet)
    (p : Session × Option Completed)
    (hrun : Run (Guarded Keeps (FunStep (watch sha))) (⟨srv, newSocket s⟩, none) pkts p) :
    ∀ pkt, Keeps p pkt → Sound sha p pkt := by
  have hinv : Inv sha p := by
    refine hrun.invariant (Inv sha) ?_ (Inv.of_nobody rfl)
    rintro p₁ pkt p₂ hp₁ ⟨hkeeps, hstep⟩
    rw [hstep]
    exact inv_watch p₁ pkt hp₁ hkeeps
  intro pkt hkeeps
  cases pkt with
  | proof A M1 behind =>
    intro hon acct hstores
    have hacct := storesFor_account hstores
    exact ⟨hinv hon acct hacct, hkeeps (by simp [hacct])⟩
  | challenge packet b behind => trivial
  | reconnectChallenge packet rs => trivial
  | reconnectProof R1 R2 => trivial
  | server srv => trivial

/-! ## Three ways it fails -/

/-- Account 1 is named A, account 2 is named B. -/
def twoAccounts (banned : Nat) : LogonServer where
  minBuild := 0
  maxBuild := 0
  banStatus := .notBanned
  findPatch _ _ := none
  getAccount name := if name = [65] then some 1 else if name = [66] then some 2 else none
  accounts acct := ⟨acct, [64 + UInt8.ofNat acct], [UInt8.ofNat acct], if acct = 2 then banned else 0,
    none, true, []⟩
  sessionKeyRow _ := none

/-- A challenge that names an account. -/
def naming (name : UInt8) : Bytes := List.replicate 33 0 ++ [1, name]

/-- A hash that hashes nothing. -/
def flatSha : Bytes → Bytes := fun _ => List.replicate 20 1

/-- A challenge with a random number of 152 bits. -/
def challengeOf (name : UInt8) : Packet := .challenge (naming name) (2 ^ 151 + 1) []

def atStart (banned : Nat) : Session × Option Completed := (⟨twoAccounts banned, newSocket 1⟩, none)

/-- Account 1 logs on. -/
theorem proof_run_login :
    Sound flatSha ([challengeOf 65].foldl (watch flatSha) (atStart 0))
      (.proof [1] (([challengeOf 65].foldl (watch flatSha) (atStart 0)).1.proofM1 flatSha 1
        (ofLeBytes [1]) []) []) := by
  refine proof_run flatSha (twoAccounts 0) 1 [challengeOf 65] _ (.cons ⟨?_, rfl⟩ (.nil _)) _ ?_
  · intro _ _
    have hcheck : challengeCheck (twoAccounts 0) ((newSocket 1).cache (naming 65)).challenge =
        .lookup [65] := by decide +kernel
    show match challengeCheck (twoAccounts 0) ((newSocket 1).cache (naming 65)).challenge with
      | .lookup name => ∀ acct, (twoAccounts 0).getAccount name = some acct →
          ((twoAccounts 0).accounts acct).banned = 0
      | .disconnect => True
      | _ => (newSocket 1).account = none
    rw [hcheck]
    intro acct _
    simp [twoAccounts]
  · intro _
    decide +kernel

/-- After a reconnect challenge, or after a challenge that is refused
because account 2 is banned, the password of account 1 is good for
account 2; and with a multiple of `N` no password is needed: the last
proof is computed without the verifier. -/
theorem not_proof_run :
    (∃ A M1, ¬ Sound flatSha ([challengeOf 65, .reconnectChallenge (naming 66) 5].foldl
        (watch flatSha) (atStart 0)) (.proof A M1 [])) ∧
      (∃ A M1, ¬ Sound flatSha ([challengeOf 65, challengeOf 66].foldl (watch flatSha) (atStart 1))
        (.proof A M1 [])) ∧
      ¬ Sound flatSha ([challengeOf 65].foldl (watch flatSha) (atStart 0))
        (.proof (leBytes 32 N)
          ({ ([challengeOf 65].foldl (watch flatSha) (atStart 0)).1 with
            sock := { ([challengeOf 65].foldl (watch flatSha) (atStart 0)).1.sock with
              v := 0 } }.proofM1 flatSha 1 N []) []) := by
  refine ⟨?_, ?_, ?_⟩
  · set p := [challengeOf 65, .reconnectChallenge (naming 66) 5].foldl (watch flatSha) (atStart 0)
      with hp
    have hacct : p.1.sock.account = some 2 := rfl
    refine ⟨[1], p.1.proofM1 flatSha 2 (ofLeBytes [1]) [], fun h => ?_⟩
    obtain ⟨⟨c, hc, hsame, -⟩, -⟩ := h rfl 2 (by simp [storesFor, hacct])
    have hlast : p.2.map Completed.account = some 1 := rfl
    rw [hc, Option.map_some, hsame] at hlast
    cases hlast
  · set p := [challengeOf 65, challengeOf 66].foldl (watch flatSha) (atStart 1) with hp
    have hacct : p.1.sock.account = some 2 := rfl
    refine ⟨[1], p.1.proofM1 flatSha 2 (ofLeBytes [1]) [], fun h => ?_⟩
    obtain ⟨⟨c, hc, -⟩, -⟩ := h rfl 2 (by simp [storesFor, hacct])
    have hlast : p.2.map Completed.account = none := rfl
    rw [hc] at hlast
    cases hlast
  · set p := [challengeOf 65].foldl (watch flatSha) (atStart 0) with hp
    have hacct : p.1.sock.account = some 1 := rfl
    have hA : ofLeBytes (leBytes 32 N) = N := ofLeBytes_leBytes (by decide +kernel)
    have hb : p.1.sock.b ≠ 0 := by
      have hb' : p.1.sock.b = 2 ^ 151 + 1 := rfl
      rw [hb']
      decide
    intro h
    refine (h rfl 1 ?_).2 ?_
    · rw [hA, proofM1_of_zero (Nat.mod_self N) hb]
      simp [storesFor, hacct]
    · rw [hA]
      exact Nat.mod_self N

end HearthStone.LogonAuth
