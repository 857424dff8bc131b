/-
HearthStone.Logon.ChallengeParserTheorems — when the challenge handlers stay
inside what was received and inside `m_challenge`.

`HandleChallenge` compares the size without the four bytes of the header, and
the length of the name with 0x50 where the array has 50 bytes.
`HandleReconnectChallenge` has both right, but copies the packet from region A
before it reads it.

* `received_front_iff` — a copy from the front of the buffer is of received
  bytes exactly when region A is that long.
* `inBounds_challenge_iff`, `inBounds_reconnect_iff` — the two handlers.
* `challenge_bounds_iff` — in every run.
-/
import HearthStone.Logon.ChallengeParser

namespace HearthStone.ChallengeParser

open Lib LogonAuth
open CircularBuffer (Regions contents)

variable {s s' : Socket} {c : CircularBuffer} {srv : LogonServer} {n : Nat} {m : Bytes}
  {read written : List Span} {check : Check}

/-! ## What is expected -/

/-- All of it lies in the regions of the buffer. -/
def Received (c : CircularBuffer) (r : Span) : Prop :=
  ∀ i < r.length, c.InA (r.start + i) ∨ c.InB (r.start + i)

/-- Received bytes are read, `m_challenge` is written, and a name that is used
ends inside its array. -/
structure InBounds (s : Socket) (call : Call) : Prop where
  read : ∀ r ∈ call.read, Received s.readBuffer r
  written : ∀ w ∈ call.written, w.start + w.length ≤ CHALLENGE_SIZE
  terminated : ∀ name, call.check = some (.hash name) ∨ call.check = some (.lookup name) →
    ∃ i < NAME_SIZE, call.socket.memory (NAME_OFFSET + i) = 0

/-- The account is looked up. -/
def Accepts (call : Call) : Prop := ∃ name, call.check = some (.lookup name)

/-- The packet is there as a whole. -/
def Complete (c : CircularBuffer) : Prop :=
  4 ≤ c.getContiguiousBytes ∧ fullSize c + 4 ≤ c.getSize

/-- `m_challenge` with the packet copied over it. -/
def Socket.received (s : Socket) : Bytes :=
  (s.copy (s.readBuffer.contents.take (fullSize s.readBuffer + 4))).challenge

/-- The build is served and the address not banned. -/
def Passes (srv : LogonServer) (m : Bytes) : Prop :=
  build m ≤ srv.maxBuild ∧ srv.minBuild ≤ build m ∧ srv.banStatus = .notBanned

/-- A packet that is complete and not refused for its size has 84 bytes at
most and lies in one piece; if the tests before it are passed, the name has
less than 50 bytes and no `#` in it, or 80 or more. -/
def Meets (srv : LogonServer) (s : Socket) : Prop :=
  Complete s.readBuffer → fullSize s.readBuffer ≤ CHALLENGE_SIZE →
    fullSize s.readBuffer + 4 ≤ CHALLENGE_SIZE ∧
    fullSize s.readBuffer + 4 ≤ s.readBuffer.getContiguiousBytes ∧
    (Passes srv s.received → 0x50 ≤ nameLength s.received ∨
      (nameLength s.received < NAME_SIZE ∧ '#'.toUInt8 ∉ nameOf s.received))

/-! ## The buffer -/

theorem start_of_contiguous (h : c.Regions) (hc : 0 < c.getContiguiousBytes) :
    c.getBufferStart = c.regionAPointer ∧ c.getContiguiousBytes = c.regionASize := by
  unfold CircularBuffer.getContiguiousBytes at hc ⊢
  by_cases hA : c.regionASize = 0
  · have hB := h.noB (h.empty hA).2
    rw [if_neg (not_not.2 hA), hB] at hc
    omega
  · exact ⟨if_pos (Nat.pos_of_ne_zero hA), if_pos hA⟩

/-- A copy from the front is of received bytes exactly when region A is that
long. -/
theorem received_front_iff (h : c.Regions) (hc : 0 < c.getContiguiousBytes) :
    Received c ⟨c.getBufferStart, n⟩ ↔ n ≤ c.getContiguiousBytes := by
  obtain ⟨hstart, hsize⟩ := start_of_contiguous h hc
  rw [hsize]
  constructor
  · intro hall
    by_contra hlt
    have hlast := hall c.regionASize (Nat.lt_of_not_le hlt)
    dsimp only at hlast
    rw [hstart] at hlast
    rcases hlast with hA | hB
    · exact absurd hA.2 (Nat.lt_irrefl _)
    · -- region B ends before region A begins
      by_cases hzero : c.regionBPointer = 0
      · have hnone := h.noB hzero
        have hlt := hB.2
        omega
      · have hbefore := (h.before hzero).2
        have hlt := hB.2
        omega
  · intro hle i hi
    dsimp only at hi ⊢
    left
    rw [hstart]
    exact ⟨Nat.le_add_right _ _, by omega⟩

theorem received_sizeSpan (h : c.Regions) (hc : 4 ≤ c.getContiguiousBytes) :
    Received c (sizeSpan c) := by
  intro i hi
  have hall := (received_front_iff (n := 4) h (by omega)).2 hc (2 + i) (Nat.add_lt_add_left hi 2)
  rw [← Nat.add_assoc] at hall
  exact hall

/-- Nothing else is read of a packet that is not taken. -/
theorem forall_received_sizeSpan (h : c.Regions) (hc : 4 ≤ c.getContiguiousBytes) :
    ∀ r ∈ [sizeSpan c], Received c r :=
  List.forall_mem_singleton.2 (received_sizeSpan h hc)

theorem received_sourceSpans (c : CircularBuffer) (n : Nat) :
    ∀ r ∈ sourceSpans c n, Received c r := by
  rw [sourceSpans, CircularBuffer.cutA_eq, CircularBuffer.cutB_eq, List.forall_mem_cons,
    List.forall_mem_cons]
  refine ⟨fun i hi => Or.inl ⟨Nat.le_add_right _ _, ?_⟩,
    fun i hi => Or.inr ⟨Nat.le_add_right _ _, ?_⟩, fun _ hr => by cases hr⟩
  · dsimp only at hi ⊢
    omega
  · dsimp only at hi ⊢
    omega

theorem targetSpans_le_iff (hn : n ≤ c.getSize) :
    (∀ w ∈ targetSpans c n, w.start + w.length ≤ CHALLENGE_SIZE) ↔ n ≤ CHALLENGE_SIZE := by
  unfold CircularBuffer.getSize at hn
  rw [targetSpans, CircularBuffer.cutA_eq, CircularBuffer.cutB_eq, List.forall_mem_cons,
    List.forall_mem_cons]
  dsimp only
  constructor
  · rintro ⟨-, hall, -⟩
    omega
  · intro hle
    exact ⟨by omega, by omega, fun _ hw => by cases hw⟩

theorem read_memory (hn : n ≤ s.readBuffer.getSize) :
    s.read n = { s.copy (s.readBuffer.contents.take n) with readBuffer := s.readBuffer.remove n } := by
  rw [Socket.read, CircularBuffer.read_eq, if_neg (Nat.not_lt.2 hn)]
  rfl

theorem challenge_read (hn : n ≤ s.readBuffer.getSize) :
    (s.read n).challenge = (s.copy (s.readBuffer.contents.take n)).challenge := by
  rw [read_memory hn]
  rfl

/-! ## The decision -/

/-- The name of a packet is used. -/
def UsesName (check : Check) : Prop := ∃ name, check = .hash name ∨ check = .lookup name

theorem notBanned_of_ne {status : BanStatus} (hperm : status ≠ .permanentBan)
    (htime : status ≠ .timeLeftOnBan) : status = .notBanned := by
  cases status with
  | notBanned => rfl
  | timeLeftOnBan => exact absurd rfl htime
  | permanentBan => exact absurd rfl hperm

theorem usesName_challenge_iff :
    UsesName (challengeCheck srv m) ↔ Passes srv m ∧ nameLength m < 0x50 := by
  unfold challengeCheck UsesName Passes
  split_ifs with hmax hmin hperm htime hlen hhash
  · simp; omega
  · simp; omega
  · simp [hperm]
  · simp [htime]
  · simp; omega
  · simp [notBanned_of_ne hperm htime]; omega
  · simp [notBanned_of_ne hperm htime]; omega

theorem usesName_reconnect_iff :
    UsesName (reconnectCheck srv m) ↔ Passes srv m ∧ nameLength m < NAME_SIZE := by
  unfold reconnectCheck UsesName Passes NAME_SIZE
  split_ifs with hbuild hperm htime hlen
  · simp; omega
  · simp [hperm]
  · simp [htime]
  · simp; omega
  · simp [notBanned_of_ne hperm htime]; omega

theorem lookup_challenge_iff : (∃ name, challengeCheck srv m = .lookup name) ↔
    Passes srv m ∧ nameLength m < 0x50 ∧ '#'.toUInt8 ∉ nameOf m := by
  unfold challengeCheck Passes
  split_ifs with hmax hmin hperm htime hlen hhash
  · simp; omega
  · simp; omega
  · simp [hperm]
  · simp [htime]
  · simp; omega
  · simp [hhash]
  · simp [notBanned_of_ne hperm htime, hhash]; omega

theorem lookup_reconnect_iff : (∃ name, reconnectCheck srv m = .lookup name) ↔
    Passes srv m ∧ nameLength m < NAME_SIZE := by
  unfold reconnectCheck Passes NAME_SIZE
  split_ifs with hbuild hperm htime hlen
  · simp; omega
  · simp [hperm]
  · simp [htime]
  · simp; omega
  · simp [notBanned_of_ne hperm htime]; omega

/-! ## The handlers -/

theorem terminate_memory (s : Socket) :
    s.terminate.memory (NAME_OFFSET + nameLength s.challenge) = 0 := by
  simp [Socket.terminate, store]

theorem conclude_check (s : Socket) (read written : List Span) (check : Check) :
    (conclude s read written check).check = some check := by
  unfold conclude
  split
  · rfl
  · rfl
  · rfl
  · rfl
  · rfl

theorem conclude_read (s : Socket) (read written : List Span) (check : Check) :
    (conclude s read written check).read = read := by
  unfold conclude
  split
  · rfl
  · rfl
  · rfl
  · rfl
  · rfl

theorem forall_written_conclude (s : Socket) (read written : List Span) (check : Check) :
    (∀ w ∈ (conclude s read written check).written, w.start + w.length ≤ CHALLENGE_SIZE) ↔
      (∀ w ∈ written, w.start + w.length ≤ CHALLENGE_SIZE) ∧
      (UsesName check → nameLength s.challenge < NAME_SIZE) := by
  have hlast : NAME_OFFSET + nameLength s.challenge + 1 ≤ CHALLENGE_SIZE ↔
      nameLength s.challenge < NAME_SIZE := by
    unfold NAME_OFFSET CHALLENGE_SIZE NAME_SIZE
    omega
  unfold conclude UsesName
  split
  · simp
  · rw [List.forall_mem_append, List.forall_mem_singleton, hlast]
    exact and_congr_right fun _ => ⟨fun h _ => h, fun h => h ⟨_, Or.inl rfl⟩⟩
  · rw [List.forall_mem_append, List.forall_mem_singleton, hlast]
    exact and_congr_right fun _ => ⟨fun h _ => h, fun h => h ⟨_, Or.inr rfl⟩⟩
  · simp
  · simp

/-- The end of a handler is in bounds when its copies are, and a name that is
used is short enough. -/
theorem inBounds_conclude_iff (s₀ s : Socket) (read written : List Span) (check : Check) :
    InBounds s₀ (conclude s read written check) ↔
      (∀ r ∈ read, Received s₀.readBuffer r) ∧
      (∀ w ∈ written, w.start + w.length ≤ CHALLENGE_SIZE) ∧
      (UsesName check → nameLength s.challenge < NAME_SIZE) := by
  constructor
  · intro h
    have hread := h.read
    rw [conclude_read] at hread
    exact ⟨hread, (forall_written_conclude s read written check).1 h.written⟩
  · rintro ⟨hread, hwritten, hname⟩
    refine ⟨?_, (forall_written_conclude s read written check).2 ⟨hwritten, hname⟩, ?_⟩
    · rw [conclude_read]
      exact hread
    · intro name hused
      rw [conclude_check, Option.some.injEq, Option.some.injEq] at hused
      refine ⟨nameLength s.challenge, hname ⟨name, hused⟩, ?_⟩
      have hsocket : (conclude s read written check).socket = s.terminate := by
        rcases hused with rfl | rfl
        · rfl
        · rfl
      rw [hsocket, terminate_memory]

theorem inBounds_nothing {check : Option Check} (hread : ∀ r ∈ read, Received s.readBuffer r)
    (hcheck : check = none) : InBounds s ⟨read, [], check, s'⟩ := by
  refine ⟨hread, fun _ hw => absurd hw List.not_mem_nil, fun name hname => ?_⟩
  rw [hcheck] at hname
  rcases hname with h | h
  · cases h
  · cases h

/-! ## A packet that is taken -/

theorem challenge_of_taken (hcomplete : Complete s.readBuffer)
    (hsize : fullSize s.readBuffer ≤ CHALLENGE_SIZE) :
    handleChallenge srv s = conclude (s.read (fullSize s.readBuffer + 4))
      (sizeSpan s.readBuffer :: sourceSpans s.readBuffer (fullSize s.readBuffer + 4))
      (targetSpans s.readBuffer (fullSize s.readBuffer + 4)) (challengeCheck srv s.received) := by
  have hreceived : s.received = (s.read (fullSize s.readBuffer + 4)).challenge :=
    (challenge_read hcomplete.2).symm
  rw [hreceived, handleChallenge, if_neg (by have := hcomplete.1; omega),
    if_neg (by have := hcomplete.2; omega), if_neg (by omega)]

/-- The socket after both copies of `HandleReconnectChallenge`. -/
def copiedTwice (s : Socket) (n : Nat) : Socket :=
  (s.copy (load s.readBuffer.mem s.readBuffer.getBufferStart n)).read n

/-- The second copy covers the first. -/
theorem challenge_copiedTwice (hn : n ≤ s.readBuffer.getSize) :
    (copiedTwice s n).challenge = (s.copy (s.readBuffer.contents.take n)).challenge := by
  have hlength : (load s.readBuffer.mem s.readBuffer.getBufferStart n).length
      = (s.readBuffer.contents.take n).length := by
    rw [length_load, List.length_take, CircularBuffer.length_contents, Nat.min_eq_left hn]
  have hread := challenge_read (s := s.copy (load s.readBuffer.mem s.readBuffer.getBufferStart n)) hn
  have hstore : store (store s.memory 0 (load s.readBuffer.mem s.readBuffer.getBufferStart n)) 0
      (s.readBuffer.contents.take n) = store s.memory 0 (s.readBuffer.contents.take n) :=
    store_store hlength
  exact hread.trans (congrArg (fun memory => load memory 0 (NAME_OFFSET + 0x50)) hstore)

theorem reconnect_of_taken (hcomplete : Complete s.readBuffer)
    (hsize : fullSize s.readBuffer + 4 ≤ CHALLENGE_SIZE) :
    handleReconnectChallenge srv s = conclude (copiedTwice s (fullSize s.readBuffer + 4))
      (sizeSpan s.readBuffer :: ⟨s.readBuffer.getBufferStart, fullSize s.readBuffer + 4⟩ ::
        sourceSpans s.readBuffer (fullSize s.readBuffer + 4))
      (⟨0, fullSize s.readBuffer + 4⟩ :: targetSpans s.readBuffer (fullSize s.readBuffer + 4))
      (reconnectCheck srv s.received) := by
  have hreceived : s.received = (copiedTwice s (fullSize s.readBuffer + 4)).challenge :=
    (challenge_copiedTwice hcomplete.2).symm
  rw [hreceived, handleReconnectChallenge, if_neg (by have := hcomplete.1; omega),
    if_neg (by have := hcomplete.2; omega), if_neg (by omega)]
  rfl

theorem challenge_of_not_taken
    (h : ¬ (Complete s.readBuffer ∧ fullSize s.readBuffer ≤ CHALLENGE_SIZE)) :
    (handleChallenge srv s).check = none := by
  unfold handleChallenge
  dsimp only
  split_ifs with hheader hsize hlarge
  · rfl
  · rfl
  · rfl
  · exact absurd ⟨⟨by omega, by omega⟩, by omega⟩ h

theorem reconnect_of_not_taken
    (h : ¬ (Complete s.readBuffer ∧ fullSize s.readBuffer + 4 ≤ CHALLENGE_SIZE)) :
    (handleReconnectChallenge srv s).check = none := by
  unfold handleReconnectChallenge
  dsimp only
  split_ifs with hheader hsize hlarge
  · rfl
  · rfl
  · rfl
  · exact absurd ⟨⟨by omega, by omega⟩, by omega⟩ h

/-- A packet that is not complete, or too large, is not copied. -/
theorem inBounds_challenge_of_not_taken (hregions : s.readBuffer.Regions)
    (h : ¬ (Complete s.readBuffer ∧ fullSize s.readBuffer ≤ CHALLENGE_SIZE)) :
    InBounds s (handleChallenge srv s) := by
  unfold handleChallenge
  dsimp only
  split_ifs with hheader hsize hlarge
  · exact inBounds_nothing (fun _ hr => absurd hr List.not_mem_nil) rfl
  · exact inBounds_nothing (forall_received_sizeSpan hregions (by omega)) rfl
  · exact inBounds_nothing (forall_received_sizeSpan hregions (by omega)) rfl
  · exact absurd ⟨⟨by omega, by omega⟩, by omega⟩ h

theorem inBounds_reconnect_of_not_taken (hregions : s.readBuffer.Regions)
    (h : ¬ (Complete s.readBuffer ∧ fullSize s.readBuffer + 4 ≤ CHALLENGE_SIZE)) :
    InBounds s (handleReconnectChallenge srv s) := by
  unfold handleReconnectChallenge
  dsimp only
  split_ifs with hheader hsize hlarge
  · exact inBounds_nothing (fun _ hr => absurd hr List.not_mem_nil) rfl
  · exact inBounds_nothing (forall_received_sizeSpan hregions (by omega)) rfl
  · exact inBounds_nothing (forall_received_sizeSpan hregions (by omega)) rfl
  · exact absurd ⟨⟨by omega, by omega⟩, by omega⟩ h

/-- `HandleChallenge` is in bounds when the packet fits, and a name it uses
has less than 50 bytes. -/
theorem inBounds_challenge_iff (hregions : s.readBuffer.Regions)
    (hcomplete : Complete s.readBuffer) (hsize : fullSize s.readBuffer ≤ CHALLENGE_SIZE) :
    InBounds s (handleChallenge srv s) ↔
      fullSize s.readBuffer + 4 ≤ CHALLENGE_SIZE ∧
      (Passes srv s.received → nameLength s.received < 0x50 → nameLength s.received < NAME_SIZE) := by
  have hread : ∀ r ∈ sizeSpan s.readBuffer :: sourceSpans s.readBuffer (fullSize s.readBuffer + 4),
      Received s.readBuffer r := by
    rw [List.forall_mem_cons]
    exact ⟨received_sizeSpan hregions hcomplete.1, received_sourceSpans _ _⟩
  have hname : (s.read (fullSize s.readBuffer + 4)).challenge = s.received :=
    challenge_read hcomplete.2
  rw [challenge_of_taken hcomplete hsize, inBounds_conclude_iff, hname,
    targetSpans_le_iff hcomplete.2, usesName_challenge_iff, and_imp]
  exact and_iff_right hread

/-- `HandleReconnectChallenge` is in bounds when the packet is in one piece. -/
theorem inBounds_reconnect_iff (hregions : s.readBuffer.Regions)
    (hcomplete : Complete s.readBuffer) (hsize : fullSize s.readBuffer + 4 ≤ CHALLENGE_SIZE) :
    InBounds s (handleReconnectChallenge srv s) ↔
      fullSize s.readBuffer + 4 ≤ s.readBuffer.getContiguiousBytes := by
  have hheader := hcomplete.1
  have hname : (copiedTwice s (fullSize s.readBuffer + 4)).challenge = s.received :=
    challenge_copiedTwice hcomplete.2
  rw [reconnect_of_taken hcomplete hsize, inBounds_conclude_iff, hname, usesName_reconnect_iff,
    List.forall_mem_cons, List.forall_mem_cons, List.forall_mem_cons,
    received_front_iff hregions (by omega), targetSpans_le_iff hcomplete.2]
  constructor
  · rintro ⟨⟨-, hpiece, -⟩, -⟩
    exact hpiece
  · intro hpiece
    exact ⟨⟨received_sizeSpan hregions hheader, hpiece, received_sourceSpans _ _⟩,
      ⟨by dsimp only; omega, hsize⟩, And.right⟩

/-- The name is looked up by both or by neither. -/
theorem accepts_iff (hcomplete : Complete s.readBuffer)
    (hsize : fullSize s.readBuffer + 4 ≤ CHALLENGE_SIZE) :
    (Accepts (handleChallenge srv s) ↔ Accepts (handleReconnectChallenge srv s)) ↔
      (Passes srv s.received → 0x50 ≤ nameLength s.received ∨
        (nameLength s.received < NAME_SIZE ↔ '#'.toUInt8 ∉ nameOf s.received)) := by
  unfold Accepts
  rw [challenge_of_taken hcomplete (by omega), reconnect_of_taken hcomplete hsize, conclude_check,
    conclude_check]
  simp only [Option.some.injEq]
  rw [lookup_challenge_iff, lookup_reconnect_iff]
  have hshort : nameLength s.received < NAME_SIZE → nameLength s.received < 0x50 := by
    unfold NAME_SIZE
    omega
  by_cases hpasses : Passes srv s.received
  · by_cases hlen : nameLength s.received < 0x50
    · have hle : ¬ 0x50 ≤ nameLength s.received := not_le.2 hlen
      simp only [hpasses, hlen, hle, true_and, false_or, forall_const]
      exact Iff.comm
    · have hlong := mt hshort hlen
      simp [hpasses, hlen, hlong, not_lt.1 hlen]
  · simp [hpasses]

/-! ## Runs -/

theorem regions_read (h : s.readBuffer.Regions) (n : Nat) : (s.read n).readBuffer.Regions := by
  show (s.readBuffer.read n).2.Regions
  rw [CircularBuffer.read_eq]
  split_ifs
  · exact h
  · exact (h.remove n).1

theorem readBuffer_conclude (s : Socket) (read written : List Span) (check : Check) :
    (conclude s read written check).socket.readBuffer = s.readBuffer := by
  unfold conclude
  split
  · rfl
  · rfl
  · rfl
  · rfl
  · rfl

theorem regions_handleChallenge (h : s.readBuffer.Regions) :
    (handleChallenge srv s).socket.readBuffer.Regions := by
  unfold handleChallenge
  dsimp only
  split_ifs
  · exact h
  · exact h
  · exact h
  · rw [readBuffer_conclude]
    exact regions_read h _

theorem regions_handleReconnectChallenge (h : s.readBuffer.Regions) :
    (handleReconnectChallenge srv s).socket.readBuffer.Regions := by
  unfold handleReconnectChallenge
  dsimp only
  split_ifs
  · exact h
  · exact h
  · exact h
  · rw [readBuffer_conclude]
    exact regions_read (s := s.copy _) h _

theorem regions_receive (h : s.readBuffer.Regions) (available : Bytes) :
    (s.receive available).readBuffer.Regions := by
  obtain ⟨hspace, -⟩ := h.getSpace
  unfold Socket.receive
  dsimp only
  split_ifs with hnone
  · exact hspace
  · have hfits : (available.take s.readBuffer.getSpace.1).length ≤ s.readBuffer.getSpace.2.room := by
      rcases CircularBuffer.room_getSpace (c := s.readBuffer) with hroom | hzero
      · rw [hroom, List.length_take]
        exact Nat.min_le_left _ _
      · exact absurd (by rw [hzero, List.take_zero]) hnone
    exact (hspace.commit hfits).1

theorem regions_step (h : s.readBuffer.Regions) (e : Event) :
    (s.step e).readBuffer.Regions := by
  cases e with
  | receive available =>
    unfold Socket.step
    split_ifs
    · exact regions_receive h available
    · exact h
  | challenge srv =>
    unfold Socket.step
    split_ifs
    · exact regions_handleChallenge h
    · exact h
  | reconnectChallenge srv =>
    unfold Socket.step
    split_ifs
    · exact regions_handleReconnectChallenge h
    · exact h
  | remove len =>
    unfold Socket.step
    split_ifs
    · exact (h.remove len).1
    · exact h

theorem regions_run (mem memory : Nat → UInt8) (block : ℕ+) (events : List Event) :
    (events.foldl Socket.step (newSocket mem memory block)).readBuffer.Regions := by
  have hstart : (newSocket mem memory block).readBuffer.Regions :=
    ((CircularBuffer.regions_new mem).allocate rfl fun hzero => absurd hzero block.ne_zero).1
  refine (Run.foldl Socket.step _ events).invariant (fun s => s.readBuffer.Regions) ?_ hstart
  rintro s₁ e s₂ hs₁ hstep
  rw [hstep]
  exact regions_step hs₁ e

/-- In every state a socket reaches, whatever the packet at the front of its
buffer is: both handlers stay inside what was received and inside
`m_challenge`, and accept the same, exactly when the packet meets the
condition. -/
theorem challenge_bounds_iff (mem memory : Nat → UInt8) (block : ℕ+) (events : List Event)
    (srv : LogonServer) :
    let s := events.foldl Socket.step (newSocket mem memory block)
    (InBounds s (handleChallenge srv s) ∧ InBounds s (handleReconnectChallenge srv s) ∧
      (Accepts (handleChallenge srv s) ↔ Accepts (handleReconnectChallenge srv s))) ↔
    Meets srv s := by
  intro s
  have hregions : s.readBuffer.Regions := regions_run mem memory block events
  by_cases hcomplete : Complete s.readBuffer
  · by_cases hfits : fullSize s.readBuffer + 4 ≤ CHALLENGE_SIZE
    · have hsize : fullSize s.readBuffer ≤ CHALLENGE_SIZE := by omega
      rw [inBounds_challenge_iff hregions hcomplete hsize,
        inBounds_reconnect_iff hregions hcomplete hfits, accepts_iff hcomplete hfits]
      constructor
      · rintro ⟨⟨-, hshort⟩, hpiece, hsame⟩ - -
        refine ⟨hfits, hpiece, fun hpasses => ?_⟩
        rcases hsame hpasses with hle | hiff
        · exact Or.inl hle
        · by_cases hlen : nameLength s.received < 0x50
          · exact Or.inr ⟨hshort hpasses hlen, hiff.1 (hshort hpasses hlen)⟩
          · exact Or.inl (not_lt.1 hlen)
      · intro hmeets
        obtain ⟨-, hpiece, hname⟩ := hmeets hcomplete hsize
        refine ⟨⟨hfits, fun hpasses hlen => ?_⟩, hpiece, fun hpasses => ?_⟩
        · rcases hname hpasses with hle | ⟨hshort, -⟩
          · exact absurd hlen (not_lt.2 hle)
          · exact hshort
        · rcases hname hpasses with hle | ⟨hshort, hplain⟩
          · exact Or.inl hle
          · exact Or.inr (iff_of_true hshort hplain)
    · by_cases hsize : fullSize s.readBuffer ≤ CHALLENGE_SIZE
      · -- a packet of 85 to 88 bytes is copied
        rw [inBounds_challenge_iff hregions hcomplete hsize]
        refine iff_of_false (fun h => hfits h.1.1) fun h => hfits (h hcomplete hsize).1
      · -- a larger one is refused by both
        refine iff_of_true ⟨inBounds_challenge_of_not_taken hregions fun h => hsize h.2,
          inBounds_reconnect_of_not_taken hregions fun h => hfits h.2, ?_⟩ fun _ h => absurd h hsize
        unfold Accepts
        rw [challenge_of_not_taken fun h => hsize h.2, reconnect_of_not_taken fun h => hfits h.2]
  · refine iff_of_true ⟨inBounds_challenge_of_not_taken hregions fun h => hcomplete h.1,
      inBounds_reconnect_of_not_taken hregions fun h => hcomplete h.1, ?_⟩ fun h => absurd h hcomplete
    unfold Accepts
    rw [challenge_of_not_taken fun h => hcomplete h.1,
      reconnect_of_not_taken fun h => hcomplete h.1]

/-! ## Two packets -/

/-- A packet of build 12340 with this size and length of the name, and filled
up with letters. -/
def packetOf (size nameLen : UInt8) : Bytes :=
  [0, 8, size, 0] ++ List.replicate 7 0 ++ [0x34, 0x30] ++ List.replicate 20 0 ++ [nameLen] ++
    List.replicate (size.toNat - 30) 65

def openServer : LogonServer where
  minBuild := 12340
  maxBuild := 12340
  banStatus := .notBanned
  findPatch := fun _ _ => none
  getAccount := fun _ => none
  accounts := fun acct => ⟨acct, [], [], 0, none, true, []⟩
  sessionKeyRow := fun _ => none

/-- A new socket that has received a packet. -/
def holding (packet : Bytes) : Socket :=
  [Event.receive packet].foldl Socket.step (newSocket (fun _ => 0) (fun _ => 0) 1)

/-- With 84 as its size a packet of 88 bytes is written over the 84 of
`m_challenge`; a name of 79 bytes is ended 29 bytes behind `m_challenge` and
looked up, where a reconnect challenge is refused. -/
theorem challenge_writes_behind :
    (handleChallenge openServer (holding (packetOf 84 4))).written = [⟨0, 88⟩, ⟨88, 0⟩, ⟨38, 1⟩] ∧
    (handleChallenge openServer (holding (packetOf 80 79))).written = [⟨0, 84⟩, ⟨84, 0⟩, ⟨113, 1⟩] ∧
    (handleChallenge openServer (holding (packetOf 80 79))).check
      = some (.lookup (List.replicate 50 65)) ∧
    (handleReconnectChallenge openServer (holding (packetOf 80 79))).check = some .disconnect := by
  decide +kernel

end HearthStone.ChallengeParser
