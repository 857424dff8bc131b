/-
HearthStone.Network.OnRead — what a socket makes of the bytes it receives.

`parse` cuts a stream into frames without regard to how it arrived: a
header of six bytes, its size with the opcode counted in, and the payload
behind it. `OnRead` does it in pieces, with the header of an unfinished
frame kept in the socket. `resume` is what a socket in that state still
makes of the bytes to come, and `Tracks` relates it to the whole stream.

A header with a size below four leaves `mRemaining` at almost 2^32: the
socket then waits for bytes that no frame has.

* `readLoop_tracks` — one `OnRead`, by induction on its rounds.
* `frames_delivered` — every stream and every way of cutting it.
-/
import HearthStone.Network.WorldSocket

namespace HearthStone

open Lib

/-! ## Frames -/

/-- An opcode of four bytes and a payload. -/
structure Frame where
  opcode : UInt32
  payload : List UInt8
  deriving DecidableEq, Repr

/-- The complete frames of a stream, and whether they end at a header
whose size does not cover its own opcode. -/
def parse (c : WowCrypt) (s : List UInt8) : List Frame × Bool :=
  if s.length < 6 then ([], false)
  else
    let header := c.decryptRecv (s.take 6)
    let size := WorldSocket.headerSize header.1
    if size < 4 then ([], true)
    else if s.length < size + 2 then ([], false)
    else
      let rest := parse header.2 (s.drop (size + 2))
      (⟨WorldSocket.headerCmd header.1, (s.drop 6).take (size - 4)⟩ :: rest.1, rest.2)
termination_by s.length
decreasing_by
  rw [List.length_drop]
  omega

/-- Frames in front of what the rest of the stream is cut into. -/
def prepend (fs : List Frame) (r : List Frame × Bool) : List Frame × Bool := (fs ++ r.1, r.2)

theorem prepend_prepend (fs gs : List Frame) (r : List Frame × Bool) :
    prepend fs (prepend gs r) = prepend (fs ++ gs) r := by
  unfold prepend
  rw [List.append_assoc]

namespace WorldSocket

variable {w w' : WorldSocket} {c₀ : WowCrypt} {s t received : List UInt8}
  {delivered : List WorldPacket}

/-- A frame as the packet that is handed on; its opcode has sixteen bits. -/
def toPacket (f : Frame) : WorldPacket := ⟨f.opcode.toUInt16, f.payload⟩

/-! ## A socket within a stream -/

/-- The frame whose header is in the socket, then the rest. -/
def afterHeader (w : WorldSocket) (s : List UInt8) : List Frame × Bool :=
  if s.length < w.mRemaining.toNat then ([], false)
  else prepend [⟨w.mOpcode, s.take w.mRemaining.toNat⟩] (parse w.crypt (s.drop w.mRemaining.toNat))

/-- What a socket between two reads makes of the bytes to come. -/
def resume (w : WorldSocket) (s : List UInt8) : List Frame × Bool :=
  if w.mRemaining = 0 then parse w.crypt s else w.afterHeader s

/-- The largest payload that a size of sixteen bits announces. -/
def MAX_PAYLOAD : Nat := 65531

/-- After `received`, of which `delivered` has been handed on: the socket
is at a point of the stream, or waits in vain, or has gone on from there. -/
inductive Tracks (c₀ : WowCrypt) (received : List UInt8) (w : WorldSocket)
    (delivered : List WorldPacket) : Prop
  | good (fs : List Frame) : delivered = fs.map toPacket → w.mRemaining.toNat ≤ MAX_PAYLOAD →
      (∀ t, parse c₀ (received ++ t) = prepend fs (w.resume (w.readBuffer.contents ++ t))) →
      Tracks c₀ received w delivered
  | stuck (fs : List Frame) : delivered = fs.map toPacket → MAX_PAYLOAD < w.mRemaining.toNat →
      (∀ t, parse c₀ (received ++ t) = (fs, true)) → Tracks c₀ received w delivered
  | past (fs : List Frame) : fs.length < delivered.length →
      (∀ t, parse c₀ (received ++ t) = (fs, true)) → Tracks c₀ received w delivered

/-- Nothing is left to hand on until more bytes arrive. -/
def Settled (w : WorldSocket) : Prop := w.resume w.readBuffer.contents = ([], false)

/-! ## The two halves of a round -/

theorem toNat_size (n : Nat) (hn : n < 65536) :
    (n.toUInt32 - 4).toNat = if n < 4 then 4294967292 + n else n - 4 := by
  have hcast : n.toUInt32.toNat = n := by
    rw [Nat.toUInt32_eq, UInt32.toNat_ofNat']
    omega
  rw [UInt32.toNat_sub, hcast]
  have hfour : (4 : UInt32).toNat = 4 := rfl
  rw [hfour]
  split <;> omega

theorem headerSize_lt (header : List UInt8) : headerSize header < 65536 := by
  unfold headerSize
  have h0 := (header.getD 0 0).toNat_lt
  have h1 := (header.getD 1 0).toNat_lt
  omega

/-- The header is in the first six bytes. -/
theorem parse_of_length (hlen : 6 ≤ s.length) (t : List UInt8) :
    parse c₀ (s ++ t) =
      if headerSize (c₀.decryptRecv (s.take 6)).1 < 4 then ([], true)
      else if (s.drop 6 ++ t).length < headerSize (c₀.decryptRecv (s.take 6)).1 - 4 then ([], false)
      else prepend [⟨headerCmd (c₀.decryptRecv (s.take 6)).1,
          (s.drop 6 ++ t).take (headerSize (c₀.decryptRecv (s.take 6)).1 - 4)⟩]
        (parse (c₀.decryptRecv (s.take 6)).2
          ((s.drop 6 ++ t).drop (headerSize (c₀.decryptRecv (s.take 6)).1 - 4))) := by
  rw [parse]
  rw [if_neg (by rw [List.length_append]; omega), List.take_append_of_le_length hlen]
  by_cases hsmall : headerSize (c₀.decryptRecv (s.take 6)).1 < 4
  · rw [if_pos hsmall, if_pos hsmall]
  · rw [if_neg hsmall, if_neg hsmall]
    have hdrop : s.drop 6 ++ t = (s ++ t).drop 6 := by
      rw [List.drop_append_of_le_length hlen]
    have hlength : (s.drop 6 ++ t).length = (s ++ t).length - 6 := by
      rw [hdrop, List.length_drop]
    have hiff : (s ++ t).length < headerSize (c₀.decryptRecv (s.take 6)).1 + 2 ↔
        (s.drop 6 ++ t).length < headerSize (c₀.decryptRecv (s.take 6)).1 - 4 := by
      rw [hlength, List.length_append]
      omega
    by_cases hshort : (s ++ t).length < headerSize (c₀.decryptRecv (s.take 6)).1 + 2
    · rw [if_pos hshort, if_pos (hiff.1 hshort)]
    · rw [if_neg hshort, if_neg (fun h => hshort (hiff.2 h)), hdrop, List.drop_drop]
      have hsum : 6 + (headerSize (c₀.decryptRecv (s.take 6)).1 - 4) =
          headerSize (c₀.decryptRecv (s.take 6)).1 + 2 := by omega
      rw [hsum]
      rfl

theorem parse_of_short (hlen : s.length < 6) : parse c₀ s = ([], false) := by
  rw [parse, if_pos hlen]

/-- A frame at the front of a stream is its first frame. -/
theorem parse_frame {header payload : List UInt8} (hlen : header.length = 6)
    (hsize : headerSize (c₀.decryptRecv header).1 = payload.length + 4) (t : List UInt8) :
    parse c₀ (header ++ (payload ++ t)) =
      prepend [⟨headerCmd (c₀.decryptRecv header).1, payload⟩]
        (parse (c₀.decryptRecv header).2 t) := by
  have htake : header.take 6 = header := List.take_of_length_le (by omega)
  have hdrop : header.drop 6 = [] := List.drop_of_length_le (by omega)
  rw [parse_of_length (by omega), htake, hdrop, hsize, if_neg (by omega), List.nil_append,
    Nat.add_sub_cancel, if_neg (by rw [List.length_append]; omega), List.take_left',
    List.drop_left']
  · rfl
  · rfl

/-- The first half takes a header out of the buffer, if none is there. -/
theorem readHeader_spec (hw : w.readBuffer.Regions) :
    (w.readHeader = none ∧ w.mRemaining = 0 ∧ w.readBuffer.contents.length < 6) ∨
    (w.mRemaining ≠ 0 ∧ w.readHeader = some w) ∨
    (w.mRemaining = 0 ∧ 6 ≤ w.readBuffer.contents.length ∧
      ∃ w', w.readHeader = some w' ∧ w'.readBuffer.Regions ∧ w'.connected = w.connected ∧
        w'.readBuffer.contents = w.readBuffer.contents.drop 6 ∧
        w'.crypt = (w.crypt.decryptRecv (w.readBuffer.contents.take 6)).2 ∧
        w'.mOpcode = headerCmd (w.crypt.decryptRecv (w.readBuffer.contents.take 6)).1 ∧
        w'.mRemaining.toNat =
          if headerSize (w.crypt.decryptRecv (w.readBuffer.contents.take 6)).1 < 4
          then 4294967292 + headerSize (w.crypt.decryptRecv (w.readBuffer.contents.take 6)).1
          else headerSize (w.crypt.decryptRecv (w.readBuffer.contents.take 6)).1 - 4) := by
  by_cases hzero : w.mRemaining = 0
  · by_cases hsize : w.readBuffer.getSize < 6
    · refine Or.inl ⟨?_, hzero, by rwa [CircularBuffer.length_contents]⟩
      unfold readHeader
      rw [if_pos hzero, if_pos hsize]
    · obtain ⟨hregions, hcontents⟩ := hw.remove 6
      refine Or.inr (Or.inr ⟨hzero, by rw [CircularBuffer.length_contents]; omega, ?_⟩)
      unfold readHeader
      rw [if_pos hzero, if_neg hsize, CircularBuffer.read_eq, if_neg hsize]
      exact ⟨_, rfl, hregions, rfl, hcontents, rfl, rfl, toNat_size _ (headerSize_lt _)⟩
  · refine Or.inr (Or.inl ⟨hzero, ?_⟩)
    unfold readHeader
    rw [if_neg hzero]

/-- The second half takes the payload out when all of it is there. -/
theorem readPayload_spec (hw : w.readBuffer.Regions) :
    (w.readPayload = none ∧ w.readBuffer.contents.length < w.mRemaining.toNat) ∨
    (w.mRemaining.toNat ≤ w.readBuffer.contents.length ∧
      ∃ w', w.readPayload =
          some (⟨w.mOpcode.toUInt16, w.readBuffer.contents.take w.mRemaining.toNat⟩, w') ∧
        w'.readBuffer.Regions ∧ w'.connected = w.connected ∧
        w'.readBuffer.contents = w.readBuffer.contents.drop w.mRemaining.toNat ∧
        w'.crypt = w.crypt ∧ w'.mRemaining = 0) := by
  rw [CircularBuffer.length_contents]
  by_cases hzero : w.mRemaining = 0
  · refine Or.inr ⟨by rw [hzero]; exact Nat.zero_le _, ?_⟩
    unfold readPayload
    rw [hzero]
    exact ⟨_, rfl, hw, rfl, rfl, rfl, rfl⟩
  · have hpos : w.mRemaining > 0 := UInt32.pos_iff_ne_zero.2 hzero
    by_cases hsize : w.readBuffer.getSize < w.mRemaining.toNat
    · refine Or.inl ⟨?_, hsize⟩
      unfold readPayload
      rw [if_pos ⟨hpos, hsize⟩]
    · obtain ⟨hregions, hcontents⟩ := hw.remove w.mRemaining.toNat
      refine Or.inr ⟨by omega, ?_⟩
      unfold readPayload
      rw [if_neg (fun h => hsize h.2), if_pos hpos, CircularBuffer.read_eq, if_neg hsize]
      exact ⟨_, rfl, hregions, rfl, hcontents, rfl, rfl⟩

/-! ## One `OnRead` -/

/-- A socket that has just read a header, or had one, tracks the stream. -/
inductive Midway (c₀ : WowCrypt) (received : List UInt8) (w : WorldSocket)
    (delivered : List WorldPacket) : Prop
  | good (fs : List Frame) : delivered = fs.map toPacket → w.mRemaining.toNat ≤ MAX_PAYLOAD →
      (∀ t, parse c₀ (received ++ t) = prepend fs (w.afterHeader (w.readBuffer.contents ++ t))) →
      Midway c₀ received w delivered
  | stuck (fs : List Frame) : delivered = fs.map toPacket → MAX_PAYLOAD < w.mRemaining.toNat →
      (∀ t, parse c₀ (received ++ t) = (fs, true)) → Midway c₀ received w delivered
  | past (fs : List Frame) : fs.length < delivered.length →
      (∀ t, parse c₀ (received ++ t) = (fs, true)) → Midway c₀ received w delivered

theorem toNat_ne_zero (h : w.mRemaining ≠ 0) : w.mRemaining.toNat ≠ 0 :=
  fun hzero => h (UInt32.toNat_inj.1 hzero)

/-- A header is read where the stream has one. -/
theorem Tracks.midway (h : Tracks c₀ received w delivered) (hzero : w.mRemaining = 0)
    (hlen : 6 ≤ w.readBuffer.contents.length)
    (hcontents : w'.readBuffer.contents = w.readBuffer.contents.drop 6)
    (hcrypt : w'.crypt = (w.crypt.decryptRecv (w.readBuffer.contents.take 6)).2)
    (hopcode : w'.mOpcode = headerCmd (w.crypt.decryptRecv (w.readBuffer.contents.take 6)).1)
    (hrem : w'.mRemaining.toNat =
      if headerSize (w.crypt.decryptRecv (w.readBuffer.contents.take 6)).1 < 4
      then 4294967292 + headerSize (w.crypt.decryptRecv (w.readBuffer.contents.take 6)).1
      else headerSize (w.crypt.decryptRecv (w.readBuffer.contents.take 6)).1 - 4) :
    Midway c₀ received w' delivered := by
  have hlt := headerSize_lt (w.crypt.decryptRecv (w.readBuffer.contents.take 6)).1
  cases h with
  | good fs hfs hle hparse =>
    by_cases hsmall : headerSize (w.crypt.decryptRecv (w.readBuffer.contents.take 6)).1 < 4
    · rw [if_pos hsmall] at hrem
      refine .stuck fs hfs (by unfold MAX_PAYLOAD; omega) ?_
      intro t
      rw [hparse t]
      unfold resume
      rw [if_pos hzero, parse_of_length hlen, if_pos hsmall]
      unfold prepend
      rw [List.append_nil]
    · rw [if_neg hsmall] at hrem
      refine .good fs hfs (by unfold MAX_PAYLOAD; omega) ?_
      intro t
      rw [hparse t]
      unfold resume afterHeader
      rw [if_pos hzero, parse_of_length hlen, if_neg hsmall, hcontents, hcrypt, hopcode, hrem]
  | stuck fs hfs hlt hparse =>
    rw [hzero] at hlt
    exact absurd hlt (by decide)
  | past fs hmore hparse => exact .past fs hmore hparse

/-- A payload is read where the stream has one, or beyond the frames. -/
theorem Midway.tracks (h : Midway c₀ received w delivered)
    (hlen : w.mRemaining.toNat ≤ w.readBuffer.contents.length)
    (hcontents : w'.readBuffer.contents = w.readBuffer.contents.drop w.mRemaining.toNat)
    (hcrypt : w'.crypt = w.crypt) (hzero : w'.mRemaining = 0) :
    Tracks c₀ received w' (delivered ++
      [⟨w.mOpcode.toUInt16, w.readBuffer.contents.take w.mRemaining.toNat⟩]) := by
  cases h with
  | good fs hfs hle hparse =>
    refine .good (fs ++ [⟨w.mOpcode, w.readBuffer.contents.take w.mRemaining.toNat⟩]) ?_ ?_ ?_
    · rw [hfs, List.map_append]
      rfl
    · rw [hzero]
      exact Nat.zero_le _
    · intro t
      rw [hparse t]
      unfold afterHeader resume
      rw [if_neg (by rw [List.length_append]; omega), if_pos hzero, prepend_prepend,
        List.take_append_of_le_length hlen, List.drop_append_of_le_length hlen, hcrypt, hcontents]
  | stuck fs hfs hlt hparse =>
    refine .past fs ?_ hparse
    rw [List.length_append, hfs, List.length_map]
    exact Nat.lt_succ_self _
  | past fs hmore hparse =>
    refine .past fs ?_ hparse
    rw [List.length_append]
    omega

/-- What `OnRead` leaves. -/
structure ReadSpec (c₀ : WowCrypt) (received : List UInt8) (w w' : WorldSocket)
    (delivered : List WorldPacket) : Prop where
  regions : w'.readBuffer.Regions
  connected : w'.connected = w.connected
  tracks : Tracks c₀ received w' delivered
  settled : w'.mRemaining.toNat ≤ MAX_PAYLOAD → w'.Settled

theorem ReadSpec.mono {v : WorldSocket} (h : ReadSpec c₀ received w w' delivered)
    (hconn : w.connected = v.connected) : ReadSpec c₀ received v w' delivered :=
  ⟨h.regions, h.connected.trans hconn, h.tracks, h.settled⟩

/-- By induction on the rounds: each that does not end the loop takes
something out of the buffer. -/
theorem readLoop_tracks {fuel : Nat} (hw : w.readBuffer.Regions)
    (hfuel : w.readBuffer.contents.length < fuel) (h : Tracks c₀ received w delivered) :
    ReadSpec c₀ received w (readLoop fuel w).2 (delivered ++ (readLoop fuel w).1) := by
  induction fuel generalizing w delivered with
  | zero => omega
  | succ fuel ih =>
    -- the payload half, from a socket that has a header
    have payload : ∀ v : WorldSocket, v.readBuffer.Regions → v.connected = w.connected →
        Midway c₀ received v delivered →
        v.readBuffer.contents.length ≤ w.readBuffer.contents.length →
        (v.mRemaining.toNat ≠ 0 ∨ v.readBuffer.contents.length < w.readBuffer.contents.length) →
        w.readHeader = some v →
        ReadSpec c₀ received w (readLoop (fuel + 1) w).2
          (delivered ++ (readLoop (fuel + 1) w).1) := by
      intro v hv hconn hmid hle hless hheader
      unfold readLoop
      rw [hheader]
      dsimp only
      rcases readPayload_spec hv with ⟨hnone, hshort⟩ | ⟨hlen, v', hsome, hv', hconn', hcont, hcrypt, hzero⟩
      · rw [hnone]
        rw [List.append_nil]
        have hne : v.mRemaining ≠ 0 := by
          intro hz
          rw [hz] at hshort
          exact absurd hshort (Nat.not_lt_zero _)
        refine ⟨hv, hconn, ?_, ?_⟩
        · cases hmid with
          | good fs hfs hle hparse =>
            refine .good fs hfs hle ?_
            intro t
            unfold resume
            rw [if_neg hne]
            exact hparse t
          | stuck fs hfs hlt hparse => exact .stuck fs hfs hlt hparse
          | past fs hmore hparse => exact .past fs hmore hparse
        · intro _
          unfold Settled resume afterHeader
          rw [if_neg hne, if_pos hshort]
      · rw [hsome]
        have htracks := hmid.tracks hlen hcont hcrypt hzero
        have hshorter : v'.readBuffer.contents.length < fuel := by
          rw [hcont, List.length_drop]
          omega
        have hspec := ih hv' hshorter htracks
        rw [List.append_assoc] at hspec
        exact hspec.mono (hconn'.trans hconn)
    rcases readHeader_spec hw with ⟨hnone, hzero, hshort⟩ | ⟨hne, hsome⟩ |
      ⟨hzero, hlen, w₁, hsome, hw₁, hconn, hcont, hcrypt, hopcode, hrem⟩
    · unfold readLoop
      rw [hnone]
      rw [List.append_nil]
      refine ⟨hw, rfl, h, fun _ => ?_⟩
      unfold Settled resume
      rw [if_pos hzero, parse_of_short hshort]
    · refine payload w hw rfl ?_ (Nat.le_refl _) (Or.inl (toNat_ne_zero hne)) hsome
      cases h with
      | good fs hfs hle hparse =>
        refine .good fs hfs hle ?_
        intro t
        have hback := hparse t
        unfold resume at hback
        rwa [if_neg hne] at hback
      | stuck fs hfs hlt hparse => exact .stuck fs hfs hlt hparse
      | past fs hmore hparse => exact .past fs hmore hparse
    · have hshorter : w₁.readBuffer.contents.length < w.readBuffer.contents.length := by
        rw [hcont, List.length_drop]
        omega
      exact payload w₁ hw₁ hconn (h.midway hzero hlen hcont hcrypt hopcode hrem) (by omega)
        (Or.inr hshorter) hsome

/-! ## Every stream -/

/-- The bytes a `ReadCallback` takes of those that are there. -/
def takenOf (w : WorldSocket) (available : List UInt8) : List UInt8 :=
  if w.connected = false then [] else available.take w.readBuffer.getSpace.1

/-- What holds between two receives. -/
structure ReadInv (c₀ : WowCrypt) (received : List UInt8) (w : WorldSocket)
    (delivered : List WorldPacket) : Prop where
  regions : w.readBuffer.Regions
  tracks : Tracks c₀ received w delivered
  settled : w.mRemaining.toNat ≤ MAX_PAYLOAD → w.Settled

/-- Bytes that arrive belong to the stream. -/
theorem Tracks.receive {data : List UInt8} (h : Tracks c₀ received w delivered)
    (hcontents : w'.readBuffer.contents = w.readBuffer.contents ++ data)
    (hcrypt : w'.crypt = w.crypt) (hrem : w'.mRemaining = w.mRemaining)
    (hopcode : w'.mOpcode = w.mOpcode) : Tracks c₀ (received ++ data) w' delivered := by
  cases h with
  | good fs hfs hle hparse =>
    refine .good fs hfs (by rwa [hrem]) ?_
    intro t
    rw [List.append_assoc, hparse, hcontents, List.append_assoc]
    unfold resume afterHeader
    rw [hcrypt, hrem, hopcode]
  | stuck fs hfs hlt hparse =>
    refine .stuck fs hfs (by rwa [hrem]) ?_
    intro t
    rw [List.append_assoc, hparse]
  | past fs hmore hparse =>
    refine .past fs hmore ?_
    intro t
    rw [List.append_assoc, hparse]

theorem ReadInv.readCallback (h : ReadInv c₀ received w delivered) (available : List UInt8) :
    ReadInv c₀ (received ++ w.takenOf available) (w.readCallback available).2
      (delivered ++ (w.readCallback available).1) := by
  unfold WorldSocket.readCallback takenOf
  by_cases hconn : w.connected = false
  · rw [if_pos hconn, if_pos hconn, List.append_nil, List.append_nil]
    exact h
  rw [if_neg hconn, if_neg hconn]
  obtain ⟨hregions, hcontents⟩ := h.regions.getSpace
  dsimp only
  let bytes := available.take w.readBuffer.getSpace.1
  by_cases hnone : bytes = []
  · rw [if_pos hnone, show available.take w.readBuffer.getSpace.1 = [] from hnone, List.append_nil,
      List.append_nil]
    refine ⟨hregions, ?_, ?_⟩
    · have htracks : Tracks c₀ (received ++ [])
          { w with readBuffer := w.readBuffer.getSpace.2, connected := false } delivered := by
        refine h.tracks.receive ?_ rfl rfl rfl
        rw [List.append_nil]
        exact hcontents
      rwa [List.append_nil] at htracks
    · intro hle
      have hsettled := h.settled hle
      unfold Settled at hsettled ⊢
      rw [← hcontents] at hsettled
      exact hsettled
  · rw [if_neg hnone]
    have hfits : bytes.length ≤ w.readBuffer.getSpace.2.room := by
      rcases CircularBuffer.room_getSpace (c := w.readBuffer) with hroom | hzero
      · rw [hroom, List.length_take]
        exact Nat.min_le_left _ _
      · refine absurd ?_ hnone
        change available.take w.readBuffer.getSpace.1 = []
        rw [hzero, List.take_zero]
    obtain ⟨hregions', hcontents'⟩ := hregions.commit hfits
    rw [hcontents] at hcontents'
    have htracks : Tracks c₀ (received ++ bytes)
        { w with readBuffer := w.readBuffer.getSpace.2.commit bytes } delivered :=
      h.tracks.receive hcontents' rfl rfl rfl
    have hrounds : (w.readBuffer.getSpace.2.commit bytes).contents.length <
        (w.readBuffer.getSpace.2.commit bytes).getSize + 1 := by
      rw [CircularBuffer.length_contents]
      exact Nat.lt_succ_self _
    have hspec := readLoop_tracks hregions' hrounds htracks
    exact ⟨hspec.regions, hspec.tracks, hspec.settled⟩

/-- A stream on its way into a socket. -/
structure ReadRun where
  socket : WorldSocket
  received : List UInt8
  pending : List UInt8
  delivered : List WorldPacket

/-- A receive when the next `n` bytes of the stream have arrived. -/
def ReadRun.step (r : ReadRun) (n : Nat) : ReadRun where
  socket := (r.socket.readCallback (r.pending.take n)).2
  received := r.received ++ r.socket.takenOf (r.pending.take n)
  pending := r.pending.drop (r.socket.takenOf (r.pending.take n)).length
  delivered := r.delivered ++ (r.socket.readCallback (r.pending.take n)).1

/-- What is taken is the front of what is pending. -/
theorem takenOf_append_drop (w : WorldSocket) (s : List UInt8) (n : Nat) :
    w.takenOf (s.take n) ++ s.drop (w.takenOf (s.take n)).length = s := by
  unfold takenOf
  split
  · rfl
  · rw [List.take_take, List.length_take]
    rcases Nat.le_total (min w.readBuffer.getSpace.1 n) s.length with hle | hle
    · rw [Nat.min_eq_left hle, List.take_append_drop]
    · rw [Nat.min_eq_right hle, List.take_of_length_le hle, List.drop_length, List.append_nil]

theorem readInv_run {ns : List Nat} {r₀ r : ReadRun}
    (hrun : Run (FunStep ReadRun.step) r₀ ns r)
    (h₀ : ReadInv c₀ r₀.received r₀.socket r₀.delivered) :
    ReadInv c₀ r.received r.socket r.delivered ∧
      r.received ++ r.pending = r₀.received ++ r₀.pending := by
  refine hrun.invariant (fun v => ReadInv c₀ v.received v.socket v.delivered ∧
    v.received ++ v.pending = r₀.received ++ r₀.pending) ?_ ⟨h₀, rfl⟩
  rintro v n _ ⟨hi, hs⟩ rfl
  refine ⟨hi.readCallback _, ?_⟩
  unfold ReadRun.step
  rw [List.append_assoc, takenOf_append_drop, hs]

/-- A stream before a socket that has just been connected. -/
def ReadRun.start (w : WorldSocket) (stream : List UInt8) : ReadRun := ⟨w, [], stream, []⟩

/-- The packets are the frames, opcode for opcode and payload for payload. -/
def SamePackets (ps : List WorldPacket) (fs : List Frame) : Prop :=
  ps.map (fun p => (p.opcode.toNat, p.contents)) = fs.map fun f => (f.opcode.toNat, f.payload)

theorem samePackets_iff (fs : List Frame) :
    SamePackets (fs.map toPacket) fs ↔ ∀ f ∈ fs, f.opcode.toNat < 65536 := by
  unfold SamePackets
  rw [List.map_map, List.map_inj_left]
  refine forall_congr' fun f => forall_congr' fun _ => ?_
  rw [Function.comp_apply, Prod.mk.injEq]
  change f.opcode.toUInt16.toNat = f.opcode.toNat ∧ f.payload = f.payload ↔ _
  rw [and_iff_left rfl, UInt32.toNat_toUInt16]
  omega

/-- For every stream and every way of cutting it into receives, what is
handed on is what the received part of the stream is cut into, and no
payload is waited for that no frame can have, exactly when every header
received has a size of four or more and every opcode fits sixteen bits. -/
theorem frames_delivered {mem : Nat → UInt8} {sendSize sendBlock recvSize recvBlock : Nat}
    {stream : List UInt8} {ns : List Nat} {r : ReadRun} (hblock : recvBlock = 0 → recvSize = 0)
    (hrun : Run (FunStep ReadRun.step)
      (.start (connectedSocket mem sendSize sendBlock recvSize recvBlock c₀) stream) ns r) :
    r.received ++ r.pending = stream ∧
      (SamePackets r.delivered (parse c₀ r.received).1 ∧ r.socket.mRemaining.toNat ≤ MAX_PAYLOAD ↔
        (parse c₀ r.received).2 = false ∧
          ∀ f ∈ (parse c₀ r.received).1, f.opcode.toNat < 65536) := by
  obtain ⟨hregions, hcontents⟩ := (CircularBuffer.regions_new mem).allocate rfl hblock
  have hnil : parse c₀ [] = ([], false) := parse_of_short (by decide)
  have hstart : ReadInv c₀ [] (connectedSocket mem sendSize sendBlock recvSize recvBlock c₀) [] := by
    refine ⟨hregions, .good [] rfl (Nat.zero_le _) ?_, fun _ => ?_⟩
    · intro t
      change parse c₀ t = parse c₀ (((CircularBuffer.new mem).allocate recvSize recvBlock).contents ++ t)
      rw [hcontents]
      rfl
    · change parse c₀ ((CircularBuffer.new mem).allocate recvSize recvBlock).contents = _
      rw [hcontents]
      exact hnil
  obtain ⟨hinv, hstream⟩ := readInv_run hrun hstart
  refine ⟨hstream, ?_⟩
  have hnone : r.received ++ [] = r.received := List.append_nil _
  rcases hinv.tracks with ⟨fs, hfs, hle, hparse⟩ | ⟨fs, hfs, hlt, hparse⟩ | ⟨fs, hmore, hparse⟩
  · have hall := hparse []
    rw [hnone, List.append_nil, hinv.settled hle] at hall
    have hframes : parse c₀ r.received = (fs, false) := by
      rw [hall]
      unfold prepend
      rw [List.append_nil]
    rw [hframes, hfs, and_iff_left hle, and_iff_right rfl]
    exact samePackets_iff fs
  · have hall := hparse []
    rw [hnone] at hall
    rw [hall]
    refine iff_of_false (fun h => ?_) (fun h => ?_)
    · exact absurd h.2 (Nat.not_le.2 hlt)
    · cases h.1
  · have hall := hparse []
    rw [hnone] at hall
    rw [hall]
    refine iff_of_false (fun h => ?_) (fun h => ?_)
    · have hlength := congrArg List.length h.1
      rw [List.length_map, List.length_map] at hlength
      exact absurd hlength (Nat.ne_of_gt hmore)
    · cases h.1

/-! ### Two short streams -/

/-- Two frames arrive in three pieces, cut in a header and in a payload. -/
theorem frames_delivered_in_pieces :
    ∃ r, Run (FunStep ReadRun.step)
      (.start (connectedSocket (fun _ => 0) 16 64 16 128 .new)
        [0, 6, 1, 0, 0, 0, 7, 8, 0, 4, 2, 0, 0, 0]) [3, 4, 7] r ∧
      r.delivered = [⟨1, [7, 8]⟩, ⟨2, []⟩] ∧ SamePackets r.delivered (parse .new r.received).1 := by
  have hnone : parse .new [] = ([], false) := parse_of_short (by decide)
  have hsecond : parse .new ([0, 4, 2, 0, 0, 0] ++ ([] ++ [])) = prepend [⟨2, []⟩] (parse .new []) :=
    parse_frame rfl (by decide) []
  have hfirst : parse .new ([0, 6, 1, 0, 0, 0] ++ ([7, 8] ++ [0, 4, 2, 0, 0, 0])) =
      prepend [⟨1, [7, 8]⟩] (parse .new [0, 4, 2, 0, 0, 0]) := parse_frame rfl (by decide) _
  have hparse : parse .new [0, 6, 1, 0, 0, 0, 7, 8, 0, 4, 2, 0, 0, 0] =
      ([⟨1, [7, 8]⟩, ⟨2, []⟩], false) := by
    rw [show parse .new [0, 6, 1, 0, 0, 0, 7, 8, 0, 4, 2, 0, 0, 0] = _ from hfirst,
      show parse .new [0, 4, 2, 0, 0, 0] = _ from hsecond, hnone]
    rfl
  have hrun : Run (FunStep ReadRun.step)
      (.start (connectedSocket (fun _ => 0) 16 64 16 128 .new)
        [0, 6, 1, 0, 0, 0, 7, 8, 0, 4, 2, 0, 0, 0]) [3, 4, 7] _ :=
    .cons rfl (.cons rfl (.cons rfl (.nil _)))
  refine ⟨_, hrun, by decide, ?_⟩
  refine ((frames_delivered (by decide) hrun).2.2 ?_).1
  change (parse .new [0, 6, 1, 0, 0, 0, 7, 8, 0, 4, 2, 0, 0, 0]).2 = false ∧
    ∀ f ∈ (parse .new [0, 6, 1, 0, 0, 0, 7, 8, 0, 4, 2, 0, 0, 0]).1, f.opcode.toNat < 65536
  rw [hparse]
  exact ⟨rfl, by decide⟩

/-- A header with size two: the socket waits for almost 2^32 bytes. -/
theorem waits_in_vain :
    ¬ ∀ (mem : Nat → UInt8) (sendSize sendBlock recvSize recvBlock : Nat) (c₀ : WowCrypt)
      (stream : List UInt8) (ns : List Nat) (r : ReadRun), (recvBlock = 0 → recvSize = 0) →
      Run (FunStep ReadRun.step)
        (.start (connectedSocket mem sendSize sendBlock recvSize recvBlock c₀) stream) ns r →
      SamePackets r.delivered (parse c₀ r.received).1 ∧
        r.socket.mRemaining.toNat ≤ MAX_PAYLOAD := by
  intro hall
  have hwaits := (hall (fun _ => 0) 16 64 16 128 .new [0, 2, 1, 0, 0, 0] [6] _ (by decide)
    (.cons rfl (.nil _))).2
  exact absurd hwaits (by decide)

end WorldSocket

end HearthStone
