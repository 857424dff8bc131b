/-
HearthStone.Network.SendOrder — the order of the packets of one socket.

A packet that finds no room waits in the overflow queue until
`UpdateQueuedPackets`; `OutPacket` does not look at the queue, so a later
and smaller packet may go into the buffer first.

* `SendInv` — the accepted packets are those sent and those queued, each
  once, and the bytes are the frames of those sent, in that order.
* `InOrder` — the accepted packets are those sent followed by those queued.
* `packets_in_order` — every run whose sends overtake no queued packet.
-/
import HearthStone.Network.SendBuffer

namespace HearthStone

open Lib

namespace WorldSocket

variable {w w' : WorldSocket} {p : WorldPacket} {n : Nat}

/-! ## Reading the log -/

def SendEntry.accepted? : SendEntry → Option WorldPacket
  | .accepted p => some p
  | _ => none

def SendEntry.sent? : SendEntry → Option WorldPacket
  | .sent p => some p
  | _ => none

/-- The packets of the accepted calls, in their order. -/
def acceptedPackets (w : WorldSocket) : List WorldPacket :=
  w.log.filterMap SendEntry.accepted?

/-- The packets put into the send buffer, in their order. -/
def sentPackets (w : WorldSocket) : List WorldPacket := w.log.filterMap SendEntry.sent?

/-- The bytes of the frames of a log and the cipher after them. -/
def encodeEntry (s : List UInt8 × WowCrypt) : SendEntry → List UInt8 × WowCrypt
  | .accepted _ => s
  | .sent p => (s.1 ++ (frame s.2 p).1, (frame s.2 p).2)
  | .keyed c => (s.1, c)

def encode (c : WowCrypt) (log : List SendEntry) : List UInt8 × WowCrypt :=
  log.foldl encodeEntry ([], c)

theorem encode_append (c : WowCrypt) (log : List SendEntry) (e : SendEntry) :
    encode c (log ++ [e]) = encodeEntry (encode c log) e := by
  unfold encode
  rw [List.foldl_append]
  rfl

/-! ## The invariant -/

/-- What holds of the sending side of a connected socket that started
with the cipher `c₀`. -/
structure SendInv (c₀ : WowCrypt) (w : WorldSocket) : Prop where
  connected : w.connected = true
  regions : w.writeBuffer.Regions
  bytes : (w.wire ++ w.writeBuffer.contents, w.crypt) = encode c₀ w.log
  once : w.acceptedPackets.Perm (w.sentPackets ++ w.queue)

/-- What was accepted has been sent, but for what is queued. -/
def InOrder (w : WorldSocket) : Prop := w.acceptedPackets = w.sentPackets ++ w.queue

/-- The call puts no packet in front of a queued one. -/
def OvertakesNone (w : WorldSocket) (p : WorldPacket) : Prop :=
  w.queue = [] ∨ w.writeBuffer.getSpace.1 < p.contents.length + 4 ∨ tooLarge p = true

/-! ## One attempt -/

/-- `w'` is `w` with the packet in the send buffer. -/
structure Puts (w : WorldSocket) (p : WorldPacket) (w' : WorldSocket) : Prop where
  connected : w'.connected = w.connected
  queue : w'.queue = w.queue
  wire : w'.wire = w.wire
  log : w'.log = w.log ++ [.sent p]
  regions : w'.writeBuffer.Regions
  contents : w'.writeBuffer.contents = w.writeBuffer.contents ++ (frame w.crypt p).1
  crypt : w'.crypt = (frame w.crypt p).2

/-- `w'` is `w` but for the region its send buffer writes to. -/
structure Waits (w w' : WorldSocket) : Prop where
  connected : w'.connected = w.connected
  queue : w'.queue = w.queue
  wire : w'.wire = w.wire
  log : w'.log = w.log
  regions : w'.writeBuffer.Regions
  contents : w'.writeBuffer.contents = w.writeBuffer.contents
  crypt : w'.crypt = w.crypt

/-- While the socket is connected an attempt puts the packet or waits. -/
theorem tryOutPacket_cases (hc : w.connected = true) (hw : w.writeBuffer.Regions)
    (p : WorldPacket) :
    (w.writeBuffer.getSpace.1 < p.contents.length + 4 ∧
      ∃ w', w.tryOutPacket p = (.noRoomInBuffer, w') ∧ w.Waits w') ∨
    (¬ w.writeBuffer.getSpace.1 < p.contents.length + 4 ∧
      ∃ w', w.tryOutPacket p = (.success, w') ∧ w.Puts p w') := by
  rcases tryOutPacket_spec hw p with ⟨hno, -⟩ | ⟨-, hspace, heq⟩ | ⟨-, hspace, b, hb, hcont, heq⟩
  · rw [hc] at hno
    cases hno
  · obtain ⟨hregions, hcontents⟩ := hw.getSpace
    exact Or.inl ⟨hspace, _, heq, rfl, rfl, rfl, rfl, hregions, hcontents, rfl⟩
  · exact Or.inr ⟨hspace, _, heq, rfl, rfl, rfl, rfl, hb, hcont, rfl⟩

theorem Puts.sentPackets (h : w.Puts p w') : w'.sentPackets = w.sentPackets ++ [p] := by
  unfold WorldSocket.sentPackets
  rw [h.log, List.filterMap_append]
  rfl

theorem Puts.acceptedPackets (h : w.Puts p w') : w'.acceptedPackets = w.acceptedPackets := by
  unfold WorldSocket.acceptedPackets
  rw [h.log, List.filterMap_append]
  exact List.append_nil _

theorem Puts.bytes {c₀ : WowCrypt} (h : w.Puts p w')
    (hb : (w.wire ++ w.writeBuffer.contents, w.crypt) = encode c₀ w.log) :
    (w'.wire ++ w'.writeBuffer.contents, w'.crypt) = encode c₀ w'.log := by
  rw [h.log, encode_append, ← hb, h.wire, h.contents, h.crypt, ← List.append_assoc]
  rfl

theorem acceptedPackets_record_accepted :
    (w.record (.accepted p)).acceptedPackets = w.acceptedPackets ++ [p] := by
  unfold acceptedPackets record
  rw [List.filterMap_append]
  rfl

theorem sentPackets_record_accepted :
    (w.record (.accepted p)).sentPackets = w.sentPackets := by
  unfold sentPackets record
  rw [List.filterMap_append]
  exact List.append_nil _

theorem encode_record_accepted (c₀ : WowCrypt) :
    encode c₀ (w.record (.accepted p)).log = encode c₀ w.log := by
  unfold record
  rw [encode_append]
  rfl

/-! ## The operations -/

/-- A send keeps the invariant, and the order when it overtakes nothing. -/
theorem SendInv.outPacket {c₀ : WowCrypt} (h : w.SendInv c₀) (p : WorldPacket) :
    (w.outPacket p).SendInv c₀ ∧ (w.OvertakesNone p → w.InOrder → (w.outPacket p).InOrder) := by
  unfold WorldSocket.outPacket
  by_cases hlarge : tooLarge p = true
  · rw [if_pos hlarge]
    exact ⟨h, fun _ hin => hin⟩
  rw [if_neg hlarge]
  rcases tryOutPacket_cases h.connected h.regions p with ⟨-, w', heq, hwaits⟩ | ⟨hspace, w', heq, hputs⟩
  · rw [heq]
    have hacc : w'.acceptedPackets = w.acceptedPackets := by
      unfold acceptedPackets
      rw [hwaits.log]
    have hsent : w'.sentPackets = w.sentPackets := by
      unfold sentPackets
      rw [hwaits.log]
    have hmore : ∀ q, ({ w' with queue := q }.record (.accepted p)).acceptedPackets =
        w.acceptedPackets ++ [p] := by
      intro q
      rw [acceptedPackets_record_accepted, ← hacc]
      rfl
    have hsame : ∀ q, ({ w' with queue := q }.record (.accepted p)).sentPackets =
        w.sentPackets := by
      intro q
      rw [sentPackets_record_accepted, ← hsent]
      rfl
    refine ⟨⟨?_, hwaits.regions, ?_, ?_⟩, ?_⟩
    · exact hwaits.connected.trans h.connected
    · rw [encode_record_accepted]
      change (w'.wire ++ w'.writeBuffer.contents, w'.crypt) = encode c₀ w'.log
      rw [hwaits.wire, hwaits.contents, hwaits.crypt, hwaits.log]
      exact h.bytes
    · rw [hmore, hsame]
      change (w.acceptedPackets ++ [p]).Perm (w.sentPackets ++ (w'.queue ++ [p]))
      rw [hwaits.queue, ← List.append_assoc]
      exact h.once.append_right [p]
    · intro _ hin
      unfold InOrder at hin ⊢
      rw [hmore, hsame, hin]
      change _ = w.sentPackets ++ (w'.queue ++ [p])
      rw [hwaits.queue, List.append_assoc]
  · rw [heq]
    refine ⟨⟨?_, hputs.regions, ?_, ?_⟩, ?_⟩
    · exact hputs.connected.trans h.connected
    · rw [encode_record_accepted]
      exact hputs.bytes h.bytes
    · rw [acceptedPackets_record_accepted, sentPackets_record_accepted, hputs.acceptedPackets,
        hputs.sentPackets]
      change (w.acceptedPackets ++ [p]).Perm (w.sentPackets ++ [p] ++ w'.queue)
      rw [hputs.queue, List.append_assoc]
      refine (h.once.append_right [p]).trans ?_
      rw [List.append_assoc]
      exact List.perm_append_comm.append_left _
    · rintro (hempty | hroom | hno) hin
      · unfold InOrder at hin ⊢
        rw [acceptedPackets_record_accepted, sentPackets_record_accepted, hputs.acceptedPackets,
          hputs.sentPackets, hin, hempty]
        change _ = w.sentPackets ++ [p] ++ w'.queue
        rw [hputs.queue, hempty, List.append_nil, List.append_nil]
      · exact absurd hroom hspace
      · exact absurd hno hlarge

/-- By induction on the queue: its packets go out first to last. -/
theorem pushOut_spec {c₀ : WowCrypt} (rest : List WorldPacket) (hc : w.connected = true)
    (hr : w.writeBuffer.Regions)
    (hb : (w.wire ++ w.writeBuffer.contents, w.crypt) = encode c₀ w.log) :
    (w.pushOut rest).connected = true ∧ (w.pushOut rest).writeBuffer.Regions ∧
      ((w.pushOut rest).wire ++ (w.pushOut rest).writeBuffer.contents, (w.pushOut rest).crypt) =
        encode c₀ (w.pushOut rest).log ∧
      (w.pushOut rest).acceptedPackets = w.acceptedPackets ∧
      (w.pushOut rest).sentPackets ++ (w.pushOut rest).queue = w.sentPackets ++ rest := by
  induction rest generalizing w with
  | nil => exact ⟨hc, hr, hb, rfl, rfl⟩
  | cons p rest ih =>
    unfold pushOut
    rcases tryOutPacket_cases hc hr p with ⟨-, w', heq, hwaits⟩ | ⟨-, w', heq, hputs⟩
    · rw [heq]
      refine ⟨hwaits.connected.trans hc, hwaits.regions, ?_, ?_, ?_⟩
      · change (w'.wire ++ w'.writeBuffer.contents, w'.crypt) = encode c₀ w'.log
        rw [hwaits.wire, hwaits.contents, hwaits.crypt, hwaits.log]
        exact hb
      · change w'.log.filterMap SendEntry.accepted? = w.log.filterMap SendEntry.accepted?
        rw [hwaits.log]
      · change w'.log.filterMap SendEntry.sent? ++ (p :: rest) =
          w.log.filterMap SendEntry.sent? ++ (p :: rest)
        rw [hwaits.log]
    · rw [heq]
      obtain ⟨hc', hr', hb', hacc, hsent⟩ := ih (hputs.connected.trans hc) hputs.regions
        (hputs.bytes hb)
      refine ⟨hc', hr', hb', hacc.trans hputs.acceptedPackets, ?_⟩
      rw [hsent, hputs.sentPackets, List.append_assoc]
      rfl

theorem SendInv.updateQueuedPackets {c₀ : WowCrypt} (h : w.SendInv c₀) :
    w.updateQueuedPackets.SendInv c₀ ∧ (w.InOrder → w.updateQueuedPackets.InOrder) := by
  obtain ⟨hc, hr, hb, hacc, hsent⟩ := pushOut_spec w.queue h.connected h.regions h.bytes
  unfold WorldSocket.updateQueuedPackets
  refine ⟨⟨hc, hr, hb, ?_⟩, ?_⟩
  · rw [hacc, hsent]
    exact h.once
  · intro hin
    unfold InOrder at hin ⊢
    rw [hacc, hsent, hin]

/-- What is sent from the front is the front of the contents. -/
theorem load_front (c : CircularBuffer) (n : Nat) :
    load c.mem c.getBufferStart (min n c.getContiguiousBytes) =
      c.contents.take (min n c.getContiguiousBytes) := by
  unfold CircularBuffer.getBufferStart CircularBuffer.getContiguiousBytes CircularBuffer.contents
  by_cases hA : c.regionASize = 0
  · rw [if_neg (by omega), if_neg (by simpa using hA), hA, load_zero, List.nil_append,
      take_load (Nat.min_le_right _ _)]
  · have hle : min n c.regionASize ≤ (load c.mem c.regionAPointer c.regionASize).length := by
      rw [length_load]
      exact Nat.min_le_right _ _
    rw [if_pos (by omega), if_pos hA, List.take_append_of_le_length hle,
      take_load (Nat.min_le_right _ _)]

theorem SendInv.writeCallback {c₀ : WowCrypt} (h : w.SendInv c₀) (n : Nat) :
    (w.writeCallback n).SendInv c₀ ∧ (w.InOrder → (w.writeCallback n).InOrder) := by
  obtain ⟨hregions, hcontents⟩ :=
    h.regions.remove (min n w.writeBuffer.getContiguiousBytes)
  refine ⟨⟨h.connected, hregions, ?_, h.once⟩, id⟩
  unfold WorldSocket.writeCallback
  dsimp only
  rw [hcontents, load_front, List.append_assoc, List.take_append_drop]
  exact h.bytes

theorem SendInv.initCrypt {c₀ : WowCrypt} (h : w.SendInv c₀)
    (hmac : List UInt8 → List UInt8 → List UInt8) (k : List UInt8) :
    (w.initCrypt hmac k).SendInv c₀ ∧ (w.InOrder → (w.initCrypt hmac k).InOrder) := by
  have hacc : (w.initCrypt hmac k).acceptedPackets = w.acceptedPackets := by
    unfold acceptedPackets WorldSocket.initCrypt record
    rw [List.filterMap_append]
    exact List.append_nil _
  have hsent : (w.initCrypt hmac k).sentPackets = w.sentPackets := by
    unfold sentPackets WorldSocket.initCrypt record
    rw [List.filterMap_append]
    exact List.append_nil _
  refine ⟨⟨h.connected, h.regions, ?_, ?_⟩, ?_⟩
  · change (w.wire ++ w.writeBuffer.contents, WowCrypt.init hmac k) =
      encode c₀ (w.log ++ [.keyed (.init hmac k)])
    rw [encode_append, ← h.bytes]
    rfl
  · rw [hacc, hsent]
    exact h.once
  · intro hin
    unfold InOrder at hin ⊢
    rw [hacc, hsent, hin]
    rfl

/-! ## Every run -/

/-- What happens to the sending side of a connected socket. -/
inductive SendEvent
  | outPacket (p : WorldPacket)
  | updateQueuedPackets
  | writeCallback (n : Nat)
  | initCrypt (hmac : List UInt8 → List UInt8 → List UInt8) (k : List UInt8)

def SendEvent.step (w : WorldSocket) : SendEvent → WorldSocket
  | .outPacket p => w.outPacket p
  | .updateQueuedPackets => w.updateQueuedPackets
  | .writeCallback n => w.writeCallback n
  | .initCrypt hmac k => w.initCrypt hmac k

/-- No packet is sent past a queued one. -/
def KeepsOrder (w : WorldSocket) : SendEvent → Prop
  | .outPacket p => w.OvertakesNone p
  | _ => True

theorem SendInv.step {c₀ : WowCrypt} (h : w.SendInv c₀) (e : SendEvent) :
    (e.step w).SendInv c₀ ∧ (w.KeepsOrder e → w.InOrder → (e.step w).InOrder) := by
  cases e with
  | outPacket p => exact h.outPacket p
  | updateQueuedPackets =>
    obtain ⟨hi, ho⟩ := h.updateQueuedPackets
    exact ⟨hi, fun _ => ho⟩
  | writeCallback n =>
    obtain ⟨hi, ho⟩ := h.writeCallback n
    exact ⟨hi, fun _ => ho⟩
  | initCrypt hmac k =>
    obtain ⟨hi, ho⟩ := h.initCrypt hmac k
    exact ⟨hi, fun _ => ho⟩

theorem sendInv_connectedSocket {mem : Nat → UInt8} {sendSize sendBlock recvSize recvBlock : Nat}
    {c₀ : WowCrypt} (hblock : sendBlock = 0 → sendSize = 0) :
    (connectedSocket mem sendSize sendBlock recvSize recvBlock c₀).SendInv c₀ := by
  obtain ⟨hregions, hcontents⟩ := (CircularBuffer.regions_new mem).allocate rfl hblock
  refine ⟨rfl, hregions, ?_, List.Perm.refl _⟩
  exact congrArg (·, c₀) hcontents

/-- While a socket is connected, every accepted packet has been sent once
or is queued once, and the bytes on the wire and in the buffer are the
frames of the sent ones, each header encrypted in that order; in a run
that sends no packet past a queued one, the packets are sent in the order
in which they were accepted. -/
theorem packets_in_order {mem : Nat → UInt8} {sendSize sendBlock recvSize recvBlock : Nat}
    {c₀ : WowCrypt} {es : List SendEvent} {w : WorldSocket} (hblock : sendBlock = 0 → sendSize = 0)
    (hrun : Run (FunStep SendEvent.step)
      (connectedSocket mem sendSize sendBlock recvSize recvBlock c₀) es w) :
    w.acceptedPackets.Perm (w.sentPackets ++ w.queue) ∧
      w.wire ++ w.writeBuffer.contents = (encode c₀ w.log).1 ∧
      (Run (Guarded KeepsOrder (FunStep SendEvent.step))
          (connectedSocket mem sendSize sendBlock recvSize recvBlock c₀) es w →
        w.acceptedPackets = w.sentPackets ++ w.queue ∧ w.sentPackets <+: w.acceptedPackets) := by
  have hinv : w.SendInv c₀ := by
    refine hrun.invariant (SendInv c₀) ?_ (sendInv_connectedSocket hblock)
    rintro v e _ hi rfl
    exact (hi.step e).1
  refine ⟨hinv.once, congrArg Prod.fst hinv.bytes, ?_⟩
  intro hguarded
  have horder : w.SendInv c₀ ∧ w.InOrder := by
    refine hguarded.invariant (fun v => v.SendInv c₀ ∧ v.InOrder) ?_
      ⟨sendInv_connectedSocket hblock, rfl⟩
    rintro v e _ ⟨hi, ho⟩ ⟨hok, rfl⟩
    obtain ⟨hi', ho'⟩ := hi.step e
    exact ⟨hi', ho' hok ho⟩
  refine ⟨horder.2, ?_⟩
  rw [show w.acceptedPackets = _ from horder.2]
  exact List.prefix_append _ _

/-! ### A send buffer of sixteen bytes -/

/-- The second packet waits for room, and the third, which is empty, goes
out before it. -/
theorem small_packet_overtakes :
    ¬ ∀ (mem : Nat → UInt8) (sendSize sendBlock recvSize recvBlock : Nat) (c₀ : WowCrypt)
      (es : List SendEvent) (w : WorldSocket), (sendBlock = 0 → sendSize = 0) →
      Run (FunStep SendEvent.step)
        (connectedSocket mem sendSize sendBlock recvSize recvBlock c₀) es w →
      w.sentPackets <+: w.acceptedPackets := by
  intro hall
  have hprefix := hall (fun _ => 0) 16 64 16 128 .new
    [.outPacket ⟨1, [0, 0, 0, 0]⟩, .outPacket ⟨2, [0, 0, 0, 0, 0, 0]⟩, .outPacket ⟨3, []⟩] _
    (by decide) (.cons rfl (.cons rfl (.cons rfl (.nil _))))
  exact absurd hprefix (by decide)

/-- Three packets and a send: the one that waited goes out when the
buffer has been emptied. -/
theorem packets_in_order_after_wait :
    ∃ w, Run (FunStep SendEvent.step) (connectedSocket (fun _ => 0) 16 64 16 128 .new)
      [.outPacket ⟨1, [0, 0, 0, 0]⟩, .outPacket ⟨2, [0, 0, 0, 0, 0, 0]⟩, .writeCallback 8,
        .updateQueuedPackets, .outPacket ⟨3, []⟩] w ∧
      w.acceptedPackets = w.sentPackets ++ w.queue := by
  have hrun : Run (Guarded KeepsOrder (FunStep SendEvent.step))
      (connectedSocket (fun _ => 0) 16 64 16 128 .new)
      [.outPacket ⟨1, [0, 0, 0, 0]⟩, .outPacket ⟨2, [0, 0, 0, 0, 0, 0]⟩, .writeCallback 8,
        .updateQueuedPackets, .outPacket ⟨3, []⟩] _ :=
    .cons ⟨Or.inl rfl, rfl⟩ (.cons ⟨Or.inl rfl, rfl⟩ (.cons ⟨trivial, rfl⟩
      (.cons ⟨trivial, rfl⟩ (.cons ⟨Or.inl (by decide), rfl⟩ (.nil _)))))
  have hplain := hrun.mono fun _ _ _ hs => hs.2
  exact ⟨_, hplain, ((packets_in_order (by decide) hplain).2.2 hrun).1⟩

end WorldSocket

end HearthStone
