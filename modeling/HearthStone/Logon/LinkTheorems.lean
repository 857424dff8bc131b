/-
HearthStone.Logon.LinkTheorems — the two ends of a logon link stay in step.

Of the bytes that are on their way to an end, in its receive buffer, in
flight or in the other end's send buffer, it still makes the packets that
the other has sent and it has not yet handed on: `InStep` for an end that
decrypts, `Before` for a server that still waits for the challenge.

* `InStep.append`, `InStep.turn` — what one `SendPacket` and one turn of
  `OnRead` do to it, whichever end it is.
* `LinkInv.step` — one step of the link.
* `link_run` — every run in which the send buffers have room; a frame is
  handed on or the link is closed, whatever its length.
* `not_link_run` — without room the sender's engine is ahead of its bytes.
-/
import HearthStone.Logon.LinkPeer
import HearthStone.Network.SendOrder

namespace HearthStone

open Lib

namespace LogonCommSocket

open CircularBuffer

variable {x y : LogonCommSocket} {p : WorldPacket} {done ps : List WorldPacket}
  {tail more rest : List UInt8} {key : List UInt8}
  {handle : LogonCommSocket → WorldPacket → LogonCommSocket}

/-! ## One direction -/

theorem skip_some (key : List UInt8) (m n : Nat) :
    skip (some ⟨key, m⟩) n = some ⟨key, m + n⟩ := rfl

/-- The bytes of a header whose body is not there. -/
def headerTaken (y : LogonCommSocket) : Nat := if y.remaining = 0 then 0 else 6

/-- The bytes to come are these packets, the first perhaps begun. -/
def Pending (key : List UInt8) (y : LogonCommSocket) (rest : List UInt8)
    (done : List WorldPacket) : List WorldPacket → Prop
  | [] => y.remaining = 0 ∧ rest = []
  | p :: ps =>
    y.Front p (veil (some ⟨key, (clearAll (done ++ [p])).length⟩) (clearAll ps)) rest

/-- An end that has handed on `done` under the key, while `rest` is on
its way to it: it is going to make `ps` of that. -/
structure InStep (key : List UInt8) (y : LogonCommSocket) (rest : List UInt8)
    (done ps : List WorldPacket) : Prop where
  crypto : y.useCrypto = true
  position : y.recvCrypto = ⟨key, (clearAll done).length + y.headerTaken⟩
  pending : Pending key y rest done ps
  sized : ∀ p ∈ ps, p.contents.length < 2 ^ 32

/-- An end between two packets, with the rest of the text to come. -/
theorem pending_of_rest (hzero : y.remaining = 0)
    (hcipher : y.recvCipher = some ⟨key, (clearAll done).length⟩)
    (hrest : rest = veil (some ⟨key, (clearAll done).length⟩) (clearAll ps)) :
    Pending key y rest done ps := by
  cases ps with
  | nil => exact ⟨hzero, hrest.trans (veil_nil _)⟩
  | cons q ps =>
    change Front _ q _ _
    rw [Front, if_pos hzero, hrest, hcipher, clearAll_cons, veil_append, skip_some]
    simp

theorem InStep.recvCipher_eq (h : InStep key y rest done ps) :
    y.recvCipher = some ⟨key, (clearAll done).length + y.headerTaken⟩ := by
  rw [recvCipher, if_pos h.crypto, h.position]

theorem Front.of_zero (hzero : y.remaining = 0)
    (hrest : rest = veil y.recvCipher (clear p) ++ tail) : y.Front p tail rest := by
  rwa [Front, if_pos hzero]

theorem Front.append (h : y.Front p tail rest) (more : List UInt8) :
    y.Front p (tail ++ more) (rest ++ more) := by
  unfold Front at h ⊢
  split at h
  · rename_i hzero
    rw [if_pos hzero, h, List.append_assoc]
  · rename_i hzero
    obtain ⟨hopcode, hsize, hrest⟩ := h
    rw [if_neg hzero, hrest, List.append_assoc]
    exact ⟨hopcode, hsize, rfl⟩

/-- Another packet is sent at the position behind the others. -/
theorem InStep.append (h : InStep key y rest done ps) (hsized : p.contents.length < 2 ^ 32) :
    InStep key y (rest ++ veil (some ⟨key, (clearAll (done ++ ps)).length⟩) (clear p)) done
      (ps ++ [p]) := by
  refine ⟨h.crypto, h.position, ?_, ?_⟩
  · cases ps with
    | nil =>
      obtain ⟨hzero, hrest⟩ := h.pending
      have hcipher := h.recvCipher_eq
      rw [headerTaken, if_pos hzero, Nat.add_zero] at hcipher
      change y.Front p _ _
      rw [Front, if_pos hzero, hrest, hcipher]
      simp
    | cons q ps =>
      have hfront : y.Front q _ rest := h.pending
      have htail := hfront.append
        (veil (some ⟨key, (clearAll (done ++ q :: ps)).length⟩) (clear p))
      change y.Front q (veil _ (clearAll (ps ++ [p]))) _
      have hlen : (clearAll (done ++ [q])).length + (clearAll ps).length =
          (clearAll (done ++ q :: ps)).length := by
        simp [Nat.add_assoc]
      rwa [clearAll_append ps, veil_append, skip_some, hlen, clearAll_cons, clearAll_nil,
        List.append_nil]
  · intro q hq
    rcases List.mem_append.1 hq with hq | hq
    · exact h.sized q hq
    · rw [List.mem_singleton.1 hq]
      exact hsized

/-- A handler that touches neither the buffers nor the engines. -/
def Benign (handle : LogonCommSocket → WorldPacket → LogonCommSocket) (p : WorldPacket) : Prop :=
  ∀ s, ∃ c d a, handle s p = { s with
    delivered := s.delivered ++ [p], connected := c, deleted := d, authenticated := a }

/-- What a turn leaves of an end: it has handed on `q`, and the rest of the
packets is still to come. -/
structure Turned (key : List UInt8) (y y' : LogonCommSocket) (more : List UInt8)
    (done ps q ps' : List WorldPacket) : Prop where
  split : ps = q ++ ps'
  delivered : y'.delivered = y.delivered ++ q
  regions : y'.readBuffer.Regions
  inStep : InStep key y' (y'.readBuffer.contents ++ more) (done ++ q) ps'
  settled : y'.reading = false → y'.readBuffer.getSize < y'.need
  writeBuffer : y'.writeBuffer = y.writeBuffer
  sendCrypto : y'.sendCrypto = y.sendCrypto
  sent : y'.sent = y.sent

/-- A turn of an end that decrypts. -/
theorem InStep.turn (h : InStep key y (y.readBuffer.contents ++ more) done ps)
    (hw : y.readBuffer.Regions) (hreading : y.reading = true)
    (hbenign : ∀ p ∈ ps, Benign handle p) :
    ∃ q ps', Turned key y (y.onReadTurn handle) more done ps q ps' := by
  cases ps with
  | nil =>
    -- nothing is on its way
    obtain ⟨hzero, hrest⟩ := h.pending
    have hempty : y.readBuffer.getSize = 0 := by
      rw [← length_contents, (List.append_eq_nil_iff.1 hrest).1]
      rfl
    have hneed : y.need = 6 := if_pos hzero
    have hturn : y.onReadTurn handle = { y with reading := false } := by
      unfold onReadTurn readHeader
      rw [if_pos hzero, if_pos (by omega)]
    rw [hturn]
    refine ⟨[], [], rfl, (List.append_nil _).symm, hw, ?_, fun _ => ?_, rfl, rfl, rfl⟩
    · rw [List.append_nil]
      exact ⟨h.crypto, h.position, h.pending, h.sized⟩
    · change y.readBuffer.getSize < y.need
      omega
  | cons p ps =>
    have hsized := h.sized p List.mem_cons_self
    rcases turn_spec handle hw hsized h.pending with
      ⟨hshort, hturn⟩ | ⟨hzero, hregions, hne, hfront, hshort, hturn⟩ |
      ⟨b, m, hregions, hrest, hturn⟩
    · rw [hturn]
      refine ⟨[], p :: ps, rfl, (List.append_nil _).symm, hw, ?_, fun _ => hshort, rfl, rfl, rfl⟩
      rw [List.append_nil]
      exact ⟨h.crypto, h.position, h.pending, h.sized⟩
    · rw [hturn]
      refine ⟨[], p :: ps, rfl, (List.append_nil _).symm, hregions, ?_, fun _ => hshort, rfl, rfl,
        rfl⟩
      rw [List.append_nil]
      refine ⟨h.crypto, ?_, hfront, h.sized⟩
      change y.recvAfter 6 = ⟨key, _ + headerTaken (y.tookHeader p)⟩
      rw [headerTaken, if_neg hne, recvAfter, if_pos h.crypto, h.position, headerTaken, if_pos hzero]
      rfl
    · obtain ⟨c, d, a, hhandle⟩ := hbenign p List.mem_cons_self { y with
        readBuffer := b, recvCrypto := y.recvAfter (y.unread p), opcode := p.opcode, remaining := m }
      rw [hturn, hhandle]
      refine ⟨[p], ps, rfl, rfl, hregions, ?_, fun hfalse => ?_, rfl, rfl, rfl⟩
      · have hposition : y.recvAfter (y.unread p) = ⟨key, (clearAll (done ++ [p])).length⟩ := by
          rw [recvAfter, if_pos h.crypto, h.position, KeyPosition.advance]
          unfold headerTaken unread
          split
          · simp
          · simp
            omega
        refine ⟨h.crypto, hposition, ?_, fun q hq => h.sized q (List.mem_cons_of_mem _ hq)⟩
        change Pending key _ (b.contents ++ more) (done ++ [p]) ps
        refine pending_of_rest rfl ?_ hrest
        unfold recvCipher
        rw [if_pos h.crypto, hposition]
      · have hfalse' : y.reading = false := hfalse
        rw [hreading] at hfalse'
        cases hfalse'

/-- A packet that is not all there is longer than what is there. -/
theorem Front.need_le (h : y.Front p tail rest) : y.need ≤ rest.length := by
  unfold Front at h
  unfold need
  split at h
  · rename_i hzero
    rw [if_pos hzero, h]
    simp
    omega
  · rename_i hzero
    obtain ⟨-, hsize, hrest⟩ := h
    rw [if_neg hzero, hsize, hrest]
    simp

/-- When all has arrived and the loop has ended, nothing is pending. -/
theorem InStep.nil_of_settled
    (h : InStep key y (y.readBuffer.contents ++ ([] ++ [])) done ps)
    (hsettled : y.readBuffer.getSize < y.need) : ps = [] := by
  cases ps with
  | nil => rfl
  | cons p ps =>
    have hle := Front.need_le h.pending
    rw [List.append_nil, List.append_nil, length_contents] at hle
    omega

/-! ## Bytes on their way -/

theorem writeCallback_spec (hw : x.writeBuffer.Regions) (n : Nat) :
    ∃ b : CircularBuffer, b.Regions ∧ b.capacity = x.writeBuffer.capacity ∧
      (x.writeCallback n).2 = { x with writeBuffer := b } ∧
      (x.writeCallback n).1 ++ b.contents = x.writeBuffer.contents := by
  obtain ⟨hregions, hcontents⟩ := hw.remove (min n x.writeBuffer.getContiguiousBytes)
  refine ⟨_, hregions, capacity_remove _ _, rfl, ?_⟩
  unfold writeCallback
  dsimp only
  rw [hcontents, WorldSocket.load_front, List.take_append_drop]

/-- What a receive takes goes into the buffer; without anything to take
the socket is closed. -/
theorem readCallback_spec (hw : y.readBuffer.Regions) (flight : List UInt8) (n : Nat) :
    ∃ (b : CircularBuffer) (rd c d : Bool), b.Regions ∧
      b.contents ++ flight.drop (y.readCallback (flight.take n)).1 =
        y.readBuffer.contents ++ flight ∧
      (y.readCallback (flight.take n)).2 =
        { y with readBuffer := b, reading := rd, connected := c, deleted := d } ∧
      (rd = true ∨ rd = y.reading ∧ b.getSize = y.readBuffer.getSize) := by
  obtain ⟨hregions, hcontents⟩ := hw.getSpace
  unfold readCallback
  dsimp only
  by_cases hnone : (flight.take n).take y.readBuffer.getSpace.1 = []
  · rw [if_pos hnone]
    refine ⟨y.readBuffer.getSpace.2, y.reading, false, true, hregions, ?_, rfl, Or.inr ⟨rfl, ?_⟩⟩
    · rw [hcontents, List.drop_zero]
    · rw [← length_contents, hcontents, length_contents]
  · rw [if_neg hnone]
    have hfits : ((flight.take n).take y.readBuffer.getSpace.1).length ≤
        y.readBuffer.getSpace.2.room := by
      rcases room_getSpace (c := y.readBuffer) with hroom | hzero
      · rw [hroom, List.length_take]
        exact Nat.min_le_left _ _
      · rw [hzero, List.take_zero] at hnone
        exact absurd rfl hnone
    obtain ⟨hregions', hcontents'⟩ := hregions.commit hfits
    refine ⟨_, true, y.connected, y.deleted, hregions', ?_, rfl, Or.inl rfl⟩
    rw [hcontents', hcontents, List.append_assoc]
    have htake : (flight.take n).take y.readBuffer.getSpace.1 =
        flight.take ((flight.take n).take y.readBuffer.getSpace.1).length := by
      rw [List.take_take, List.length_take]
      rcases Nat.le_total (min y.readBuffer.getSpace.1 n) flight.length with hle | hle
      · rw [Nat.min_eq_left hle]
      · rw [Nat.min_eq_right hle, List.take_of_length_le hle, List.take_length]
    nth_rewrite 1 [htake]
    rw [List.take_append_drop]

end LogonCommSocket

/-! ## The whole link -/

namespace LogonLink

open CircularBuffer LogonCommSocket LogonCommClientSocket LogonCommServerSocket

variable {key sqlHash : Digest} {l l' : LogonLink} {op : LinkOp} {ps done : List WorldPacket}

/-- What is on its way to the server, its receive buffer included. -/
def restToServer (l : LogonLink) : List UInt8 :=
  l.server.readBuffer.contents ++ (l.toServer ++ l.client.writeBuffer.contents)

def restToClient (l : LogonLink) : List UInt8 :=
  l.client.readBuffer.contents ++ (l.toClient ++ l.server.writeBuffer.contents)

/-- What the server says about a digest. -/
def verdict (key sqlHash : Digest) : UInt32 := if key.1 ≠ sqlHash.1 then 0 else 1

/-- The server waits for the challenge and has sent nothing. -/
structure Before (key : Digest) (l : LogonLink) (ps : List WorldPacket) : Prop where
  plain : l.server.useCrypto = false
  authenticated : l.server.authenticated = 0
  delivered : l.server.delivered = []
  sent : l.server.sent = []
  empty : l.server.writeBuffer.contents = []
  front : l.server.Front (authChallenge key) (veil (some ⟨key.1, 0⟩) (clearAll ps)) l.restToServer

/-- The server has handled the challenge. -/
structure After (key sqlHash : Digest) (l : LogonLink) (done ps : List WorldPacket) : Prop where
  inStep : InStep key.1 l.server l.restToServer done ps
  delivered : l.server.delivered = authChallenge key :: done
  response : l.server.sent.head? = some (authResponse (verdict key sqlHash))
  position : l.server.sendCrypto = ⟨key.1, (clearAll l.server.sent).length⟩

structure LinkInv (key sqlHash : Digest) (l : LogonLink) : Prop where
  clientRead : l.client.readBuffer.Regions
  clientWrite : l.client.writeBuffer.Regions
  serverRead : l.server.readBuffer.Regions
  serverWrite : l.server.writeBuffer.Regions
  clientCapacity : l.client.writeBuffer.capacity = 724288
  serverCapacity : l.server.writeBuffer.capacity = 65536
  clientSettled : l.client.reading = false → l.client.readBuffer.getSize < l.client.need
  serverSettled : l.server.reading = false → l.server.readBuffer.getSize < l.server.need
  toServer : ∃ done ps, l.client.sent = authChallenge key :: (done ++ ps) ∧
    l.client.sendCrypto = ⟨key.1, (clearAll (done ++ ps)).length⟩ ∧
    (∀ p ∈ ps, p.contents.length < 2 ^ 32 ∧ p.opcode ≠ RCMSG_AUTH_CHALLENGE) ∧
    (done = [] ∧ Before key l ps ∨ After key sqlHash l done ps)
  toClient : ∃ ps, l.server.sent = l.client.delivered ++ ps ∧
    InStep key.1 l.client l.restToClient l.client.delivered ps

/-- The send buffer of the sender takes the packet. -/
def Fits (l : LogonLink) : LinkOp → Prop
  | .send .client p => l.client.connected = true → l.client.Takes p
  | .send .server p => l.server.Takes p
  | _ => True

instance (l : LogonLink) : (op : LinkOp) → Decidable (l.Fits op)
  | .send .client p => inferInstanceAs (Decidable (l.client.connected = true → l.client.Takes p))
  | .send .server p => inferInstanceAs (Decidable (l.server.Takes p))
  | .flush _ _ => inferInstanceAs (Decidable True)
  | .receive _ _ => inferInstanceAs (Decidable True)
  | .turn _ => inferInstanceAs (Decidable True)
  | .disconnect _ => inferInstanceAs (Decidable True)

/-- A packet for which there is room is shorter than the buffer. -/
theorem length_of_takes {s : LogonCommSocket} {p : WorldPacket} (hw : s.writeBuffer.Regions)
    (hroom : s.Takes p) : p.contents.length ≤ s.writeBuffer.capacity := by
  obtain ⟨-, hbody⟩ := takes_iff.1 hroom
  have hfits := (hw.write (headerOf p)).1.fits_of_write hbody
  rw [capacity_write] at hfits
  omega

/-! ## One step -/

theorem LinkInv.clientSend (h : LinkInv key sqlHash l) {p : WorldPacket}
    (hopcode : p.opcode ≠ RCMSG_AUTH_CHALLENGE)
    (hroom : l.client.connected = true → l.client.Takes p) :
    LinkInv key sqlHash { l with client := LogonCommClientSocket.sendPacket l.client p false } := by
  unfold LogonCommClientSocket.sendPacket
  by_cases hclosed : l.client.connected = false ∨ l.client.deleted = true
  · rw [if_pos hclosed]
    exact h
  rw [if_neg hclosed]
  have hconn : l.client.connected = true := by
    cases hc : l.client.connected with
    | false => exact absurd (Or.inl hc) hclosed
    | true => rfl
  have htakes := hroom hconn
  obtain ⟨qs, hdelivered, hclient⟩ := h.toClient
  have hcipher : l.client.sendCipher false = some l.client.sendCrypto := by
    unfold sendCipher
    rw [hclient.crypto]
    rfl
  have hsized : p.contents.length < 2 ^ 32 := by
    have hle := length_of_takes h.clientWrite htakes
    rw [h.clientCapacity] at hle
    omega
  obtain ⟨b, hregions, hcapacity, hcontents, hsend⟩ := sendPacket_spec h.clientWrite false htakes
  rw [hsend]
  rw [hcipher] at hcontents ⊢
  obtain ⟨done, ps, hsent, hcrypto, hall, hphase⟩ := h.toServer
  rw [hcrypto] at hcontents ⊢
  have hrest : restToServer { l with client := { l.client with
      writeBuffer := b
      sendCrypto := ((skip (some ⟨key.1, (clearAll (done ++ ps)).length⟩)
        (clear p).length).getD ⟨key.1, (clearAll (done ++ ps)).length⟩)
      sent := l.client.sent ++ [p] } } =
      l.restToServer ++ veil (some ⟨key.1, (clearAll (done ++ ps)).length⟩) (clear p) := by
    unfold restToServer
    rw [hcontents]
    simp only [List.append_assoc]
  refine ⟨h.clientRead, hregions, h.serverRead, h.serverWrite, hcapacity.trans h.clientCapacity,
    h.serverCapacity, h.clientSettled, h.serverSettled, ⟨done, ps ++ [p], ?_, ?_, ?_, ?_⟩,
    ⟨qs, hdelivered, hclient.crypto, hclient.position, hclient.pending, hclient.sized⟩⟩
  · simp [hsent]
  · rw [skip_some, Option.getD_some]
    simp [Nat.add_assoc]
  · intro q hq
    rcases List.mem_append.1 hq with hq | hq
    · exact hall q hq
    · rw [List.mem_singleton.1 hq]
      exact ⟨hsized, hopcode⟩
  · rcases hphase with ⟨rfl, hbefore⟩ | hafter
    · left
      refine ⟨rfl, hbefore.plain, hbefore.authenticated, hbefore.delivered, hbefore.sent,
        hbefore.empty, ?_⟩
      have htail : veil (some ⟨key.1, 0⟩) (clearAll (ps ++ [p])) =
          veil (some ⟨key.1, 0⟩) (clearAll ps) ++
            veil (some ⟨key.1, (clearAll ps).length⟩) (clear p) := by
        rw [clearAll_append, veil_append, skip_some, clearAll_cons, clearAll_nil, List.append_nil,
          Nat.zero_add]
      rw [hrest, htail]
      exact hbefore.front.append _
    · right
      refine ⟨?_, hafter.delivered, hafter.response, hafter.position⟩
      rw [hrest]
      exact hafter.inStep.append hsized

theorem LinkInv.serverSend (h : LinkInv key sqlHash l) {p : WorldPacket}
    (hauth : l.server.authenticated ≠ 0) (hroom : l.server.Takes p) :
    LinkInv key sqlHash { l with server := LogonCommServerSocket.sendPacket l.server p } := by
  obtain ⟨done, ps, hsent, hcrypto, hall, hphase⟩ := h.toServer
  rcases hphase with ⟨-, hbefore⟩ | hafter
  · exact absurd hbefore.authenticated hauth
  have hcipher : l.server.sendCipher false = some l.server.sendCrypto := by
    unfold sendCipher
    rw [hafter.inStep.crypto]
    rfl
  have hsized : p.contents.length < 2 ^ 32 := by
    have hle := length_of_takes h.serverWrite hroom
    rw [h.serverCapacity] at hle
    omega
  obtain ⟨b, hregions, hcapacity, hcontents, hsend⟩ := sendPacket_spec h.serverWrite false hroom
  unfold LogonCommServerSocket.sendPacket
  rw [hsend]
  rw [hcipher, hafter.position] at hcontents ⊢
  obtain ⟨qs, hdelivered, hclient⟩ := h.toClient
  refine ⟨h.clientRead, h.clientWrite, h.serverRead, hregions, h.clientCapacity,
    hcapacity.trans h.serverCapacity, h.clientSettled, h.serverSettled,
    ⟨done, ps, hsent, hcrypto, hall, Or.inr ⟨?_, hafter.delivered, ?_, ?_⟩⟩,
    ⟨qs ++ [p], ?_, ?_⟩⟩
  · exact ⟨hafter.inStep.crypto, hafter.inStep.position, hafter.inStep.pending,
      hafter.inStep.sized⟩
  · dsimp only
    rw [List.head?_append, hafter.response]
    rfl
  · rw [skip_some, Option.getD_some]
    simp
  · dsimp only
    rw [hdelivered, List.append_assoc]
  · have hrest : restToClient { l with server := { l.server with
        writeBuffer := b
        sendCrypto := ((skip (some ⟨key.1, (clearAll l.server.sent).length⟩)
          (clear p).length).getD ⟨key.1, (clearAll l.server.sent).length⟩)
        sent := l.server.sent ++ [p] } } =
        l.restToClient ++ veil (some ⟨key.1, (clearAll l.server.sent).length⟩) (clear p) := by
      unfold restToClient
      rw [hcontents]
      simp only [List.append_assoc]
    rw [hrest, hdelivered]
    exact hclient.append hsized

/-- The same end, but for its buffers and what its connection is doing. -/
structure SameEnd (y y' : LogonCommSocket) : Prop where
  useCrypto : y'.useCrypto = y.useCrypto
  authenticated : y'.authenticated = y.authenticated
  recvCrypto : y'.recvCrypto = y.recvCrypto
  sendCrypto : y'.sendCrypto = y.sendCrypto
  opcode : y'.opcode = y.opcode
  remaining : y'.remaining = y.remaining
  sent : y'.sent = y.sent
  delivered : y'.delivered = y.delivered

theorem SameEnd.refl (y : LogonCommSocket) : SameEnd y y := ⟨rfl, rfl, rfl, rfl, rfl, rfl, rfl, rfl⟩

section SameEnd

variable {y y' : LogonCommSocket} {p : WorldPacket} {tail rest : List UInt8} {k : List UInt8}

theorem SameEnd.need (h : SameEnd y y') : y'.need = y.need := by
  unfold LogonCommSocket.need
  rw [h.remaining]

theorem SameEnd.front (h : SameEnd y y') (hfront : y.Front p tail rest) : y'.Front p tail rest := by
  unfold LogonCommSocket.Front recvCipher at hfront ⊢
  rwa [h.remaining, h.useCrypto, h.recvCrypto, h.opcode]

theorem SameEnd.inStep (h : SameEnd y y') (hin : InStep k y rest done ps) :
    InStep k y' rest done ps := by
  refine ⟨h.useCrypto.trans hin.crypto, ?_, ?_, hin.sized⟩
  · rw [h.recvCrypto, hin.position, headerTaken, headerTaken, h.remaining]
  · cases ps with
    | nil => exact ⟨h.remaining.trans hin.pending.1, hin.pending.2⟩
    | cons p ps => exact h.front hin.pending

end SameEnd

/-- Bytes have moved on, and perhaps an end was closed. -/
theorem LinkInv.moved (h : LinkInv key sqlHash l) (hclient : SameEnd l.client l'.client)
    (hserver : SameEnd l.server l'.server)
    (hregions : l'.client.readBuffer.Regions ∧ l'.client.writeBuffer.Regions ∧
      l'.server.readBuffer.Regions ∧ l'.server.writeBuffer.Regions)
    (hcapacity : l'.client.writeBuffer.capacity = l.client.writeBuffer.capacity ∧
      l'.server.writeBuffer.capacity = l.server.writeBuffer.capacity)
    (hsettled : (l'.client.reading = false → l'.client.readBuffer.getSize < l.client.need) ∧
      (l'.server.reading = false → l'.server.readBuffer.getSize < l.server.need))
    (hempty : l.server.writeBuffer.contents = [] → l'.server.writeBuffer.contents = [])
    (hrest : l'.restToServer = l.restToServer ∧ l'.restToClient = l.restToClient) :
    LinkInv key sqlHash l' := by
  obtain ⟨done, ps, hsent, hcrypto, hall, hphase⟩ := h.toServer
  obtain ⟨qs, hdelivered, hin⟩ := h.toClient
  refine ⟨hregions.1, hregions.2.1, hregions.2.2.1, hregions.2.2.2,
    hcapacity.1.trans h.clientCapacity, hcapacity.2.trans h.serverCapacity, ?_, ?_,
    ⟨done, ps, hclient.sent.trans hsent, hclient.sendCrypto.trans hcrypto, hall, ?_⟩,
    ⟨qs, ?_, ?_⟩⟩
  · rw [hclient.need]
    exact hsettled.1
  · rw [hserver.need]
    exact hsettled.2
  · rcases hphase with ⟨rfl, hbefore⟩ | hafter
    · exact Or.inl ⟨rfl, hserver.useCrypto.trans hbefore.plain,
        hserver.authenticated.trans hbefore.authenticated,
        hserver.delivered.trans hbefore.delivered, hserver.sent.trans hbefore.sent,
        hempty hbefore.empty, hrest.1 ▸ hserver.front hbefore.front⟩
    · refine Or.inr ⟨hrest.1 ▸ hserver.inStep hafter.inStep, hserver.delivered.trans hafter.delivered,
        ?_, ?_⟩
      · rw [hserver.sent]
        exact hafter.response
      · rw [hserver.sendCrypto, hserver.sent]
        exact hafter.position
  · rw [hserver.sent, hclient.delivered]
    exact hdelivered
  · rw [hrest.2, hclient.delivered]
    exact hclient.inStep hin

theorem LinkInv.clientFlush (h : LinkInv key sqlHash l) (n : Nat) :
    LinkInv key sqlHash { l with client := (l.client.writeCallback n).2
                                 toServer := l.toServer ++ (l.client.writeCallback n).1 } := by
  obtain ⟨b, hregions, hcapacity, hsocket, hbytes⟩ := writeCallback_spec h.clientWrite n
  rw [hsocket]
  refine h.moved ⟨rfl, rfl, rfl, rfl, rfl, rfl, rfl, rfl⟩ (.refl _)
    ⟨h.clientRead, hregions, h.serverRead, h.serverWrite⟩ ⟨hcapacity, rfl⟩
    ⟨h.clientSettled, h.serverSettled⟩ id ⟨?_, rfl⟩
  unfold restToServer
  rw [List.append_assoc, hbytes]

theorem LinkInv.serverFlush (h : LinkInv key sqlHash l) (n : Nat) :
    LinkInv key sqlHash { l with server := (l.server.writeCallback n).2
                                 toClient := l.toClient ++ (l.server.writeCallback n).1 } := by
  obtain ⟨b, hregions, hcapacity, hsocket, hbytes⟩ := writeCallback_spec h.serverWrite n
  rw [hsocket]
  refine h.moved (.refl _) ⟨rfl, rfl, rfl, rfl, rfl, rfl, rfl, rfl⟩
    ⟨h.clientRead, h.clientWrite, h.serverRead, hregions⟩ ⟨rfl, hcapacity⟩
    ⟨h.clientSettled, h.serverSettled⟩ (fun hnone => ?_) ⟨rfl, ?_⟩
  · rw [← hbytes] at hnone
    exact (List.append_eq_nil_iff.1 hnone).2
  · unfold restToClient
    rw [List.append_assoc, hbytes]

/-- What a receive leaves in the buffer of an idle end is less than it needs. -/
theorem settled_of_receive {y : LogonCommSocket} {rd : Bool} {b : CircularBuffer}
    (hread : rd = true ∨ rd = y.reading ∧ b.getSize = y.readBuffer.getSize)
    (hsettled : y.reading = false → y.readBuffer.getSize < y.need) :
    rd = false → b.getSize < y.need := by
  intro hrd
  rcases hread with htrue | ⟨hsame, hsize⟩
  · exact absurd (htrue.symm.trans hrd) (by decide)
  · exact hsize.trans_lt (hsettled (hsame.symm.trans hrd))

theorem LinkInv.clientReceive (h : LinkInv key sqlHash l) (n : Nat) :
    LinkInv key sqlHash { l with
      client := (l.client.readCallback (l.toClient.take n)).2
      toClient := l.toClient.drop (l.client.readCallback (l.toClient.take n)).1 } := by
  obtain ⟨b, rd, c, d, hregions, hbytes, hsocket, hread⟩ :=
    readCallback_spec h.clientRead l.toClient n
  rw [hsocket]
  refine h.moved ⟨rfl, rfl, rfl, rfl, rfl, rfl, rfl, rfl⟩ (.refl _)
    ⟨hregions, h.clientWrite, h.serverRead, h.serverWrite⟩ ⟨rfl, rfl⟩
    ⟨settled_of_receive hread h.clientSettled, h.serverSettled⟩ id ⟨rfl, ?_⟩
  unfold restToClient
  rw [← List.append_assoc, hbytes, List.append_assoc]

theorem LinkInv.serverReceive (h : LinkInv key sqlHash l) (n : Nat) :
    LinkInv key sqlHash { l with
      server := (l.server.readCallback (l.toServer.take n)).2
      toServer := l.toServer.drop (l.server.readCallback (l.toServer.take n)).1 } := by
  obtain ⟨b, rd, c, d, hregions, hbytes, hsocket, hread⟩ :=
    readCallback_spec h.serverRead l.toServer n
  rw [hsocket]
  refine h.moved (.refl _) ⟨rfl, rfl, rfl, rfl, rfl, rfl, rfl, rfl⟩
    ⟨h.clientRead, h.clientWrite, hregions, h.serverWrite⟩ ⟨rfl, rfl⟩
    ⟨h.clientSettled, settled_of_receive hread h.serverSettled⟩ id ⟨?_, rfl⟩
  unfold restToServer
  rw [← List.append_assoc, hbytes, List.append_assoc]

theorem benign_client (p : WorldPacket) : Benign LogonCommClientSocket.handlePacket p := by
  intro s
  unfold LogonCommClientSocket.handlePacket handleAuthResponse deliver
  split_ifs
  · exact ⟨_, _, _, rfl⟩
  · exact ⟨_, _, _, rfl⟩
  · exact ⟨s.connected, s.deleted, s.authenticated, rfl⟩

theorem benign_server {p : WorldPacket} (hopcode : p.opcode ≠ RCMSG_AUTH_CHALLENGE) :
    Benign (LogonCommServerSocket.handlePacket sqlHash) p := by
  intro s
  unfold LogonCommServerSocket.handlePacket deliver disconnect
  dsimp only
  rw [if_neg hopcode]
  split_ifs
  · exact ⟨_, _, _, rfl⟩
  · exact ⟨s.connected, s.deleted, s.authenticated, rfl⟩

theorem LinkInv.clientTurn (h : LinkInv key sqlHash l) (hreading : l.client.reading = true) :
    LinkInv key sqlHash { l with
      client := l.client.onReadTurn LogonCommClientSocket.handlePacket } := by
  obtain ⟨done, ps, hsent, hcrypto, hall, hphase⟩ := h.toServer
  obtain ⟨qs, hdelivered, hclient⟩ := h.toClient
  obtain ⟨q, qs', ht⟩ := hclient.turn h.clientRead hreading fun p _ => benign_client p
  refine ⟨ht.regions, ?_, h.serverRead, h.serverWrite, ?_, h.serverCapacity, ht.settled,
    h.serverSettled, ⟨done, ps, ht.sent.trans hsent, ht.sendCrypto.trans hcrypto, hall, ?_⟩,
    ⟨qs', ?_, ?_⟩⟩
  · dsimp only
    rw [ht.writeBuffer]
    exact h.clientWrite
  · dsimp only
    rw [ht.writeBuffer]
    exact h.clientCapacity
  · have hrest : restToServer { l with
        client := l.client.onReadTurn LogonCommClientSocket.handlePacket } = l.restToServer := by
      unfold restToServer
      rw [ht.writeBuffer]
    rcases hphase with ⟨rfl, hbefore⟩ | hafter
    · refine Or.inl ⟨rfl, hbefore.plain, hbefore.authenticated, hbefore.delivered, hbefore.sent,
        hbefore.empty, ?_⟩
      rw [hrest]
      exact hbefore.front
    · refine Or.inr ⟨?_, hafter.delivered, hafter.response, hafter.position⟩
      rw [hrest]
      exact hafter.inStep
  · dsimp only
    rw [hdelivered, ht.split, ht.delivered, List.append_assoc]
  · dsimp only
    rw [ht.delivered]
    exact ht.inStep

/-- An empty buffer has all of its block to offer. -/
theorem space_of_empty {c : CircularBuffer} (hc : c.Regions) (hempty : c.contents = []) :
    c.getSpace.1 = c.capacity := by
  have hsize : c.getSize = 0 := by
    rw [← length_contents, hempty]
    rfl
  have hA : c.regionASize = 0 := (Nat.add_eq_zero_iff.1 hsize).1
  obtain ⟨hstart, hB⟩ := hc.empty hA
  unfold CircularBuffer.getSpace getAFreeSpace getSpaceBeforeA capacity
  rw [if_neg (by simpa using hB), hstart, Nat.sub_self, if_neg (Nat.not_lt_zero _), hA]
  rfl

theorem readKey_authChallenge (key : Digest) : readKey (authChallenge key) = key.1 := by
  have hlength : (authChallenge key).contents.length = 20 := key.2
  unfold readKey
  rw [if_pos hlength.ge]
  exact List.take_of_length_le hlength.le

/-- A challenge is handled by a socket that has sent nothing: from now on
it encrypts, and its answer is in the buffer. -/
theorem handlePacket_challenge {s : LogonCommSocket} (hw : s.writeBuffer.Regions)
    (hempty : s.writeBuffer.contents = []) (hcapacity : s.writeBuffer.capacity = 65536) :
    ∃ b : CircularBuffer, b.Regions ∧ b.capacity = 65536 ∧
      b.contents = veil (some ⟨key.1, 0⟩) (clear (authResponse (verdict key sqlHash))) ∧
      LogonCommServerSocket.handlePacket sqlHash s (authChallenge key) = { s with
        writeBuffer := b
        useCrypto := true
        recvCrypto := ⟨key.1, 0⟩
        sendCrypto := ⟨key.1, (clear (authResponse (verdict key sqlHash))).length⟩
        authenticated := verdict key sqlHash
        sent := s.sent ++ [authResponse (verdict key sqlHash)]
        delivered := s.delivered ++ [authChallenge key] } := by
  have hopcode : (authChallenge key).opcode = RCMSG_AUTH_CHALLENGE := rfl
  have hroom : s.Takes (authResponse (verdict key sqlHash)) := by
    refine (hw.writeAll ?_).1
    rw [space_of_empty hw hempty, hcapacity]
    simp [authResponse]
  obtain ⟨b, hregions, hcapacity', hcontents, hsend⟩ := @sendPacket_spec
    { s with delivered := s.delivered ++ [authChallenge key], recvCrypto := ⟨key.1, 0⟩,
             sendCrypto := ⟨key.1, 0⟩, useCrypto := true }
    (authResponse (verdict key sqlHash)) hw false hroom
  refine ⟨b, hregions, hcapacity'.trans hcapacity, ?_, ?_⟩
  · rw [hcontents]
    rw [hempty, List.nil_append]
    rfl
  · unfold LogonCommServerSocket.handlePacket deliver handleAuthChallenge
    dsimp only
    rw [if_neg (fun h => h.2 hopcode), if_pos hopcode, readKey_authChallenge]
    unfold LogonCommServerSocket.sendPacket
    have hcipher : sendCipher { s with
        delivered := s.delivered ++ [authChallenge key], recvCrypto := ⟨key.1, 0⟩,
        sendCrypto := ⟨key.1, 0⟩, useCrypto := true } false = some ⟨key.1, 0⟩ := rfl
    rw [show (if key.1 ≠ sqlHash.1 then (0 : UInt32) else 1) = verdict key sqlHash from rfl, hsend,
      hcipher, skip_some, Option.getD_some, Nat.zero_add]

theorem LinkInv.serverTurn (h : LinkInv key sqlHash l) (hreading : l.server.reading = true) :
    LinkInv key sqlHash { l with
      server := l.server.onReadTurn (LogonCommServerSocket.handlePacket sqlHash) } := by
  obtain ⟨done, ps, hsent, hcrypto, hall, hphase⟩ := h.toServer
  obtain ⟨qs, hdelivered, hclient⟩ := h.toClient
  rcases hphase with ⟨rfl, hbefore⟩ | hafter
  · have hchallenge : (authChallenge key).contents.length < 2 ^ 32 := by
      rw [show (authChallenge key).contents.length = 20 from key.2]
      decide
    rcases turn_spec (LogonCommServerSocket.handlePacket sqlHash) h.serverRead hchallenge
      hbefore.front with
      ⟨hshort, hturn⟩ | ⟨hzero, hregions, hne, hfront, hshort, hturn⟩ |
      ⟨b, m, hregions, hrest, hturn⟩
    · rw [hturn]
      exact ⟨h.clientRead, h.clientWrite, h.serverRead, h.serverWrite, h.clientCapacity,
        h.serverCapacity, h.clientSettled, fun _ => hshort,
        ⟨[], ps, hsent, hcrypto, hall, Or.inl ⟨rfl, hbefore.plain, hbefore.authenticated,
          hbefore.delivered, hbefore.sent, hbefore.empty, hbefore.front⟩⟩,
        ⟨qs, hdelivered, hclient⟩⟩
    · rw [hturn]
      exact ⟨h.clientRead, h.clientWrite, hregions, h.serverWrite, h.clientCapacity,
        h.serverCapacity, h.clientSettled, fun _ => hshort,
        ⟨[], ps, hsent, hcrypto, hall, Or.inl ⟨rfl, hbefore.plain, hbefore.authenticated,
          hbefore.delivered, hbefore.sent, hbefore.empty, hfront⟩⟩,
        ⟨qs, hdelivered, hclient⟩⟩
    · obtain ⟨w, hwrite, hcapacity, hcontents, hhandle⟩ :=
        @handlePacket_challenge key sqlHash { l.server with
          readBuffer := b, recvCrypto := l.server.recvAfter (l.server.unread (authChallenge key)),
          opcode := (authChallenge key).opcode, remaining := m }
          h.serverWrite hbefore.empty h.serverCapacity
      rw [hturn, hhandle]
      -- nothing was on its way to the client
      have hnone : l.client.delivered = [] ∧ qs = [] := by
        have hsent' := hdelivered.symm.trans hbefore.sent
        exact List.append_eq_nil_iff.1 hsent'
      obtain ⟨hnone, rfl⟩ := hnone
      refine ⟨h.clientRead, h.clientWrite, hregions, hwrite, h.clientCapacity, hcapacity,
        h.clientSettled, fun hfalse => ?_,
        ⟨[], ps, hsent, hcrypto, hall, Or.inr ⟨⟨rfl, rfl, ?_, fun p hp => (hall p hp).1⟩, ?_, ?_, ?_⟩⟩,
        ⟨[authResponse (verdict key sqlHash)], ?_, ?_⟩⟩
      · have hfalse' : l.server.reading = false := hfalse
        rw [hreading] at hfalse'
        cases hfalse'
      · exact pending_of_rest rfl rfl hrest
      · dsimp only
        rw [hbefore.delivered]
        rfl
      · dsimp only
        rw [hbefore.sent]
        rfl
      · dsimp only
        rw [hbefore.sent]
        simp
      · dsimp only
        rw [hbefore.sent, hnone]
      · have hsmall : (authResponse (verdict key sqlHash)).contents.length < 2 ^ 32 := by
          simp [authResponse]
        have happend := hclient.append hsmall
        have hrestClient : l.client.readBuffer.contents ++ (l.toClient ++ w.contents) =
            l.restToClient ++ veil (some ⟨key.1, 0⟩)
              (clear (authResponse (verdict key sqlHash))) := by
          unfold restToClient
          rw [hcontents, hbefore.empty, List.append_nil, List.append_assoc]
        rw [hnone] at happend ⊢
        change InStep key.1 l.client (_ ++ (_ ++ w.contents)) _ _
        rw [hrestClient]
        exact happend
  · obtain ⟨q, ps', ht⟩ := hafter.inStep.turn h.serverRead hreading
      fun p hp => benign_server (hall p hp).2
    refine ⟨h.clientRead, h.clientWrite, ht.regions, ?_, h.clientCapacity, ?_, h.clientSettled,
      ht.settled, ⟨done ++ q, ps', ?_, ?_, ?_, Or.inr ⟨ht.inStep, ?_, ?_, ?_⟩⟩, ⟨qs, ?_, ?_⟩⟩
    · dsimp only
      rw [ht.writeBuffer]
      exact h.serverWrite
    · dsimp only
      rw [ht.writeBuffer]
      exact h.serverCapacity
    · dsimp only
      rw [hsent, ht.split, List.append_assoc]
    · dsimp only
      rw [hcrypto, ht.split, List.append_assoc]
    · intro p hp
      refine hall p ?_
      rw [ht.split]
      exact List.mem_append_right _ hp
    · dsimp only
      rw [ht.delivered, hafter.delivered]
      rfl
    · dsimp only
      rw [ht.sent]
      exact hafter.response
    · dsimp only
      rw [ht.sendCrypto, ht.sent]
      exact hafter.position
    · dsimp only
      rw [ht.sent]
      exact hdelivered
    · have hrest : restToClient { l with
          server := l.server.onReadTurn (LogonCommServerSocket.handlePacket sqlHash) } =
          l.restToClient := by
        unfold restToClient
        rw [ht.writeBuffer]
      rw [hrest]
      exact hclient

theorem LinkInv.disconnect (h : LinkInv key sqlHash l) (side : Side) :
    (l.step sqlHash (.disconnect side)).elim False (LinkInv key sqlHash) := by
  have hregions := And.intro h.clientRead (And.intro h.clientWrite
    (And.intro h.serverRead h.serverWrite))
  cases side with
  | client =>
    exact h.moved ⟨rfl, rfl, rfl, rfl, rfl, rfl, rfl, rfl⟩ (.refl _) hregions ⟨rfl, rfl⟩
      ⟨h.clientSettled, h.serverSettled⟩ id ⟨rfl, rfl⟩
  | server =>
    exact h.moved (.refl _) ⟨rfl, rfl, rfl, rfl, rfl, rfl, rfl, rfl⟩ hregions ⟨rfl, rfl⟩
      ⟨h.clientSettled, h.serverSettled⟩ id ⟨rfl, rfl⟩

theorem LinkInv.step (h : LinkInv key sqlHash l) (hfits : l.Fits op)
    (hstep : l.step sqlHash op = some l') : LinkInv key sqlHash l' := by
  cases op with
  | send side p =>
    cases side <;> simp only [LogonLink.step, Option.ite_none_left_eq_some, Option.some.injEq] at hstep
    case client => exact hstep.2 ▸ h.clientSend hstep.1 hfits
    case server => exact hstep.2 ▸ h.serverSend hstep.1 hfits
  | flush side n =>
    cases side <;> simp only [LogonLink.step, Option.ite_none_left_eq_some, Option.some.injEq] at hstep
    case client => exact hstep.2 ▸ h.clientFlush n
    case server => exact hstep.2 ▸ h.serverFlush n
  | receive side n =>
    cases side <;> simp only [LogonLink.step, Option.ite_none_left_eq_some, Option.some.injEq] at hstep
    case client => exact hstep.2 ▸ h.clientReceive n
    case server => exact hstep.2 ▸ h.serverReceive n
  | turn side =>
    cases side <;> simp only [LogonLink.step, Option.ite_none_left_eq_some, Option.some.injEq] at hstep
    case client => exact hstep.2 ▸ h.clientTurn (by simpa using hstep.1)
    case server => exact hstep.2 ▸ h.serverTurn (by simpa using hstep.1)
  | disconnect side =>
    have hnext := h.disconnect side
    rwa [hstep] at hnext

/-! ## The start -/

/-- A buffer that has just been given its block. -/
theorem allocate_spec (mem : Nat → UInt8) {block : Nat} (size : Nat) (hblock : block ≠ 0) :
    ((CircularBuffer.new mem).allocate size block).Regions ∧
      ((CircularBuffer.new mem).allocate size block).contents = [] ∧
      ((CircularBuffer.new mem).allocate size block).capacity = size := by
  have hnull : block = 0 → size = 0 := fun hzero => absurd hzero hblock
  obtain ⟨hregions, hcontents⟩ := (regions_new mem).allocate rfl hnull
  refine ⟨hregions, hcontents, ?_⟩
  change block + size - block = size
  omega

theorem sendChallenge_spec (blocks : Blocks) (key : Digest) :
    ∃ b : CircularBuffer, b.Regions ∧ b.capacity = 724288 ∧
      b.contents = clear (authChallenge key) ∧
      (start blocks key).client = { LogonCommClientSocket.new blocks.mem blocks.clientSend
          blocks.clientRecv with
        writeBuffer := b
        recvCrypto := ⟨key.1, 0⟩
        sendCrypto := ⟨key.1, 0⟩
        useCrypto := true
        sent := [authChallenge key] } := by
  obtain ⟨hregions, hcontents, hcapacity⟩ :=
    allocate_spec blocks.mem 724288 blocks.clientSend_ne
  have hroom : Takes { LogonCommClientSocket.new blocks.mem blocks.clientSend
      blocks.clientRecv with
        recvCrypto := ⟨key.1, 0⟩, sendCrypto := ⟨key.1, 0⟩, useCrypto := true }
      (authChallenge key) := by
    refine (hregions.writeAll ?_).1
    rw [space_of_empty hregions hcontents, hcapacity]
    have hlength : (authChallenge key).contents.length = 20 := key.2
    simp [hlength]
  obtain ⟨b, hregions', hcapacity', hcontents', hsend⟩ := sendPacket_spec hregions true hroom
  refine ⟨b, hregions', hcapacity'.trans hcapacity, ?_, hsend⟩
  rw [hcontents']
  change ((CircularBuffer.new blocks.mem).allocate 724288 blocks.clientSend).contents ++ _ = _
  rw [hcontents]
  rfl

theorem linkInv_start (blocks : Blocks) (key sqlHash : Digest) :
    LinkInv key sqlHash (start blocks key) := by
  obtain ⟨b, hregions, hcapacity, hcontents, hclient⟩ := sendChallenge_spec blocks key
  obtain ⟨hr₁, hc₁, -⟩ := allocate_spec blocks.mem 262444 blocks.clientRecv_ne
  obtain ⟨hr₂, hc₂, -⟩ := allocate_spec blocks.mem 524288 blocks.serverRecv_ne
  obtain ⟨hr₃, hc₃, hcap₃⟩ := allocate_spec blocks.mem 65536 blocks.serverSend_ne
  have hstart : start blocks key = ⟨(start blocks key).client, LogonCommServerSocket.new blocks.mem
    blocks.serverSend blocks.serverRecv, [], []⟩ := rfl
  rw [hstart, hclient]
  refine ⟨hr₁, hregions, hr₂, hr₃, hcapacity, hcap₃, fun _ => (by decide : 0 < 6),
    fun _ => (by decide : 0 < 6),
    ⟨[], [], rfl, rfl, by simp, Or.inl ⟨rfl, rfl, rfl, rfl, rfl, hc₃, ?_⟩⟩,
    ⟨[], rfl, rfl, rfl, ⟨rfl, ?_⟩, by simp⟩⟩
  · refine Front.of_zero rfl ?_
    change ((CircularBuffer.new blocks.mem).allocate 524288 blocks.serverRecv).contents ++
      ([] ++ b.contents) = clear (authChallenge key) ++ veil _ []
    rw [hc₂, hcontents, veil_nil, List.append_nil]
    rfl
  · unfold restToClient
    change ((CircularBuffer.new blocks.mem).allocate 262444 blocks.clientRecv).contents ++
      ([] ++ ((CircularBuffer.new blocks.mem).allocate 65536 blocks.serverSend).contents) = []
    rw [hc₁, hc₃]
    rfl

/-! ## Every run -/

/-- The two ends are in step. The first packet that the server hands on is
the challenge, the first that the client hands on is the verdict on it; the
rest is what was sent after them. -/
structure LinkLaw (key sqlHash : Digest) (l : LogonLink) : Prop where
  challenge : l.client.sent.head? = some (authChallenge key)
  response : l.server.useCrypto = true →
    l.server.sent.head? = some (authResponse (verdict key sqlHash))
  serverInOrder : l.server.delivered <+: l.client.sent
  clientInOrder : l.client.delivered <+: l.server.sent
  /-- all of it, once everything has arrived and the loop has ended -/
  serverAll : l.server.connected = true → l.server.reading = false → l.toServer = [] →
    l.client.writeBuffer.contents = [] → l.server.delivered = l.client.sent
  clientAll : l.client.connected = true → l.client.reading = false → l.toClient = [] →
    l.server.writeBuffer.contents = [] → l.client.delivered = l.server.sent
  clientSendPosition : l.client.sendCrypto = ⟨key.1, (clearAll l.client.sent.tail).length⟩
  serverRecvPosition : l.server.useCrypto = true → l.server.recvCrypto =
    ⟨key.1, (clearAll l.server.delivered.tail).length + l.server.headerTaken⟩
  serverSendPosition : l.server.useCrypto = true →
    l.server.sendCrypto = ⟨key.1, (clearAll l.server.sent).length⟩
  clientRecvPosition : l.client.recvCrypto =
    ⟨key.1, (clearAll l.client.delivered).length + l.client.headerTaken⟩

theorem LinkInv.law (h : LinkInv key sqlHash l) : LinkLaw key sqlHash l := by
  obtain ⟨done, ps, hsent, hcrypto, hall, hphase⟩ := h.toServer
  obtain ⟨qs, hdelivered, hclient⟩ := h.toClient
  have hclientAll : l.client.reading = false → l.toClient = [] →
      l.server.writeBuffer.contents = [] → l.client.delivered = l.server.sent := by
    intro hidle hflight hbuffer
    have hin := hclient
    unfold restToClient at hin
    rw [hflight, hbuffer] at hin
    rw [hdelivered, hin.nil_of_settled (h.clientSettled hidle), List.append_nil]
  have hclientOrder : l.client.delivered <+: l.server.sent := ⟨qs, hdelivered.symm⟩
  have hhead : l.client.sent.head? = some (authChallenge key) := by
    rw [hsent]
    rfl
  have hposition : l.client.sendCrypto = ⟨key.1, (clearAll l.client.sent.tail).length⟩ := by
    rw [hsent, hcrypto]
    rfl
  rcases hphase with ⟨rfl, hbefore⟩ | hafter
  · have hplain : ¬ l.server.useCrypto = true := by
      rw [hbefore.plain]
      decide
    refine ⟨hhead, fun hcrypt => absurd hcrypt hplain, ?_, hclientOrder, ?_, fun _ => hclientAll,
      hposition, fun hcrypt => absurd hcrypt hplain, fun hcrypt => absurd hcrypt hplain,
      hclient.position⟩
    · rw [hbefore.delivered]
      exact List.nil_prefix
    · -- the challenge itself would have arrived
      intro _ hidle hflight hbuffer
      have hle := Front.need_le hbefore.front
      have hsettled := h.serverSettled hidle
      unfold restToServer at hle
      rw [hflight, hbuffer, List.append_nil, List.append_nil, length_contents] at hle
      omega
  · refine ⟨hhead, fun _ => hafter.response, ?_, hclientOrder, ?_, fun _ => hclientAll, hposition,
      fun _ => ?_, fun _ => hafter.position, hclient.position⟩
    · rw [hafter.delivered, hsent]
      exact ⟨ps, rfl⟩
    · intro _ hidle hflight hbuffer
      have hin := hafter.inStep
      unfold restToServer at hin
      rw [hflight, hbuffer] at hin
      rw [hafter.delivered, hsent, hin.nil_of_settled (h.serverSettled hidle), List.append_nil]
    · rw [hafter.inStep.position, hafter.delivered]
      rfl

/-- What the handlers of an end do. -/
def handlerOf (sqlHash : Digest) : Side → LogonCommSocket → WorldPacket → LogonCommSocket
  | .client => LogonCommClientSocket.handlePacket
  | .server => LogonCommServerSocket.handlePacket sqlHash

/-- An end of a link that has just been connected. -/
def peered (blocks : Blocks) (key : Digest) : Side → Peered
  | .client => ⟨(start blocks key).client, []⟩
  | .server => ⟨(start blocks key).server, []⟩

theorem keeps_sendPacket (s : LogonCommSocket) (no_crypto : Bool) (p : WorldPacket) :
    (s.sendPacket no_crypto p).readBuffer = s.readBuffer ∧
      (s.sendPacket no_crypto p).reading = s.reading ∧
      (s.sendPacket no_crypto p).delivered = s.delivered := by
  unfold LogonCommSocket.sendPacket encrypt burstSend
  dsimp only
  split_ifs <;> exact ⟨rfl, rfl, rfl⟩

theorem keeps_handleAuthChallenge (s : LogonCommSocket) (p : WorldPacket) :
    (handleAuthChallenge sqlHash s p).readBuffer = s.readBuffer ∧
      (handleAuthChallenge sqlHash s p).reading = s.reading ∧
      (handleAuthChallenge sqlHash s p).delivered = s.delivered := by
  obtain ⟨hbuffer, hreading, hdelivered⟩ := keeps_sendPacket
    { s with recvCrypto := ⟨readKey p, 0⟩, sendCrypto := ⟨readKey p, 0⟩, useCrypto := true } false
    (authResponse (if readKey p ≠ sqlHash.1 then 0 else 1))
  exact ⟨hbuffer, hreading, hdelivered⟩

theorem keeps_handlerOf (side : Side) : Keeps (handlerOf sqlHash side) := by
  cases side with
  | client =>
    refine ⟨fun s p => ?_, fun s p => ?_, fun s p => ?_⟩ <;>
      obtain ⟨c, d, a, hhandle⟩ := benign_client p s <;>
      exact (congrArg _ hhandle).trans rfl
  | server =>
    have hcase : ∀ s p, (handlerOf sqlHash .server s p).readBuffer = s.readBuffer ∧
        (handlerOf sqlHash .server s p).reading = s.reading ∧
        (handlerOf sqlHash .server s p).delivered = s.delivered ++ [p] := by
      intro s p
      unfold handlerOf LogonCommServerSocket.handlePacket
      dsimp only
      split_ifs
      · exact ⟨rfl, rfl, rfl⟩
      · exact keeps_handleAuthChallenge _ _
      · exact ⟨rfl, rfl, rfl⟩
    exact ⟨fun s p => (hcase s p).1, fun s p => (hcase s p).2.1, fun s p => (hcase s p).2.2⟩

theorem waits_peered (blocks : Blocks) (key : Digest) (side : Side) :
    (peered blocks key side).Waits := by
  have hstart := linkInv_start blocks key key
  cases side with
  | client => exact ⟨hstart.clientRead, hstart.clientSettled⟩
  | server => exact ⟨hstart.serverRead, hstart.serverSettled⟩

/-- In every run in which the send buffers have room for what is sent, the
two ends are in step, with a right or a wrong password. And whatever a peer
sends, of whatever length it says its frames are, an end hands them on or
closes the link. -/
theorem link_run {blocks : Blocks} {ops : List LinkOp}
    (hrun : Run (Guarded Fits (PartialStep (LogonLink.step sqlHash))) (start blocks key) ops l) :
    LinkLaw key sqlHash l ∧
      ∀ side ops u, Run (PartialStep (Peered.step (handlerOf sqlHash side)))
        (peered blocks key side) ops u → u.NeverStuck (handlerOf sqlHash side) := by
  constructor
  · have hinv : LinkInv key sqlHash l :=
      hrun.invariant (LinkInv key sqlHash) (fun _ _ _ hi hs => hi.step hs.1 hs.2)
        (linkInv_start blocks key sqlHash)
    exact hinv.law
  · intro side ops u hpeer
    exact Peered.neverStuck_run (keeps_handlerOf side) hpeer (waits_peered blocks key side)

def someBlocks : Blocks where
  mem _ := 0
  clientSend := 1
  clientRecv := 1
  serverSend := 1
  serverRecv := 1
  clientSend_ne := Nat.one_ne_zero
  clientRecv_ne := Nat.one_ne_zero
  serverSend_ne := Nat.one_ne_zero
  serverRecv_ne := Nat.one_ne_zero

def someDigest : Digest := ⟨List.replicate 20 7, rfl⟩

/-- The challenge arrives together with the beginning of a ping. -/
theorem link_run_challenge :
    ∃ l, Run (Guarded Fits (PartialStep (LogonLink.step someDigest))) (start someBlocks someDigest)
        [.send .client ⟨5, [1, 2]⟩, .flush .client 100, .receive .server 30, .turn .server] l ∧
      l.server.delivered = [authChallenge someDigest] ∧ l.server.readBuffer.getSize = 4 ∧
      LinkLaw someDigest someDigest l := by
  have hrun : Run (Guarded Fits (PartialStep (LogonLink.step someDigest)))
      (start someBlocks someDigest)
      [.send .client ⟨5, [1, 2]⟩, .flush .client 100, .receive .server 30, .turn .server] _ :=
    .cons ⟨fun _ => by decide +kernel, rfl⟩
      (.cons ⟨trivial, rfl⟩ (.cons ⟨trivial, rfl⟩ (.cons ⟨trivial, rfl⟩ (.nil _))))
  exact ⟨_, hrun, by decide +kernel, by decide +kernel, (link_run hrun).1⟩

/-- A header for which there is no room: the engine is six bytes further. -/
theorem sendPacket_refused {s : LogonCommSocket} {p : WorldPacket} (hcrypto : s.useCrypto = true)
    (hroom : (s.writeBuffer.write (headerOf p)).1 = false) :
    (s.sendPacket false p).sendCrypto = s.sendCrypto.advance 6 ∧
      (s.sendPacket false p).sent = s.sent ++ [p] := by
  have hwrite := ((SameShape.refl s.writeBuffer).write
    (length_veil (some s.sendCrypto) (headerOf p))).1.trans hroom
  simp only [veil, KeyPosition.process] at hwrite
  simp [LogonCommSocket.sendPacket, encrypt, burstSend, hcrypto, hwrite, KeyPosition.process]

/-- What a step with a send of an open client does. -/
theorem step_clientSend {p : WorldPacket} (hopcode : p.opcode ≠ RCMSG_AUTH_CHALLENGE)
    (hconn : l.client.connected = true) (hdel : l.client.deleted = false) :
    l.step sqlHash (.send .client p) =
      some { l with client := l.client.sendPacket false p } := by
  simp [LogonLink.step, hopcode, LogonCommClientSocket.sendPacket, hconn, hdel]

/-- A packet that fills the send buffer, and one more. -/
theorem not_link_run :
    ¬ ∀ (blocks : Blocks) (key sqlHash : Digest) (ops : List LinkOp) (l : LogonLink),
      Run (PartialStep (LogonLink.step sqlHash)) (start blocks key) ops l →
        LinkLaw key sqlHash l := by
  intro hall
  obtain ⟨p, hopcode, hlength⟩ : ∃ p : WorldPacket,
      p.opcode ≠ RCMSG_AUTH_CHALLENGE ∧ p.contents.length = 724256 :=
    ⟨⟨5, List.replicate 724256 0⟩, by decide, List.length_replicate⟩
  replace hall := hall someBlocks someDigest someDigest
  have hinv := linkInv_start someBlocks someDigest someDigest
  have hspace : (start someBlocks someDigest).client.writeBuffer.getSpace.1 = 724262 := by
    decide +kernel
  have hsize : (start someBlocks someDigest).client.writeBuffer.getSize = 26 := by decide +kernel
  have hcrypto : (start someBlocks someDigest).client.useCrypto = true := rfl
  have hsent : (start someBlocks someDigest).client.sent = [authChallenge someDigest] := rfl
  have hconn : (start someBlocks someDigest).client.connected = true := rfl
  have hdel : (start someBlocks someDigest).client.deleted = false := rfl
  generalize start someBlocks someDigest = l at *
  have htakes : l.client.Takes p := by
    refine (hinv.clientWrite.writeAll ?_).1
    rw [hspace]
    simp [hlength]
  obtain ⟨b, hregions, hcapacity, hcontents, hsend⟩ :=
    sendPacket_spec hinv.clientWrite false htakes
  have hfirst := (hinv.clientSend hopcode fun _ => htakes).law.clientSendPosition
  rw [LogonCommClientSocket.sendPacket, if_neg (by simp [hconn, hdel])] at hfirst
  -- the buffer is full
  have hfull : ((l.client.sendPacket false p).writeBuffer.write
      (headerOf ⟨5, [0]⟩)).1 = false := by
    rw [hsend]
    cases hok : (b.write (headerOf ⟨5, [0]⟩)).1 with
    | false => rfl
    | true =>
      have hfits := hregions.fits_of_write hok
      rw [hcapacity, hinv.clientCapacity, ← length_contents, hcontents, List.length_append,
        length_contents, hsize, length_veil, length_clear, hlength, length_headerOf] at hfits
      omega
  obtain ⟨hsecond, hlast⟩ := sendPacket_refused (by rw [hsend]; exact hcrypto) hfull
  have hstep₁ := @step_clientSend someDigest l p hopcode hconn hdel
  have hstep₂ := @step_clientSend someDigest { l with client := l.client.sendPacket false p }
    ⟨5, [0]⟩ (by decide) (by rw [hsend]; exact hconn) (by rw [hsend]; exact hdel)
  have hrun : Run (PartialStep (LogonLink.step someDigest)) l
      [.send .client p, .send .client ⟨5, [0]⟩] _ := .cons hstep₁ (.cons hstep₂ (.nil _))
  have hposition := (hall _ _ hrun).clientSendPosition
  have hsent₁ : (l.client.sendPacket false p).sent = [authChallenge someDigest, p] := by
    rw [hsend]
    simp [hsent]
  rw [hsecond, hfirst, hlast, hsent₁] at hposition
  simp [KeyPosition.advance] at hposition

end LogonLink

end HearthStone
