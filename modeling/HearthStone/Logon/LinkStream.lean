/-
HearthStone.Logon.LinkStream — the bytes of a logon link.

`clear` is a packet as it would lie on an unencrypted link. What a socket
puts into its send buffer is that text under its engine (`sendPacket_spec`)
and what it takes out of its receive buffer is the text again, provided
that its engine stands at the same position (`turn_spec`). A socket may be
in the middle of a packet, with the header taken and the body not yet
there; `Front` says what is still to come of it.
-/
import HearthStone.Logon.LogonComm
import HearthStone.Network.SendBuffer

namespace HearthStone

open Lib

/-! ## Headers -/

theorem swap32_swap32 (p : UInt32) : swap32 (swap32 p) = p := by
  apply UInt32.eq_of_toBitVec_eq
  unfold swap32
  simp only [UInt32.toBitVec_or, UInt32.toBitVec_and, UInt32.toBitVec_shiftRight,
    UInt32.toBitVec_shiftLeft]
  ext i hi
  simp
  interval_cases i <;> simp

theorem ofNat_ofLeBytes_opcode (opcode : UInt16) :
    UInt16.ofNat (ofLeBytes (leBytes 2 opcode.toNat)) = opcode := by
  rw [ofLeBytes_leBytes (by simpa using opcode.toNat_lt), UInt16.ofNat_toNat]

theorem ofNat_ofLeBytes_size (size : UInt32) :
    UInt32.ofNat (ofLeBytes (leBytes 4 size.toNat)) = size := by
  rw [ofLeBytes_leBytes (by simpa using size.toNat_lt), UInt32.ofNat_toNat]

/-! ## What a buffer can hold -/

namespace CircularBuffer

variable {c c' : CircularBuffer} {d d' : List UInt8}

/-- The size of the block. -/
def capacity (c : CircularBuffer) : Nat := c.bufferEnd - c.buffer

theorem Regions.getSize_le (h : c.Regions) : c.getSize ≤ c.capacity := by
  have hstart := h.start
  have hinside := h.inside
  unfold getSize capacity
  by_cases hB : c.regionBPointer = 0
  · rw [h.noB hB]
    omega
  · have hbefore := h.before hB
    omega

@[simp] theorem capacity_write (c : CircularBuffer) (d : List UInt8) :
    (c.write d).2.capacity = c.capacity := by
  unfold CircularBuffer.write
  dsimp only
  split_ifs <;> rfl

@[simp] theorem capacity_remove (c : CircularBuffer) (n : Nat) :
    (c.remove n).capacity = c.capacity := by
  unfold CircularBuffer.remove moveBToA
  split_ifs <;> rfl

/-- A write that succeeds has found room in the block. -/
theorem Regions.fits_of_write (h : c.Regions) (hok : (c.write d).1 = true) :
    c.getSize + d.length ≤ c.capacity := by
  obtain ⟨hregions, hcontents⟩ := h.write d
  have hlength := congrArg List.length hcontents
  rw [hok, if_pos rfl, List.length_append, length_contents, length_contents] at hlength
  rw [← hlength, ← capacity_write c d]
  exact hregions.getSize_le

/-- The same pointers and sizes. -/
structure SameShape (c c' : CircularBuffer) : Prop where
  buffer : c.buffer = c'.buffer
  bufferEnd : c.bufferEnd = c'.bufferEnd
  regionAPointer : c.regionAPointer = c'.regionAPointer
  regionASize : c.regionASize = c'.regionASize
  regionBPointer : c.regionBPointer = c'.regionBPointer
  regionBSize : c.regionBSize = c'.regionBSize

theorem SameShape.refl (c : CircularBuffer) : c.SameShape c := ⟨rfl, rfl, rfl, rfl, rfl, rfl⟩

/-- Whether a write succeeds depends on the number of bytes only. -/
theorem SameShape.write (h : c.SameShape c') (hlen : d.length = d'.length) :
    (c.write d).1 = (c'.write d').1 ∧ (c.write d).2.SameShape (c'.write d').2 := by
  obtain ⟨mem, b, e, ap, as, bp, bs⟩ := c
  obtain ⟨mem', b', e', ap', as', bp', bs'⟩ := c'
  obtain ⟨rfl, rfl, rfl, rfl, rfl, rfl⟩ := h
  unfold CircularBuffer.write
  dsimp only [getBFreeSpace, getAFreeSpace, getSpaceBeforeA, allocateB]
  rw [hlen]
  by_cases hB : bp = 0
  · by_cases hlt : e - ap - as < ap - b
    · by_cases hfits : (if b = 0 then 0 else ap - b - bs) < d'.length
      · simp only [hB, hlt, hfits, ne_eq, not_true, if_true, if_false]
        exact ⟨trivial, rfl, rfl, rfl, rfl, rfl, rfl⟩
      · simp only [hB, hlt, hfits, ne_eq, not_true, if_true, if_false]
        exact ⟨trivial, rfl, rfl, rfl, rfl, rfl, by simp [appendB, hlen]⟩
    · by_cases hfits : e - ap - as < d'.length
      · simp only [hB, hlt, hfits, ne_eq, not_true, if_true, if_false]
        exact ⟨trivial, rfl, rfl, rfl, rfl, rfl, rfl⟩
      · simp only [hB, hlt, hfits, ne_eq, not_true, if_false]
        exact ⟨trivial, rfl, rfl, rfl, by simp [appendA, hlen], rfl, rfl⟩
  · by_cases hfits : ap - bp - bs < d'.length
    · simp only [hB, hfits, ne_eq, not_false_iff, if_true, if_false]
      exact ⟨trivial, rfl, rfl, rfl, rfl, rfl, rfl⟩
    · simp only [hB, hfits, ne_eq, not_false_iff, if_true, if_false]
      exact ⟨trivial, rfl, rfl, rfl, rfl, rfl, by simp [appendB, hlen]⟩

end CircularBuffer

namespace LogonCommSocket

open CircularBuffer

variable {s r : LogonCommSocket} {p : WorldPacket} {ps : List WorldPacket}
  {tail more rest : List UInt8} {key : List UInt8}

/-! ## Text and engines -/

/-- A packet in the clear. -/
def clear (p : WorldPacket) : List UInt8 := headerOf p ++ p.contents

def clearAll (ps : List WorldPacket) : List UInt8 := ps.flatMap clear

@[simp] theorem length_headerOf (p : WorldPacket) : (headerOf p).length = 6 := by
  simp [headerOf, logonpacket]

@[simp] theorem length_clear (p : WorldPacket) : (clear p).length = 6 + p.contents.length := by
  simp [clear]

@[simp] theorem clearAll_nil : clearAll [] = [] := rfl

@[simp] theorem clearAll_cons (p : WorldPacket) (ps : List WorldPacket) :
    clearAll (p :: ps) = clear p ++ clearAll ps := rfl

@[simp] theorem clearAll_append (ps qs : List WorldPacket) :
    clearAll (ps ++ qs) = clearAll ps ++ clearAll qs := by
  simp [clearAll]

/-- Bytes as an engine, if there is one, makes them. -/
def veil : Option KeyPosition → List UInt8 → List UInt8
  | none, bytes => bytes
  | some k, bytes => (k.process bytes).1

/-- The engine `n` bytes further. -/
def skip (k : Option KeyPosition) (n : Nat) : Option KeyPosition := k.map (·.advance n)

@[simp] theorem length_veil (k : Option KeyPosition) (bytes : List UInt8) :
    (veil k bytes).length = bytes.length := by
  cases k with
  | none => rfl
  | some k => simp [veil, KeyPosition.process]

@[simp] theorem veil_nil (k : Option KeyPosition) : veil k [] = [] := by
  cases k <;> rfl

theorem veil_append (k : Option KeyPosition) (xs ys : List UInt8) :
    veil k (xs ++ ys) = veil k xs ++ veil (skip k xs.length) ys := by
  cases k with
  | none => rfl
  | some k => simp [veil, skip, KeyPosition.process, KeyPosition.advance, xorFrom_append]

@[simp] theorem veil_veil (k : Option KeyPosition) (bytes : List UInt8) :
    veil k (veil k bytes) = bytes := by
  cases k with
  | none => rfl
  | some k => simp [veil, KeyPosition.process]

/-! ## Sending -/

/-- The send buffer takes the header and the body. -/
def Takes (s : LogonCommSocket) (p : WorldPacket) : Prop :=
  (s.writeBuffer.writeAll [headerOf p, p.contents]).1 = true

instance (s : LogonCommSocket) (p : WorldPacket) : Decidable (s.Takes p) :=
  inferInstanceAs (Decidable (_ = true))

theorem takes_iff : s.Takes p ↔ (s.writeBuffer.write (headerOf p)).1 = true ∧
    ((s.writeBuffer.write (headerOf p)).2.write p.contents).1 = true := by
  unfold Takes
  simp only [writeAll]
  cases h : (s.writeBuffer.write (headerOf p)).1 with
  | false => simp
  | true =>
    cases h' : ((s.writeBuffer.write (headerOf p)).2.write p.contents).1 <;> simp

/-- The engine that a packet is sent under. -/
def sendCipher (s : LogonCommSocket) (no_crypto : Bool) : Option KeyPosition :=
  if s.useCrypto && !no_crypto then some s.sendCrypto else none

/-- A packet for which there is room goes into the buffer as a whole. -/
theorem sendPacket_spec (hw : s.writeBuffer.Regions) (no_crypto : Bool) (hroom : s.Takes p) :
    ∃ b : CircularBuffer, b.Regions ∧ b.capacity = s.writeBuffer.capacity ∧
      b.contents = s.writeBuffer.contents ++ veil (s.sendCipher no_crypto) (clear p) ∧
      s.sendPacket no_crypto p = { s with
        writeBuffer := b
        sendCrypto := ((skip (s.sendCipher no_crypto) (clear p).length).getD s.sendCrypto)
        sent := s.sent ++ [p] } := by
  obtain ⟨hheader, hbody⟩ := takes_iff.1 hroom
  -- the encrypted pieces have the lengths of the plain ones
  have hfirst := (SameShape.refl s.writeBuffer).write
    (length_veil (s.sendCipher no_crypto) (headerOf p))
  obtain ⟨hr₁, hc₁⟩ := hw.write (veil (s.sendCipher no_crypto) (headerOf p))
  rw [hfirst.1.trans hheader, if_pos rfl] at hc₁
  have hsecond := hfirst.2.write (length_veil (skip (s.sendCipher no_crypto) 6) p.contents)
  obtain ⟨hr₂, hc₂⟩ := hr₁.write (veil (skip (s.sendCipher no_crypto) 6) p.contents)
  rw [hsecond.1.trans hbody, if_pos rfl, hc₁, List.append_assoc] at hc₂
  have hclear : veil (s.sendCipher no_crypto) (headerOf p) ++
      veil (skip (s.sendCipher no_crypto) 6) p.contents = veil (s.sendCipher no_crypto) (clear p) := by
    rw [clear, veil_append, length_headerOf]
  rw [hclear] at hc₂
  by_cases hempty : p.contents = []
  · -- no second write; what the first has stored is the packet
    have hclear' : veil (s.sendCipher no_crypto) (headerOf p) =
        veil (s.sendCipher no_crypto) (clear p) := by rw [clear, hempty, List.append_nil]
    refine ⟨_, hr₁, capacity_write _ _, by rw [hc₁, hclear'], ?_⟩
    cases hcrypto : s.useCrypto && !no_crypto <;>
      simp [sendPacket, encrypt, burstSend, sendCipher, veil, skip, hcrypto, hempty,
        KeyPosition.process, KeyPosition.advance]
  · have hpos : 0 < p.contents.length := List.length_pos_iff.2 hempty
    have hok := hfirst.1.trans hheader
    refine ⟨_, hr₂, by rw [capacity_write, capacity_write], hc₂, ?_⟩
    unfold sendCipher at hok ⊢
    unfold sendPacket
    generalize (s.useCrypto && !no_crypto) = crypto at hok ⊢
    cases crypto with
    | false =>
      simp only [Bool.false_eq_true, if_false, veil] at hok
      simp [encrypt, burstSend, veil, skip, hok, hpos]
    | true =>
      simp only [if_true, veil, KeyPosition.process] at hok
      simp [encrypt, burstSend, veil, skip, hok, hpos, KeyPosition.process, KeyPosition.advance,
        Nat.add_assoc]

/-! ## Receiving -/

/-- The engine that the next byte is decrypted with. -/
def recvCipher (r : LogonCommSocket) : Option KeyPosition :=
  if r.useCrypto then some r.recvCrypto else none

/-- The receiving engine after `n` more bytes. -/
def recvAfter (r : LogonCommSocket) (n : Nat) : KeyPosition :=
  if r.useCrypto then r.recvCrypto.advance n else r.recvCrypto

theorem recvAfter_cipher (r : LogonCommSocket) (n : Nat) :
    recvCipher { r with recvCrypto := r.recvAfter n } = skip r.recvCipher n := by
  unfold recvCipher recvAfter
  cases r.useCrypto <;> rfl

theorem decrypt_eq (r : LogonCommSocket) (bytes : List UInt8) :
    r.decrypt bytes = (veil r.recvCipher bytes,
      { r with recvCrypto := r.recvAfter bytes.length }) := by
  unfold decrypt recvCipher recvAfter
  split
  · rfl
  · rfl

/-- What was encrypted at the same position is decrypted. -/
theorem decrypt_veil (r : LogonCommSocket) (bytes : List UInt8) :
    r.decrypt (veil r.recvCipher bytes) = (bytes,
      { r with recvCrypto := r.recvAfter bytes.length }) := by
  rw [decrypt_eq, veil_veil, length_veil]

theorem recvAfter_recvAfter (r : LogonCommSocket) (m n : Nat) :
    recvAfter { r with recvCrypto := r.recvAfter m } n = r.recvAfter (m + n) := by
  unfold recvAfter
  split
  · simp [KeyPosition.advance, Nat.add_assoc]
  · rfl

theorem readBytes_eq {n : Nat} (hn : n ≤ r.readBuffer.getSize) :
    r.readBytes n = (r.readBuffer.contents.take n,
      { r with readBuffer := r.readBuffer.remove n }) := by
  unfold readBytes
  rw [read_eq, if_neg (by omega)]
  rfl

/-- How many bytes the next half turn needs. -/
def need (r : LogonCommSocket) : Nat := if r.remaining = 0 then 6 else r.remaining.toNat

/-- How much of a packet is still to be taken out of the buffer. -/
def unread (r : LogonCommSocket) (p : WorldPacket) : Nat :=
  if r.remaining = 0 then 6 + p.contents.length else p.contents.length

/-- The bytes to come are the rest of this packet, then others. -/
def Front (r : LogonCommSocket) (p : WorldPacket) (tail rest : List UInt8) : Prop :=
  if r.remaining = 0 then rest = veil r.recvCipher (clear p) ++ tail
  else r.opcode = p.opcode ∧ r.remaining.toNat = p.contents.length ∧
    rest = veil r.recvCipher p.contents ++ tail

/-- A socket that has taken a header out of the buffer. -/
def tookHeader (r : LogonCommSocket) (p : WorldPacket) : LogonCommSocket :=
  { r with readBuffer := (r.readBuffer.remove 2).remove 4
           recvCrypto := r.recvAfter 6
           opcode := p.opcode
           remaining := UInt32.ofNat p.contents.length }

/-- A socket that has taken a body out of the buffer. -/
def tookBody (r : LogonCommSocket) (p : WorldPacket) : LogonCommSocket :=
  if r.remaining = 0 then r
  else { r with readBuffer := r.readBuffer.remove p.contents.length
                recvCrypto := r.recvAfter p.contents.length }

theorem readHeader_spec (hw : r.readBuffer.Regions) (hzero : r.remaining = 0)
    (hsix : 6 ≤ r.readBuffer.getSize)
    (hfront : r.readBuffer.contents ++ more = veil r.recvCipher (clear p) ++ tail) :
    r.readHeader = some (r.tookHeader p) ∧ (r.tookHeader p).readBuffer.Regions ∧
      (r.tookHeader p).readBuffer.contents ++ more =
        veil (r.tookHeader p).recvCipher p.contents ++ tail := by
  obtain ⟨hr₂, hc₂⟩ := hw.remove 2
  obtain ⟨hr₆, hc₆⟩ := hr₂.remove 4
  have hlen : 6 ≤ r.readBuffer.contents.length := by rwa [length_contents]
  have hcipher : (r.tookHeader p).recvCipher = skip r.recvCipher 6 := recvAfter_cipher r 6
  -- the six bytes are the header under the engine
  rw [clear, veil_append, length_headerOf, List.append_assoc] at hfront
  have hhead := congrArg (List.take 6) hfront
  rw [List.take_append_of_le_length hlen, List.take_left' (by simp)] at hhead
  have hrest := congrArg (List.drop 6) hfront
  rw [List.drop_append_of_le_length hlen, List.drop_left' (by simp)] at hrest
  have hsplit : veil r.recvCipher (headerOf p) =
      veil r.recvCipher (leBytes 2 p.opcode.toNat) ++ veil (skip r.recvCipher 2)
        (leBytes 4 (swap32 (UInt32.ofNat p.contents.length)).toNat) := by
    rw [headerOf, logonpacket, veil_append, length_leBytes]
  have htwo : r.readBuffer.contents.take 2 = veil r.recvCipher (leBytes 2 p.opcode.toNat) := by
    have htake := congrArg (List.take 2) (hhead.trans hsplit)
    rwa [List.take_take, List.take_left' (by simp)] at htake
  have hfour : (r.readBuffer.contents.drop 2).take 4 = veil (skip r.recvCipher 2)
      (leBytes 4 (swap32 (UInt32.ofNat p.contents.length)).toNat) := by
    have hdrop := congrArg (List.drop 2) (hhead.trans hsplit)
    rwa [List.drop_take, List.drop_left' (by simp)] at hdrop
  refine ⟨?_, hr₆, ?_⟩
  · have hsize₂ : (r.readBuffer.remove 2).getSize = r.readBuffer.getSize - 2 := by
      rw [← length_contents, hc₂, List.length_drop, length_contents]
    unfold readHeader
    rw [if_pos hzero, if_neg (by omega), readBytes_eq (by omega)]
    dsimp only
    rw [readBytes_eq (by change 4 ≤ (r.readBuffer.remove 2).getSize; omega)]
    have hopcode := decrypt_veil { r with readBuffer := (r.readBuffer.remove 2).remove 4 }
      (leBytes 2 p.opcode.toNat)
    have hsize := decrypt_veil
      { r with readBuffer := (r.readBuffer.remove 2).remove 4, recvCrypto := r.recvAfter 2 }
      (leBytes 4 (swap32 (UInt32.ofNat p.contents.length)).toNat)
    have hsix' : recvAfter { r with
        readBuffer := (r.readBuffer.remove 2).remove 4, recvCrypto := r.recvAfter 2 } 4 =
        r.recvAfter 6 := recvAfter_recvAfter r 2 4
    have htwo' : recvCipher { r with
        readBuffer := (r.readBuffer.remove 2).remove 4, recvCrypto := r.recvAfter 2 } =
        skip r.recvCipher 2 := recvAfter_cipher r 2
    rw [length_leBytes] at hopcode hsize
    rw [htwo', hsix'] at hsize
    change _ = (leBytes 2 p.opcode.toNat,
      { r with readBuffer := (r.readBuffer.remove 2).remove 4, recvCrypto := r.recvAfter 2 })
      at hopcode
    change decrypt _ (veil r.recvCipher _) = _ at hopcode
    rw [hc₂, htwo, hfour, hopcode]
    rw [hsize, ofNat_ofLeBytes_opcode, ofNat_ofLeBytes_size, swap32_swap32]
    rfl
  · rw [hcipher, ← hrest]
    change ((r.readBuffer.remove 2).remove 4).contents ++ more = _
    rw [hc₆, hc₂, List.drop_drop]

/-- The body of a packet whose header has been taken. -/
theorem readPacket_spec (hw : r.readBuffer.Regions) (hopcode : r.opcode = p.opcode)
    (hsize : r.remaining.toNat = p.contents.length)
    (hfront : r.readBuffer.contents ++ more = veil r.recvCipher p.contents ++ tail) :
    (r.readBuffer.getSize < p.contents.length ∧ r.readPacket = none) ∨
    (r.readPacket = some (p, r.tookBody p) ∧ (r.tookBody p).readBuffer.Regions ∧
      (r.tookBody p).readBuffer.contents ++ more = tail) := by
  unfold readPacket tookBody
  rw [hsize]
  by_cases hshort : r.readBuffer.getSize < p.contents.length
  · left
    exact ⟨hshort, if_pos hshort⟩
  right
  rw [if_neg hshort]
  by_cases hzero : r.remaining = 0
  · have hempty : p.contents = [] := by
      rw [← List.length_eq_zero_iff, ← hsize, hzero]
      rfl
    rw [hempty, veil_nil, List.nil_append] at hfront
    rw [if_pos hzero, if_pos hzero, hopcode, ← hempty]
    exact ⟨rfl, hw, hfront⟩
  · rw [if_neg hzero, if_neg hzero]
    have hle : p.contents.length ≤ r.readBuffer.getSize := Nat.not_lt.1 hshort
    have hlen : p.contents.length ≤ r.readBuffer.contents.length := by rwa [length_contents]
    have hbody := congrArg (List.take p.contents.length) hfront
    rw [List.take_append_of_le_length hlen, List.take_left' (by simp)] at hbody
    have hrest := congrArg (List.drop p.contents.length) hfront
    rw [List.drop_append_of_le_length hlen, List.drop_left' (by simp)] at hrest
    obtain ⟨hregions, hcontents⟩ := hw.remove p.contents.length
    have hplain := decrypt_veil
      { r with readBuffer := r.readBuffer.remove p.contents.length } p.contents
    change decrypt _ (veil r.recvCipher _) = _ at hplain
    refine ⟨?_, hregions, ?_⟩
    · rw [readBytes_eq hle]
      dsimp only
      rw [hbody, hplain, hopcode]
      rfl
    · rw [← hrest, ← hcontents]

theorem tookBody_tookHeader (r : LogonCommSocket)
    (hmod : (UInt32.ofNat p.contents.length).toNat = p.contents.length) :
    (r.tookHeader p).tookBody p = { r with
      readBuffer := ((r.tookHeader p).tookBody p).readBuffer
      recvCrypto := r.recvAfter (6 + p.contents.length)
      opcode := p.opcode
      remaining := UInt32.ofNat p.contents.length } := by
  unfold tookBody
  split
  · rename_i hzero
    have hempty : p.contents.length = 0 := by
      have hlength : (r.tookHeader p).remaining.toNat = p.contents.length := hmod
      rw [← hlength, hzero]
      rfl
    rw [hempty]
    unfold tookHeader
    rw [hempty]
  · rw [← recvAfter_recvAfter]
    rfl

/-- A turn waits, or takes a header and waits, or takes a packet and hands
it on. -/
theorem turn_spec (handle : LogonCommSocket → WorldPacket → LogonCommSocket)
    (hw : r.readBuffer.Regions) (hsized : p.contents.length < 2 ^ 32)
    (hfront : r.Front p tail (r.readBuffer.contents ++ more)) :
    (r.readBuffer.getSize < r.need ∧ r.onReadTurn handle = { r with reading := false }) ∨
    (r.remaining = 0 ∧ (r.tookHeader p).readBuffer.Regions ∧ (r.tookHeader p).remaining ≠ 0 ∧
      (r.tookHeader p).Front p tail ((r.tookHeader p).readBuffer.contents ++ more) ∧
      (r.tookHeader p).readBuffer.getSize < (r.tookHeader p).need ∧
      r.onReadTurn handle = { r.tookHeader p with reading := false }) ∨
    (∃ (b : CircularBuffer) (m : UInt32), b.Regions ∧ b.contents ++ more = tail ∧
      r.onReadTurn handle = { handle { r with
        readBuffer := b
        recvCrypto := r.recvAfter (r.unread p)
        opcode := p.opcode
        remaining := m } p with remaining := 0, opcode := 0 }) := by
  have hmod : (UInt32.ofNat p.contents.length).toNat = p.contents.length :=
    UInt32.toNat_ofNat_of_lt' hsized
  unfold Front at hfront
  unfold onReadTurn
  by_cases hzero : r.remaining = 0
  · rw [if_pos hzero] at hfront
    by_cases hsix : r.readBuffer.getSize < 6
    · left
      have hnone : r.readHeader = none := by
        unfold readHeader
        rw [if_pos hzero, if_pos hsix]
      rw [hnone]
      exact ⟨by rwa [need, if_pos hzero], rfl⟩
    right
    obtain ⟨hheader, hregions, hbody⟩ := readHeader_spec hw hzero (Nat.not_lt.1 hsix) hfront
    rw [hheader]
    dsimp only
    rcases readPacket_spec hregions (p := p) rfl hmod hbody with
      ⟨hshort, hnone⟩ | ⟨hsome, hregions', hrest⟩
    · left
      have hne : (r.tookHeader p).remaining ≠ 0 := by
        intro h
        have hlength : (r.tookHeader p).remaining.toNat = p.contents.length := hmod
        rw [h] at hlength
        have hz : (0 : UInt32).toNat = 0 := rfl
        omega
      rw [hnone]
      refine ⟨hzero, hregions, hne, ?_, ?_, rfl⟩
      · rw [Front, if_neg hne]
        exact ⟨rfl, hmod, hbody⟩
      · rw [need, if_neg hne]
        exact hshort.trans_eq hmod.symm
    · right
      rw [hsome]
      refine ⟨_, UInt32.ofNat p.contents.length, hregions', hrest, ?_⟩
      unfold unread
      rw [if_pos hzero]
      exact congrArg (fun s => { handle s p with remaining := 0, opcode := 0 })
        (tookBody_tookHeader r hmod)
  · rw [if_neg hzero] at hfront
    obtain ⟨hopcode, hsize, hbody⟩ := hfront
    have hheader : r.readHeader = some r := by
      unfold readHeader
      rw [if_neg hzero]
    rw [hheader]
    dsimp only
    rcases readPacket_spec hw hopcode hsize hbody with ⟨hshort, hnone⟩ | ⟨hsome, hregions, hrest⟩
    · left
      rw [hnone]
      exact ⟨by rwa [need, if_neg hzero, hsize], rfl⟩
    · right
      right
      rw [hsome]
      refine ⟨_, r.remaining, hregions, hrest, ?_⟩
      unfold tookBody unread
      rw [if_neg hzero, if_neg hzero, hopcode]

end LogonCommSocket

end HearthStone
