/-
HearthStone.Network.SendBuffer — the space a buffer announces.

`GetSpace` may start a region B and `Write` chooses its region anew each
time. What carries the promise over several writes is that a write takes
no more off the announced space than it stores (`Regions.write_fits`).

* `space_promise` — any writes that add up to the announced space succeed,
  so a header and its payload are written both or not at all.
-/
import HearthStone.Network.WorldSocket

namespace HearthStone

open Lib

namespace CircularBuffer

variable {c : CircularBuffer} {data : List UInt8} {n : Nat}

theorem getSpace_of_B (hB : c.regionBPointer ≠ 0) : c.getSpace = (c.getBFreeSpace, c) := by
  unfold getSpace
  rw [if_pos hB]

theorem getSpace_of_lt (hB : c.regionBPointer = 0) (hlt : c.getAFreeSpace < c.getSpaceBeforeA) :
    c.getSpace = (c.allocateB.getBFreeSpace, c.allocateB) := by
  unfold getSpace
  rw [if_neg (by simpa using hB), if_pos hlt]

theorem getSpace_of_not_lt (hB : c.regionBPointer = 0)
    (hlt : ¬ c.getAFreeSpace < c.getSpaceBeforeA) : c.getSpace = (c.getAFreeSpace, c) := by
  unfold getSpace
  rw [if_neg (by simpa using hB), if_neg hlt]

theorem Regions.getBFreeSpace_allocateB (h : c.Regions) (hB : c.regionBPointer = 0)
    (hlt : c.getAFreeSpace < c.getSpaceBeforeA) :
    c.allocateB.getBFreeSpace = c.getSpaceBeforeA := by
  have hne : c.allocateB.regionBPointer ≠ 0 := h.buffer_ne_zero hlt
  unfold getBFreeSpace
  rw [if_neg hne]
  change c.regionAPointer - c.buffer - c.regionBSize = c.getSpaceBeforeA
  rw [h.noB hB]
  rfl

theorem getBFreeSpace_appendB (hB : c.regionBPointer ≠ 0) :
    (c.appendB data).getBFreeSpace = c.getBFreeSpace - data.length := by
  have hB' : (c.appendB data).regionBPointer ≠ 0 := hB
  unfold getBFreeSpace
  rw [if_neg hB, if_neg hB']
  change c.regionAPointer - c.regionBPointer - (c.regionBSize + data.length) = _
  omega

/-- Asking again gives the same answer. -/
theorem Regions.getSpace_getSpace (h : c.Regions) : c.getSpace.2.getSpace = c.getSpace := by
  by_cases hB : c.regionBPointer = 0
  · by_cases hlt : c.getAFreeSpace < c.getSpaceBeforeA
    · have hne : c.allocateB.regionBPointer ≠ 0 := h.buffer_ne_zero hlt
      rw [getSpace_of_lt hB hlt, getSpace_of_B hne]
    · rw [getSpace_of_not_lt hB hlt, getSpace_of_not_lt hB hlt]
  · rw [getSpace_of_B hB, getSpace_of_B hB]

/-- A write within the announced space succeeds, and what is announced
afterwards is at least the rest. -/
theorem Regions.write_fits (h : c.Regions) (hfits : data.length ≤ c.getSpace.1) :
    (c.write data).1 = true ∧ c.getSpace.1 ≤ (c.write data).2.getSpace.1 + data.length := by
  unfold CircularBuffer.write
  by_cases hB : c.regionBPointer = 0
  · rw [if_neg (by simpa using hB)]
    by_cases hlt : c.getAFreeSpace < c.getSpaceBeforeA
    · have hne : c.allocateB.regionBPointer ≠ 0 := h.buffer_ne_zero hlt
      have hne' : (c.allocateB.appendB data).regionBPointer ≠ 0 := hne
      rw [getSpace_of_lt hB hlt] at hfits ⊢
      rw [if_pos hlt]
      rw [if_neg (Nat.not_lt.2 hfits), getSpace_of_B hne', getBFreeSpace_appendB hne]
      exact ⟨rfl, by omega⟩
    · rw [getSpace_of_not_lt hB hlt] at hfits ⊢
      rw [if_neg hlt, if_neg (Nat.not_lt.2 hfits)]
      refine ⟨rfl, ?_⟩
      -- A has shrunk; B may now be the larger choice
      have hB' : (c.appendA data).regionBPointer = 0 := hB
      have hfree : (c.appendA data).getAFreeSpace = c.getAFreeSpace - data.length := by
        unfold getAFreeSpace
        change c.bufferEnd - c.regionAPointer - (c.regionASize + data.length) = _
        omega
      by_cases hlt' : (c.appendA data).getAFreeSpace < (c.appendA data).getSpaceBeforeA
      · rw [getSpace_of_lt hB' hlt',
          (h.appendA hB hfits).getBFreeSpace_allocateB hB' hlt']
        omega
      · rw [getSpace_of_not_lt hB' hlt', hfree]
        omega
  · rw [getSpace_of_B hB] at hfits ⊢
    have hB' : (c.appendB data).regionBPointer ≠ 0 := hB
    rw [if_pos hB, if_neg (Nat.not_lt.2 hfits), getSpace_of_B hB', getBFreeSpace_appendB hB]
    exact ⟨rfl, by omega⟩

/-- Writes one after the other: whether all succeeded, and the buffer. -/
def writeAll : CircularBuffer → List (List UInt8) → Bool × CircularBuffer
  | c, [] => (true, c)
  | c, data :: rest =>
    let (ok, c) := c.write data
    if ok then c.writeAll rest else (false, c)

/-- By induction on the writes; the space announced before each covers
the rest of them. -/
theorem Regions.writeAll (h : c.Regions) {ds : List (List UInt8)}
    (hfits : ds.flatten.length ≤ c.getSpace.1) :
    (c.writeAll ds).1 = true ∧ (c.writeAll ds).2.Regions ∧
      (c.writeAll ds).2.contents = c.contents ++ ds.flatten := by
  induction ds generalizing c with
  | nil => exact ⟨rfl, h, by simp [CircularBuffer.writeAll]⟩
  | cons data rest ih =>
    rw [List.flatten_cons, List.length_append] at hfits
    have hfirst : data.length ≤ c.getSpace.1 := by omega
    obtain ⟨hok, hspace⟩ := h.write_fits hfirst
    obtain ⟨hregions, hcontents⟩ := h.write data
    rw [hok, if_pos rfl] at hcontents
    obtain ⟨hall, hregions', hcontents'⟩ := ih hregions (by omega)
    unfold CircularBuffer.writeAll
    simp only [hok, if_true]
    refine ⟨hall, hregions', ?_⟩
    rw [hcontents', hcontents, List.flatten_cons, List.append_assoc]

end CircularBuffer

namespace WorldSocket

variable {w : WorldSocket} {p : WorldPacket}

/-- A packet as it goes into the buffer, and the cipher after it. -/
def frame (c : WowCrypt) (p : WorldPacket) : List UInt8 × WowCrypt :=
  let encrypted := c.encryptSend (serverPktHeader p.opcode p.contents.length)
  (encrypted.1 ++ p.contents, encrypted.2)

/-- `_OutPacket` puts nothing into the buffer or the whole packet. -/
theorem tryOutPacket_spec (hw : w.writeBuffer.Regions) (p : WorldPacket) :
    (w.connected = false ∧ w.tryOutPacket p = (.notConnected, w)) ∨
    (w.connected = true ∧ w.writeBuffer.getSpace.1 < p.contents.length + 4 ∧
      w.tryOutPacket p =
        (.noRoomInBuffer, { w with writeBuffer := w.writeBuffer.getSpace.2 })) ∨
    (w.connected = true ∧ ¬ w.writeBuffer.getSpace.1 < p.contents.length + 4 ∧
      ∃ b : CircularBuffer, b.Regions ∧
        b.contents = w.writeBuffer.contents ++ (frame w.crypt p).1 ∧
        w.tryOutPacket p = (.success,
          { w with writeBuffer := b, crypt := (frame w.crypt p).2 }.record (.sent p))) := by
  cases hconn : w.connected with
  | false =>
    refine Or.inl ⟨rfl, ?_⟩
    unfold tryOutPacket
    simp only [hconn, if_true]
  | true =>
    right
    by_cases hspace : w.writeBuffer.getSpace.1 < p.contents.length + 4
    · refine Or.inl ⟨rfl, hspace, ?_⟩
      unfold tryOutPacket
      simp [hconn, hspace]
    · refine Or.inr ⟨rfl, hspace, ?_⟩
      obtain ⟨hregions, hcontents⟩ := hw.getSpace
      have hsame : w.writeBuffer.getSpace.2.getSpace.1 = w.writeBuffer.getSpace.1 := by
        rw [hw.getSpace_getSpace]
      let header := (w.crypt.encryptSend (serverPktHeader p.opcode p.contents.length)).1
      have hheader : header.length = 4 := WowCrypt.length_encryptSend _ _
      -- the header fits, and leaves room for the payload
      have hfits : header.length ≤ w.writeBuffer.getSpace.2.getSpace.1 := by omega
      obtain ⟨hok, hleft⟩ := hregions.write_fits hfits
      obtain ⟨hregions', hcontents'⟩ := hregions.write header
      rw [hok, if_pos rfl, hcontents] at hcontents'
      by_cases hlen : p.contents.length > 0
      · have hfits' : p.contents.length ≤
            (w.writeBuffer.getSpace.2.write header).2.getSpace.1 := by omega
        obtain ⟨hok', -⟩ := hregions'.write_fits hfits'
        obtain ⟨hregions'', hcontents''⟩ := hregions'.write p.contents
        rw [hok', if_pos rfl, hcontents', List.append_assoc] at hcontents''
        refine ⟨_, hregions'', hcontents'', ?_⟩
        unfold tryOutPacket
        simp only [hconn, Bool.true_eq_false, if_false, hspace, header, hok, hlen, hok', true_and,
          if_true]
        rfl
      · have hempty : p.contents = [] := List.length_eq_zero_iff.1 (by omega)
        refine ⟨_, hregions', ?_, ?_⟩
        · have hframe : header ++ p.contents = header := by rw [hempty, List.append_nil]
          rw [hcontents']
          exact congrArg (w.writeBuffer.contents ++ ·) hframe.symm
        · unfold tryOutPacket
          simp only [hconn, Bool.true_eq_false, if_false, hspace, header, hok, hlen, false_and,
            if_true]
          rfl

end WorldSocket

namespace CircularBuffer

/-- In every state a properly used buffer reaches, any writes that add up
to the space it announces succeed in full; so a socket with that send
buffer never stops between a header and its payload. -/
theorem space_promise {mem : Nat → UInt8} {ops : List Op} {t : Traced}
    (hrun : Run (Guarded Proper (FunStep Op.step)) (Traced.start mem) ops t) :
    (∀ ds : List (List UInt8), ds.flatten.length ≤ t.buf.getSpace.1 →
      (t.buf.getSpace.2.writeAll ds).1 = true ∧
        (t.buf.getSpace.2.writeAll ds).2.contents = t.buf.contents ++ ds.flatten) ∧
    ∀ (w : WorldSocket) (p : WorldPacket), w.writeBuffer = t.buf →
      (w.tryOutPacket p).1 ≠ .socketError ∧
        (w.tryOutPacket p).2.writeBuffer.contents =
          if (w.tryOutPacket p).1 = .success then t.buf.contents ++ (WorldSocket.frame w.crypt p).1
          else t.buf.contents := by
  have hr := (queueInv_run hrun).regions
  obtain ⟨hregions, hcontents⟩ := hr.getSpace
  constructor
  · intro ds hfits
    rw [← hr.getSpace_getSpace] at hfits
    obtain ⟨hok, -, hall⟩ := hregions.writeAll hfits
    exact ⟨hok, by rw [hall, hcontents]⟩
  · intro w p hw
    rw [← hw] at hr hcontents ⊢
    rcases WorldSocket.tryOutPacket_spec hr p with ⟨-, heq⟩ | ⟨-, -, heq⟩ | ⟨-, -, b, -, hb, heq⟩
    · rw [heq]
      exact ⟨by simp, by simp⟩
    · rw [heq]
      refine ⟨by simp, ?_⟩
      simpa using hcontents
    · rw [heq]
      refine ⟨by simp, ?_⟩
      simpa [WorldSocket.record] using hb

/-- Six of eight bytes are taken out again: the four in front of the last
two are the space. -/
theorem space_promise_in_front :
    ∃ t, Run (Guarded Proper (FunStep Op.step)) (Traced.start fun _ => 0)
      [.allocate 8 64, .write [1, 2, 3, 4, 5, 6], .read 4] t ∧
      t.buf.getSpace.1 = 4 ∧ (t.buf.getSpace.2.writeAll [[7, 8], [9], [10]]).1 = true := by
  have hrun : Run (Guarded Proper (FunStep Op.step)) (Traced.start fun _ => 0)
      [.allocate 8 64, .write [1, 2, 3, 4, 5, 6], .read 4] _ :=
    .cons ⟨⟨rfl, by decide⟩, rfl⟩ (.cons ⟨trivial, rfl⟩ (.cons ⟨trivial, rfl⟩ (.nil _)))
  exact ⟨_, hrun, by decide, ((space_promise hrun).1 _ (by decide)).1⟩

end CircularBuffer

end HearthStone
