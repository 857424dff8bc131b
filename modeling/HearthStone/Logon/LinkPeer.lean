/-
HearthStone.Logon.LinkPeer — an end of a logon link whose other end may
send anything.

Nothing bounds the length that a header announces. What keeps an end from
waiting for ever is the receive itself: when the buffer has no space left
`recv` is asked for nothing, takes nothing and the socket is closed.

* `turn_any` — a turn of `OnRead`, whatever is in the buffer.
* `neverStuck_run` — a frame of any length is handed on or the link is
  closed, and only bytes that the peer has not sent are waited for.
-/
import HearthStone.Logon.LinkStream

namespace HearthStone

open Lib

namespace LogonCommSocket

open CircularBuffer

variable {y : LogonCommSocket} {handle : LogonCommSocket → WorldPacket → LogonCommSocket}

/-! ## Any turn -/

/-- A handler that leaves the receiving side alone. -/
structure Keeps (handle : LogonCommSocket → WorldPacket → LogonCommSocket) : Prop where
  readBuffer : ∀ s p, (handle s p).readBuffer = s.readBuffer
  reading : ∀ s p, (handle s p).reading = s.reading
  delivered : ∀ s p, (handle s p).delivered = s.delivered ++ [p]

theorem Regions.getSize_remove {c : CircularBuffer} (h : c.Regions) (n : Nat) :
    (c.remove n).getSize = c.getSize - n := by
  rw [← length_contents, (h.remove n).2, List.length_drop, length_contents]

theorem readHeader_any (hw : y.readBuffer.Regions) (hzero : y.remaining = 0)
    (hsix : 6 ≤ y.readBuffer.getSize) :
    ∃ (k : KeyPosition) (o : UInt16) (m : UInt32), y.readHeader = some { y with
      readBuffer := (y.readBuffer.remove 2).remove 4, recvCrypto := k, opcode := o,
      remaining := m } := by
  have hfour : 4 ≤ (y.readBuffer.remove 2).getSize := by
    rw [Regions.getSize_remove hw]
    omega
  unfold readHeader
  rw [if_pos hzero, if_neg (by omega), readBytes_eq (by omega)]
  dsimp only
  rw [readBytes_eq hfour]
  simp only [decrypt_eq]
  exact ⟨_, _, _, rfl⟩

theorem readPacket_any (hw : y.readBuffer.Regions)
    (hall : y.remaining.toNat ≤ y.readBuffer.getSize) :
    ∃ (b : CircularBuffer) (k : KeyPosition) (body : List UInt8), b.Regions ∧
      b.getSize = y.readBuffer.getSize - y.remaining.toNat ∧ body.length = y.remaining.toNat ∧
      y.readPacket = some (⟨y.opcode, body⟩, { y with readBuffer := b, recvCrypto := k }) := by
  unfold readPacket
  rw [if_neg (by omega)]
  by_cases hzero : y.remaining = 0
  · have hnone : y.remaining.toNat = 0 := by
      rw [hzero]
      rfl
    rw [if_pos hzero, hnone]
    exact ⟨y.readBuffer, y.recvCrypto, [], hw, rfl, rfl, rfl⟩
  · rw [if_neg hzero, readBytes_eq hall]
    simp only [decrypt_eq]
    refine ⟨_, _, _, (hw.remove _).1, Regions.getSize_remove hw _, ?_, rfl⟩
    rw [length_veil, List.length_take, length_contents]
    omega

/-- What a turn does, whatever the bytes are. -/
inductive TurnResult (y y' : LogonCommSocket) : Prop
  | waits : y'.reading = false → y'.delivered = y.delivered → y'.readBuffer.Regions →
      y'.readBuffer.getSize ≤ y.readBuffer.getSize → y'.readBuffer.getSize < y'.need →
      y'.connected = y.connected →
      (y.remaining ≠ 0 → y'.remaining = y.remaining ∧ y'.opcode = y.opcode ∧
        y'.readBuffer.getSize = y.readBuffer.getSize) → TurnResult y y'
  | delivers (p : WorldPacket) : y'.reading = y.reading → y'.delivered = y.delivered ++ [p] →
      y'.readBuffer.Regions → y'.readBuffer.getSize < y.readBuffer.getSize →
      (y.remaining ≠ 0 → p.opcode = y.opcode ∧ p.contents.length = y.remaining.toNat) →
      TurnResult y y'

theorem toNat_pos {m : UInt32} (hne : m ≠ 0) : 0 < m.toNat :=
  Nat.pos_of_ne_zero fun h => hne (UInt32.toNat_inj.1 h)

theorem turn_any (hkeeps : Keeps handle) (hw : y.readBuffer.Regions) :
    TurnResult y (y.onReadTurn handle) := by
  unfold onReadTurn
  by_cases hzero : y.remaining = 0
  · by_cases hsix : y.readBuffer.getSize < 6
    · have hnone : y.readHeader = none := by
        unfold readHeader
        rw [if_pos hzero, if_pos hsix]
      rw [hnone]
      exact .waits rfl rfl hw le_rfl (by rwa [need, if_pos hzero]) rfl
        fun hne => absurd hzero hne
    rw [Nat.not_lt] at hsix
    obtain ⟨k, o, m, hheader⟩ := readHeader_any hw hzero hsix
    have hw' := ((hw.remove 2).1.remove 4).1
    have hsize : ((y.readBuffer.remove 2).remove 4).getSize = y.readBuffer.getSize - 6 := by
      rw [Regions.getSize_remove (hw.remove 2).1, Regions.getSize_remove hw]
      omega
    rw [hheader]
    dsimp only
    by_cases hshort : ((y.readBuffer.remove 2).remove 4).getSize < m.toNat
    · have hnone : readPacket { y with
          readBuffer := (y.readBuffer.remove 2).remove 4, recvCrypto := k, opcode := o,
          remaining := m } = none := if_pos hshort
      have hne : m ≠ 0 := by
        rintro rfl
        exact absurd hshort (Nat.not_lt_zero _)
      rw [hnone]
      refine .waits rfl rfl hw' ?_ ?_ rfl fun hne => absurd hzero hne
      · dsimp only
        omega
      · dsimp only [need]
        rwa [if_neg hne]
    · obtain ⟨b, k', body, hregions, hb, hbody, hsome⟩ := @readPacket_any { y with
        readBuffer := (y.readBuffer.remove 2).remove 4, recvCrypto := k, opcode := o,
        remaining := m } hw' (Nat.not_lt.1 hshort)
      rw [hsome]
      refine .delivers ⟨o, body⟩ (hkeeps.reading _ _) (hkeeps.delivered _ _) ?_ ?_
        fun hne => absurd hzero hne
      · dsimp only
        rw [hkeeps.readBuffer]
        exact hregions
      · dsimp only
        rw [hkeeps.readBuffer]
        dsimp only at hb ⊢
        omega
  · have hheader : y.readHeader = some y := by
      unfold readHeader
      rw [if_neg hzero]
    rw [hheader]
    dsimp only
    by_cases hshort : y.readBuffer.getSize < y.remaining.toNat
    · have hnone : y.readPacket = none := if_pos hshort
      rw [hnone]
      exact .waits rfl rfl hw le_rfl (by rwa [need, if_neg hzero]) rfl fun _ => ⟨rfl, rfl, rfl⟩
    · obtain ⟨b, k', body, hregions, hb, hbody, hsome⟩ := readPacket_any hw (Nat.not_lt.1 hshort)
      rw [hsome]
      refine .delivers ⟨y.opcode, body⟩ (hkeeps.reading _ _) (hkeeps.delivered _ _) ?_ ?_
        fun _ => ⟨rfl, hbody⟩
      · dsimp only
        rw [hkeeps.readBuffer]
        exact hregions
      · dsimp only
        rw [hkeeps.readBuffer]
        have hpos := toNat_pos hzero
        dsimp only
        omega

/-! ## Any receive -/

/-- What a receive does with `available` bytes of which some are there. -/
inductive ReceiveResult (y y' : LogonCommSocket) (taken : Nat) : Prop
  | closes : y'.connected = false → y'.reading = y.reading → y'.delivered = y.delivered →
      y'.readBuffer.Regions → y'.readBuffer.getSize = y.readBuffer.getSize →
      y'.remaining = y.remaining → y'.opcode = y.opcode → taken = 0 → ReceiveResult y y' taken
  | takes : y'.reading = true → y'.delivered = y.delivered → y'.readBuffer.Regions →
      y'.readBuffer.getSize = y.readBuffer.getSize + taken → y'.remaining = y.remaining →
      y'.opcode = y.opcode → 0 < taken → ReceiveResult y y' taken

theorem receive_any (hw : y.readBuffer.Regions) (available : List UInt8) :
    ReceiveResult y (y.readCallback available).2 (y.readCallback available).1 ∧
      (y.readCallback available).1 ≤ available.length := by
  obtain ⟨hregions, hcontents⟩ := hw.getSpace
  have hsize : y.readBuffer.getSpace.2.getSize = y.readBuffer.getSize := by
    rw [← length_contents, hcontents, length_contents]
  unfold readCallback
  dsimp only
  by_cases hnone : available.take y.readBuffer.getSpace.1 = []
  · rw [if_pos hnone]
    exact ⟨.closes rfl rfl rfl hregions hsize rfl rfl rfl, Nat.zero_le _⟩
  · rw [if_neg hnone]
    have hfits : (available.take y.readBuffer.getSpace.1).length ≤
        y.readBuffer.getSpace.2.room := by
      rcases room_getSpace (c := y.readBuffer) with hroom | hzero
      · rw [hroom, List.length_take]
        exact Nat.min_le_left _ _
      · rw [hzero, List.take_zero] at hnone
        exact absurd rfl hnone
    obtain ⟨hregions', hcontents'⟩ := hregions.commit hfits
    refine ⟨.takes rfl rfl hregions' ?_ rfl rfl (List.length_pos_iff.2 hnone), ?_⟩
    · have hlength := congrArg List.length hcontents'
      rw [length_contents, List.length_append, length_contents, hsize] at hlength
      exact hlength
    · rw [List.length_take]
      exact Nat.min_le_right _ _

end LogonCommSocket

/-! ## Any peer -/

/-- An end, and the bytes that its peer has sent and it has not received. -/
structure Peered where
  socket : LogonCommSocket
  pending : List UInt8

inductive PeerOp
  /-- the peer sends -/
  | arrive (bytes : List UInt8)
  | receive (n : Nat)
  | turn

namespace PeerOp

/-- How many bytes the peer has sent meanwhile. -/
def arrived : PeerOp → Nat
  | .arrive bytes => bytes.length
  | _ => 0

def arrivedAll (ops : List PeerOp) : Nat := (ops.map arrived).sum

/-- A step of the end itself. -/
def Own : PeerOp → Prop
  | .arrive _ => False
  | _ => True

end PeerOp

namespace Peered

open LogonCommSocket CircularBuffer

/-- The steps of one end; see `LogonLink.step`. -/
def step (handle : LogonCommSocket → WorldPacket → LogonCommSocket) (v : Peered) :
    PeerOp → Option Peered
  | .arrive bytes => some { v with pending := v.pending ++ bytes }
  | .receive n =>
    if v.socket.connected = false ∨ v.socket.reading = true then none
    else
      let r := v.socket.readCallback (v.pending.take n)
      some ⟨r.2, v.pending.drop r.1⟩
  | .turn =>
    if v.socket.reading = false then none
    else some { v with socket := v.socket.onReadTurn handle }

variable {handle : LogonCommSocket → WorldPacket → LogonCommSocket} {u v w : Peered}
  {op : PeerOp} {ops : List PeerOp}

theorem step_receive {n : Nat} (h : v.step handle (.receive n) = some w) :
    v.socket.reading = false ∧ w = ⟨(v.socket.readCallback (v.pending.take n)).2,
      v.pending.drop (v.socket.readCallback (v.pending.take n)).1⟩ := by
  simp only [step, Option.ite_none_left_eq_some, not_or, Option.some.injEq] at h
  exact ⟨by simpa using h.1.2, h.2.symm⟩

theorem step_turn (h : v.step handle .turn = some w) :
    v.socket.reading = true ∧ w = { v with socket := v.socket.onReadTurn handle } := by
  simp only [step, Option.ite_none_left_eq_some, Option.some.injEq] at h
  exact ⟨by simpa using h.1, h.2.symm⟩

/-- Nothing is left to do until the peer sends more. -/
def AtRest (v : Peered) : Prop :=
  v.socket.reading = false ∧ (v.socket.connected = true → v.pending = [])

/-- What is left to do. -/
def work (v : Peered) : Nat :=
  4 * v.pending.length + 2 * v.socket.readBuffer.getSize + if v.socket.reading then 1 else 0

/-- An end that waits for nothing but bytes its peer has not sent. -/
structure Waits (v : Peered) : Prop where
  regions : v.socket.readBuffer.Regions
  settled : v.socket.reading = false → v.socket.readBuffer.getSize < v.socket.need

theorem Waits.step (hkeeps : Keeps handle) (h : Waits v) (hstep : v.step handle op = some w) :
    Waits w := by
  cases op with
  | arrive bytes =>
    cases hstep
    exact ⟨h.regions, h.settled⟩
  | receive n =>
    obtain ⟨hidle, rfl⟩ := step_receive hstep
    rcases (receive_any h.regions (v.pending.take n)).1 with
      ⟨-, hreading, -, hregions, hsize, hrem, -, -⟩ | ⟨hreading, -, hregions, -, -, -, -⟩
    · refine ⟨hregions, fun _ => ?_⟩
      have hsettled := h.settled hidle
      unfold need at hsettled ⊢
      rw [hsize, hrem]
      exact hsettled
    · refine ⟨hregions, fun hfalse => ?_⟩
      exact absurd (hreading.symm.trans hfalse) (by decide)
  | turn =>
    obtain ⟨hreading, rfl⟩ := step_turn hstep
    rcases turn_any hkeeps h.regions with
      ⟨-, -, hregions, -, hneed, -, -⟩ | ⟨p, hsame, -, hregions, -, -⟩
    · exact ⟨hregions, fun _ => hneed⟩
    · refine ⟨hregions, fun hfalse => ?_⟩
      exact absurd ((hsame.trans hreading).symm.trans hfalse) (by decide)

/-- The frame that is waited for is still to come as a whole, or has been
handed on. -/
def Awaits (u : Peered) (total : Nat) (v : Peered) : Prop :=
  (v.socket.remaining = u.socket.remaining ∧ v.socket.opcode = u.socket.opcode ∧
    v.socket.delivered = u.socket.delivered ∧
    v.socket.readBuffer.getSize + v.pending.length = total) ∨
  ∃ body : List UInt8, body.length = u.socket.remaining.toNat ∧
    u.socket.delivered ++ [⟨u.socket.opcode, body⟩] <+: v.socket.delivered

theorem Awaits.step {total : Nat} (hkeeps : Keeps handle) (hne : u.socket.remaining ≠ 0)
    (hv : Waits v) (h : Awaits u total v) (hstep : v.step handle op = some w) :
    Awaits u (total + op.arrived) w := by
  rcases h with ⟨hrem, hopcode, hdelivered, htotal⟩ | ⟨body, hbody, hprefix⟩
  · cases op with
    | arrive bytes =>
      cases hstep
      refine Or.inl ⟨hrem, hopcode, hdelivered, ?_⟩
      dsimp only [PeerOp.arrived]
      rw [List.length_append]
      omega
    | receive n =>
      obtain ⟨-, rfl⟩ := step_receive hstep
      obtain ⟨hresult, hle⟩ := receive_any hv.regions (v.pending.take n)
      have hle' : (v.socket.readCallback (v.pending.take n)).1 ≤ v.pending.length :=
        hle.trans (by rw [List.length_take]; exact Nat.min_le_right _ _)
      rcases hresult with ⟨-, -, hd, -, hsize, hr, ho, hzero⟩ | ⟨-, hd, -, hsize, hr, ho, -⟩
      · refine Or.inl ⟨hr.trans hrem, ho.trans hopcode, hd.trans hdelivered, ?_⟩
        dsimp only [PeerOp.arrived]
        rw [hsize, hzero, List.drop_zero]
        omega
      · refine Or.inl ⟨hr.trans hrem, ho.trans hopcode, hd.trans hdelivered, ?_⟩
        dsimp only [PeerOp.arrived]
        rw [hsize, List.length_drop]
        omega
    | turn =>
      obtain ⟨-, rfl⟩ := step_turn hstep
      have hne' : v.socket.remaining ≠ 0 := by rwa [hrem]
      rcases turn_any hkeeps hv.regions with
        ⟨-, hd, -, -, -, -, hsame⟩ | ⟨p, -, hd, -, -, hpacket⟩
      · obtain ⟨hr, ho, hsize⟩ := hsame hne'
        refine Or.inl ⟨hr.trans hrem, ho.trans hopcode, hd.trans hdelivered, ?_⟩
        dsimp only [PeerOp.arrived]
        rw [hsize]
        omega
      · obtain ⟨ho, hlength⟩ := hpacket hne'
        refine Or.inr ⟨p.contents, by rw [hlength, hrem], ?_⟩
        rw [hd, hdelivered, ← hopcode, ← ho]
  · refine Or.inr ⟨body, hbody, hprefix.trans ?_⟩
    cases op with
    | arrive bytes =>
      cases hstep
      exact List.prefix_rfl
    | receive n =>
      obtain ⟨-, rfl⟩ := step_receive hstep
      rcases (receive_any hv.regions (v.pending.take n)).1 with
        ⟨-, -, hd, -, -, -, -, -⟩ | ⟨-, hd, -, -, -, -, -⟩
      · rw [hd]
      · rw [hd]
    | turn =>
      obtain ⟨-, rfl⟩ := step_turn hstep
      rcases turn_any hkeeps hv.regions with ⟨-, hd, -, -, -, -, -⟩ | ⟨p, -, hd, -, -, -⟩
      · rw [hd]
      · rw [hd]
        exact List.prefix_append _ _

/-- What a peer cannot do to an end: make it wait for bytes that it has. -/
structure NeverStuck (handle : LogonCommSocket → WorldPacket → LogonCommSocket) (u : Peered) :
    Prop where
  /-- once the peer has sent a whole frame, of whatever length, and the end
  has come to rest, the frame was handed on or the link is closed -/
  handedOn : u.socket.reading = false → u.socket.remaining ≠ 0 →
    ∀ ops v, Run (PartialStep (step handle)) u ops v →
      u.socket.remaining.toNat ≤
        u.socket.readBuffer.getSize + u.pending.length + PeerOp.arrivedAll ops →
      AtRest v → v.socket.connected = false ∨
        ∃ body : List UInt8, body.length = u.socket.remaining.toNat ∧
          u.socket.delivered ++ [⟨u.socket.opcode, body⟩] <+: v.socket.delivered
  /-- until it has come to rest there is a step to take -/
  goesOn : ¬ AtRest u → ∃ op w, op.Own ∧ u.step handle op = some w
  /-- and each of its own steps closes the link or leaves less to do -/
  comesToRest : ∀ op w, op.Own → u.step handle op = some w →
    w.socket.connected = false ∨ w.work < u.work

/-- By induction on the run, with the frame that is waited for. -/
theorem awaits_run {total : Nat} (hkeeps : Keeps handle) (hne : u.socket.remaining ≠ 0)
    (hrun : Run (PartialStep (step handle)) v ops w) (hv : Waits v) (h : Awaits u total v) :
    Waits w ∧ Awaits u (total + PeerOp.arrivedAll ops) w := by
  induction hrun generalizing total with
  | nil v => exact ⟨hv, h⟩
  | cons hstep _ ih =>
    have hnext := ih (hv.step hkeeps hstep) (h.step hkeeps hne hv hstep)
    rw [Nat.add_assoc] at hnext
    exact hnext

theorem Waits.neverStuck (hkeeps : Keeps handle) (h : Waits u) : NeverStuck handle u := by
  refine ⟨?_, ?_, ?_⟩
  · intro _ hne ops v hrun hall hrest
    obtain ⟨hv, hawaits⟩ := awaits_run hkeeps hne hrun h (Or.inl ⟨rfl, rfl, rfl, rfl⟩)
    rcases hawaits with ⟨hrem, -, -, htotal⟩ | hdelivered
    · -- all of the frame is there, and the end would not wait for it
      left
      cases hconn : v.socket.connected with
      | false => rfl
      | true =>
        have hsettled := hv.settled hrest.1
        rw [hrest.2 hconn, List.length_nil] at htotal
        rw [need, hrem, if_neg hne] at hsettled
        omega
    · exact Or.inr hdelivered
  · intro hbusy
    cases hreading : u.socket.reading with
    | true =>
      refine ⟨.turn, { u with socket := u.socket.onReadTurn handle }, trivial, ?_⟩
      exact if_neg (by simp [hreading])
    | false =>
      have hopen : u.socket.connected = true := by
        cases hconn : u.socket.connected with
        | true => rfl
        | false =>
          refine absurd ⟨hreading, fun htrue => ?_⟩ hbusy
          exact absurd (hconn.symm.trans htrue) (by decide)
      exact ⟨.receive u.pending.length, _, trivial, if_neg (by simp [hreading, hopen])⟩
  · intro op w hown hstep
    cases op with
    | arrive bytes => exact hown.elim
    | receive n =>
      obtain ⟨hidle, rfl⟩ := step_receive hstep
      obtain ⟨hresult, hle⟩ := receive_any h.regions (u.pending.take n)
      have hle' : (u.socket.readCallback (u.pending.take n)).1 ≤ u.pending.length :=
        hle.trans (by rw [List.length_take]; exact Nat.min_le_right _ _)
      rcases hresult with ⟨hclosed, -, -, -, -, -, -, -⟩ | ⟨hreading, -, -, hsize, -, -, hpos⟩
      · exact Or.inl hclosed
      · right
        unfold work
        rw [hsize, hreading, hidle, List.length_drop, if_pos rfl, if_neg (by decide)]
        omega
    | turn =>
      obtain ⟨hreading, rfl⟩ := step_turn hstep
      right
      unfold work
      dsimp only
      rcases turn_any hkeeps h.regions with ⟨hr, -, -, hsize, -, -, -⟩ | ⟨p, hr, -, -, hsize, -⟩
      · rw [hr, hreading, if_neg (by decide), if_pos rfl]
        omega
      · rw [hr]
        omega

/-- Every run of an end whose peer may send anything. -/
theorem neverStuck_run (hkeeps : Keeps handle) (hrun : Run (PartialStep (step handle)) u ops v)
    (h : Waits u) : NeverStuck handle v :=
  (hrun.invariant Waits (fun _ _ _ hi hs => hi.step hkeeps hs) h).neverStuck hkeeps

end Peered

end HearthStone
