/-
HearthStone.Logon.PatchTransfer — what a patch transfer sends.

A client's write buffer has 32768 bytes and a job writes only when it is
empty, so the header and the chunk are taken both. `UpdateJobs` steps its
iterator a second time when a job stays in the list, so a pass updates
every job only if every one of them sends its last chunk in it.

* `Streaming`, `streaming_update` — what a job has sent is a sequence of
  frames, and one `Update` adds one frame or nothing.
* `Wired` — the list of jobs and the `m_patchJob` of the clients agree;
  `Wired.keep`, `Wired.finish`, `Wired.begin` and `Wired.disconnect` are
  its steps.
* `patch_transfer` — what holds in every state of a run in which a client
  asks for a patch while it has none under way.
-/
import HearthStone.Logon.AutoPatcher
import HearthStone.Network.SendBuffer

namespace HearthStone.AutoPatcher

open Lib

/-! ## The write buffer of a client -/

/-- A buffer in order, with the size that `AuthSocket` gives it. -/
structure Sound (c : CircularBuffer) : Prop where
  regions : c.Regions
  size : c.bufferEnd = c.buffer + 32768

theorem write_block (c : CircularBuffer) (data : List UInt8) :
    (c.write data).2.buffer = c.buffer ∧ (c.write data).2.bufferEnd = c.bufferEnd := by
  unfold CircularBuffer.write
  dsimp only
  split_ifs <;> exact ⟨rfl, rfl⟩

theorem remove_block (c : CircularBuffer) (n : Nat) :
    (c.remove n).buffer = c.buffer ∧ (c.remove n).bufferEnd = c.bufferEnd := by
  unfold CircularBuffer.remove CircularBuffer.moveBToA
  split_ifs <;> exact ⟨rfl, rfl⟩

variable {buffer : CircularBuffer} {data : List UInt8}

theorem Sound.write (h : Sound buffer) (data : List UInt8) : Sound (buffer.write data).2 := by
  obtain ⟨hstart, hend⟩ := write_block buffer data
  exact ⟨(h.regions.write data).1, by rw [hstart, hend, h.size]⟩

theorem Sound.remove (h : Sound buffer) (n : Nat) : Sound (buffer.remove n) := by
  obtain ⟨hstart, hend⟩ := remove_block buffer n
  exact ⟨(h.regions.remove n).1, by rw [hstart, hend, h.size]⟩

theorem sound_new (connected : Bool) (mem : Nat → UInt8) (block : { b : Nat // b ≠ 0 }) :
    Sound (AuthSocket.new connected mem block).writeBuffer := by
  refine ⟨?_, rfl⟩
  exact ((CircularBuffer.regions_new mem).allocate rfl (fun h => absurd h block.2)).1

/-- An empty buffer announces all of its block. -/
theorem Sound.getSpace_empty (h : Sound buffer) (hempty : buffer.getSize = 0) :
    buffer.getSpace.1 = 32768 := by
  obtain ⟨hA, -⟩ := Nat.add_eq_zero_iff.1 hempty
  obtain ⟨hptr, hB⟩ := h.regions.empty hA
  have hfree : buffer.getAFreeSpace = 32768 := by
    have hsize := h.size
    unfold CircularBuffer.getAFreeSpace
    omega
  have hbefore : buffer.getSpaceBeforeA = 0 := by
    unfold CircularBuffer.getSpaceBeforeA
    omega
  rw [CircularBuffer.getSpace_of_not_lt hB (by omega), hfree]

/-! ## One job -/

/-- `(0x31, length, data)`. -/
def frame (chunk : List UInt8) : List UInt8 := 0x31 :: leBytes 2 chunk.length ++ chunk

namespace PatchJob

variable (j : PatchJob)

/-- The bytes sent are these chunks, each in a frame. -/
def Framed (chunks : List (List UInt8)) : Prop :=
  (∀ chunk ∈ chunks, 1 ≤ chunk.length ∧ chunk.length ≤ 1500) ∧ j.sent = chunks.flatMap frame

/-- The chunks sent are a first part of the file from the requested
offset. -/
def SendsPrefix : Prop :=
  ∃ chunks, j.Framed chunks ∧ chunks.flatten <+: j.patchToSend.data.drop j.requested

/-- The chunks sent are the file from the requested offset. -/
def SendsAll : Prop :=
  ∃ chunks, j.Framed chunks ∧ chunks.flatten = j.patchToSend.data.drop j.requested

/-- The next update is the last: there is nothing in the write buffer and
at most one chunk is left. -/
def Finishing (buffer : CircularBuffer) : Prop := buffer.getSize = 0 ∧ j.bytesLeft ≤ 1500

/-- What every update keeps. -/
structure Streaming : Prop where
  chunks : ∃ chunks, j.Framed chunks ∧
    chunks.flatten ++ j.patchToSend.data.drop j.dataPointer = j.patchToSend.data.drop j.requested
  left : j.dataPointer + j.bytesLeft = j.patchToSend.fileSize

/-- The job after an update that sent a chunk. -/
def next : PatchJob := (j.put (j.header ++ j.chunk)).advance

@[simp] theorem next_id : j.next.id = j.id := rfl
@[simp] theorem next_client : j.next.client = j.client := rfl
@[simp] theorem next_patchToSend : j.next.patchToSend = j.patchToSend := rfl
@[simp] theorem next_requested : j.next.requested = j.requested := rfl
@[simp] theorem next_sent : j.next.sent = j.sent ++ (j.header ++ j.chunk) := rfl
@[simp] theorem next_dataPointer : j.next.dataPointer = j.dataPointer + j.chunkSize := rfl
@[simp] theorem next_bytesLeft : j.next.bytesLeft = j.bytesLeft - j.chunkSize := rfl

end PatchJob

variable {j : PatchJob}

theorem PatchJob.Streaming.sendsPrefix (h : j.Streaming) : j.SendsPrefix := by
  obtain ⟨chunks, hframed, hdata⟩ := h.chunks
  exact ⟨chunks, hframed, hdata ▸ List.prefix_append _ _⟩

theorem PatchJob.Streaming.sendsAll (h : j.Streaming) (hleft : j.bytesLeft = 0) :
    j.SendsAll := by
  obtain ⟨chunks, hframed, hdata⟩ := h.chunks
  have hend : j.patchToSend.data.length ≤ j.dataPointer := by
    have := h.left
    unfold Patch.fileSize at this
    omega
  rw [List.drop_of_length_le hend, List.append_nil] at hdata
  exact ⟨chunks, hframed, hdata⟩

theorem streaming_new {id c skip : Nat} {p : Patch} (h : skip ≤ p.fileSize) :
    (PatchJob.new id p c skip skip).Streaming := by
  refine ⟨⟨[], ⟨by simp, rfl⟩, by simp [PatchJob.new]⟩, ?_⟩
  simp only [PatchJob.new]
  omega

theorem chunkSize_le (j : PatchJob) : j.chunkSize ≤ 1500 ∧ j.chunkSize ≤ j.bytesLeft := by
  unfold PatchJob.chunkSize
  split_ifs <;> omega

theorem chunkSize_pos (h : 0 < j.bytesLeft) : 0 < j.chunkSize := by
  unfold PatchJob.chunkSize
  split_ifs <;> omega

theorem length_chunk (h : j.Streaming) : j.chunk.length = j.chunkSize := by
  have hleft := h.left
  have hsize := (chunkSize_le j).2
  unfold Patch.fileSize at hleft
  unfold PatchJob.chunk
  rw [List.length_take, List.length_drop]
  omega

@[simp] theorem length_header (j : PatchJob) : j.header.length = 3 := by
  simp [PatchJob.header]

/-- Sending a chunk adds one frame. -/
theorem streaming_next (h : j.Streaming) (hpos : 0 < j.bytesLeft) : j.next.Streaming := by
  obtain ⟨chunks, ⟨hsizes, hsent⟩, hdata⟩ := h.chunks
  have hlength := length_chunk h
  have hsize := chunkSize_le j
  have hsize' := chunkSize_pos hpos
  constructor
  · refine ⟨chunks ++ [j.chunk], ⟨?_, ?_⟩, ?_⟩
    · intro chunk hmem
      rcases List.mem_append.1 hmem with hold | hnew
      · exact hsizes chunk hold
      · rw [List.mem_singleton.1 hnew]
        omega
    · simp [hsent, frame, hlength, PatchJob.header]
    · have hsplit : j.chunk ++ j.patchToSend.data.drop (j.dataPointer + j.chunkSize) =
          j.patchToSend.data.drop j.dataPointer := by
        unfold PatchJob.chunk
        rw [← List.drop_drop, List.take_append_drop]
      simp only [PatchJob.next_patchToSend, PatchJob.next_dataPointer, PatchJob.next_requested,
        List.flatten_append, List.flatten_singleton, List.append_assoc]
      rw [hsplit, hdata]
  · have hleft := h.left
    simp only [PatchJob.next_patchToSend, PatchJob.next_dataPointer, PatchJob.next_bytesLeft]
    omega

/-- While the write buffer holds bytes nothing happens. -/
theorem update_busy (hbusy : buffer.getSize ≠ 0) : j.update buffer = (true, j, buffer) := by
  unfold PatchJob.update
  rw [if_pos hbusy]

/-- Into an empty write buffer go the header and the chunk. -/
theorem update_idle (hbuffer : Sound buffer) (hempty : buffer.getSize = 0) (h : j.Streaming) :
    ∃ buffer', j.update buffer = (decide (j.next.bytesLeft > 0), j.next, buffer') ∧
      Sound buffer' := by
  have hspace := hbuffer.getSpace_empty hempty
  have hfits : j.header.length ≤ buffer.getSpace.1 := by simp [hspace]
  obtain ⟨hheader, hrest⟩ := hbuffer.regions.write_fits hfits
  have hwritten := hbuffer.write j.header
  rw [hspace, length_header] at hrest
  have hroom : j.chunk.length ≤ (buffer.write j.header).2.getSpace.1 := by
    have hlength := length_chunk h
    have hsize := (chunkSize_le j).1
    omega
  have hchunk := (hwritten.regions.write_fits hroom).1
  refine ⟨((buffer.write j.header).2.write j.chunk).2, ?_, hwritten.write _⟩
  unfold PatchJob.update
  rw [if_neg (by simpa using hempty)]
  generalize hw : buffer.write j.header = w at hheader hchunk ⊢
  obtain ⟨ok, buffer₁⟩ := w
  subst hheader
  dsimp only
  generalize hw' : buffer₁.write j.chunk = w' at hchunk ⊢
  obtain ⟨ok', buffer₂⟩ := w'
  subst hchunk
  rfl

/-- What an update of a job that has bytes left can do. -/
theorem update_cases (hbuffer : Sound buffer) (h : j.Streaming) (hpos : 0 < j.bytesLeft) :
    (¬ j.Finishing buffer ∧ ∃ j' buffer', j.update buffer = (true, j', buffer') ∧
      Sound buffer' ∧ j'.Streaming ∧ 0 < j'.bytesLeft ∧ j'.id = j.id ∧ j'.client = j.client) ∨
    (j.Finishing buffer ∧ ∃ j' buffer', j.update buffer = (false, j', buffer') ∧
      Sound buffer' ∧ j'.SendsAll) := by
  by_cases hempty : buffer.getSize = 0
  · obtain ⟨buffer', hupdate, hsound⟩ := update_idle hbuffer hempty h
    have hnext := streaming_next h hpos
    by_cases hlast : j.bytesLeft ≤ 1500
    · right
      have hsize : j.chunkSize = j.bytesLeft := if_neg (by omega)
      have hleft : j.next.bytesLeft = 0 := by
        rw [PatchJob.next_bytesLeft]
        omega
      refine ⟨⟨hempty, hlast⟩, j.next, buffer', ?_, hsound, hnext.sendsAll hleft⟩
      rw [hupdate, hleft]
      rfl
    · left
      have hsize : j.chunkSize = 1500 := if_pos (by omega)
      have hleft : 0 < j.next.bytesLeft := by
        rw [PatchJob.next_bytesLeft]
        omega
      refine ⟨fun hfin => hlast hfin.2, j.next, buffer', ?_, hsound, hnext, hleft, rfl, rfl⟩
      rw [hupdate, decide_eq_true hleft]
  · left
    exact ⟨fun hfin => hempty hfin.1, j, buffer, update_busy hempty, hbuffer, h, hpos, rfl, rfl⟩

/-! ## The list of jobs and the clients -/

/-- The jobs listed are the jobs of the connected clients. -/
structure Wired (client : Nat → AuthSocket) (jobs : List PatchJob) (next : Nat) : Prop where
  linked : ∀ j ∈ jobs, (client j.client).connected = true ∧ (client j.client).patchJob = some j.id
  listed : ∀ c job, (client c).patchJob = some job → ∃ j ∈ jobs, j.id = job ∧ j.client = c
  ids : (jobs.map PatchJob.id).Nodup
  fresh : ∀ j ∈ jobs, j.id < next
  streaming : ∀ j ∈ jobs, j.Streaming ∧ 0 < j.bytesLeft
  buffers : ∀ c, Sound (client c).writeBuffer

variable {client : Nat → AuthSocket} {jobs l₁ l₂ : List PatchJob} {next : Nat} {j' : PatchJob}
  {c : Nat} {s : AuthSocket}

/-- Each client has one job at most. -/
theorem Wired.clients (h : Wired client jobs next) : (jobs.map PatchJob.client).Nodup := by
  refine List.Nodup.map_on ?_ h.ids.of_map
  intro j hj k hk hclient
  have hid : some j.id = some k.id := by
    rw [← (h.linked j hj).2, ← (h.linked k hk).2, hclient]
  exact List.inj_on_of_nodup_map h.ids hj hk (Option.some.inj hid)

/-- A change to a client's write buffer or patch. -/
theorem Wired.setClient (h : Wired client jobs next) (hconnected : s.connected = (client c).connected)
    (hjob : s.patchJob = (client c).patchJob) (hbuffer : Sound s.writeBuffer) :
    Wired (Function.update client c s) jobs next where
  linked := by
    intro j hj
    obtain ⟨hconn, hid⟩ := h.linked j hj
    by_cases hc : j.client = c
    · subst hc
      simp [hconnected, hjob, hconn, hid]
    · simp [hc, hconn, hid]
  listed := by
    intro d job hd
    by_cases hc : d = c
    · subst hc
      rw [Function.update_self, hjob] at hd
      exact h.listed d job hd
    · rw [Function.update_of_ne hc] at hd
      exact h.listed d job hd
  ids := h.ids
  fresh := h.fresh
  streaming := h.streaming
  buffers := by
    intro d
    by_cases hc : d = c
    · subst hc
      simpa using hbuffer
    · simpa [hc] using h.buffers d

/-- An update of a job that stays. -/
theorem Wired.replace (h : Wired client (l₁ ++ j :: l₂) next) (hid : j'.id = j.id)
    (hclient : j'.client = j.client) (hstreaming : j'.Streaming) (hpos : 0 < j'.bytesLeft) :
    Wired client (l₁ ++ j' :: l₂) next where
  linked := by
    have hj := h.linked j (by simp)
    intro k hk
    simp only [List.mem_append, List.mem_cons] at hk
    rcases hk with hk | rfl | hk
    · exact h.linked k (by simp [hk])
    · rw [hid, hclient]
      exact hj
    · exact h.linked k (by simp [hk])
  listed := by
    intro d job hd
    obtain ⟨k, hk, hkid, hkclient⟩ := h.listed d job hd
    simp only [List.mem_append, List.mem_cons] at hk
    rcases hk with hk | rfl | hk
    · exact ⟨k, by simp [hk], hkid, hkclient⟩
    · exact ⟨j', by simp, hid.trans hkid, hclient.trans hkclient⟩
    · exact ⟨k, by simp [hk], hkid, hkclient⟩
  ids := by simpa [hid] using h.ids
  fresh := by
    have hj := h.fresh j (by simp)
    intro k hk
    simp only [List.mem_append, List.mem_cons] at hk
    rcases hk with hk | rfl | hk
    · exact h.fresh k (by simp [hk])
    · rw [hid]
      exact hj
    · exact h.fresh k (by simp [hk])
  streaming := by
    intro k hk
    simp only [List.mem_append, List.mem_cons] at hk
    rcases hk with hk | rfl | hk
    · exact h.streaming k (by simp [hk])
    · exact ⟨hstreaming, hpos⟩
    · exact h.streaming k (by simp [hk])
  buffers := h.buffers

/-- Another job in the list has another pointer. -/
theorem Wired.other_id (h : Wired client (l₁ ++ j :: l₂) next) {k : PatchJob}
    (hk : k ∈ l₁ ++ l₂) : k.id ≠ j.id := by
  have hids := h.ids
  rw [List.map_append, List.map_cons, List.nodup_middle, List.nodup_cons] at hids
  intro heq
  apply hids.1
  rw [← heq, ← List.map_append]
  exact List.mem_map_of_mem hk

theorem Wired.other_client (h : Wired client (l₁ ++ j :: l₂) next) {k : PatchJob}
    (hk : k ∈ l₁ ++ l₂) : k.client ≠ j.client := by
  intro heq
  have hkmem : k ∈ l₁ ++ j :: l₂ := by
    rcases List.mem_append.1 hk with hk | hk <;> simp [hk]
  have hid : some k.id = some j.id := by
    rw [← (h.linked k hkmem).2, ← (h.linked j (by simp)).2, heq]
  exact h.other_id hk (Option.some.inj hid)

/-- A job is deleted and its client forgets it. -/
theorem Wired.erase (h : Wired client (l₁ ++ j :: l₂) next) (hjob : s.patchJob = none)
    (hbuffer : Sound s.writeBuffer) :
    Wired (Function.update client j.client s) (l₁ ++ l₂) next where
  linked := by
    intro k hk
    have hother := h.other_client hk
    rw [Function.update_of_ne hother]
    refine h.linked k ?_
    rcases List.mem_append.1 hk with hk | hk <;> simp [hk]
  listed := by
    intro d job hd
    by_cases hc : d = j.client
    · subst hc
      simp [hjob] at hd
    · rw [Function.update_of_ne hc] at hd
      obtain ⟨k, hk, hkid, hkclient⟩ := h.listed d job hd
      simp only [List.mem_append, List.mem_cons] at hk
      rcases hk with hk | rfl | hk
      · exact ⟨k, by simp [hk], hkid, hkclient⟩
      · exact absurd hkclient.symm hc
      · exact ⟨k, by simp [hk], hkid, hkclient⟩
  ids := by
    have hids := h.ids
    rw [List.map_append, List.map_cons, List.nodup_middle, List.nodup_cons,
      ← List.map_append] at hids
    exact hids.2
  fresh := by
    intro k hk
    refine h.fresh k ?_
    rcases List.mem_append.1 hk with hk | hk <;> simp [hk]
  streaming := by
    intro k hk
    refine h.streaming k ?_
    rcases List.mem_append.1 hk with hk | hk <;> simp [hk]
  buffers := by
    intro d
    by_cases hc : d = j.client
    · subst hc
      simpa using hbuffer
    · simpa [hc] using h.buffers d

/-- `BeginPatchJob` for a client without a job. -/
theorem Wired.begin (h : Wired client jobs next) (hnone : (client c).patchJob = none)
    (hconnected : (client c).connected = true) (hid : j.id = next) (hclient : j.client = c)
    (hstreaming : j.Streaming) (hpos : 0 < j.bytesLeft) :
    Wired (Function.update client c { client c with patchJob := some next }) (jobs ++ [j])
      (next + 1) where
  linked := by
    intro k hk
    rcases List.mem_append.1 hk with hold | hnew
    · have hlinked := h.linked k hold
      have hother : k.client ≠ c := by
        intro heq
        rw [heq, hnone] at hlinked
        cases hlinked.2
      rw [Function.update_of_ne hother]
      exact hlinked
    · rw [List.mem_singleton.1 hnew, hclient, Function.update_self, hid]
      exact ⟨hconnected, rfl⟩
  listed := by
    intro d job hd
    by_cases hc : d = c
    · subst hc
      rw [Function.update_self] at hd
      exact ⟨j, by simp, hid.trans (Option.some.inj hd), hclient⟩
    · rw [Function.update_of_ne hc] at hd
      obtain ⟨k, hk, hrest⟩ := h.listed d job hd
      exact ⟨k, by simp [hk], hrest⟩
  ids := by
    rw [List.map_append, List.map_singleton, List.nodup_append]
    refine ⟨h.ids, List.nodup_singleton _, ?_⟩
    intro a ha b hb
    obtain ⟨k, hk, rfl⟩ := List.mem_map.1 ha
    rw [List.mem_singleton.1 hb, hid]
    exact Nat.ne_of_lt (h.fresh k hk)
  fresh := by
    intro k hk
    rcases List.mem_append.1 hk with hold | hnew
    · exact Nat.lt_succ_of_lt (h.fresh k hold)
    · rw [List.mem_singleton.1 hnew, hid]
      exact Nat.lt_succ_self next
  streaming := by
    intro k hk
    rcases List.mem_append.1 hk with hold | hnew
    · exact h.streaming k hold
    · rw [List.mem_singleton.1 hnew]
      exact ⟨hstreaming, hpos⟩
  buffers := by
    intro d
    by_cases hc : d = c
    · subst hc
      simpa using h.buffers d
    · simpa [hc] using h.buffers d

/-! ## One pass -/

variable {p q : Pass} {rest : List PatchJob}

/-- What a pass does at a job. -/
theorem Wired.answer (h : Wired p.client (p.kept ++ j :: rest) next) :
    (¬ j.Finishing (p.client j.client).writeBuffer ∧ (p.answer j).1 = true ∧
      Wired (p.keep j).client ((p.keep j).kept ++ rest) next) ∨
    (j.Finishing (p.client j.client).writeBuffer ∧ (p.answer j).1 = false ∧
      Wired (p.finish j).client ((p.finish j).kept ++ rest) next ∧ (p.answer j).2.1.SendsAll) := by
  obtain ⟨hstreaming, hpos⟩ := h.streaming j (by simp)
  rcases update_cases (h.buffers j.client) hstreaming hpos with
    ⟨hfin, j', buffer', hupdate, hsound, hj', hpos', hid, hclient⟩ |
    ⟨hfin, j', buffer', hupdate, hsound, hall⟩
  · left
    have hanswer : p.answer j = (true, j', buffer') := hupdate
    refine ⟨hfin, by rw [hanswer], ?_⟩
    have hset := h.setClient (s := p.buffered j) (c := j.client) rfl rfl
      (by simpa [Pass.buffered, hanswer] using hsound)
    have hreplace := hset.replace hid hclient hj' hpos'
    simpa [Pass.keep, hanswer] using hreplace
  · right
    have hanswer : p.answer j = (false, j', buffer') := hupdate
    refine ⟨hfin, by rw [hanswer], ?_, by rw [hanswer]; exact hall⟩
    exact h.erase rfl (by simpa [Pass.buffered, hanswer] using hsound)

/-- The pass keeps the list and the clients in agreement, and deletes a
job only when it has sent the file. By induction on the walk. -/
theorem walk_wired (hwalk : walk rest p = some q) (h : Wired p.client (p.kept ++ rest) next)
    (hdone : ∀ j ∈ p.finished, j.SendsAll) :
    Wired q.client q.kept next ∧ ∀ j ∈ q.finished, j.SendsAll := by
  have hfinished : ∀ (p : Pass) (j : PatchJob), (∀ k ∈ p.finished, k.SendsAll) →
      (p.answer j).2.1.SendsAll → ∀ k ∈ (p.finish j).finished, k.SendsAll := by
    intro p j hold hnew k hk
    rcases List.mem_append.1 hk with hk | hk
    · exact hold k hk
    · rw [List.mem_singleton.1 hk]
      exact hnew
  fun_induction walk rest p with
  | case1 p =>
    cases hwalk
    exact ⟨by simpa using h, hdone⟩
  | case2 j p hstays => cases hwalk
  | case3 j p hstays =>
    cases hwalk
    rcases h.answer with ⟨-, htrue, -⟩ | ⟨-, -, hwired, hall⟩
    · exact absurd htrue hstays
    · exact ⟨by simpa using hwired, hfinished p j hdone hall⟩
  | case4 j k rest p hstays ih =>
    rcases h.answer with ⟨-, -, hwired⟩ | ⟨-, hfalse, -⟩
    · exact ih hwalk (by simpa [Pass.skip] using hwired) hdone
    · simp [hfalse] at hstays
  | case5 j k rest p hstays ih =>
    rcases h.answer with ⟨-, htrue, -⟩ | ⟨-, -, hwired, hall⟩
    · exact absurd htrue hstays
    · exact ih hwalk hwired (hfinished p j hdone hall)

/-- Only jobs of the list are updated. -/
theorem walk_updated (hwalk : walk rest p = some q) :
    ∀ i ∈ q.updated, i ∈ p.updated ∨ i ∈ rest.map PatchJob.id := by
  fun_induction walk rest p with
  | case1 p =>
    cases hwalk
    exact fun i hi => Or.inl hi
  | case2 j p hstays => cases hwalk
  | case3 j p hstays =>
    cases hwalk
    simp [Pass.finish]
  | case4 j k rest p hstays ih =>
    intro i hi
    have hcases := ih hwalk i hi
    simp only [Pass.skip, Pass.keep, List.mem_append, List.mem_singleton] at hcases
    simp only [List.map_cons, List.mem_cons]
    tauto
  | case5 j k rest p hstays ih =>
    intro i hi
    have hcases := ih hwalk i hi
    simp only [Pass.finish, List.mem_append, List.mem_singleton] at hcases
    simp only [List.map_cons, List.mem_cons] at hcases ⊢
    tauto

/-- The update of one job leaves the write buffer of another alone. -/
theorem Wired.finishing_other (h : Wired p.client (p.kept ++ j :: rest) next) {k : PatchJob}
    (hk : k ∈ rest) :
    k.Finishing ((p.finish j).client k.client).writeBuffer ↔
      k.Finishing (p.client k.client).writeBuffer := by
  have hother := h.other_client (k := k) (by simp [hk])
  simp [Pass.finish, hother]

/-- A pass in which every job finishes updates each of them. -/
theorem walk_of_finishing (h : Wired p.client (p.kept ++ rest) next)
    (hall : ∀ j ∈ rest, j.Finishing (p.client j.client).writeBuffer) :
    ∃ q, walk rest p = some q ∧ q.updated = p.updated ++ rest.map PatchJob.id := by
  fun_induction walk rest p with
  | case1 p => exact ⟨p, rfl, by simp⟩
  | case2 j p hstays =>
    rcases h.answer with ⟨hfin, -, -⟩ | ⟨-, hfalse, -⟩
    · exact absurd (hall j (by simp)) hfin
    · simp [hfalse] at hstays
  | case3 j p hstays => exact ⟨_, rfl, rfl⟩
  | case4 j k rest p hstays ih =>
    rcases h.answer with ⟨hfin, -, -⟩ | ⟨-, hfalse, -⟩
    · exact absurd (hall j (by simp)) hfin
    · simp [hfalse] at hstays
  | case5 j k rest p hstays ih =>
    rcases h.answer with ⟨-, htrue, -⟩ | ⟨-, -, hwired, -⟩
    · exact absurd htrue hstays
    · have hrest : ∀ i ∈ k :: rest, i.Finishing ((p.finish j).client i.client).writeBuffer :=
        fun i hi => (h.finishing_other hi).2 (hall i (List.mem_cons_of_mem j hi))
      obtain ⟨q, hq, hupdated⟩ := ih hwired hrest
      exact ⟨q, hq, by simp [hupdated, Pass.finish]⟩

/-- A pass that updates every job finishes every job: behind one that
stays the next is stepped over. -/
theorem finishing_of_walk (hwalk : walk rest p = some q)
    (h : Wired p.client (p.kept ++ rest) next) (hnew : ∀ j ∈ rest, j.id ∉ p.updated)
    (hall : ∀ j ∈ rest, j.id ∈ q.updated) :
    ∀ j ∈ rest, j.Finishing (p.client j.client).writeBuffer := by
  have hids : (rest.map PatchJob.id).Nodup := by
    have hnodup := h.ids
    rw [List.map_append] at hnodup
    exact hnodup.of_append_right
  fun_induction walk rest p with
  | case1 p => simp
  | case2 j p hstays => cases hwalk
  | case3 j p hstays =>
    rcases h.answer with ⟨-, htrue, -⟩ | ⟨hfin, -⟩
    · exact absurd htrue hstays
    · simpa using hfin
  | case4 j k rest p hstays ih =>
    exfalso
    have hk := walk_updated hwalk k.id (hall k (by simp))
    simp only [Pass.skip, Pass.keep, List.mem_append, List.mem_singleton] at hk
    simp only [List.map_cons, List.nodup_cons, List.mem_cons, not_or] at hids
    rcases hk with (hold | hsame) | hlater
    · exact hnew k (by simp) hold
    · exact hids.1.1 hsame.symm
    · exact hids.2.1 hlater
  | case5 j k rest p hstays ih =>
    rcases h.answer with ⟨-, htrue, -⟩ | ⟨hfin, -, hwired, -⟩
    · exact absurd htrue hstays
    · rw [List.map_cons, List.nodup_cons] at hids
      have hnew' : ∀ i ∈ k :: rest, i.id ∉ (p.finish j).updated := by
        intro i hi hmem
        rcases List.mem_append.1 hmem with hold | hsame
        · exact hnew i (List.mem_cons_of_mem j hi) hold
        · apply hids.1
          rw [← List.mem_singleton.1 hsame]
          exact List.mem_map_of_mem hi
      have hrest := ih hwalk hwired hnew' (fun i hi => hall i (List.mem_cons_of_mem j hi)) hids.2
      intro i hi
      rcases List.mem_cons.1 hi with rfl | hi
      · exact hfin
      · exact (h.finishing_other hi).1 (hrest i hi)

/-! ## Runs -/

namespace PatchMgr

/-- The law of the transfers. -/
structure TransferLaw (m : PatchMgr) : Prop where
  oneJob : (m.patchJobs.map PatchJob.client).Nodup
  connected : ∀ j ∈ m.patchJobs, (m.client j.client).connected = true
  streams : ∀ j ∈ m.patchJobs ++ m.aborted, j.SendsPrefix
  complete : ∀ j ∈ m.finished, j.SendsAll

/-- A pass gives every listed job one update. -/
def EachUpdatedOnce (m : PatchMgr) : Prop :=
  ∃ m', m.updateJobs = some m' ∧ ∀ j ∈ m.patchJobs, m'.updated.count j.id = 1

theorem EachUpdatedOnce.log {m : PatchMgr} (h : m.EachUpdatedOnce) :
    ∃ log, m.updateJobs.map PatchMgr.updated = some log ∧
      ∀ i ∈ m.patchJobs.map PatchJob.id, log.count i = 1 := by
  obtain ⟨m', hpass, hcount⟩ := h
  refine ⟨m'.updated, by rw [hpass]; rfl, ?_⟩
  intro i hi
  obtain ⟨j, hj, rfl⟩ := List.mem_map.1 hi
  exact hcount j hj

/-- What a client may ask for: it has no transfer under way, the patch is
not empty, and the offset has arrived whole. -/
def MayAccept (s : AuthSocket) : Prop :=
  match s.patch with
  | none => True
  | some p => s.patchJob = none ∧ p.data ≠ []

def MayResume (s : AuthSocket) (packet : List UInt8) : Prop :=
  match s.patch with
  | none => True
  | some p => 8 ≤ packet.length ∧ (resumeOffset packet < p.fileSize → s.patchJob = none)

def Ready (m : PatchMgr) : Event → Prop
  | .accept c => (m.client c).connected = true → MayAccept (m.client c)
  | .resume c packet _ => (m.client c).connected = true → MayResume (m.client c) packet
  | _ => True

instance (s : AuthSocket) : Decidable (MayAccept s) :=
  match h : s.patch with
  | none => .isTrue (by simp [MayAccept, h])
  | some p =>
    if hp : s.patchJob = none ∧ p.data ≠ [] then .isTrue (by simpa [MayAccept, h] using hp)
    else .isFalse (by simpa [MayAccept, h] using hp)

instance (s : AuthSocket) (packet : List UInt8) : Decidable (MayResume s packet) :=
  match h : s.patch with
  | none => .isTrue (by simp [MayResume, h])
  | some p =>
    if hp : 8 ≤ packet.length ∧ (resumeOffset packet < p.fileSize → s.patchJob = none)
    then .isTrue (by simpa [MayResume, h] using hp)
    else .isFalse (by simpa [MayResume, h] using hp)

instance (m : PatchMgr) : (e : Event) → Decidable (m.Ready e)
  | .accept _ => inferInstanceAs (Decidable (_ → _))
  | .resume _ _ _ => inferInstanceAs (Decidable (_ → _))
  | .challenge .. | .cancel _ | .disconnect _ | .send .. | .written .. | .updateJobs =>
    .isTrue trivial

/-- The invariant of a run. -/
structure Sane (m : PatchMgr) : Prop where
  wired : Wired m.client m.patchJobs m.nextJob
  finished : ∀ j ∈ m.finished, j.SendsAll
  aborted : ∀ j ∈ m.aborted, j.SendsPrefix

variable {m m' : PatchMgr} {c : Nat} {s : AuthSocket}

theorem sane_start (patches : List Patch) (online : Nat → Bool) (mem : Nat → Nat → UInt8)
    (block : Nat → { b : Nat // b ≠ 0 }) : (start patches online mem block).Sane := by
  refine ⟨⟨?_, ?_, ?_, ?_, ?_, fun c => sound_new _ _ _⟩, ?_, ?_⟩ <;>
    simp [start, AuthSocket.new]

theorem Sane.transferLaw (h : m.Sane) : m.TransferLaw where
  oneJob := h.wired.clients
  connected := fun j hj => (h.wired.linked j hj).1
  streams := by
    intro j hj
    rcases List.mem_append.1 hj with hlisted | haborted
    · exact (h.wired.streaming j hlisted).1.sendsPrefix
    · exact h.aborted j haborted
  complete := h.finished

theorem Sane.setClient (h : m.Sane) (hconnected : s.connected = (m.client c).connected)
    (hjob : s.patchJob = (m.client c).patchJob) (hbuffer : Sound s.writeBuffer) :
    (m.setClient c s).Sane :=
  ⟨h.wired.setClient hconnected hjob hbuffer, h.finished, h.aborted⟩

theorem Sane.beginPatchJob (h : m.Sane) (hconnected : (m.client c).connected = true)
    (hnone : (m.client c).patchJob = none) {p : Patch} {skip : Nat} (hskip : skip < p.fileSize) :
    (m.beginPatchJob p c skip skip).Sane := by
  refine ⟨?_, h.finished, h.aborted⟩
  refine h.wired.begin hnone hconnected rfl rfl (streaming_new (Nat.le_of_lt hskip)) ?_
  change 0 < p.fileSize - skip
  omega

theorem Sane.accept (h : m.Sane) (hconnected : (m.client c).connected = true)
    (hready : MayAccept (m.client c)) : (m.handleTransferAccept c).Sane := by
  cases hp : (m.client c).patch with
  | none =>
    have heq : m.handleTransferAccept c = m := by simp [handleTransferAccept, hp]
    rw [heq]
    exact h
  | some p =>
    have heq : m.handleTransferAccept c = m.beginPatchJob p c 0 0 := by
      simp [handleTransferAccept, hp]
    obtain ⟨hnone, hdata⟩ : (m.client c).patchJob = none ∧ p.data ≠ [] := by
      simpa [MayAccept, hp] using hready
    rw [heq]
    exact h.beginPatchJob hconnected hnone (List.length_pos_iff.2 hdata)

theorem Sane.resume (h : m.Sane) (hconnected : (m.client c).connected = true)
    {packet : List UInt8} {uninitialised : BitVec 64} (hready : MayResume (m.client c) packet) :
    (m.handleTransferResume c packet uninitialised).Sane := by
  cases hp : (m.client c).patch with
  | none =>
    have heq : m.handleTransferResume c packet uninitialised = m := by
      simp [handleTransferResume, hp]
    rw [heq]
    exact h
  | some p =>
    obtain ⟨hwhole, hnone⟩ : 8 ≤ packet.length ∧
        (resumeOffset packet < p.fileSize → (m.client c).patchJob = none) := by
      simpa [MayResume, hp] using hready
    have hsize : resumeSize packet uninitialised = resumeOffset packet := if_pos hwhole
    by_cases hover : resumeOffset packet ≥ p.fileSize
    · have heq : m.handleTransferResume c packet uninitialised = m := by
        simp [handleTransferResume, hp, hsize, hover]
      rw [heq]
      exact h
    · have hlt : resumeOffset packet < p.fileSize := Nat.not_le.1 hover
      have hfits : resumeOffset packet % 2 ^ 32 = resumeOffset packet :=
        Nat.mod_eq_of_lt (Nat.lt_trans hlt p.sized)
      have heq : m.handleTransferResume c packet uninitialised =
          m.beginPatchJob p c (resumeOffset packet) (resumeOffset packet) := by
        unfold handleTransferResume
        rw [hp]
        dsimp only
        rw [hsize, hfits, if_neg hover]
      rw [heq]
      exact h.beginPatchJob hconnected (hnone hlt) hlt

/-- A client that goes takes its job along. -/
theorem Sane.disconnect (h : m.Sane) : (m.disconnect c).Sane := by
  unfold PatchMgr.disconnect
  split
  · next hnone =>
    -- no job is listed for this client
    have hother : ∀ j ∈ m.patchJobs, j.client ≠ c := by
      intro j hj heq
      have hlinked := (h.wired.linked j hj).2
      rw [heq, hnone] at hlinked
      cases hlinked
    refine ⟨⟨?_, ?_, h.wired.ids, h.wired.fresh, h.wired.streaming, ?_⟩, h.finished, h.aborted⟩
    · intro j hj
      simpa [PatchMgr.setClient, hother j hj] using h.wired.linked j hj
    · intro d job hd
      by_cases hd' : d = c
      · subst hd'
        simp [PatchMgr.setClient, hnone] at hd
      · exact h.wired.listed d job (by simpa [PatchMgr.setClient, hd'] using hd)
    · intro d
      by_cases hd' : d = c
      · subst hd'
        simpa [PatchMgr.setClient] using h.wired.buffers d
      · simpa [PatchMgr.setClient, hd'] using h.wired.buffers d
  · next job hjob =>
    obtain ⟨k, hk, hkid, hkclient⟩ := h.wired.listed c job hjob
    obtain ⟨a, l₁, l₂, -, ha, hlist, herase⟩ :=
      List.exists_of_eraseP (p := fun j : PatchJob => decide (j.id = job)) hk (by simpa using hkid)
    have hak : a = k := by
      refine List.inj_on_of_nodup_map h.wired.ids (by simp [hlist]) hk ?_
      rw [hkid]
      simpa using ha
    subst hak
    have hwired := h.wired
    rw [hlist] at hwired
    refine ⟨?_, h.finished, ?_⟩
    · have hgone := hwired.erase (s := { m.client c with connected := false, patchJob := none }) rfl
        (h.wired.buffers c)
      rw [hkclient] at hgone
      simpa [PatchMgr.setClient, PatchMgr.abortPatchJob, herase] using hgone
    · intro j hj
      rcases List.mem_append.1 hj with hold | hnew
      · exact h.aborted j hold
      · exact (h.wired.streaming j (List.mem_of_mem_filter hnew)).1.sendsPrefix

theorem Sane.updateJobs (h : m.Sane) (hpass : m.updateJobs = some m') : m'.Sane := by
  obtain ⟨q, hwalk, rfl⟩ := Option.map_eq_some_iff.1 hpass
  obtain ⟨hwired, hfinished⟩ := walk_wired hwalk (by simpa using h.wired) h.finished
  exact ⟨hwired, hfinished, h.aborted⟩

/-- The step lemma. -/
theorem Sane.step (h : m.Sane) {e : Event} (hready : m.Ready e) (hstep : m.step e = some m') :
    m'.Sane := by
  cases e with
  | challenge c version locality =>
    cases hstep
    split_ifs
    · exact h.setClient rfl rfl (h.wired.buffers c)
    · exact h
  | accept c =>
    cases hstep
    split_ifs with hconnected
    · exact h.accept hconnected (hready hconnected)
    · exact h
  | resume c packet uninitialised =>
    cases hstep
    split_ifs with hconnected
    · exact h.resume hconnected (hready hconnected)
    · exact h
  | cancel c =>
    cases hstep
    split_ifs
    · exact h.disconnect
    · exact h
  | disconnect c =>
    cases hstep
    exact h.disconnect
  | send c data =>
    cases hstep
    exact h.setClient rfl rfl ((h.wired.buffers c).write data)
  | written c bytes =>
    cases hstep
    exact h.setClient rfl rfl ((h.wired.buffers c).remove bytes)
  | updateJobs => exact h.updateJobs hstep

/-- A pass updates every job once exactly when every job finishes in it. -/
theorem Sane.eachUpdatedOnce_iff (h : m.Sane) :
    m.EachUpdatedOnce ↔ ∀ j ∈ m.patchJobs, j.Finishing (m.client j.client).writeBuffer := by
  have hwired : Wired m.client ([] ++ m.patchJobs) m.nextJob := h.wired
  constructor
  · rintro ⟨m', hpass, hcount⟩
    obtain ⟨q, hwalk, rfl⟩ := Option.map_eq_some_iff.1 hpass
    refine finishing_of_walk hwalk hwired (by simp) ?_
    intro j hj
    exact List.count_pos_iff.1 (by rw [hcount j hj]; omega)
  · intro hall
    obtain ⟨q, hwalk, hupdated⟩ := walk_of_finishing (p := ⟨m.client, [], m.finished, []⟩)
      hwired hall
    refine ⟨_, by unfold PatchMgr.updateJobs; rw [hwalk]; rfl, ?_⟩
    intro j hj
    change q.updated.count j.id = 1
    rw [hupdated]
    exact List.count_eq_one_of_mem h.wired.ids (List.mem_map_of_mem hj)

/-- Where clients ask for one transfer at a time, of a file that has bytes
and with the offset whole, the law holds in every state reached. A pass
updates every job once exactly when it ends every job. -/
theorem patch_transfer (patches : List Patch) (online : Nat → Bool) (mem : Nat → Nat → UInt8)
    (block : Nat → { b : Nat // b ≠ 0 }) (es : List Event) (m : PatchMgr)
    (hrun : Run (Guarded Ready (PartialStep step)) (start patches online mem block) es m) :
    m.TransferLaw ∧
      (m.EachUpdatedOnce ↔
        ∀ j ∈ m.patchJobs, j.Finishing (m.client j.client).writeBuffer) := by
  have hsane : m.Sane := by
    refine hrun.invariant Sane ?_ (sane_start patches online mem block)
    rintro s e t hs ⟨hready, hstep⟩
    exact hs.step hready hstep
  exact ⟨hsane.transferLaw, hsane.eachUpdatedOnce_iff⟩

/-! ## Two clients -/

/-- A patch of three bytes for `enus`. -/
def smallPatch : Patch := ⟨[7, 8, 9], 6005, [101, 110, 117, 115], by decide⟩

/-- A server with that patch, all of whose clients are connected. -/
def smallServer : PatchMgr := start [smallPatch] (fun _ => true) (fun _ _ => 0) (fun _ => ⟨1, by decide⟩)

def enUS : List UInt8 := [101, 110, 85, 83]

/-- One client takes the whole file, one resumes behind the first byte,
and a third goes away. -/
def transfers : List Event :=
  [.challenge 1 6005 enUS, .accept 1, .challenge 2 6005 enUS, .resume 2 [1, 0, 0, 0, 0, 0, 0, 0] 0,
    .updateJobs, .challenge 3 6005 enUS, .accept 3, .cancel 3, .accept 2]

theorem patch_transfer_transfers : ∃ m,
    Run (Guarded Ready (PartialStep step)) smallServer transfers m ∧ m.TransferLaw ∧
      (m.EachUpdatedOnce ↔ ∀ j ∈ m.patchJobs, j.Finishing (m.client j.client).writeBuffer) := by
  have hdef : (transfers.foldlM (fun m e => if Ready m e then step m e else none)
      smallServer).isSome = true := by decide +kernel
  obtain ⟨m, hm⟩ := Option.isSome_iff_exists.1 hdef
  have hrun := Run.of_foldlM hm
  exact ⟨m, hrun, patch_transfer [smallPatch] (fun _ => true) (fun _ _ => 0)
    (fun _ => ⟨1, by decide⟩) transfers m hrun⟩

/-- Both clients accept while the answer to their proof is still in the
write buffer. -/
def waiting : List Event :=
  [.challenge 1 6005 enUS, .send 1 [0x30], .accept 1, .challenge 2 6005 enUS, .send 2 [0x30],
    .accept 2]

/-- The pass updates the first job, which stays, and steps over the
second; a client that accepts twice has two jobs; and behind a single job
that stays the iterator leaves the list. -/
theorem pass_steps_over_job :
    (∃ m, Run (PartialStep step) smallServer waiting m ∧ ¬ m.EachUpdatedOnce) ∧
    (∃ m, Run (PartialStep step) smallServer
      [.challenge 1 6005 enUS, .accept 1, .accept 1] m ∧ ¬ m.TransferLaw) ∧
    (∃ m, Run (PartialStep step) smallServer
      [.challenge 1 6005 enUS, .send 1 [0x30], .accept 1] m ∧ m.updateJobs.isNone = true) := by
  refine ⟨?_, ?_, ?_⟩
  · refine ⟨_, .cons rfl (.cons rfl (.cons rfl (.cons rfl (.cons rfl (.cons rfl (.nil _)))))), ?_⟩
    intro h
    obtain ⟨log, hlog, hcount⟩ := h.log
    have hone := hcount 1 (by decide +kernel)
    have hfirst : some log = some [0] := hlog.symm.trans (by decide +kernel)
    rw [Option.some.inj hfirst] at hone
    exact absurd hone (by decide)
  · refine ⟨_, .cons rfl (.cons rfl (.cons rfl (.nil _))), ?_⟩
    intro h
    have hone := h.oneJob
    revert hone
    decide +kernel
  · refine ⟨_, .cons rfl (.cons rfl (.cons rfl (.nil _))), ?_⟩
    decide +kernel

end PatchMgr

end HearthStone.AutoPatcher
