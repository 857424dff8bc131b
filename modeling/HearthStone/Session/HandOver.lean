/-
HearthStone.Session.HandOver — which results reach which socket.

* `Good` — the condition on one event. A request is registered by a
  connected socket under an id that was not used before, a socket goes
  when nothing of it but the id it has stored is pending, and the result
  of a socket's latest request finds that id and the packet stored and no
  earlier result taken.
* `Inv`, `Inv.step` — what a step that meets it keeps. The hard step is a
  result (`Inv.answer`).
* `login_hand_over` — the law in every state of such a run.
-/
import HearthStone.Lib.Run
import HearthStone.Session.LogonComm

namespace HearthStone.LogonComm

open Lib

namespace LogonCommHandler

/-! ## The law -/

structure HandedOver (w : LogonCommHandler) : Prop where
  /-- `pending_logons` has connected sockets only -/
  pending : ∀ id s, w.pendingLogons id = some s → (w.socket s).connected = true
  /-- a result that was used came for the one request with its id, to the
  socket that sent it -/
  own : ∀ a ∈ w.applied, a ∈ w.requests ∧ ∀ r ∈ w.requests, r.1 = a.1 → r = a
  /-- the result of a connected socket's latest request has been used once
  if it has arrived -/
  once : ∀ s id, (w.socket s).connected = true → (w.socket s).latest = some id →
    (id, s) ∈ w.answered → w.applied.count (id, s) = 1

/-- The counter gives an id that was not used before and is neither of the
two that the socket takes for none. -/
def Fresh (w : LogonCommHandler) (id : BitVec 32) : Prop :=
  id ≠ 0 ∧ id ≠ 0xFFFFFFFF ∧ ∀ r ∈ w.requests, r.1 ≠ id

/-- Nothing of the socket is pending but this id. -/
def OnlyPending (w : LogonCommHandler) (s : Nat) (id : BitVec 32) : Prop :=
  ∀ r ∈ w.requests, w.pendingLogons r.1 = some s → r.1 = id

/-- The socket is ready for the result with this id. -/
def Expects (sock : WorldSocket) (id : BitVec 32) (error : Bool) : Prop :=
  sock.authed = false ∧ sock.requestID = id ∧ (error = true ∨ sock.packet = true)

/-- The id that the socket is about to register is fresh. -/
def FreshFor (w : LogonCommHandler) : Progress → Prop
  | .allocated id => w.Fresh id
  | _ => True

def Good (w : LogonCommHandler) : Event → Prop
  | .register s => (w.socket s).connected = true ∧ w.FreshFor (w.socket s).progress
  | .assign s => (w.socket s).progress = .refused → w.OnlyPending s 0xFFFFFFFF
  | .disconnect s => w.OnlyPending s (w.socket s).requestID
  | .result r error =>
    (w.socket r.2).connected = true → (w.socket r.2).latest = some r.1 →
      Expects (w.socket r.2) r.1 error
  | _ => True

instance (w : LogonCommHandler) : (p : Progress) → Decidable (w.FreshFor p)
  | .allocated _ => inferInstanceAs (Decidable (_ ∧ _ ∧ ∀ r ∈ w.requests, _))
  | .idle | .refused | .registered _ | .assigned => .isTrue trivial

instance (w : LogonCommHandler) (s : Nat) (id : BitVec 32) : Decidable (w.OnlyPending s id) :=
  inferInstanceAs (Decidable (∀ r ∈ w.requests, _))

instance (sock : WorldSocket) (id : BitVec 32) (error : Bool) :
    Decidable (Expects sock id error) :=
  inferInstanceAs (Decidable (_ ∧ _ ∧ _))

instance (w : LogonCommHandler) : (e : Event) → Decidable (w.Good e)
  | .register _ => inferInstanceAs (Decidable (_ ∧ _))
  | .assign _ => inferInstanceAs (Decidable (_ → _))
  | .disconnect _ => inferInstanceAs (Decidable (w.OnlyPending _ _))
  | .result _ _ => inferInstanceAs (Decidable (_ → _ → _))
  | .authSession _ | .storePacket _ | .link _ | .authenticate _ => .isTrue trivial

/-! ## The invariant -/

structure Inv (w : LogonCommHandler) : Prop where
  ids : (w.requests.map Prod.fst).Nodup
  real : ∀ r ∈ w.requests, r.1 ≠ 0 ∧ r.1 ≠ 0xFFFFFFFF
  split : w.requests.Perm (w.unanswered ++ w.answered)
  pending : ∀ id s, w.pendingLogons id = some s →
    (w.socket s).connected = true ∧ (id, s) ∈ w.requests
  waiting : ∀ r ∈ w.unanswered, (w.socket r.2).connected = true → w.pendingLogons r.1 = some r.2
  stored : ∀ s, (w.socket s).requestID ≠ 0 → ((w.socket s).requestID, s) ∈ w.requests
  begun : ∀ s id, (w.socket s).progress = .registered id → (id, s) ∈ w.requests
  latest : ∀ s id, (w.socket s).latest = some id → (id, s) ∈ w.requests
  applied : ∀ a ∈ w.applied, a ∈ w.answered
  single : w.applied.Nodup
  once : ∀ s id, (w.socket s).connected = true → (w.socket s).latest = some id →
    (id, s) ∈ w.answered → (id, s) ∈ w.applied

theorem inv_start : start.Inv := by
  constructor <;> simp [start, WorldSocket.new]

variable {w w' : LogonCommHandler} {s : Nat} {id : BitVec 32} {r : Request} {error : Bool}
  {sock : WorldSocket}

/-- An id belongs to one request. -/
theorem Inv.unique (h : w.Inv) {a b : Request} (ha : a ∈ w.requests) (hb : b ∈ w.requests)
    (hid : a.1 = b.1) : a = b :=
  List.inj_on_of_nodup_map h.ids ha hb hid

theorem Inv.nodup (h : w.Inv) : (w.unanswered ++ w.answered).Nodup :=
  h.split.nodup_iff.1 h.ids.of_map

theorem Inv.mem_requests (h : w.Inv) : r ∈ w.requests ↔ r ∈ w.unanswered ∨ r ∈ w.answered := by
  rw [h.split.mem_iff, List.mem_append]

theorem Inv.handedOver (h : w.Inv) : w.HandedOver where
  pending := fun id s hid => (h.pending id s hid).1
  own := by
    intro a ha
    have hmem : a ∈ w.requests := h.mem_requests.2 (Or.inr (h.applied a ha))
    exact ⟨hmem, fun r hr hid => h.unique hr hmem hid⟩
  once := fun s id hconnected hlatest hanswered =>
    List.count_eq_one_of_mem h.single (h.once s id hconnected hlatest hanswered)

/-- What holds of the changed socket and held of the others holds of all. -/
theorem socket_update {P : Nat → WorldSocket → Prop} (hnew : P s sock)
    (hold : ∀ t, P t (w.socket t)) : ∀ t, P t (Function.update w.socket s sock t) :=
  (Function.forall_update_iff w.socket P).2 ⟨hnew, fun t _ => hold t⟩

/-- A field that the changed socket keeps is the same in all. -/
theorem same_update {α : Type} (f : WorldSocket → α) (h : f sock = f (w.socket s)) :
    ∀ t, f (Function.update w.socket s sock t) = f (w.socket t) :=
  socket_update (P := fun t c => f c = f (w.socket t)) h fun _ => rfl

theorem Inv.stored_update (h : w.Inv) (hid : sock.requestID ≠ 0 → (sock.requestID, s) ∈ w.requests) :
    ∀ t, (Function.update w.socket s sock t).requestID ≠ 0 →
      ((Function.update w.socket s sock t).requestID, t) ∈ w.requests :=
  socket_update (P := fun t c => c.requestID ≠ 0 → (c.requestID, t) ∈ w.requests) hid h.stored

theorem Inv.begun_update (h : w.Inv)
    (hprogress : ∀ id, sock.progress = .registered id → (id, s) ∈ w.requests) :
    ∀ t id, (Function.update w.socket s sock t).progress = .registered id → (id, t) ∈ w.requests :=
  socket_update (P := fun t c => ∀ id, c.progress = .registered id → (id, t) ∈ w.requests) hprogress
    h.begun

/-- A change of a socket that touches neither its connection, its latest
request nor, except to what it may be, its two other marks. -/
theorem Inv.setSocket (h : w.Inv) (hconnected : sock.connected = (w.socket s).connected)
    (hlatest : sock.latest = (w.socket s).latest)
    (hid : sock.requestID ≠ 0 → (sock.requestID, s) ∈ w.requests)
    (hprogress : ∀ id, sock.progress = .registered id → (id, s) ∈ w.requests) :
    (w.setSocket s sock).Inv where
  ids := h.ids
  real := h.real
  split := h.split
  pending := by
    intro id t ht
    obtain ⟨hconn, hmem⟩ := h.pending id t ht
    exact ⟨(same_update WorldSocket.connected hconnected t).trans hconn, hmem⟩
  waiting := by
    intro r hr hconn
    exact h.waiting r hr ((same_update WorldSocket.connected hconnected r.2).symm.trans hconn)
  stored := h.stored_update hid
  begun := h.begun_update hprogress
  latest := by
    intro t id ht
    exact h.latest t id ((same_update WorldSocket.latest hlatest t).symm.trans ht)
  applied := h.applied
  single := h.single
  once := by
    intro t id hconn ht hanswered
    exact h.once t id ((same_update WorldSocket.connected hconnected t).symm.trans hconn)
      ((same_update WorldSocket.latest hlatest t).symm.trans ht) hanswered

/-! ## A request -/

theorem Inv.authSession (h : w.Inv) : (w.authSession s).Inv := by
  have hset : (w.setSocket s { w.socket s with
      progress := if w.linked then .allocated w.nextRequest else .refused }).Inv := by
    refine h.setSocket rfl rfl (h.stored s) ?_
    intro id hid
    split_ifs at hid
  exact ⟨hset.ids, hset.real, hset.split, hset.pending, hset.waiting, hset.stored, hset.begun,
    hset.latest, hset.applied, hset.single, hset.once⟩

/-- A new request of a connected socket is pending and not answered. -/
theorem Inv.register (h : w.Inv) (hconnected : (w.socket s).connected = true)
    (hfresh : w.Fresh id) : (w.register s id).Inv where
  ids := by
    change ((w.requests ++ [(id, s)]).map Prod.fst).Nodup
    rw [List.map_append, List.map_singleton, List.nodup_append]
    refine ⟨h.ids, List.nodup_singleton _, ?_⟩
    intro a ha b hb
    obtain ⟨r, hr, rfl⟩ := List.mem_map.1 ha
    rw [List.mem_singleton.1 hb]
    exact hfresh.2.2 r hr
  real := by
    intro r hr
    rcases List.mem_append.1 hr with hold | hnew
    · exact h.real r hold
    · rw [List.mem_singleton.1 hnew]
      exact ⟨hfresh.1, hfresh.2.1⟩
  split := by
    change (w.requests ++ [(id, s)]).Perm (w.unanswered ++ [(id, s)] ++ w.answered)
    rw [List.append_assoc]
    refine (h.split.append_right [(id, s)]).trans ?_
    rw [List.append_assoc]
    exact (List.perm_append_comm).append_left _
  pending := by
    intro i t ht
    by_cases hi : i = id
    · subst hi
      have hst : s = t := by simpa [LogonCommHandler.register] using ht
      subst hst
      simp [LogonCommHandler.register, LogonCommHandler.setSocket, hconnected]
    · have hold : w.pendingLogons i = some t := by
        simpa [LogonCommHandler.register, hi] using ht
      obtain ⟨hconn, hmem⟩ := h.pending i t hold
      refine ⟨?_, List.mem_append_left _ hmem⟩
      exact (same_update WorldSocket.connected (by rfl) t).trans hconn
  waiting := by
    intro r hr hconn
    rcases List.mem_append.1 hr with hold | hnew
    · have hne : r.1 ≠ id := hfresh.2.2 r (h.mem_requests.2 (Or.inl hold))
      have hconn' : (w.socket r.2).connected = true :=
        (same_update WorldSocket.connected (by rfl) r.2).symm.trans hconn
      simpa [LogonCommHandler.register, hne] using h.waiting r hold hconn'
    · rw [List.mem_singleton.1 hnew]
      simp [LogonCommHandler.register]
  stored := fun t ht => List.mem_append_left _ (h.stored_update (by exact h.stored s) t ht)
  begun := by
    refine socket_update (P := fun t c => ∀ i, c.progress = .registered i →
      (i, t) ∈ w.requests ++ [(id, s)]) ?_ fun t i ht => List.mem_append_left _ (h.begun t i ht)
    intro i ht
    cases ht
    exact List.mem_append_right _ (List.mem_singleton_self _)
  latest := by
    refine socket_update (P := fun t c => ∀ i, c.latest = some i →
      (i, t) ∈ w.requests ++ [(id, s)]) ?_ fun t i ht => List.mem_append_left _ (h.latest t i ht)
    intro i ht
    cases ht
    exact List.mem_append_right _ (List.mem_singleton_self _)
  applied := h.applied
  single := h.single
  once := by
    refine socket_update (P := fun t c => ∀ i, c.connected = true → c.latest = some i →
      (i, t) ∈ w.answered → (i, t) ∈ w.applied) ?_ h.once
    intro i _ ht hanswered
    cases ht
    exact absurd rfl (hfresh.2.2 _ (h.mem_requests.2 (Or.inr hanswered)))

/-! ## A disconnect -/

/-- A socket goes and takes out the only id of its that is pending. -/
theorem Inv.leave (h : w.Inv) {q : BitVec 32}
    (hq : q = 0 ∨ q = 0xFFFFFFFF ∨ (q, s) ∈ w.requests) (honly : w.OnlyPending s q)
    (hconnected : sock.connected = false) (hid : sock.requestID = 0)
    (hlatest : sock.latest = (w.socket s).latest)
    (hprogress : ∀ id, sock.progress = .registered id → (id, s) ∈ w.requests) :
    ((w.removeUnauthedSocket q).setSocket s sock).Inv where
  ids := h.ids
  real := h.real
  split := h.split
  pending := by
    intro id t ht
    have hne : id ≠ q := by
      rintro rfl
      simp [LogonCommHandler.setSocket, LogonCommHandler.removeUnauthedSocket] at ht
    have hold : w.pendingLogons id = some t := by
      simpa [LogonCommHandler.setSocket, LogonCommHandler.removeUnauthedSocket, hne] using ht
    obtain ⟨hconn, hmem⟩ := h.pending id t hold
    have hst : t ≠ s := by
      rintro rfl
      exact hne (honly (id, t) hmem hold)
    refine ⟨?_, hmem⟩
    simpa [LogonCommHandler.setSocket, LogonCommHandler.removeUnauthedSocket, hst] using hconn
  waiting := by
    intro r hr hconn
    have hst : r.2 ≠ s := by
      intro heq
      simp [LogonCommHandler.setSocket, heq, hconnected] at hconn
    have hmem : r ∈ w.requests := h.mem_requests.2 (Or.inl hr)
    have hne : r.1 ≠ q := by
      intro heq
      rcases hq with rfl | rfl | hmine
      · exact (h.real r hmem).1 heq
      · exact (h.real r hmem).2 heq
      · exact hst (congrArg Prod.snd (h.unique hmem hmine heq))
    have hold := h.waiting r hr (by simpa [LogonCommHandler.setSocket,
      LogonCommHandler.removeUnauthedSocket, hst] using hconn)
    simpa [LogonCommHandler.setSocket, LogonCommHandler.removeUnauthedSocket, hne] using hold
  stored := h.stored_update fun hne => absurd hid hne
  begun := h.begun_update hprogress
  latest := by
    intro t i ht
    exact h.latest t i ((same_update WorldSocket.latest hlatest t).symm.trans ht)
  applied := h.applied
  single := h.single
  once := by
    refine socket_update (P := fun t c => ∀ i, c.connected = true → c.latest = some i →
      (i, t) ∈ w.answered → (i, t) ∈ w.applied) ?_ h.once
    intro i hconn
    simp [hconnected] at hconn

/-- Zero is never pending. -/
theorem Inv.removeUnauthedSocket_zero (h : w.Inv) : w.removeUnauthedSocket 0 = w := by
  have hzero : w.pendingLogons 0 = none := by
    rw [Option.eq_none_iff_forall_ne_some]
    intro t ht
    exact (h.real _ (h.pending 0 t ht).2).1 rfl
  unfold LogonCommHandler.removeUnauthedSocket
  rw [← hzero, Function.update_eq_self]

theorem Inv.onDisconnect (h : w.Inv) (honly : w.OnlyPending s (w.socket s).requestID) :
    (w.onDisconnect s).Inv := by
  unfold LogonCommHandler.onDisconnect
  split_ifs with hzero
  · refine h.leave (Or.inr (Or.inr (h.stored s hzero))) honly rfl rfl rfl ?_
    exact fun id hid => h.begun s id hid
  · have hzero' : (w.socket s).requestID = 0 := by simpa using hzero
    rw [hzero'] at honly
    have hleft : ((w.removeUnauthedSocket 0).setSocket s
        { w.socket s with connected := false }).Inv :=
      h.leave (Or.inl rfl) honly rfl hzero' rfl (fun id hid => h.begun s id hid)
    rwa [h.removeUnauthedSocket_zero] at hleft

theorem Inv.assign_refused (h : w.Inv) (honly : w.OnlyPending s 0xFFFFFFFF) :
    (w.assign s 0xFFFFFFFF).Inv := by
  have heq : w.assign s 0xFFFFFFFF = (w.removeUnauthedSocket 0xFFFFFFFF).setSocket s
      { w.socket s with requestID := 0, progress := .idle, connected := false } := by
    simp [LogonCommHandler.assign, LogonCommHandler.onDisconnect, LogonCommHandler.setSocket,
      LogonCommHandler.removeUnauthedSocket]
  rw [heq]
  exact h.leave (Or.inr (Or.inl rfl)) honly rfl rfl rfl (fun id hid => by cases hid)

theorem Inv.assign (h : w.Inv) (hbegun : (w.socket s).progress = .registered id) :
    (w.assign s id).Inv := by
  have hmem := h.begun s id hbegun
  unfold LogonCommHandler.assign
  rw [if_neg (h.real _ hmem).2]
  exact h.setSocket rfl rfl (fun _ => hmem) (fun i hi => by cases hi)

/-! ## A result -/

/-- The state after a result: which entry is left, what the socket is like
and whether it has used the result. -/
def afterResult (w : LogonCommHandler) (r : Request) (pend : BitVec 32 → Option Nat)
    (sock : WorldSocket) (used : List Request) : LogonCommHandler :=
  { w with unanswered := w.unanswered.erase r, answered := w.answered ++ [r]
           pendingLogons := pend, socket := Function.update w.socket r.2 sock, applied := used }

/-- What a result may change, and that the latest request's result is used
if the socket is connected. -/
theorem Inv.answer (h : w.Inv) (hr : r ∈ w.unanswered) {pend : BitVec 32 → Option Nat}
    {used : List Request}
    (hpend : pend = w.pendingLogons ∨ pend = Function.update w.pendingLogons r.1 none)
    (hconnected : sock.connected = (w.socket r.2).connected)
    (hlatest : sock.latest = (w.socket r.2).latest)
    (hprogress : sock.progress = (w.socket r.2).progress)
    (hid : sock.requestID = (w.socket r.2).requestID ∨ sock.requestID = 0)
    (hused : used = w.applied ∨ used = w.applied ++ [r])
    (honce : (w.socket r.2).connected = true → (w.socket r.2).latest = some r.1 → r ∈ used) :
    (w.afterResult r pend sock used).Inv := by
  have hnodup := h.nodup
  have hnew : r ∉ w.answered :=
    fun hans => (List.nodup_append.1 hnodup).2.2 r hr r hans rfl
  have hkeeps : ∀ a ∈ w.applied, a ∈ used := by
    intro a ha
    rcases hused with rfl | rfl
    · exact ha
    · exact List.mem_append_left _ ha
  have hconns := same_update WorldSocket.connected hconnected
  have hlatests := same_update WorldSocket.latest hlatest
  refine ⟨h.ids, h.real, ?_, ?_, ?_, ?_, ?_, ?_, ?_, ?_, ?_⟩
  · have hmove : (w.unanswered ++ w.answered).Perm (w.unanswered.erase r ++ (w.answered ++ [r])) := by
      refine ((List.perm_cons_erase hr).append_right _).trans ?_
      rw [List.cons_append, ← List.append_assoc]
      exact (List.perm_append_singleton r _).symm
    exact h.split.trans hmove
  · intro id t ht
    have hold : w.pendingLogons id = some t := by
      rcases hpend with rfl | rfl
      · exact ht
      · by_cases hi : id = r.1
        · simp [afterResult, hi] at ht
        · simpa [afterResult, hi] using ht
    obtain ⟨hconn, hmem⟩ := h.pending id t hold
    exact ⟨(hconns t).trans hconn, hmem⟩
  · intro a ha hconn
    have hold : a ∈ w.unanswered := List.mem_of_mem_erase ha
    have hne : a ≠ r := by
      rintro rfl
      exact ((List.nodup_append.1 hnodup).1.not_mem_erase) ha
    have hpending := h.waiting a hold ((hconns a.2).symm.trans hconn)
    rcases hpend with rfl | rfl
    · exact hpending
    · have hid' : a.1 ≠ r.1 := fun heq =>
        hne (h.unique (h.mem_requests.2 (Or.inl hold)) (h.mem_requests.2 (Or.inl hr)) heq)
      simpa [afterResult, hid'] using hpending
  · refine h.stored_update fun hne => ?_
    rcases hid with hsame | hzero
    · rw [hsame] at hne ⊢
      exact h.stored r.2 hne
    · exact absurd hzero hne
  · exact h.begun_update fun i hi => h.begun r.2 i (hprogress.symm.trans hi)
  · exact fun t i ht => h.latest t i ((hlatests t).symm.trans ht)
  · intro a ha
    rcases hused with rfl | rfl
    · exact List.mem_append_left _ (h.applied a ha)
    · rcases List.mem_append.1 ha with hold | hlast
      · exact List.mem_append_left _ (h.applied a hold)
      · exact List.mem_append_right _ hlast
  · rcases hused with rfl | rfl
    · exact h.single
    · refine List.nodup_append.2 ⟨h.single, List.nodup_singleton r, ?_⟩
      intro a ha b hb hab
      rw [List.mem_singleton.1 hb] at hab
      exact hnew (hab ▸ h.applied a ha)
  · intro t i hconn ht hans
    have hconn' := (hconns t).symm.trans hconn
    have ht' := (hlatests t).symm.trans ht
    rcases List.mem_append.1 hans with hold | hlast
    · exact hkeeps _ (h.once t i hconn' ht' hold)
    · have hrt : r = (i, t) := (List.mem_singleton.1 hlast).symm
      subst hrt
      exact honce hconn' ht'

/-- The callback uses the result, or is not ready for it. -/
theorem callback_cases (w : LogonCommHandler) (s : Nat) (id : BitVec 32) (error : Bool) :
    (¬ ((w.socket s).requestID = id ∧ (error = true ∨ (w.socket s).packet = true)) ∧
      w.informationRetreiveCallback s id error = w) ∨
    (∃ q, (q = (w.socket s).requestID ∨ q = 0) ∧
      w.informationRetreiveCallback s id error =
        { w.setSocket s { w.socket s with requestID := q } with applied := w.applied ++ [(id, s)] }) := by
  unfold LogonCommHandler.informationRetreiveCallback
  split_ifs with hid herror hpacket
  · exact Or.inl ⟨fun hready => hid hready.1.symm, rfl⟩
  · right
    refine ⟨(w.socket s).requestID, Or.inl rfl, ?_⟩
    simp [LogonCommHandler.setSocket]
  · left
    refine ⟨?_, rfl⟩
    simp [herror, hpacket]
  · exact Or.inr ⟨0, Or.inr rfl, rfl⟩

theorem Inv.result (h : w.Inv) (hr : r ∈ w.unanswered) (hgood : w.Good (.result r error))
    (hstep : w.step (.result r error) = some w') : w'.Inv := by
  have hmem : r ∈ w.requests := h.mem_requests.2 (Or.inl hr)
  simp only [LogonCommHandler.step, if_pos hr, Option.some.injEq] at hstep
  subst hstep
  unfold handleSessionInfo
  split
  · next hnone =>
    -- the socket is gone
    have hsame : (w.afterResult r w.pendingLogons (w.socket r.2) w.applied).Inv := by
      refine h.answer hr (Or.inl rfl) rfl rfl rfl (Or.inl rfl) (Or.inl rfl) ?_
      intro hconn
      rw [h.waiting r hr hconn] at hnone
      cases hnone
    simpa [afterResult] using hsame
  · next s hs =>
    obtain ⟨hconn, hpend⟩ := h.pending r.1 s hs
    have hrs : r = (r.1, s) := h.unique hmem hpend rfl
    have hst : r.2 = s := congrArg Prod.snd hrs
    subst hst
    split_ifs with htaken
    · -- an earlier result of this socket was taken
      have hauthed : (w.socket r.2).authed = true := by simpa [hconn] using htaken
      have hsame : (w.afterResult r w.pendingLogons (w.socket r.2) w.applied).Inv := by
        refine h.answer hr (Or.inl rfl) rfl rfl rfl (Or.inl rfl) (Or.inl rfl) ?_
        intro _ hlatest
        have hexpects := (hgood hconn hlatest).1
        rw [hauthed] at hexpects
        cases hexpects
      simpa [afterResult] using hsame
    · rcases callback_cases ((LogonCommHandler.setSocket
          { w with unanswered := w.unanswered.erase r, answered := w.answered ++ [r] } r.2
          { w.socket r.2 with authed := true }).removeUnauthedSocket r.1) r.2 r.1 error with
        ⟨hnot, heq⟩ | ⟨q, hq, heq⟩
      · rw [heq]
        have hdropped : (w.afterResult r (Function.update w.pendingLogons r.1 none)
            { w.socket r.2 with authed := true } w.applied).Inv := by
          refine h.answer hr (Or.inr rfl) rfl rfl rfl (Or.inl rfl) (Or.inl rfl) ?_
          intro _ hlatest
          refine absurd (hgood hconn hlatest).2 ?_
          simpa [LogonCommHandler.setSocket, removeUnauthedSocket] using hnot
        exact hdropped
      · rw [heq]
        have hused : (w.afterResult r (Function.update w.pendingLogons r.1 none)
            { w.socket r.2 with authed := true, requestID := q } (w.applied ++ [r])).Inv := by
          refine h.answer hr (Or.inr rfl) rfl rfl rfl ?_ (Or.inr rfl) ?_
          · simpa [LogonCommHandler.setSocket, removeUnauthedSocket] using hq
          · exact fun _ _ => List.mem_append_right _ (List.mem_singleton_self r)
        simpa [afterResult, LogonCommHandler.setSocket, removeUnauthedSocket] using hused

/-! ## Runs -/

theorem assign_cases (hstep : w.step (.assign s) = some w') :
    (∃ id, (w.socket s).progress = .registered id ∧ w' = w.assign s id) ∨
      ((w.socket s).progress = .refused ∧ w' = w.assign s 0xFFFFFFFF) := by
  cases hp : (w.socket s).progress with
  | registered id =>
    have heq : w.step (.assign s) = some (w.assign s id) := by simp [LogonCommHandler.step, hp]
    left
    exact ⟨id, rfl, Option.some.inj (hstep.symm.trans heq)⟩
  | refused =>
    have heq : w.step (.assign s) = some (w.assign s 0xFFFFFFFF) := by
      simp [LogonCommHandler.step, hp]
    right
    exact ⟨rfl, Option.some.inj (hstep.symm.trans heq)⟩
  | idle | allocated id | assigned => simp [LogonCommHandler.step, hp] at hstep

/-- The step lemma. -/
theorem Inv.step (h : w.Inv) {e : Event} (hgood : w.Good e) (hstep : w.step e = some w') :
    w'.Inv := by
  cases e with
  | authSession s =>
    simp only [LogonCommHandler.step, Option.ite_none_right_eq_some, Option.some.injEq] at hstep
    obtain ⟨-, rfl⟩ := hstep
    exact h.authSession
  | register s =>
    dsimp only [LogonCommHandler.step] at hstep
    split at hstep
    · next id hid =>
      obtain ⟨hconnected, hfresh⟩ := hgood
      rw [hid] at hfresh
      cases hstep
      exact h.register hconnected hfresh
    · cases hstep
  | assign s =>
    rcases assign_cases hstep with ⟨id, hid, rfl⟩ | ⟨hrefused, rfl⟩
    · exact h.assign hid
    · exact h.assign_refused (hgood hrefused)
  | storePacket s =>
    simp only [LogonCommHandler.step, Option.ite_none_right_eq_some, Option.some.injEq] at hstep
    obtain ⟨-, rfl⟩ := hstep
    exact h.setSocket rfl rfl (h.stored s) (fun id hid => by cases hid)
  | disconnect s =>
    cases hstep
    exact h.onDisconnect hgood
  | result r error =>
    by_cases hr : r ∈ w.unanswered
    · exact h.result hr hgood hstep
    · simp [LogonCommHandler.step, hr] at hstep
  | link up =>
    cases hstep
    exact ⟨h.ids, h.real, h.split, h.pending, h.waiting, h.stored, h.begun, h.latest, h.applied,
      h.single, h.once⟩
  | authenticate s =>
    simp only [LogonCommHandler.step, Option.ite_none_right_eq_some, Option.some.injEq] at hstep
    obtain ⟨-, rfl⟩ := hstep
    exact h.setSocket rfl rfl (h.stored s) (fun id hid => h.begun s id hid)

/-- Where every step meets `Good`, every state reached has the law. -/
theorem login_hand_over (es : List Event) (w : LogonCommHandler)
    (hrun : Run (Guarded Good (PartialStep step)) start es w) : w.HandedOver := by
  have hinv : w.Inv := by
    refine hrun.invariant Inv ?_ inv_start
    rintro s e t hs ⟨hgood, hstep⟩
    exact hs.step hgood hstep
  exact hinv.handedOver

/-! ## Two sockets -/

/-- Two sockets log in; the results come the other way round, and one
socket goes before its own. -/
def logins : List Event :=
  [.authSession 1, .authSession 2, .register 2, .register 1, .assign 1, .assign 2, .storePacket 1,
    .storePacket 2, .disconnect 1, .result (2, 2) false, .result (1, 1) false, .authenticate 2]

theorem login_hand_over_logins : ∃ w,
    Run (Guarded Good (PartialStep step)) start logins w ∧ w.HandedOver ∧
      w.applied = [(2, 2)] := by
  have hdef : (logins.foldlM (fun w e => if Good w e then step w e else none)
      start).isSome = true := by decide +kernel
  obtain ⟨w, hw⟩ := Option.isSome_iff_exists.1 hdef
  have happlied : (logins.foldlM (fun w e => if Good w e then step w e else none)
      start).map applied = some [(2, 2)] := by decide +kernel
  rw [hw] at happlied
  have hrun := Run.of_foldlM hw
  exact ⟨w, hrun, login_hand_over logins w hrun, Option.some.inj happlied⟩

/-- The result overtakes the assignment of `mRequestID` and is dropped; a
second request hides the first, which stays in `pending_logons`. -/
theorem result_dropped :
    (∃ w, Run (PartialStep step) start
      [.authSession 1, .register 1, .result (1, 1) false, .assign 1, .storePacket 1] w ∧
      ¬ w.HandedOver) ∧
    (∃ w, Run (PartialStep step) start
      [.authSession 1, .register 1, .assign 1, .storePacket 1, .authSession 1, .register 1,
        .assign 1, .storePacket 1, .disconnect 1] w ∧ ¬ w.HandedOver) := by
  constructor
  · refine ⟨_, .cons rfl (.cons rfl (.cons rfl (.cons rfl (.cons rfl (.nil _))))), ?_⟩
    intro h
    have hone := h.once 1 1 rfl rfl (by decide +kernel)
    revert hone
    decide +kernel
  · refine ⟨_, .cons rfl (.cons rfl (.cons rfl (.cons rfl (.cons rfl (.cons rfl (.cons rfl
      (.cons rfl (.cons rfl (.nil _))))))))), ?_⟩
    intro h
    have hgone := h.pending 1 1 rfl
    revert hgone
    decide +kernel

end LogonCommHandler

end HearthStone.LogonComm
