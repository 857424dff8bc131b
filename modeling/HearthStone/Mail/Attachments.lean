/-
HearthStone.Mail.Attachments — what is attached to a letter can be taken
once, out of one letter.

* `At` are the letters under a key, as a row or as an entry; `custody`
  says which attachments lie under which key.
* `Held` is the invariant: rows and entries agree in what they hold, what
  was deleted holds nothing, and custody is sound.
* A letter is saved with no more than it held (`held_save`), is delivered
  with what lies nowhere (`held_deliver`), and is removed
  (`held_remove`).

`mail_attachments_conserved` is the result, for runs in which no message
that has a text copy is deleted, returned or expires with attachments.
-/
import HearthStone.Mail.MailboxKeys
import HearthStone.Lib.Custody

namespace HearthStone

namespace Mail

namespace MailWorld

open Lib

variable {w w' : MailWorld} {p q : PlayerGuid} {k j : UInt32} {l l' x : Letter} {m : MailMessage}

/-! ## Letters under a key -/

/-- A letter under this key, as a row or as an entry. -/
def At (w : MailWorld) (k : UInt32) (l : Letter) : Prop :=
  w.mailbox k = some l ∨ ∃ p, w.GetMessage p k = some l

theorem Keys.filed (h : w.Keys) (hl : w.At k l) : w.Filed k l := by
  rcases hl with hl | ⟨p, hl⟩
  · exact h.row k l hl
  · exact (h.entry p k l hl).1

/-- Letters under one key are of one player. -/
theorem Keys.owner (h : w.Keys) (hl : w.Filed k l) (hx : w.GetMessage q k = some x) :
    q = l.msg.player_guid := by
  obtain ⟨hf, hq⟩ := h.entry q k x hx
  have hserial := hf.serial_eq h hl.delivery rfl
  have hdel := hf.delivery
  rw [← hserial, hl.delivery] at hdel
  exact hq.symm.trans (congrArg Delivery.player (Option.some.inj hdel)).symm

/-- Nothing lies under an id that was not given. -/
theorem Keys.not_at (h : w.Keys) (hk : k ∉ w.given) : ¬ w.At k l := by
  intro hl
  exact hk (h.given _ (List.mem_of_getElem? (h.filed hl).delivery)).1

theorem at_congr (hbox : w'.m_mailBox = w.m_mailBox) (hrows : w'.mailbox = w.mailbox) :
    w'.At k l ↔ w.At k l := by
  unfold At GetMessage
  rw [hbox, hrows]

/-- A letter saved as row and entry is alone under its key. -/
theorem at_save (h : w.Keys) (hl : w.Filed k l) (hp : l.msg.player_guid = p)
    (hx : ((w.setRow k (some l)).setEntry p k (some l)).At j x) :
    j = k ∧ x = l ∨ j ≠ k ∧ w.At j x := by
  by_cases hj : j = k
  · left
    refine ⟨hj, ?_⟩
    subst hj
    rcases hx with hx | ⟨q, hx⟩
    · rw [mailbox_setEntry, mailbox_setRow_self] at hx
      exact (Option.some.inj hx).symm
    · by_cases hq : q = p
      · subst hq
        rw [getMessage_setEntry_self _ ((online_setEntry _).1 (online_of_getMessage hx))] at hx
        exact (Option.some.inj hx).symm
      · rw [getMessage_setEntry_other _ fun hself => hq hself.1, getMessage_setRow] at hx
        exact absurd ((h.owner hl hx).trans hp) hq
  · right
    refine ⟨hj, ?_⟩
    rcases hx with hx | ⟨q, hx⟩
    · rw [mailbox_setEntry, mailbox_setRow_other _ hj] at hx
      exact .inl hx
    · rw [getMessage_setEntry_other _ fun hself => hj hself.2, getMessage_setRow] at hx
      exact .inr ⟨q, hx⟩

/-- A letter erased as entry and row is gone. -/
theorem at_remove (h : w.Keys) (hl : w.Filed k l) (hp : l.msg.player_guid = p)
    (hx : ((w.setEntry p k none).setRow k none).At j x) : j ≠ k ∧ w.At j x := by
  have hj : j ≠ k := by
    rintro rfl
    rcases hx with hx | ⟨q, hx⟩
    · rw [mailbox_setRow_self] at hx
      cases hx
    · rw [getMessage_setRow] at hx
      by_cases hq : q = p
      · subst hq
        rw [getMessage_setEntry_self _ ((online_setEntry _).1 (online_of_getMessage hx))] at hx
        cases hx
      · rw [getMessage_setEntry_other _ fun hself => hq hself.1] at hx
        exact hq ((h.owner hl hx).trans hp)
  refine ⟨hj, ?_⟩
  rcases hx with hx | ⟨q, hx⟩
  · rw [mailbox_setRow_other _ hj, mailbox_setEntry] at hx
    exact .inl hx
  · rw [getMessage_setRow, getMessage_setEntry_other _ fun hself => hj hself.2] at hx
    exact .inr ⟨q, hx⟩

/-! ## The invariant -/

/-- Which attachments lie under which key. -/
def custody (w : MailWorld) : Custody UInt32 Attachment where
  holds k a := ∃ l, w.At k l ∧ a ∈ l.attachments
  put := w.attached
  taken := w.taken

structure Held (w : MailWorld) : Prop where
  keys : w.Keys
  sound : w.custody.Sound
  synced : ∀ p k l r, w.GetMessage p k = some l → w.mailbox k = some r →
    r.attachments = l.attachments
  nodup : ∀ k l, w.At k l → l.msg.items.Nodup
  locked : ∀ k g, w.custody.holds k (.item g) → w.loose g = false
  origin : ∀ k l, w.At k l → l.origin < w.log.length
  emptied : ∀ k l, w.At k l → l.serial ∈ w.deleted → l.attachments = []
  marks : ∀ n ∈ w.deleted, n < w.log.length

theorem Filed.serial_lt (hl : w.Filed k l) : l.serial < w.log.length :=
  (List.getElem?_eq_some_iff.1 hl.delivery).1

/-- A letter was marked. -/
theorem Held.marks_cons (h : w.Held) (hl : w.Filed k l) (hlog : w'.log = w.log)
    (hdeleted : w'.deleted = l.serial :: w.deleted) : ∀ n ∈ w'.deleted, n < w'.log.length := by
  rw [hlog, hdeleted]
  intro n hn
  rcases List.mem_cons.1 hn with rfl | hn
  · exact hl.serial_lt
  · exact h.marks n hn

@[simp] theorem attached_setEntry (o : Option Letter) :
    (w.setEntry q k o).attached = w.attached := by
  unfold setEntry
  split <;> rfl

@[simp] theorem taken_setEntry (o : Option Letter) : (w.setEntry q k o).taken = w.taken := by
  unfold setEntry
  split <;> rfl

@[simp] theorem loose_setEntry (o : Option Letter) : (w.setEntry q k o).loose = w.loose := by
  unfold setEntry
  split <;> rfl

/-- No letter holds more than a letter under its key did before. -/
theorem Held.shrink (h : w.Held) (hkeys : w'.Keys)
    (hat : ∀ j x, w'.At j x → ∃ y, w.At j y ∧ x.origin = y.origin ∧
      (∀ a ∈ x.attachments, a ∈ y.attachments) ∧ x.msg.items.Nodup)
    (hsynced : ∀ p k l r, w'.GetMessage p k = some l → w'.mailbox k = some r →
      r.attachments = l.attachments)
    (hemptied : ∀ k l, w'.At k l → l.serial ∈ w'.deleted → l.attachments = [])
    (hmarks : ∀ n ∈ w'.deleted, n < w'.log.length)
    (hlog : w.log.length ≤ w'.log.length) (hloose : ∀ g, w'.loose g = true → w.loose g = true)
    (hput : ∀ a, w.attached a ≤ w'.attached a) (htaken : w'.taken = w.taken) : w'.Held := by
  have hsub : ∀ j a, w'.custody.holds j a → w.custody.holds j a := by
    rintro j a ⟨x, hx, ha⟩
    obtain ⟨y, hy, -, hxy, -⟩ := hat j x hx
    exact ⟨y, hy, hxy a ha⟩
  refine ⟨hkeys, h.sound.shrink hsub hput htaken, hsynced, ?_, ?_, ?_, hemptied, hmarks⟩
  · intro k l hl
    obtain ⟨-, -, -, -, hnodup⟩ := hat k l hl
    exact hnodup
  · intro k g hg
    have hlocked := h.locked k g (hsub k _ hg)
    rw [Bool.eq_false_iff] at hlocked ⊢
    exact fun hset => hlocked (hloose g hset)
  · intro k l hl
    obtain ⟨y, hy, horigin, -⟩ := hat k l hl
    rw [horigin]
    exact Nat.lt_of_lt_of_le (h.origin k y hy) hlog

/-- What holds of the letters does not depend on the rest of the world. -/
theorem Held.congr (h : w.Held) (hbox : w'.m_mailBox = w.m_mailBox)
    (hrows : w'.mailbox = w.mailbox) (hgiven : w'.given = w.given)
    (hreplies : w'.replies = w.replies) (hlog : w'.log = w.log)
    (hdeleted : w'.deleted = w.deleted) (hloose : ∀ g, w'.loose g = true → w.loose g = true)
    (hput : ∀ a, w.attached a ≤ w'.attached a) (htaken : w'.taken = w.taken) : w'.Held := by
  have hat : ∀ j x, w'.At j x ↔ w.At j x := fun j x => at_congr hbox hrows
  refine h.shrink (h.keys.congr hbox hrows hgiven hreplies hlog hdeleted) ?_ ?_ ?_
    (by rw [hdeleted, hlog]; exact h.marks) (Nat.le_of_eq (by rw [hlog])) hloose hput htaken
  · intro j x hx
    have hx' := (hat j x).1 hx
    exact ⟨x, hx', rfl, fun _ ha => ha, h.nodup j x hx'⟩
  · intro p k l r hl hr
    unfold GetMessage at hl
    rw [hbox] at hl
    rw [hrows] at hr
    exact h.synced p k l r hl hr
  · intro k l hl hserial
    rw [hdeleted] at hserial
    exact h.emptied k l ((hat k l).1 hl) hserial

/-! ## Saving and removing -/

/-- An entry is saved with no more than it held. -/
theorem held_save (h : w.Held) (hold : w.GetMessage p k = some l) (hnew : w.Filed k l')
    (hserial : l'.serial = l.serial) (horigin : l'.origin = l.origin)
    (hplayer : l'.msg.player_guid = p) (hsub : ∀ a ∈ l'.attachments, a ∈ l.attachments)
    (hnodup : l'.msg.items.Nodup) (hsave : w.saveEntry p k l' = some w') : w'.Held := by
  have hkeys := keys_saveEntry h.keys hnew hplayer hsave
  rw [saveEntry_eq h.keys hnew] at hsave
  cases hsave
  have hat := fun j x => at_save (j := j) (x := x) h.keys hnew hplayer
  refine h.shrink hkeys ?_ ?_ ?_ ?_ ?_ ?_ ?_ ?_
  · intro j x hx
    rcases hat j x hx with ⟨rfl, rfl⟩ | ⟨-, hx⟩
    · exact ⟨l, .inr ⟨p, hold⟩, horigin, hsub, hnodup⟩
    · exact ⟨x, hx, rfl, fun _ ha => ha, h.nodup j x hx⟩
  · intro q j x r hx hr
    rcases hat j x (.inr ⟨q, hx⟩) with ⟨rfl, rfl⟩ | ⟨hj, -⟩
    · rcases hat j r (.inl hr) with ⟨-, rfl⟩ | ⟨hj, -⟩
      · rfl
      · exact absurd rfl hj
    · rw [getMessage_setEntry_other _ fun hself => hj hself.2, getMessage_setRow] at hx
      rw [mailbox_setEntry, mailbox_setRow_other _ hj] at hr
      exact h.synced q j x r hx hr
  · intro j x hx hmem
    rw [deleted_setEntry] at hmem
    rcases hat j x hx with ⟨rfl, rfl⟩ | ⟨-, hx⟩
    · rw [hserial] at hmem
      have hempty := h.emptied j l (.inr ⟨p, hold⟩) hmem
      rw [List.eq_nil_iff_forall_not_mem]
      intro a ha
      have hin := hsub a ha
      rw [hempty] at hin
      cases hin
    · exact h.emptied j x hx hmem
  · rw [deleted_setEntry, log_setEntry]
    exact h.marks
  · rw [log_setEntry]
    exact Nat.le_refl _
  · intro g hg
    rwa [loose_setEntry] at hg
  · intro a
    rw [attached_setEntry]
    exact Nat.le_refl _
  · rw [taken_setEntry]
    rfl

/-- The letters with this delivery's number lie under its id. -/
theorem Keys.key_of_serial (h : w.Keys) (hl : w.Filed k l) (hx : w.At j x)
    (hserial : x.serial = l.serial) : j = k := by
  have hdel := (h.filed hx).delivery
  rw [hserial, hl.delivery] at hdel
  exact (congrArg Delivery.id (Option.some.inj hdel)).symm

/-- A letter without a text copy is deleted, with all it holds. -/
theorem held_remove (h : w.Held) (hl : w.At k l) (hp : l.msg.player_guid = p)
    (hkeys : (((w.mark l.serial).setEntry p k none).setRow k none).Keys) :
    (((w.mark l.serial).setEntry p k none).setRow k none).Held := by
  have hf := h.keys.filed hl
  have hat : ∀ j x, (((w.mark l.serial).setEntry p k none).setRow k none).At j x →
      j ≠ k ∧ w.At j x := by
    intro j x hx
    have hmark : (w.mark l.serial).Filed k l := (grows_mark l.serial).filed hf
    obtain ⟨hj, hx⟩ := at_remove (h.keys.mark l.serial) hmark hp hx
    exact ⟨hj, (at_congr rfl rfl).1 hx⟩
  refine h.shrink hkeys ?_ ?_ ?_ ?_ ?_ ?_ ?_ ?_
  · intro j x hx
    obtain ⟨-, hx⟩ := hat j x hx
    exact ⟨x, hx, rfl, fun _ ha => ha, h.nodup j x hx⟩
  · intro q j x r hx hr
    obtain ⟨hj, -⟩ := hat j x (.inr ⟨q, hx⟩)
    rw [getMessage_setRow, getMessage_setEntry_other _ fun hself => hj hself.2] at hx
    rw [mailbox_setRow_other _ hj, mailbox_setEntry] at hr
    exact h.synced q j x r hx hr
  · intro j x hx hmem
    obtain ⟨hj, hx⟩ := hat j x hx
    have hdeleted : (((w.mark l.serial).setEntry p k none).setRow k none).deleted =
        l.serial :: w.deleted := deleted_setEntry none
    rw [hdeleted] at hmem
    rcases List.mem_cons.1 hmem with heq | hmem
    · exact absurd (h.keys.key_of_serial hf hx heq) hj
    · exact h.emptied j x hx hmem
  · exact h.marks_cons hf (log_setEntry (w := w.mark l.serial) none)
      (deleted_setEntry (w := w.mark l.serial) none)
  · exact Nat.le_of_eq (congrArg List.length (log_setEntry (w := w.mark l.serial) none)).symm
  · intro g hg
    exact (congrFun (loose_setEntry (w := w.mark l.serial) none) g).symm.trans hg
  · intro a
    exact Nat.le_of_eq (congrFun (attached_setEntry (w := w.mark l.serial) none) a).symm
  · exact taken_setEntry (w := w.mark l.serial) none

/-- Letters under one key hold the same. -/
theorem Held.same (h : w.Held) (hl : w.At k l) (hx : w.At k x) : x.attachments = l.attachments := by
  have hrow : ∀ {p : PlayerGuid} {a b : Letter}, w.GetMessage p k = some a →
      w.mailbox k = some b → b.attachments = a.attachments :=
    fun ha hb => h.synced _ k _ _ ha hb
  rcases hl with hl | ⟨p, hl⟩
  · rcases hx with hx | ⟨q, hx⟩
    · rw [hl] at hx
      cases hx
      rfl
    · exact (hrow hx hl).symm
  · rcases hx with hx | ⟨q, hx⟩
    · exact hrow hl hx
    · obtain ⟨hf, hp⟩ := h.keys.entry p k l hl
      obtain rfl : q = p := (h.keys.owner hf hx).trans hp
      rw [hl] at hx
      cases hx
      rfl

/-- The books before and after a removal, and what is gone. -/
structure Removed (w w' : MailWorld) (l : Letter) : Prop where
  gone : ∀ a ∈ l.attachments, ∀ j, ¬ w'.custody.holds j a
  attached : w'.attached = w.attached
  taken : w'.taken = w.taken
  loose : w'.loose = w.loose
  log : w'.log = w.log

/-- A letter that holds nothing is flagged, and perhaps kept as an entry. -/
theorem held_flag (h : w.Held) (hl : w.At k l) (hx : x.attachments = [])
    (horigin : x.origin = l.origin) (hserial : x.serial = l.serial) (hempty : l.attachments = []) (hkeys : w'.Keys)
    (hw' : w' = (w.mark l.serial).setRow k (some x) ∨
      w' = ((w.mark l.serial).setRow k (some x)).setEntry p k (some x)) :
    w'.Held ∧ Removed w w' l := by
  have hf := h.keys.filed hl
  have hrows : w'.mailbox = Function.update w.mailbox k (some x) := by
    rcases hw' with rfl | rfl
    · rfl
    · rw [mailbox_setEntry]
      rfl
  have hget : ∀ q j y, w'.GetMessage q j = some y → j = k ∧ y = x ∨ w.GetMessage q j = some y := by
    intro q j y hy
    rcases hw' with rfl | rfl
    · exact .inr hy
    · by_cases hself : q = p ∧ j = k
      · obtain ⟨rfl, rfl⟩ := hself
        rw [getMessage_setEntry_self _ ((online_setEntry _).1 (online_of_getMessage hy))] at hy
        exact .inl ⟨rfl, (Option.some.inj hy).symm⟩
      · rw [getMessage_setEntry_other _ hself] at hy
        exact .inr hy
  have hat : ∀ j y, w'.At j y → j = k ∧ y = x ∨ w.At j y := by
    intro j y hy
    rcases hy with hy | ⟨q, hy⟩
    · rw [hrows] at hy
      by_cases hj : j = k
      · subst hj
        rw [Function.update_self] at hy
        exact .inl ⟨rfl, (Option.some.inj hy).symm⟩
      · rw [Function.update_of_ne hj] at hy
        exact .inr (.inl hy)
    · exact (hget q j y hy).imp id fun hy => .inr ⟨q, hy⟩
  have hbooks : w'.attached = w.attached ∧ w'.taken = w.taken ∧ w'.loose = w.loose ∧
      w'.log = w.log ∧ w'.deleted = l.serial :: w.deleted := by
    rcases hw' with rfl | rfl
    · exact ⟨rfl, rfl, rfl, rfl, rfl⟩
    · exact ⟨attached_setEntry _, taken_setEntry _, loose_setEntry _, log_setEntry _,
        deleted_setEntry _⟩
  obtain ⟨hattached, htaken, hloose, hlog, hdeleted⟩ := hbooks
  have hnil : ∀ y, w.At k y → y.attachments = [] := fun y hy => (h.same hl hy).trans hempty
  refine ⟨?_, ⟨fun a ha => ?_, hattached, htaken, hloose, hlog⟩⟩
  · refine h.shrink hkeys ?_ ?_ ?_ (h.marks_cons hf hlog hdeleted) (Nat.le_of_eq (by rw [hlog]))
      (fun g hg => hloose ▸ hg)
      (fun a => Nat.le_of_eq (by rw [hattached])) htaken
    · intro j y hy
      rcases hat j y hy with ⟨rfl, rfl⟩ | hy
      · refine ⟨l, hl, horigin, fun a ha => ?_, ?_⟩
        · rw [hx] at ha
          cases ha
        · have hitems : y.msg.items = [] := by
            exact List.map_eq_nil_iff.1 (List.append_eq_nil_iff.1 hx).1
          rw [hitems]
          exact List.nodup_nil
      · exact ⟨y, hy, rfl, fun _ ha => ha, h.nodup j y hy⟩
    · intro q j y r hy hr
      by_cases hj : j = k
      · subst hj
        rw [hrows, Function.update_self] at hr
        cases hr
        rcases hget q j y hy with ⟨-, rfl⟩ | hy
        · rfl
        · rw [hx, hnil y (.inr ⟨q, hy⟩)]
      · rw [hrows, Function.update_of_ne hj] at hr
        rcases hget q j y hy with ⟨hjk, -⟩ | hy
        · exact absurd hjk hj
        · exact h.synced q j y r hy hr
    · intro j y hy hmem
      rcases hat j y hy with ⟨rfl, rfl⟩ | hy
      · exact hx
      · rw [hdeleted] at hmem
        rcases List.mem_cons.1 hmem with heq | hmem
        · obtain rfl := h.keys.key_of_serial hf hy heq
          exact hnil y hy
        · exact h.emptied j y hy hmem
  · rw [hempty] at ha
    cases ha

theorem held_deleteMessage (h : w.Held) (hl : w.At k l) (hf : w.Filed k l')
    (hserial : l'.serial = l.serial) (hsame : l'.attachments = l.attachments)
    (horigin : l'.origin = l.origin) (hp : l'.msg.player_guid = p)
    {o : Option (PlayerGuid × UInt32)} {f : UInt32} (ho : o = none ∨ o = some (p, k) ∧ f = k)
    (hcopy : l'.msg.copy_made = true → l.attachments = [])
    (hdel : w.DeleteMessage p o l' f = some w') : w'.Held ∧ Removed w w' l := by
  have hkeys := keys_deleteMessage h.keys hf hp ho hdel
  have hid := hf.id
  unfold DeleteMessage at hdel
  by_cases hset : l'.msg.copy_made
  · rw [if_pos hset] at hdel
    have hempty := hcopy hset
    rw [(keys_flagRow h.keys hf).1] at hdel
    have hflagged : l'.flagged.attachments = [] := hsame.trans hempty
    refine held_flag (p := p) h hl hflagged horigin hserial hempty hkeys ?_
    rw [← hserial]
    rcases ho with rfl | ⟨rfl, -⟩
    · cases hdel
      exact .inl rfl
    · cases hdel
      exact .inr rfl
  · rw [if_neg hset] at hdel
    have hrow : (if o.isSome = true then f else l'.msg.message_id) = k := by
      rcases ho with rfl | ⟨rfl, rfl⟩
      · exact hid
      · rfl
    rw [hrow, hid, hserial] at hdel
    cases hdel
    have hplayer : l.msg.player_guid = p := by
      have hdel := (h.keys.filed hl).delivery
      rw [← hserial, hf.delivery] at hdel
      exact (congrArg Delivery.player (Option.some.inj hdel)).symm.trans hp
    refine ⟨held_remove h hl hplayer hkeys, ?_, attached_setEntry (w := w.mark l.serial) none,
      taken_setEntry (w := w.mark l.serial) none, loose_setEntry (w := w.mark l.serial) none,
      log_setEntry (w := w.mark l.serial) none⟩
    -- only this key held what it holds
    rintro a ha j ⟨y, hy, hya⟩
    have hmark : (w.mark l.serial).Filed k l := (grows_mark l.serial).filed (h.keys.filed hl)
    obtain ⟨hj, hy⟩ := at_remove (h.keys.mark l.serial) hmark hplayer hy
    exact hj (h.sound.single ⟨y, (at_congr rfl rfl).1 hy, hya⟩ ⟨l, hl, ha⟩)

/-- A row goes that holds nothing, or whose player is not online. -/
theorem held_dropRow (h : w.Held) (hl : w.mailbox k = some l)
    (hcopy : l.msg.copy_made = true → l.attachments = [])
    (halone : l.attachments = [] ∨ ¬ w.Online l.msg.player_guid)
    (hdrop : w.dropRow l = some w') : w'.Held ∧ Removed w w' l := by
  have hf := h.keys.row k l hl
  have hkeys := keys_dropRow h.keys hf hdrop
  unfold dropRow at hdrop
  by_cases hset : l.msg.copy_made
  · have hempty := hcopy hset
    rw [if_pos hset, (keys_flagRow h.keys hf).1] at hdrop
    cases hdrop
    exact held_flag (p := l.msg.player_guid) (x := l.flagged) h (.inl hl) hempty rfl rfl hempty
      hkeys (.inl rfl)
  · rw [if_neg hset, hf.id] at hdrop
    cases hdrop
    have hat : ∀ j x, ((w.mark l.serial).setRow k none).At j x → w.At j x := by
      intro j x hx
      rcases hx with hx | hx
      · by_cases hj : j = k
        · subst hj
          rw [mailbox_setRow_self] at hx
          cases hx
        · rw [mailbox_setRow_other _ hj] at hx
          exact .inl hx
      · exact .inr hx
    -- an entry that stays holds nothing
    have hnil : ∀ x, ((w.mark l.serial).setRow k none).At k x → x.attachments = [] := by
      intro x hx
      rcases halone with hempty | hoff
      · exact (h.same (.inl hl) (hat k x hx)).trans hempty
      · rcases hx with hx | ⟨q, hx⟩
        · rw [mailbox_setRow_self] at hx
          cases hx
        · have hx' : w.GetMessage q k = some x := hx
          exact absurd (h.keys.owner hf hx' ▸ online_of_getMessage hx') hoff
    refine ⟨h.shrink hkeys ?_ ?_ ?_ (h.marks_cons hf rfl rfl) (Nat.le_refl _) (fun _ hg => hg)
      (fun _ => Nat.le_refl _) rfl, ?_, rfl, rfl, rfl, rfl⟩
    · intro j x hx
      exact ⟨x, hat j x hx, rfl, fun _ ha => ha, h.nodup j x (hat j x hx)⟩
    · intro q j x r hx hr
      by_cases hj : j = k
      · subst hj
        rw [mailbox_setRow_self] at hr
        cases hr
      · rw [mailbox_setRow_other _ hj] at hr
        exact h.synced q j x r hx hr
    · intro j x hx hmem
      have hmem' : x.serial ∈ l.serial :: w.deleted := hmem
      rcases List.mem_cons.1 hmem' with heq | hmem'
      · obtain rfl := h.keys.key_of_serial hf (hat j x hx) heq
        exact hnil x hx
      · exact h.emptied j x (hat j x hx) hmem'
    · rintro a ha j ⟨x, hx, hxa⟩
      obtain rfl := h.sound.single ⟨x, hat j x hx, hxa⟩ ⟨l, .inl hl, ha⟩
      rw [hnil x hx] at hxa
      cases hxa

/-! ## Delivering -/

/-- A delivery puts one letter under an id that had none. -/
theorem at_deliver (h : w.Keys) (hm : m.message_id = 0) {o : Nat}
    (hdeliver : w.DeliverMessage m o = some w') :
    ∃ id, w'.log = w.log ++ [⟨id, m.player_guid⟩] ∧
      w'.mailbox = Function.update w.mailbox id
        (some ⟨{ m with message_id := id }, w.log.length, o⟩) ∧
      (∀ q j, j ≠ id → w'.GetMessage q j = w.GetMessage q j) ∧
      (∀ q x, w'.GetMessage q id = some x →
        x = ⟨{ m with message_id := id }, w.log.length, o⟩) ∧
      (∀ x, ¬ w.At id x) ∧ w'.attached = w.attached ∧ w'.taken = w.taken ∧ w'.loose = w.loose ∧
      w'.deleted = w.deleted := by
  obtain ⟨id, rs, -, -, hgiven, -, rfl⟩ := deliverMessage_eq h.accepted hm hdeliver
  refine ⟨id, log_setEntry _, mailbox_setEntry _, ?_, ?_, fun x => h.not_at hgiven,
    attached_setEntry _, taken_setEntry _, loose_setEntry _, deleted_setEntry _⟩
  · intro q j hj
    exact getMessage_setEntry_other _ fun hself => hj hself.2
  · intro q x hx
    by_cases hq : q = m.player_guid
    · subst hq
      rw [getMessage_setEntry_self _ ((online_setEntry _).1 (online_of_getMessage hx))] at hx
      exact (Option.some.inj hx).symm
    · rw [getMessage_setEntry_other _ fun hself => hq hself.1] at hx
      exact absurd (.inr ⟨q, hx⟩) (h.not_at hgiven)

/-- What lies nowhere is delivered. -/
theorem held_deliver (h : w.Held) (hm : m.message_id = 0) (hflag : m.deleted_flag = false)
    {o : Nat} (ho : o ≤ w.log.length) (hnodup : m.items.Nodup)
    (hloose : ∀ g ∈ m.items, w.loose g = false)
    (hfree : ∀ a ∈ (Letter.mk m w.log.length o).attachments, ∀ j, ¬ w.custody.holds j a)
    (hopen : ∀ a ∈ (Letter.mk m w.log.length o).attachments, w.taken a < w.attached a)
    (hdeliver : w.DeliverMessage m o = some w') : w'.Held := by
  have hkeys := keys_deliver h.keys hm hflag hdeliver
  obtain ⟨id, hlog, hrows, hother, hself, hnone, hattached, htaken, hloose', hdeleted⟩ :=
    at_deliver h.keys hm hdeliver
  have hget : ∀ q j x, w'.GetMessage q j = some x → w.GetMessage q j = some x ∨
      j = id ∧ x = ⟨{ m with message_id := id }, w.log.length, o⟩ := by
    intro q j x hx
    by_cases hj : j = id
    · subst hj
      exact .inr ⟨rfl, hself q x hx⟩
    · rw [hother q j hj] at hx
      exact .inl hx
  have hat : ∀ j x, w'.At j x → w.At j x ∨
      j = id ∧ x = ⟨{ m with message_id := id }, w.log.length, o⟩ := by
    intro j x hx
    rcases hx with hx | ⟨q, hx⟩
    · rw [hrows] at hx
      by_cases hj : j = id
      · subst hj
        rw [Function.update_self] at hx
        exact .inr ⟨rfl, (Option.some.inj hx).symm⟩
      · rw [Function.update_of_ne hj] at hx
        exact .inl (.inl hx)
    · exact (hget q j x hx).imp (fun hx => .inr ⟨q, hx⟩) fun hx => hx
  have hholds : ∀ j a, w'.custody.holds j a → w.custody.holds j a ∨
      j = id ∧ a ∈ (Letter.mk m w.log.length o).attachments := by
    rintro j a ⟨x, hx, ha⟩
    rcases hat j x hx with hx | ⟨rfl, rfl⟩
    · exact .inl ⟨x, hx, ha⟩
    · exact .inr ⟨rfl, ha⟩
  have hlength : w'.log.length = w.log.length + 1 := by
    rw [hlog, List.length_append, List.length_singleton]
  refine ⟨hkeys, ?_, ?_, ?_, ?_, ?_, ?_, ?_⟩
  · exact h.sound.place id {a | a ∈ (Letter.mk m w.log.length o).attachments} hholds hfree hopen
      hattached htaken
  · intro q j x r hx hr
    rw [hrows] at hr
    by_cases hj : j = id
    · subst hj
      rw [Function.update_self] at hr
      rcases hget q j x hx with hx | ⟨-, rfl⟩
      · exact absurd (.inr ⟨q, hx⟩) (hnone x)
      · rw [← Option.some.inj hr]
    · rw [Function.update_of_ne hj] at hr
      rcases hget q j x hx with hx | ⟨hjid, -⟩
      · exact h.synced q j x r hx hr
      · exact absurd hjid hj
  · intro j x hx
    rcases hat j x hx with hx | ⟨-, rfl⟩
    · exact h.nodup j x hx
    · exact hnodup
  · intro j g hg
    rw [hloose']
    rcases hholds j _ hg with hg | ⟨-, hg⟩
    · exact h.locked j g hg
    · refine hloose g ?_
      rcases List.mem_append.1 hg with hg | hg
      · obtain ⟨g', hg', heq⟩ := List.mem_map.1 hg
        cases heq
        exact hg'
      · split_ifs at hg with hmoney
        · cases hg
        · cases List.mem_singleton.1 hg
  · intro j x hx
    rw [hlength]
    rcases hat j x hx with hx | ⟨-, rfl⟩
    · exact Nat.lt_succ_of_lt (h.origin j x hx)
    · exact Nat.lt_succ_of_le ho
  · intro j x hx hmem
    rw [hdeleted] at hmem
    rcases hat j x hx with hx | ⟨rfl, rfl⟩
    · exact h.emptied j x hx hmem
    · exact absurd (h.marks _ hmem) (Nat.lt_irrefl _)
  · intro n hn
    rw [hdeleted] at hn
    rw [hlength]
    exact Nat.lt_succ_of_lt (h.marks n hn)

/-! ## Returning -/

theorem held_removeOld (h : w.Held) (hl : w.At k l)
    {o : Option (PlayerGuid × UInt32)} {f : UInt32}
    (ho : o = none ∨ o = some (l.msg.player_guid, k) ∧ f = k)
    (hcopy : l.msg.copy_made = true → l.attachments = [])
    (hrem : w.removeOld o l f = some w') : w'.Held ∧ Removed w w' l := by
  have hf := h.keys.filed hl
  unfold removeOld at hrem
  by_cases hon : (w.m_mailBox l.msg.player_guid).isSome
  · rw [if_pos hon] at hrem
    exact held_deleteMessage h hl hf rfl rfl rfl rfl ho hcopy hrem
  · rw [if_neg hon] at hrem
    have hrow : w.mailbox k = some l := by
      rcases hl with hl | ⟨q, hl⟩
      · exact hl
      · obtain ⟨-, hq⟩ := h.keys.entry q k l hl
        exact absurd (hq.symm ▸ online_of_getMessage hl) hon
    exact held_dropRow h hrow hcopy (.inr hon) hrem

/-- The attachments of a returned message go with it. -/
theorem held_returnToSender (h : w.Held) (hl : w.At k l)
    {o : Option (PlayerGuid × UInt32)} {f : UInt32}
    (ho : o = none ∨ o = some (l.msg.player_guid, k) ∧ f = k)
    (hcopy : l.msg.copy_made = true → l.attachments = [])
    (hret : w.ReturnToSender o l f = some w') : w'.Held := by
  obtain ⟨w₁, hrem, hdeliver⟩ := Option.bind_eq_some_iff.1 hret
  obtain ⟨h₁, hgone⟩ := held_removeOld h hl ho hcopy hrem
  have horigin := h.origin k l hl
  refine held_deliver (m := w₁.returned l.msg) h₁ rfl rfl ?_ (h.nodup k l hl) ?_ hgone.gone ?_
    hdeliver
  · rw [hgone.log]
    exact Nat.le_of_lt horigin
  · intro g hg
    rw [hgone.loose]
    refine h.locked k g ⟨l, hl, ?_⟩
    exact List.mem_append_left _ (List.mem_map_of_mem hg)
  · intro a ha
    rw [hgone.attached, hgone.taken]
    exact h.sound.held ⟨l, hl, ha⟩

theorem held_expireMessage (h : w.Held) (hl : w.mailbox k = some l)
    (hcopy : l.msg.copy_made = true → l.attachments = [])
    (hexp : w.expireMessage l = some w') : w'.Held := by
  unfold expireMessage at hexp
  by_cases hempty : l.msg.items = [] ∧ l.msg.money = 0
  · rw [if_pos hempty] at hexp
    have hnil : l.attachments = [] := by
      unfold Letter.attachments
      rw [hempty.1, if_pos hempty.2]
      rfl
    exact (held_dropRow h hl hcopy (.inl hnil) hexp).1
  · rw [if_neg hempty] at hexp
    exact held_returnToSender h (.inl hl) (.inl rfl) hcopy hexp

/-! ## The pass over the expired rows -/

/-- Other rows that exist are left alone. -/
def RowsKept (w w' : MailWorld) (k : UInt32) : Prop :=
  ∀ j x, j ≠ k → w.mailbox j = some x → w'.mailbox j = some x

theorem rowsKept_dropRow (h : w.Keys) (hl : w.Filed k l) (hdrop : w.dropRow l = some w') :
    RowsKept w w' k := by
  intro j x hj hx
  unfold dropRow at hdrop
  by_cases hset : l.msg.copy_made
  · rw [if_pos hset, (keys_flagRow h hl).1] at hdrop
    cases hdrop
    exact (mailbox_setRow_other _ hj).trans hx
  · rw [if_neg hset, hl.id] at hdrop
    cases hdrop
    exact (mailbox_setRow_other _ hj).trans hx

theorem rowsKept_removeOld (h : w.Keys) (hl : w.Filed k l) {f : UInt32}
    (hrem : w.removeOld none l f = some w') : RowsKept w w' k := by
  unfold removeOld at hrem
  by_cases hon : (w.m_mailBox l.msg.player_guid).isSome
  · rw [if_pos hon] at hrem
    intro j x hj hx
    unfold DeleteMessage at hrem
    by_cases hset : l.msg.copy_made
    · rw [if_pos hset, (keys_flagRow h hl).1] at hrem
      cases hrem
      exact (mailbox_setRow_other _ hj).trans hx
    · rw [if_neg hset, hl.id] at hrem
      cases hrem
      refine (mailbox_setRow_other _ hj).trans ?_
      rw [mailbox_setEntry]
      exact hx
  · rw [if_neg hon] at hrem
    exact rowsKept_dropRow h hl hrem

theorem rowsKept_expireMessage (h : w.Keys) (hl : w.Filed k l)
    (hexp : w.expireMessage l = some w') : RowsKept w w' k := by
  unfold expireMessage at hexp
  by_cases hempty : l.msg.items = [] ∧ l.msg.money = 0
  · rw [if_pos hempty] at hexp
    exact rowsKept_dropRow h hl hexp
  · rw [if_neg hempty] at hexp
    obtain ⟨w₁, hrem, hdeliver⟩ := Option.bind_eq_some_iff.1 hexp
    have h₁ : w₁.Keys := by
      unfold removeOld at hrem
      by_cases hon : (w.m_mailBox l.msg.player_guid).isSome
      · rw [if_pos hon] at hrem
        exact keys_deleteMessage h hl rfl (.inl rfl) hrem
      · rw [if_neg hon] at hrem
        exact keys_dropRow h hl hrem
    obtain ⟨id, -, hrows, -, -, hnone, -⟩ :=
      at_deliver (m := w₁.returned l.msg) h₁ rfl hdeliver
    intro j x hj hx
    have hx₁ := rowsKept_removeOld h hl hrem j x hj hx
    rw [hrows, Function.update_of_ne]
    · exact hx₁
    · rintro rfl
      exact hnone x (.inl hx₁)

/-- The rows of a result that are still to come are as they were. -/
theorem held_expireAll {ls : List Letter} (h : w.Held)
    (hls : ∀ l ∈ ls, w.mailbox l.msg.message_id = some l)
    (hcopy : ∀ l ∈ ls, l.msg.copy_made = true → l.attachments = [])
    (hdistinct : (ls.map fun l => l.msg.message_id).Nodup)
    (hpass : ls.foldlM expireMessage w = some w') : w'.Held := by
  induction ls generalizing w with
  | nil =>
    cases hpass
    exact h
  | cons l ls ih =>
    rw [List.foldlM_cons] at hpass
    obtain ⟨w₁, hexp, hpass⟩ := Option.bind_eq_some_iff.1 hpass
    obtain ⟨hl, hls⟩ := List.forall_mem_cons.1 hls
    obtain ⟨hcl, hcopy⟩ := List.forall_mem_cons.1 hcopy
    rw [List.map_cons, List.nodup_cons] at hdistinct
    refine ih (held_expireMessage h hl hcl hexp) (fun x hx => ?_) hcopy hdistinct.2 hpass
    refine rowsKept_expireMessage h.keys (h.keys.row _ l hl) hexp _ x ?_ (hls x hx)
    intro heq
    exact hdistinct.1 (heq ▸ List.mem_map_of_mem hx)

theorem held_updateMessages (h : w.Held) {order : List UInt32}
    (hcopy : ∀ id ∈ order, ∀ l, w.mailbox id = some l → w.selected l = true →
      l.msg.copy_made = true → l.attachments = [])
    (hpass : w.UpdateMessages order = some w') : w'.Held := by
  have hrow : ∀ l ∈ order.dedup.filterMap w.mailbox,
      l.msg.message_id ∈ order ∧ w.mailbox l.msg.message_id = some l := by
    intro l hl
    obtain ⟨id, hid, hl⟩ := List.mem_filterMap.1 hl
    have heq := (h.keys.row id l hl).id
    rw [heq]
    exact ⟨List.mem_dedup.1 hid, hl⟩
  refine held_expireAll h ?_ ?_ ?_ hpass
  · intro l hl
    exact (hrow l (List.mem_filter.1 hl).1).2
  · intro l hl
    obtain ⟨hl, hsel⟩ := List.mem_filter.1 hl
    obtain ⟨hid, hl⟩ := hrow l hl
    exact hcopy _ hid l hl hsel
  · refine List.Nodup.sublist (List.filter_sublist.map _) ?_
    have hids : (order.dedup.filterMap w.mailbox).map (fun l => l.msg.message_id) =
        order.dedup.filter fun id => (w.mailbox id).isSome := by
      induction order.dedup with
      | nil => rfl
      | cons id ids ih =>
        cases hid : w.mailbox id with
        | none => simp [hid, ih]
        | some l => simp [hid, ih, (h.keys.row id l hid).id]
    rw [hids]
    exact (List.nodup_dedup order).filter _

/-! ## Login and logout -/

theorem held_login (h : w.Held) (p : PlayerGuid) : (w.login p).Held := by
  have hkeys := keys_login h.keys p
  unfold login at hkeys ⊢
  cases hbox : w.m_mailBox p with
  | some box => exact h
  | none =>
    rw [hbox] at hkeys
    -- what is loaded are rows
    have hget : ∀ q j x, MailWorld.GetMessage { w with
        m_mailBox := Function.update w.m_mailBox p (some fun id =>
          (w.mailbox id).filter fun l =>
            l.msg.player_guid = p ∧ (l.msg.deleted_flag = false ∨ l.msg.copy_made)) } q j = some x →
        w.mailbox j = some x ∨ w.GetMessage q j = some x := by
      intro q j x hx
      by_cases hq : q = p
      · subst hq
        have hx' : (w.mailbox j).filter (fun l => l.msg.player_guid = q ∧
            (l.msg.deleted_flag = false ∨ l.msg.copy_made)) = some x := by
          simpa [GetMessage] using hx
        exact .inl (Option.filter_eq_some_iff.1 hx').1
      · right
        simpa [GetMessage, Function.update_of_ne hq] using hx
    refine h.shrink hkeys ?_ ?_ ?_ h.marks (Nat.le_refl _) (fun _ hg => hg)
      (fun _ => Nat.le_refl _) rfl
    · intro j x hx
      have hx' : w.At j x := by
        rcases hx with hx | ⟨q, hx⟩
        · exact .inl hx
        · exact (hget q j x hx).imp id fun hx => ⟨q, hx⟩
      exact ⟨x, hx', rfl, fun _ ha => ha, h.nodup j x hx'⟩
    · intro q j x r hx hr
      rcases hget q j x hx with hx | hx
      · have hr' : w.mailbox j = some r := hr
        rw [hx] at hr'
        cases hr'
        rfl
      · exact h.synced q j x r hx hr
    · intro j x hx hmem
      rcases hx with hx | ⟨q, hx⟩
      · exact h.emptied j x (.inl hx) hmem
      · exact h.emptied j x ((hget q j x hx).imp id fun hx => ⟨q, hx⟩) hmem

theorem held_logout (h : w.Held) (p : PlayerGuid) : (w.logout p).Held := by
  have hget : ∀ q j x, (w.logout p).GetMessage q j = some x → w.GetMessage q j = some x := by
    intro q j x hx
    by_cases hq : q = p
    · simp [GetMessage, logout, hq] at hx
    · simpa [GetMessage, logout, Function.update_of_ne hq] using hx
  have hat : ∀ j x, (w.logout p).At j x → w.At j x := by
    intro j x hx
    exact hx.imp id (Exists.imp fun q => hget q j x)
  refine h.shrink (keys_logout h.keys p) ?_ ?_ ?_ h.marks (Nat.le_refl _) (fun _ hg => hg)
    (fun _ => Nat.le_refl _) rfl
  · intro j x hx
    exact ⟨x, hat j x hx, rfl, fun _ ha => ha, h.nodup j x (hat j x hx)⟩
  · intro q j x r hx hr
    exact h.synced q j x r (hget q j x hx) hr
  · intro j x hx hmem
    exact h.emptied j x (hat j x hx) hmem

/-! ## What a letter holds -/

theorem mem_item {g : Guid} : .item g ∈ l.attachments ↔ g ∈ l.msg.items := by
  unfold Letter.attachments
  by_cases hmoney : l.msg.money = 0 <;> simp [hmoney]

theorem mem_money {n : Nat} : .money n ∈ l.attachments ↔ n = l.origin ∧ l.msg.money ≠ 0 := by
  unfold Letter.attachments
  by_cases hmoney : l.msg.money = 0 <;> simp [hmoney]

/-- A new message, with what is attached to it. -/
theorem held_mail (h : w.Held) (hm : m.message_id = 0) (hflag : m.deleted_flag = false)
    (hnodup : m.items.Nodup) (hloose : ∀ g ∈ m.items, w.loose g = true)
    (hdeliver : (w.attach m).DeliverMessage m w.log.length = some w') : w'.Held := by
  have hone : ∀ a, w.attached a ≤ (w.attach m).attached a := fun a => Nat.le_add_right _ _
  have h₁ : (w.attach m).Held := by
    refine h.congr rfl rfl rfl rfl rfl rfl (fun g hg => ?_) hone rfl
    have hg' : (w.loose g && !m.items.contains g) = true := hg
    exact (Bool.and_eq_true_iff.1 hg').1
  refine held_deliver h₁ hm hflag (Nat.le_refl _) hnodup ?_ ?_ ?_ hdeliver
  · intro g hg
    show (w.loose g && !m.items.contains g) = false
    rw [List.contains_iff_mem.2 hg, Bool.not_true, Bool.and_false]
  · rintro a ha j ⟨x, hx, hxa⟩
    have hx' : w.At j x := hx
    cases a with
    | item g =>
      have hlocked := h.locked j g ⟨x, hx', hxa⟩
      rw [hloose g (mem_item.1 ha)] at hlocked
      cases hlocked
    | money n =>
      have horigin := h.origin j x hx'
      have hn : n = w.log.length := (mem_money.1 ha).1
      have hn' : n = x.origin := (mem_money.1 hxa).1
      omega
  · intro a ha
    show w.taken a < w.attached a + (if a ∈ (Letter.mk m w.log.length w.log.length).attachments
      then 1 else 0)
    have ha' : a ∈ (Letter.mk m w.log.length w.log.length).attachments := ha
    rw [if_pos ha']
    exact Nat.lt_succ_of_le (h.sound.books a)

theorem held_send (h : w.Held) (hsend : w.send m = some w') : w'.Held := by
  unfold send at hsend
  rw [Option.ite_none_right_eq_some] at hsend
  obtain ⟨⟨hid, -, hflag, hnodup, hloose⟩, hdeliver⟩ := hsend
  exact held_mail h hid hflag hnodup hloose hdeliver

theorem held_setCoinage (h : w.Held) (v : UInt32) : (w.setCoinage p v).Held :=
  h.congr rfl rfl rfl rfl rfl rfl (fun _ hg => hg) (fun _ => Nat.le_refl _) rfl

theorem held_payCod (h : w.Held) (hpay : w.payCod p m = some w') : w'.Held := by
  unfold payCod at hpay
  by_cases hcod : 0 < m.cod
  · rw [if_pos hcod] at hpay
    exact held_mail (held_setCoinage h _) rfl rfl List.nodup_nil
      (fun g hg => absurd hg List.not_mem_nil) hpay
  · rw [if_neg hcod] at hpay
    cases hpay
    exact h

/-- Other entries are left alone by a payment. -/
theorem getMessage_payCod (h : w.Keys) (hl : w.GetMessage p k = some l)
    (hpay : w.payCod q m = some w') : w'.GetMessage p k = some l := by
  unfold payCod at hpay
  by_cases hcod : 0 < m.cod
  · rw [if_pos hcod] at hpay
    have h₁ : ((w.setCoinage q (debit (w.coinage q) m.cod)).attach (w.codPayment m)).Keys :=
      h.congr rfl rfl rfl rfl rfl rfl
    obtain ⟨id, -, -, hother, -, hnone, -⟩ := at_deliver h₁ rfl hpay
    rw [hother p k]
    · exact hl
    · rintro rfl
      exact hnone l (.inr ⟨p, hl⟩)
  · rw [if_neg hcod] at hpay
    cases hpay
    exact hl

/-- An attachment leaves the letter it was in, and is taken. -/
theorem held_take (h : w.Held) (hold : w.GetMessage p k = some l) (hnew : w.Filed k l')
    (hserial : l'.serial = l.serial) (horigin : l'.origin = l.origin)
    (hplayer : l'.msg.player_guid = p) (hsub : ∀ a ∈ l'.attachments, a ∈ l.attachments)
    (hnodup : l'.msg.items.Nodup) {a : Attachment} (ha : a ∈ l.attachments)
    (ha' : a ∉ l'.attachments) (hsave : w.saveEntry p k l' = some w') : (w'.take a).Held := by
  have h' := held_save h hold hnew hserial horigin hplayer hsub hnodup hsave
  have hgrows := grows_saveEntry hsave
  rw [saveEntry_eq h.keys hnew] at hsave
  have hfree : ∀ j, ¬ w'.custody.holds j a := by
    rintro j ⟨x, hx, hxa⟩
    cases hsave
    rcases at_save h.keys hnew hplayer hx with ⟨-, rfl⟩ | ⟨hj, hx⟩
    · exact ha' hxa
    · exact hj (h.sound.single ⟨x, hx, hxa⟩ ⟨l, .inr ⟨p, hold⟩, ha⟩)
  have htaken : w'.taken = w.taken := by
    cases hsave
    exact taken_setEntry _
  have hopen : w'.taken a < w'.attached a := by
    rw [htaken, hgrows.attached]
    exact h.sound.held ⟨l, .inr ⟨p, hold⟩, ha⟩
  refine ⟨h'.keys.congr rfl rfl rfl rfl rfl rfl, ?_, h'.synced, h'.nodup, ?_, h'.origin,
    h'.emptied, h'.marks⟩
  · exact h'.sound.take a hfree hopen rfl rfl fun b => rfl
  · intro j g hg
    have hne : a ≠ .item g := by
      rintro rfl
      exact hfree j hg
    show (w'.loose g || a == .item g) = false
    rw [h'.locked j g hg, Bool.false_or]
    exact beq_eq_false_iff_ne.2 hne

/-! ## The handlers -/

theorem held_markAsRead (h : w.Held) (hrun : w.HandleMarkAsRead p k = some w') : w'.Held := by
  obtain rfl | ⟨l, hget, hrun⟩ := handler_cases hrun
  · exact h
  · obtain ⟨hl, hp⟩ := h.keys.entry p k l hget
    split_ifs at hrun
    · cases hrun
      exact h
    · have hsame := readMessage_same (w := w) l.msg
      have hnew : w.Filed k { l with msg := w.readMessage l.msg } :=
        hl.handled rfl hsame.id hsame.player hsame.flag
      refine held_save h hget hnew rfl rfl (hsame.player.trans hp) ?_ ?_ hrun
      · intro a ha
        unfold Letter.attachments at ha
        rw [hsame.items, hsame.money] at ha
        exact ha
      · show (w.readMessage l.msg).items.Nodup
        rw [hsame.items]
        exact h.nodup k l (.inr ⟨p, hget⟩)

theorem held_createTextItem (h : w.Held) {stored : Bool}
    (hrun : w.HandleMailCreateTextItem p k stored = some w') : w'.Held := by
  obtain rfl | ⟨l, hget, hrun⟩ := handler_cases hrun
  · exact h
  · obtain ⟨hl, hp⟩ := h.keys.entry p k l hget
    split_ifs at hrun
    · cases hrun
      exact h
    · have hnew : w.Filed k { l with msg := { l.msg with copy_made := true } } :=
        hl.handled rfl rfl rfl rfl
      exact held_save h hget hnew rfl rfl hp (fun _ ha => ha) (h.nodup k l (.inr ⟨p, hget⟩)) hrun

theorem held_copyDeleted (h : w.Held) (hrun : w.OnMessageCopyDeleted p k k = some w') :
    w'.Held := by
  obtain rfl | ⟨l, hget, hrun⟩ := handler_cases hrun
  · exact h
  · obtain ⟨hl, hp⟩ := h.keys.entry p k l hget
    have hnew : w.Filed k (uncopied l) := hl.handled rfl rfl rfl rfl
    split_ifs at hrun
    · refine (held_deleteMessage h (.inr ⟨p, hget⟩) hnew rfl rfl rfl hp (.inr ⟨rfl, rfl⟩) ?_
        hrun).1
      intro hcopy
      cases hcopy
    · exact held_save h hget hnew rfl rfl hp (fun _ ha => ha) (h.nodup k l (.inr ⟨p, hget⟩)) hrun

theorem held_takeItem (h : w.Held) {g : Guid} {stored : Bool}
    (hrun : w.HandleTakeItem p k g stored = some w') : w'.Held := by
  obtain rfl | ⟨l, hget, hrun⟩ := handler_cases hrun
  · exact h
  · obtain ⟨hl, hp⟩ := h.keys.entry p k l hget
    split_ifs at hrun with hno hcod hstored
    · cases hrun
      exact h
    · cases hrun
      exact h
    · cases hrun
      exact h
    · obtain ⟨w₁, hpay, hrun⟩ := Option.bind_eq_some_iff.1 hrun
      obtain ⟨w₂, hsave, hrun⟩ := Option.bind_eq_some_iff.1 hrun
      cases hrun
      have hsame := emptied_same (w := w) { l.msg with items := l.msg.items.erase g }
      have hnew : w₁.Filed k { l with msg := { w.itemTaken l.msg g with cod := 0 } } :=
        (filed_payCod hl hpay).handled rfl hsame.id hsame.player hsame.flag
      have hnodup := h.nodup k l (.inr ⟨p, hget⟩)
      have hmem : g ∈ l.msg.items := by
        by_contra hg
        exact hno (.inr (.inr hg))
      refine held_take (held_payCod h hpay) (getMessage_payCod h.keys hget hpay) hnew rfl rfl
        (hsame.player.trans hp) ?_ ?_ (mem_item.2 hmem) ?_ hsave
      · intro a ha
        cases a with
        | item g' =>
          have hg' : g' ∈ (w.itemTaken l.msg g).items := mem_item.1 ha
          unfold itemTaken at hg'
          rw [hsame.items] at hg'
          exact mem_item.2 (List.mem_of_mem_erase hg')
        | money n =>
          obtain ⟨hn, hmoney⟩ := mem_money.1 ha
          have hmoney' : (w.itemTaken l.msg g).money ≠ 0 := hmoney
          unfold itemTaken at hmoney'
          rw [hsame.money] at hmoney'
          exact mem_money.2 ⟨hn, hmoney'⟩
      · show (w.itemTaken l.msg g).items.Nodup
        unfold itemTaken
        rw [hsame.items]
        exact hnodup.erase g
      · intro ha
        have hg' : g ∈ (w.itemTaken l.msg g).items := mem_item.1 ha
        unfold itemTaken at hg'
        rw [hsame.items] at hg'
        exact hnodup.not_mem_erase hg'

theorem held_takeMoney (h : w.Held) (hrun : w.HandleTakeMoney p k = some w') : w'.Held := by
  obtain rfl | ⟨l, hget, hrun⟩ := handler_cases hrun
  · exact h
  · obtain ⟨hl, hp⟩ := h.keys.entry p k l hget
    split_ifs at hrun with hno hmax
    · cases hrun
      exact h
    · cases hrun
      exact h
    · obtain ⟨w₁, hsave, hrun⟩ := Option.bind_eq_some_iff.1 hrun
      cases hrun
      have hsame := emptied_same (w := w) { l.msg with money := 0 }
      have hnew : w.Filed k { l with msg := w.moneyTaken l.msg } :=
        hl.handled rfl hsame.id hsame.player hsame.flag
      have hmoney : l.msg.money ≠ 0 := fun hzero => hno (.inr hzero)
      refine held_take (held_setCoinage h _) hget ⟨hnew.id, hnew.delivery, hnew.marked⟩ rfl rfl
        (hsame.player.trans hp) ?_ ?_ (mem_money.2 ⟨rfl, hmoney⟩) ?_ hsave
      · intro a ha
        cases a with
        | item g =>
          have hg : g ∈ (w.moneyTaken l.msg).items := mem_item.1 ha
          unfold moneyTaken at hg
          rw [hsame.items] at hg
          exact mem_item.2 hg
        | money n =>
          have hzero : (w.moneyTaken l.msg).money ≠ 0 := (mem_money.1 ha).2
          exact absurd hsame.money hzero
      · show (w.moneyTaken l.msg).items.Nodup
        unfold moneyTaken
        rw [hsame.items]
        exact h.nodup k l (.inr ⟨p, hget⟩)
      · intro ha
        have hzero : (w.moneyTaken l.msg).money ≠ 0 := (mem_money.1 ha).2
        exact absurd hsame.money hzero

/-! ## Runs -/

/-- No message that has a text copy is deleted, returned or expires with
attachments. -/
def CopiesEmpty (w : MailWorld) : MailEvent → Prop
  | .mailDelete p message_id _ => ∀ l, w.GetMessage p message_id = some l →
      ¬ l.msg.Expired w.now → l.msg.copy_made = true → l.attachments = []
  | .returnToSender p message_id _ => ∀ l, w.GetMessage p message_id = some l →
      ¬ (l.msg.Expired w.now ∨ l.msg.returned_flag = true) → l.msg.copy_made = true →
      l.attachments = []
  | .updateMessages order => ∀ id ∈ order, ∀ l, w.mailbox id = some l → w.selected l = true →
      l.msg.copy_made = true → l.attachments = []
  | _ => True

/-- An erased message still shows its id, and no attachments are left
behind for a text copy. -/
def MailSafe (w : MailWorld) (e : MailEvent) : Prop := w.FreedIntact e ∧ w.CopiesEmpty e

theorem held_step (h : w.Held) {e : MailEvent} (hok : w.MailSafe e)
    (hstep : w.step e = some w') : w'.Held := by
  obtain ⟨hfreed, hcopies⟩ := hok
  cases e with
  | send m => exact held_send h hstep
  | markAsRead p id => exact held_markAsRead h hstep
  | mailDelete p id f =>
    obtain rfl : f = id := hfreed
    obtain rfl | ⟨l, hget, hrun⟩ := handler_cases hstep
    · exact h
    · obtain ⟨hl, hp⟩ := h.keys.entry p f l hget
      split_ifs at hrun with hexpired
      · cases hrun
        exact h
      · exact (held_deleteMessage h (.inr ⟨p, hget⟩) hl rfl rfl rfl hp (.inr ⟨rfl, rfl⟩)
          (hcopies l hget hexpired) hrun).1
  | takeItem p id g stored => exact held_takeItem h hstep
  | takeMoney p id => exact held_takeMoney h hstep
  | returnToSender p id f =>
    obtain rfl : f = id := hfreed
    obtain rfl | ⟨l, hget, hrun⟩ := handler_cases hstep
    · exact h
    · obtain ⟨-, hp⟩ := h.keys.entry p f l hget
      split_ifs at hrun with hno
      · cases hrun
        exact h
      · exact held_returnToSender h (.inr ⟨p, hget⟩) (.inr ⟨by rw [hp], rfl⟩)
          (hcopies l hget hno) hrun
  | createTextItem p id stored => exact held_createTextItem h hstep
  | copyDeleted p id f =>
    obtain rfl : f = id := hfreed
    exact held_copyDeleted h hstep
  | updateMessages order => exact held_updateMessages h hcopies hstep
  | login p =>
    cases hstep
    exact held_login h p
  | logout p =>
    cases hstep
    exact held_logout h p
  | clock t =>
    cases hstep
    exact h.congr rfl rfl rfl rfl rfl rfl (fun _ hg => hg) (fun _ => Nat.le_refl _) rfl

/-! ## Sums of money -/

/-- A sum of money is attached once, by the delivery that has its number,
and coinage stays in the lower half. -/
structure Coined (w : MailWorld) : Prop where
  once : ∀ n, w.attached (.money n) ≤ 1
  fresh : ∀ n, w.log.length ≤ n → w.attached (.money n) = 0
  lower : ∀ p, (w.coinage p).toNat < 2 ^ 31

theorem Coined.grows (h : w.Coined) (hgrows : Grows w w') : w'.Coined where
  once n := by
    rw [hgrows.attached]
    exact h.once n
  fresh n hn := by
    obtain ⟨e, he⟩ := hgrows.log
    rw [he, List.length_append] at hn
    rw [hgrows.attached]
    exact h.fresh n (by omega)
  lower p := by
    rw [hgrows.coinage]
    exact h.lower p

theorem Coined.setCoinage (h : w.Coined) {v : UInt32} (hv : v.toNat < 2 ^ 31) :
    (w.setCoinage p v).Coined where
  once := h.once
  fresh := h.fresh
  lower q := by
    show (Function.update w.coinage p v q).toNat < 2 ^ 31
    by_cases hq : q = p
    · subst hq
      rw [Function.update_self]
      exact hv
    · rw [Function.update_of_ne hq]
      exact h.lower q

theorem Coined.take (h : w.Coined) (a : Attachment) : (w.take a).Coined :=
  ⟨h.once, h.fresh, h.lower⟩

/-- The delivery of a new message attaches its money. -/
theorem Coined.mail (h : w.Coined) (hdeliver : (w.attach m).DeliverMessage m w.log.length = some w')
    (hkeys : w.Keys) (hm : m.message_id = 0) : w'.Coined := by
  have hgrows := grows_deliver hdeliver
  have h₁ : (w.attach m).Keys := hkeys.congr rfl rfl rfl rfl rfl rfl
  obtain ⟨id, hlog, -⟩ := at_deliver h₁ hm hdeliver
  have hattached : ∀ n, w'.attached (.money n) =
      w.attached (.money n) + if .money n ∈ (Letter.mk m w.log.length w.log.length).attachments
        then 1 else 0 := by
    intro n
    rw [hgrows.attached]
    rfl
  have hlength : w'.log.length = w.log.length + 1 := by
    rw [hlog, List.length_append]
    rfl
  constructor
  · intro n
    rw [hattached]
    by_cases hmem : .money n ∈ (Letter.mk m w.log.length w.log.length).attachments
    · have hn : n = w.log.length := (mem_money.1 hmem).1
      rw [if_pos hmem, h.fresh n (Nat.le_of_eq hn.symm)]
    · rw [if_neg hmem]
      exact h.once n
  · intro n hn
    rw [hlength] at hn
    rw [hattached, if_neg, h.fresh n (by omega)]
    intro hmem
    have hn' : n = w.log.length := (mem_money.1 hmem).1
    omega
  · intro p
    rw [hgrows.coinage]
    exact h.lower p

theorem Coined.payCod (h : w.Coined) (hkeys : w.Keys) (hpay : w.payCod p m = some w') :
    w'.Coined := by
  unfold MailWorld.payCod at hpay
  by_cases hcod : 0 < m.cod
  · rw [if_pos hcod] at hpay
    have h₁ := h.setCoinage (p := p) (modUnsigned32Value_lt (h.lower p) (-m.cod.toInt32))
    exact h₁.mail hpay (hkeys.congr rfl rfl rfl rfl rfl rfl) rfl
  · rw [if_neg hcod] at hpay
    cases hpay
    exact h

theorem coined_step (h : w.Coined) (hkeys : w.Keys) {e : MailEvent} (hstep : w.step e = some w') :
    w'.Coined := by
  cases e with
  | send m =>
    have hsend : w.send m = some w' := hstep
    unfold send at hsend
    rw [Option.ite_none_right_eq_some] at hsend
    exact h.mail hsend.2 hkeys hsend.1.1
  | markAsRead p id | createTextItem p id stored =>
    obtain rfl | ⟨l, -, hrun⟩ := handler_cases hstep
    · exact h
    · split_ifs at hrun
      · cases hrun
        exact h
      · exact h.grows (grows_saveEntry hrun)
  | mailDelete p id f =>
    obtain rfl | ⟨l, -, hrun⟩ := handler_cases hstep
    · exact h
    · split_ifs at hrun
      · cases hrun
        exact h
      · exact h.grows (grows_deleteMessage hrun)
  | takeItem p id g stored =>
    obtain rfl | ⟨l, -, hrun⟩ := handler_cases hstep
    · exact h
    · split_ifs at hrun
      · cases hrun
        exact h
      · cases hrun
        exact h
      · cases hrun
        exact h
      · obtain ⟨w₁, hpay, hrun⟩ := Option.bind_eq_some_iff.1 hrun
        obtain ⟨w₂, hsave, hrun⟩ := Option.bind_eq_some_iff.1 hrun
        cases hrun
        exact ((h.payCod hkeys hpay).grows (grows_saveEntry hsave)).take _
  | takeMoney p id =>
    obtain rfl | ⟨l, -, hrun⟩ := handler_cases hstep
    · exact h
    · split_ifs at hrun
      · cases hrun
        exact h
      · cases hrun
        exact h
      · obtain ⟨w₁, hsave, hrun⟩ := Option.bind_eq_some_iff.1 hrun
        cases hrun
        have h₁ := h.setCoinage (p := p)
          (modUnsigned32Value_lt (h.lower p) l.msg.money.toInt32)
        exact (h₁.grows (grows_saveEntry hsave)).take _
  | returnToSender p id f =>
    obtain rfl | ⟨l, -, hrun⟩ := handler_cases hstep
    · exact h
    · split_ifs at hrun
      · cases hrun
        exact h
      · exact h.grows (grows_returnToSender hrun)
  | copyDeleted p id f =>
    obtain rfl | ⟨l, -, hrun⟩ := handler_cases hstep
    · exact h
    · split_ifs at hrun
      · exact h.grows (grows_deleteMessage hrun)
      · exact h.grows (grows_saveEntry hrun)
  | updateMessages order => exact h.grows (grows_expireAll hstep)
  | login p =>
    cases hstep
    show (w.login p).Coined
    unfold login
    split
    · exact h
    · exact ⟨h.once, h.fresh, h.lower⟩
  | logout p =>
    cases hstep
    exact ⟨h.once, h.fresh, h.lower⟩
  | clock t =>
    cases hstep
    exact ⟨h.once, h.fresh, h.lower⟩

/-! ## COD -/

/-- The amount has left the taker, and one message with it was delivered to
the sender. -/
structure CodPaid (w w' : MailWorld) (p : PlayerGuid) (m : MailMessage) : Prop where
  taker : (w'.coinage p).toNat + m.cod.toNat = (w.coinage p).toNat
  others : ∀ q, q ≠ p → w'.coinage q = w.coinage q
  sender : ∃ id pay, w'.log = w.log ++ [⟨id, m.sender_guid⟩] ∧ w'.mailbox id = some pay ∧
    pay.msg.player_guid = m.sender_guid ∧ pay.msg.money = m.cod

theorem codPaid_of_payCod (h : w.Keys) (hcoined : w.Coined) (hcod : 0 < m.cod)
    (hle : m.cod ≤ w.coinage p) (hpay : w.payCod p m = some w') : CodPaid w w' p m := by
  unfold payCod at hpay
  rw [if_pos hcod] at hpay
  have hcoinage := (grows_deliver hpay).coinage
  have h₁ : ((w.setCoinage p (debit (w.coinage p) m.cod)).attach (w.codPayment m)).Keys :=
    h.congr rfl rfl rfl rfl rfl rfl
  obtain ⟨id, hlog, hrows, -⟩ := at_deliver h₁ rfl hpay
  constructor
  · have hself : w'.coinage p = debit (w.coinage p) m.cod := by
      rw [hcoinage]
      exact Function.update_self _ _ _
    rw [hself, debit_exact_iff]
    have hlower := hcoined.lower p
    exact .inr ⟨UInt32.le_iff_toNat_le.1 hle, by omega⟩
  · intro q hq
    rw [hcoinage]
    exact Function.update_of_ne hq _ _
  · refine ⟨id, ⟨{ w.codPayment m with message_id := id }, w.log.length, w.log.length⟩, hlog, ?_,
      rfl, rfl⟩
    rw [hrows]
    exact Function.update_self _ _ _

theorem taken_payCod (h : w.Keys) (hpay : w.payCod p m = some w') : w'.taken = w.taken := by
  unfold payCod at hpay
  by_cases hcod : 0 < m.cod
  · rw [if_pos hcod] at hpay
    have h₁ : ((w.setCoinage p (debit (w.coinage p) m.cod)).attach (w.codPayment m)).Keys :=
      h.congr rfl rfl rfl rfl rfl rfl
    obtain ⟨id, -, -, -, -, -, -, htaken, -⟩ := at_deliver h₁ rfl hpay
    exact htaken
  · rw [if_neg hcod] at hpay
    cases hpay
    rfl

/-- Taking an item does nothing, or takes it, with its COD paid. -/
theorem takeItem_cod (h : w.Held) (hcoined : w.Coined) (hget : w.GetMessage p k = some l)
    {g : Guid} {stored : Bool} (hrun : w.HandleTakeItem p k g stored = some w') :
    w' = w ∨ w'.taken (.item g) = w.taken (.item g) + 1 ∧
      (if 0 < l.msg.cod then CodPaid w w' p l.msg else w'.coinage = w.coinage ∧ w'.log = w.log) ∧
      ∃ l', w'.GetMessage p k = some l' ∧ l'.msg.cod = 0 := by
  unfold HandleTakeItem at hrun
  rw [hget] at hrun
  simp only at hrun
  obtain ⟨hl, hp⟩ := h.keys.entry p k l hget
  split_ifs at hrun with hno hcod hstored
  · exact .inl (Option.some.inj hrun).symm
  · exact .inl (Option.some.inj hrun).symm
  · exact .inl (Option.some.inj hrun).symm
  · right
    obtain ⟨w₁, hpay, hrun⟩ := Option.bind_eq_some_iff.1 hrun
    obtain ⟨w₂, hsave, hrun⟩ := Option.bind_eq_some_iff.1 hrun
    cases hrun
    have hsame := emptied_same (w := w) { l.msg with items := l.msg.items.erase g }
    have hkeys := keys_payCod h.keys hpay
    have hnew : w₁.Filed k { l with msg := { w.itemTaken l.msg g with cod := 0 } } :=
      (filed_payCod hl hpay).handled rfl hsame.id hsame.player hsame.flag
    rw [saveEntry_eq hkeys hnew] at hsave
    cases hsave
    refine ⟨?_, ?_, ?_⟩
    · have htaken := congrFun (taken_payCod h.keys hpay) (.item g)
      show (MailWorld.setEntry _ p k _).taken (.item g) + (if Attachment.item g = .item g then 1
        else 0) = _
      rw [taken_setEntry, if_pos rfl]
      exact congrArg (· + 1) htaken
    · have hcodSame : (w.itemTaken l.msg g).cod = l.msg.cod := hsame.cod
      have hsenderSame : (w.itemTaken l.msg g).sender_guid = l.msg.sender_guid := hsame.sender
      have hcoinage : ((w₁.setRow k (some { l with msg := { w.itemTaken l.msg g with cod := 0 } })
          |>.setEntry p k (some { l with msg := { w.itemTaken l.msg g with cod := 0 } })).take
          (.item g)).coinage = w₁.coinage :=
        (grows_setEntry (w := w₁.setRow k _) _).coinage
      have hlog : ((w₁.setRow k (some { l with msg := { w.itemTaken l.msg g with cod := 0 } })
          |>.setEntry p k (some { l with msg := { w.itemTaken l.msg g with cod := 0 } })).take
          (.item g)).log = w₁.log := log_setEntry (w := w₁.setRow k _) _
      by_cases hpos : 0 < l.msg.cod
      · rw [if_pos hpos]
        have hle : l.msg.cod ≤ w.coinage p := by
          rw [← UInt32.not_lt]
          exact fun hlt => hcod ⟨hpos, hlt⟩
        have hpaid := codPaid_of_payCod h.keys hcoined (by rw [hcodSame]; exact hpos)
          (by rw [hcodSame]; exact hle) hpay
        obtain ⟨id, pay, hlog', hrow, hplayer, hmoney⟩ := hpaid.sender
        have hne : id ≠ k := by
          -- the id of the payment is new
          rintro rfl
          have hfiled := hkeys.row id pay hrow
          have hserial := hfiled.serial_eq hkeys (filed_payCod hl hpay).delivery rfl
          have hlast := hfiled.serial_eq hkeys (n := w.log.length) (d := ⟨id, _⟩)
            (by rw [hlog']; exact List.getElem?_concat_length) rfl
          have hlt := hl.serial_lt
          omega
        refine ⟨?_, ?_, id, pay, ?_, ?_, ?_, ?_⟩
        · rw [hcoinage, ← hcodSame]
          exact hpaid.taker
        · intro q hq
          rw [hcoinage]
          exact hpaid.others q hq
        · rw [hlog, hlog', hsenderSame]
        · show (MailWorld.setEntry _ p k _).mailbox id = _
          rw [mailbox_setEntry, mailbox_setRow_other _ hne]
          exact hrow
        · rw [hplayer, hsenderSame]
        · rw [hmoney, hcodSame]
      · rw [if_neg hpos, hcoinage, hlog]
        unfold payCod at hpay
        rw [if_neg (by rw [hcodSame]; exact hpos)] at hpay
        cases hpay
        exact ⟨rfl, rfl⟩
    · refine ⟨_, getMessage_setEntry_self _ ?_, rfl⟩
      exact online_of_getMessage (w := w₁) (getMessage_payCod h.keys hget hpay)

/-! ## Conservation -/

/-- What is attached lies in one message at most, and is taken no more
often than it was attached; a sum of money is attached once; what was
deleted or returned holds nothing; an item is taken only with its COD
paid. -/
structure Conserved (w : MailWorld) : Prop where
  oneMessage : ∀ k k' l l' a, w.At k l → w.At k' l' → a ∈ l.attachments → a ∈ l'.attachments →
    k = k'
  once : ∀ a, w.taken a ≤ w.attached a
  untaken : ∀ k l a, w.At k l → a ∈ l.attachments → w.taken a < w.attached a
  money : ∀ n, w.attached (.money n) ≤ 1
  deleted : ∀ k l, w.At k l → l.serial ∈ w.deleted → l.attachments = []
  cod : ∀ p k g stored l w', w.GetMessage p k = some l →
    w.HandleTakeItem p k g stored = some w' →
    w' = w ∨ w'.taken (.item g) = w.taken (.item g) + 1 ∧
      (if 0 < l.msg.cod then CodPaid w w' p l.msg else w'.coinage = w.coinage ∧ w'.log = w.log) ∧
      ∃ l', w'.GetMessage p k = some l' ∧ l'.msg.cod = 0

theorem Held.conserved (h : w.Held) (hcoined : w.Coined) : w.Conserved where
  oneMessage _ _ l l' _ hl hl' ha ha' := h.sound.single ⟨l, hl, ha⟩ ⟨l', hl', ha'⟩
  once a := h.sound.books a
  untaken _ l _ hl ha := h.sound.held ⟨l, hl, ha⟩
  money := hcoined.once
  deleted := h.emptied
  cod _ _ _ _ _ _ hget hrun := takeItem_cod h hcoined hget hrun

section New

variable {now : UInt32} {noExpiry : Bool} {replies : List Reply} {coinage : PlayerGuid → UInt32}
  {loose : Guid → Bool}

theorem held_new (hreplies : ∀ r ∈ replies, r.Inserted) :
    (new now noExpiry replies coinage loose).Held := by
  have hnone : ∀ k l, ¬ (new now noExpiry replies coinage loose).At k l := by
    rintro k l (hl | ⟨p, hl⟩)
    · cases hl
    · cases hl
  refine ⟨keys_new hreplies, ⟨?_, fun _ => Nat.le_refl _, ?_⟩, ?_, ?_, ?_, ?_, ?_, ?_⟩
  · rintro k k' a ⟨l, hl, -⟩
    exact absurd hl (hnone k l)
  · rintro k a ⟨l, hl, -⟩
    exact absurd hl (hnone k l)
  · intro p k l r hl
    exact absurd (.inr ⟨p, hl⟩) (hnone k l)
  · intro k l hl
    exact absurd hl (hnone k l)
  · rintro k g ⟨l, hl, -⟩
    exact absurd hl (hnone k l)
  · intro k l hl
    exact absurd hl (hnone k l)
  · intro k l hl
    exact absurd hl (hnone k l)
  · intro n hn
    cases hn

/-- Attachments are conserved through every run in which no message that
has a text copy is deleted, returned or expires with attachments, while
the database accepts the inserts and an erased message still shows its
id. -/
theorem mail_attachments_conserved {es : List MailEvent} (hreplies : ∀ r ∈ replies, r.Inserted)
    (hcoins : ∀ p, (coinage p).toNat < 2 ^ 31)
    (hrun : Run (Guarded MailSafe (PartialStep step))
      (new now noExpiry replies coinage loose) es w) : w.Conserved := by
  have hinv : w.Held ∧ w.Coined := by
    refine Run.invariant (fun w => w.Held ∧ w.Coined) ?_ hrun
      ⟨held_new hreplies, fun _ => Nat.zero_le _, fun _ _ => rfl, hcoins⟩
    rintro s e t ⟨hheld, hcoined⟩ ⟨hok, hstep⟩
    exact ⟨held_step hheld hok hstep, coined_step hcoined hheld.keys hstep⟩
  exact hinv.1.conserved hinv.2

end New

instance (w : MailWorld) (e : MailEvent) : Decidable (w.CopiesEmpty e) :=
  match e with
  | .mailDelete p id _ => inferInstanceAs (Decidable (∀ l ∈ w.GetMessage p id,
      ¬ l.msg.Expired w.now → l.msg.copy_made = true → l.attachments = []))
  | .returnToSender p id _ => inferInstanceAs (Decidable (∀ l ∈ w.GetMessage p id,
      ¬ (l.msg.Expired w.now ∨ l.msg.returned_flag = true) → l.msg.copy_made = true →
        l.attachments = []))
  | .updateMessages order => inferInstanceAs (Decidable (∀ id ∈ order, ∀ l ∈ w.mailbox id,
      w.selected l = true → l.msg.copy_made = true → l.attachments = []))
  | .send _ | .markAsRead _ _ | .takeItem _ _ _ _ | .takeMoney _ _ | .createTextItem _ _ _
  | .copyDeleted _ _ _ | .login _ | .logout _ | .clock _ => .isTrue trivial

instance (w : MailWorld) (e : MailEvent) : Decidable (w.MailSafe e) :=
  inferInstanceAs (Decidable (_ ∧ _))

/-- A parcel with an item and five coppers. -/
def parcel (cod : UInt32) : MailMessage :=
  { note ⟨31, by decide⟩ ⟨32, by decide⟩ "a" with items := [7], money := 5, cod := cod }

/-- A COD parcel is emptied, copied and deleted. -/
theorem mail_attachments_conserved_parcel : ∃ w, Run (Guarded MailSafe (PartialStep step))
    (new 100 false [.inserted 4, .inserted 5] (fun _ => 50) fun _ => true)
    [.send (parcel 3), .login ⟨32, by decide⟩, .takeItem ⟨32, by decide⟩ 4 7 true,
      .takeMoney ⟨32, by decide⟩ 4, .createTextItem ⟨32, by decide⟩ 4 true,
      .mailDelete ⟨32, by decide⟩ 4 4] w ∧ w.Conserved := by
  have hsome : (List.foldlM (fun w e => if MailSafe w e then step w e else none)
      (new 100 false [.inserted 4, .inserted 5] (fun _ => 50) fun _ => true)
      [.send (parcel 3), .login ⟨32, by decide⟩, .takeItem ⟨32, by decide⟩ 4 7 true,
        .takeMoney ⟨32, by decide⟩ 4, .createTextItem ⟨32, by decide⟩ 4 true,
        .mailDelete ⟨32, by decide⟩ 4 4]).isSome = true := by decide +kernel
  obtain ⟨w, hw⟩ := Option.isSome_iff_exists.1 hsome
  have hrun := Run.of_foldlM hw
  exact ⟨w, hrun, mail_attachments_conserved (by decide) (fun _ => by decide) hrun⟩

/-- A parcel is copied, returned, and taken from in both mailboxes. -/
theorem copied_parcel_taken_twice : ∃ w, Run (PartialStep step)
    (new 100 false [.inserted 4, .inserted 5] (fun _ => 50) fun _ => true)
    [.send (parcel 0), .login ⟨32, by decide⟩, .createTextItem ⟨32, by decide⟩ 4 true,
      .returnToSender ⟨32, by decide⟩ 4 4, .takeItem ⟨32, by decide⟩ 4 7 true,
      .login ⟨31, by decide⟩, .takeItem ⟨31, by decide⟩ 5 7 true] w ∧
    w.attached (.item 7) = 1 ∧ w.taken (.item 7) = 2 ∧ ¬ w.Conserved := by
  have hend : (List.foldlM (fun w e => if True then step w e else none)
      (new 100 false [.inserted 4, .inserted 5] (fun _ => 50) fun _ => true)
      [.send (parcel 0), .login ⟨32, by decide⟩, .createTextItem ⟨32, by decide⟩ 4 true,
        .returnToSender ⟨32, by decide⟩ 4 4, .takeItem ⟨32, by decide⟩ 4 7 true,
        .login ⟨31, by decide⟩, .takeItem ⟨31, by decide⟩ 5 7 true]).map
      (fun w => (w.attached (.item 7), w.taken (.item 7))) = some (1, 2) := by decide +kernel
  obtain ⟨w, hw, hbooks⟩ := Option.map_eq_some_iff.1 hend
  simp only [Prod.mk.injEq] at hbooks
  obtain ⟨hattached, htaken⟩ := hbooks
  refine ⟨w, (Run.of_foldlM hw).mono fun _ _ _ h => h.2, hattached, htaken, fun hall => ?_⟩
  have honce := hall.once (.item 7)
  omega

end MailWorld

end Mail

end HearthStone
