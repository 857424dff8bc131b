/-
HearthStone.Mail.MailboxKeys — every letter is kept under the id of the
row it was saved as.

* `Filed` ties a letter to the delivery that made it: its id, its
  recipient, and whether it has been deleted since.
* `Keys` is the invariant: rows and entries are filed under their ids,
  the ids of the deliveries differ, and what has not been deleted is
  there.
* A delivery gets an id of its own (`keys_deliver`); saving an entry
  changes nothing in where it is filed (`keys_saveEntry`); deleting takes
  out one id (`keys_remove`).

`mailbox_keyed` is the result: while the database accepts the inserts,
and an erased message still shows its id.
-/
import HearthStone.Mail.MailSystem

namespace HearthStone

namespace Mail

namespace MailWorld

open Lib

variable {w w' : MailWorld} {p q : PlayerGuid} {k key : UInt32} {l l' : Letter} {m : MailMessage}

/-! ## Rows and entries -/

@[simp] theorem getMessage_setRow (id : UInt32) (o : Option Letter) :
    (w.setRow id o).GetMessage p k = w.GetMessage p k := rfl

@[simp] theorem mailbox_setEntry (o : Option Letter) :
    (w.setEntry q key o).mailbox = w.mailbox := by
  unfold setEntry
  split <;> rfl

@[simp] theorem log_setEntry (o : Option Letter) : (w.setEntry q key o).log = w.log := by
  unfold setEntry
  split <;> rfl

@[simp] theorem deleted_setEntry (o : Option Letter) :
    (w.setEntry q key o).deleted = w.deleted := by
  unfold setEntry
  split <;> rfl

@[simp] theorem given_setEntry (o : Option Letter) : (w.setEntry q key o).given = w.given := by
  unfold setEntry
  split <;> rfl

@[simp] theorem replies_setEntry (o : Option Letter) :
    (w.setEntry q key o).replies = w.replies := by
  unfold setEntry
  split <;> rfl

/-- The player is online. -/
def Online (w : MailWorld) (p : PlayerGuid) : Prop := (w.m_mailBox p).isSome

theorem online_setEntry (o : Option Letter) : (w.setEntry q key o).Online p ↔ w.Online p := by
  unfold setEntry Online
  cases hbox : w.m_mailBox q with
  | none => rfl
  | some box =>
    by_cases hp : p = q
    · subst hp
      simp [hbox]
    · simp [Function.update_of_ne hp]

theorem online_of_getMessage (h : w.GetMessage p k = some l) : w.Online p := by
  obtain ⟨box, hbox, -⟩ := Option.bind_eq_some_iff.1 h
  unfold Online
  rw [hbox]
  rfl

/-- The entry that is set. -/
theorem getMessage_setEntry_self (o : Option Letter) (hon : w.Online p) :
    (w.setEntry p k o).GetMessage p k = o := by
  obtain ⟨box, hbox⟩ := Option.isSome_iff_exists.1 hon
  unfold setEntry GetMessage
  simp [hbox]

/-- All other entries. -/
theorem getMessage_setEntry_other (o : Option Letter) (hne : ¬ (p = q ∧ k = key)) :
    (w.setEntry q key o).GetMessage p k = w.GetMessage p k := by
  unfold setEntry GetMessage
  cases hbox : w.m_mailBox q with
  | none => rfl
  | some box =>
    by_cases hp : p = q
    · subst hp
      have hk : k ≠ key := fun h => hne ⟨rfl, h⟩
      simp [hbox, Function.update_of_ne hk]
    · simp [Function.update_of_ne hp]

theorem mailbox_setRow_self (id : UInt32) (o : Option Letter) : (w.setRow id o).mailbox id = o :=
  Function.update_self _ _ _

theorem mailbox_setRow_other {id : UInt32} (o : Option Letter) (hne : k ≠ id) :
    (w.setRow id o).mailbox k = w.mailbox k := Function.update_of_ne hne _ _

/-! ## The invariant -/

/-- A letter kept under this key: its id, the delivery that made it, and
the mark on it. -/
structure Filed (w : MailWorld) (key : UInt32) (l : Letter) : Prop where
  id : l.msg.message_id = key
  delivery : w.log[l.serial]? = some ⟨key, l.msg.player_guid⟩
  marked : l.msg.deleted_flag = true → l.serial ∈ w.deleted

/-- Rows and entries are where the ids say. -/
structure Keys (w : MailWorld) : Prop where
  accepted : ∀ r ∈ w.replies, r.Inserted
  given : ∀ d ∈ w.log, d.id ∈ w.given ∧ d.id ≠ 0
  distinct : (w.log.map Delivery.id).Nodup
  row : ∀ k l, w.mailbox k = some l → w.Filed k l
  entry : ∀ p k l, w.GetMessage p k = some l → w.Filed k l ∧ l.msg.player_guid = p
  present : ∀ n d, w.log[n]? = some d → n ∉ w.deleted →
    (w.mailbox d.id).isSome ∧ (w.Online d.player → (w.GetMessage d.player d.id).isSome)

/-- Deliveries with one id are one delivery. -/
theorem Keys.serial_unique (h : w.Keys) {i j : Nat} {d e : Delivery} (hi : w.log[i]? = some d)
    (hj : w.log[j]? = some e) (hid : d.id = e.id) : i = j := by
  have hi' : (w.log.map Delivery.id)[i]? = some d.id := by
    rw [List.getElem?_map, hi]
    rfl
  have hj' : (w.log.map Delivery.id)[j]? = some d.id := by
    rw [List.getElem?_map, hj, hid]
    rfl
  obtain ⟨hlt, -⟩ := List.getElem?_eq_some_iff.1 hi'
  exact (List.getElem?_inj hlt h.distinct).1 (hi'.trans hj'.symm)

theorem Filed.ne_zero (h : w.Keys) (hl : w.Filed k l) : k ≠ 0 :=
  (h.given _ (List.mem_of_getElem? hl.delivery)).2

/-- The log and the marks only grow. -/
theorem Filed.mono (hl : w.Filed k l) {e : List Delivery} (hlog : w'.log = w.log ++ e)
    (hdel : ∀ n ∈ w.deleted, n ∈ w'.deleted) : w'.Filed k l where
  id := hl.id
  delivery := by
    obtain ⟨hlt, -⟩ := List.getElem?_eq_some_iff.1 hl.delivery
    rw [hlog, List.getElem?_append_left hlt]
    exact hl.delivery
  marked hflag := hdel _ (hl.marked hflag)

theorem Filed.setEntry (hl : w.Filed k l) (o : Option Letter) :
    (w.setEntry q key o).Filed k l where
  id := hl.id
  delivery := by
    rw [log_setEntry]
    exact hl.delivery
  marked hflag := by
    rw [deleted_setEntry]
    exact hl.marked hflag

/-- A letter that differs in none of this. -/
theorem Filed.same (hl : w.Filed k l) (hid : l'.msg.message_id = l.msg.message_id)
    (hserial : l'.serial = l.serial) (hplayer : l'.msg.player_guid = l.msg.player_guid)
    (hflag : l'.msg.deleted_flag = true → l.msg.deleted_flag = true ∨ l.serial ∈ w.deleted) :
    w.Filed k l' where
  id := hid.trans hl.id
  delivery := by
    rw [hserial, hplayer]
    exact hl.delivery
  marked h := by
    rw [hserial]
    exact (hflag h).elim hl.marked fun h => h

/-! ## What the operations are made of -/

/-- What a row or an entry of this key may be: a letter that is filed
there, or nothing, where every delivery with the id has been deleted. -/
def Allowed (w : MailWorld) (k : UInt32) (o : Option Letter) : Prop :=
  (∀ l, o = some l → w.Filed k l) ∧
    (o = none → ∀ n d, w.log[n]? = some d → d.id = k → n ∈ w.deleted)

theorem Filed.allowed (hl : w.Filed k l) : w.Allowed k (some l) :=
  ⟨fun _ h => Option.some.inj h ▸ hl, nofun⟩

theorem allowed_none (hgone : ∀ n d, w.log[n]? = some d → d.id = k → n ∈ w.deleted) :
    w.Allowed k none := ⟨nofun, fun _ => hgone⟩

/-- What has not been deleted is not set to nothing. -/
theorem Allowed.isSome {o : Option Letter} (ho : w.Allowed k o) {n : Nat} {d : Delivery}
    (hd : w.log[n]? = some d) (hn : n ∉ w.deleted) (hid : d.id = k) : o.isSome := by
  cases o with
  | none => exact absurd (ho.2 rfl n d hd hid) hn
  | some l => rfl

/-- A row is written or deleted. -/
theorem Keys.setRow (h : w.Keys) {o : Option Letter} (ho : w.Allowed k o) :
    (w.setRow k o).Keys where
  accepted := h.accepted
  given := h.given
  distinct := h.distinct
  row j x hx := by
    by_cases hj : j = k
    · subst hj
      rw [mailbox_setRow_self] at hx
      have hl := ho.1 x hx
      exact ⟨hl.id, hl.delivery, hl.marked⟩
    · rw [mailbox_setRow_other _ hj] at hx
      have hrow := h.row j x hx
      exact ⟨hrow.id, hrow.delivery, hrow.marked⟩
  entry p j x hx := by
    obtain ⟨hf, hp⟩ := h.entry p j x hx
    exact ⟨⟨hf.id, hf.delivery, hf.marked⟩, hp⟩
  present n d hd hn := by
    obtain ⟨hrow, hentry⟩ := h.present n d hd hn
    refine ⟨?_, hentry⟩
    by_cases hj : d.id = k
    · rw [hj, mailbox_setRow_self]
      exact ho.isSome hd hn hj
    · rw [mailbox_setRow_other _ hj]
      exact hrow

/-- An entry is written or erased. -/
theorem Keys.setEntry (h : w.Keys) {o : Option Letter} (ho : w.Allowed k o)
    (hp : ∀ l, o = some l → l.msg.player_guid = p) : (w.setEntry p k o).Keys where
  accepted := by
    rw [replies_setEntry]
    exact h.accepted
  given := by
    rw [log_setEntry, given_setEntry]
    exact h.given
  distinct := by
    rw [log_setEntry]
    exact h.distinct
  row j x hx := by
    rw [mailbox_setEntry] at hx
    exact (h.row j x hx).setEntry _
  entry q j x hx := by
    by_cases hself : q = p ∧ j = k
    · obtain ⟨rfl, rfl⟩ := hself
      have hon : w.Online q := (online_setEntry _).1 (online_of_getMessage hx)
      rw [getMessage_setEntry_self _ hon] at hx
      exact ⟨(ho.1 x hx).setEntry _, hp x hx⟩
    · rw [getMessage_setEntry_other _ hself] at hx
      obtain ⟨hf, hq⟩ := h.entry q j x hx
      exact ⟨hf.setEntry _, hq⟩
  present n d hd hn := by
    rw [log_setEntry] at hd
    rw [deleted_setEntry] at hn
    obtain ⟨hrow, hentry⟩ := h.present n d hd hn
    rw [mailbox_setEntry, online_setEntry]
    refine ⟨hrow, fun hon => ?_⟩
    by_cases hself : d.player = p ∧ d.id = k
    · obtain ⟨hplayer, hid⟩ := hself
      rw [hplayer, hid, getMessage_setEntry_self _ (hplayer ▸ hon)]
      exact ho.isSome hd hn hid
    · rw [getMessage_setEntry_other _ hself]
      exact hentry hon

/-- A delivery is marked as deleted. -/
theorem Keys.mark (h : w.Keys) (n : Nat) : (w.mark n).Keys where
  accepted := h.accepted
  given := h.given
  distinct := h.distinct
  row j x hx := by
    have hrow := h.row j x hx
    exact ⟨hrow.id, hrow.delivery, fun hf => List.mem_cons_of_mem _ (hrow.marked hf)⟩
  entry p j x hx := by
    obtain ⟨hf, hp⟩ := h.entry p j x hx
    exact ⟨⟨hf.id, hf.delivery, fun hflag => List.mem_cons_of_mem _ (hf.marked hflag)⟩, hp⟩
  present i d hd hi := h.present i d hd fun hmem => hi (List.mem_cons_of_mem _ hmem)

/-! ## Saving and delivering -/

/-- A message with an id is saved as its row. -/
theorem saveToDB_old (hl : l.msg.message_id ≠ 0) :
    w.SaveToDB l = some (l, w.setRow l.msg.message_id (some l)) := by
  unfold SaveToDB
  rw [if_neg hl]

/-- A message without one gets the next id that the database gives. -/
theorem saveToDB_new (h : ∀ r ∈ w.replies, r.Inserted) (hl : l.msg.message_id = 0)
    (hsave : w.SaveToDB l = some (l', w')) :
    ∃ id rs, w.replies = .inserted id :: rs ∧ id ≠ 0 ∧ id ∉ w.given ∧ w.mailbox id = none ∧
      l' = { l with msg := { l.msg with message_id := id } } ∧
      w' = { w.setRow id (some l') with given := id :: w.given, replies := rs } := by
  unfold SaveToDB at hsave
  rw [if_pos hl] at hsave
  cases hr : w.replies with
  | nil =>
    rw [hr] at hsave
    cases hsave
  | cons r rs =>
    rw [hr] at hsave h
    cases r with
    | refused id => exact (h _ List.mem_cons_self).elim
    | inserted id =>
      simp only at hsave
      split_ifs at hsave with hfresh
      cases hsave
      exact ⟨id, rs, rfl, hfresh.1, hfresh.2.1, hfresh.2.2.1, rfl, rfl⟩

/-- An entry is saved as the row of its key. -/
theorem saveEntry_eq (h : w.Keys) (hl : w.Filed k l) :
    w.saveEntry p k l = some ((w.setRow k (some l)).setEntry p k (some l)) := by
  have hid := hl.id
  unfold saveEntry
  rw [saveToDB_old (hid ▸ hl.ne_zero h), hid]
  rfl

theorem keys_saveEntry (h : w.Keys) (hl : w.Filed k l) (hp : l.msg.player_guid = p)
    (hsave : w.saveEntry p k l = some w') : w'.Keys := by
  rw [saveEntry_eq h hl] at hsave
  cases hsave
  have hl' : (w.setRow k (some l)).Filed k l := ⟨hl.id, hl.delivery, hl.marked⟩
  exact (h.setRow hl.allowed).setEntry hl'.allowed fun _ hx => Option.some.inj hx ▸ hp

/-- The letter of a delivery, and what the delivery does. -/
theorem deliverMessage_eq (h : ∀ r ∈ w.replies, r.Inserted) (hm : m.message_id = 0) {o : Nat}
    (hdeliver : w.DeliverMessage m o = some w') :
    ∃ id rs, w.replies = .inserted id :: rs ∧ id ≠ 0 ∧ id ∉ w.given ∧ w.mailbox id = none ∧
      w' = MailWorld.setEntry
        { w.setRow id (some ⟨{ m with message_id := id }, w.log.length, o⟩) with
          given := id :: w.given
          replies := rs
          log := w.log ++ [⟨id, m.player_guid⟩] }
        m.player_guid id (some ⟨{ m with message_id := id }, w.log.length, o⟩) := by
  unfold DeliverMessage at hdeliver
  obtain ⟨⟨l', w₁⟩, hsave, hrest⟩ := Option.bind_eq_some_iff.1 hdeliver
  obtain ⟨id, rs, hr, hid, hgiven, hrow, rfl, rfl⟩ := saveToDB_new h hm hsave
  cases hrest
  exact ⟨id, rs, hr, hid, hgiven, hrow, rfl⟩

/-- A delivery adds a letter under an id of its own. -/
theorem keys_deliver (h : w.Keys) (hm : m.message_id = 0) (hflag : m.deleted_flag = false)
    {o : Nat} (hdeliver : w.DeliverMessage m o = some w') : w'.Keys := by
  obtain ⟨id, rs, hr, hid, hgiven, -, rfl⟩ := deliverMessage_eq h.accepted hm hdeliver
  -- before the message is an entry, only its own presence is open
  set new : Letter := ⟨{ m with message_id := id }, w.log.length, o⟩ with hnew
  set w₁ : MailWorld :=
    { w.setRow id (some new) with
      given := id :: w.given
      replies := rs
      log := w.log ++ [⟨id, m.player_guid⟩] } with hw₁
  have hlog : w₁.log = w.log ++ [⟨id, m.player_guid⟩] := rfl
  have hfresh : ∀ d ∈ w.log, d.id ≠ id := fun d hd heq => hgiven (heq ▸ (h.given d hd).1)
  have hfile : w₁.Filed id new := by
    refine ⟨rfl, ?_, fun hdel => ?_⟩
    · rw [hlog]
      exact List.getElem?_concat_length
    · rw [hnew] at hdel
      exact absurd hdel (by simp [hflag])
  have hold : ∀ j x, w.Filed j x → w₁.Filed j x := fun j x hx => hx.mono hlog fun _ hn => hn
  constructor
  · rw [replies_setEntry]
    intro r hmem
    exact h.accepted r (hr ▸ List.mem_cons_of_mem _ hmem)
  · rw [log_setEntry, given_setEntry, hlog]
    intro d hd
    rcases List.mem_append.1 hd with hd | hd
    · exact ⟨List.mem_cons_of_mem _ (h.given d hd).1, (h.given d hd).2⟩
    · rw [List.mem_singleton] at hd
      subst hd
      exact ⟨List.mem_cons_self, hid⟩
  · rw [log_setEntry, hlog, List.map_append, List.nodup_append]
    refine ⟨h.distinct, List.nodup_singleton _, ?_⟩
    intro a ha b hb
    obtain ⟨d, hd, rfl⟩ := List.mem_map.1 ha
    rw [List.map_singleton, List.mem_singleton] at hb
    rw [hb]
    exact hfresh d hd
  · intro j x hx
    rw [mailbox_setEntry] at hx
    by_cases hj : j = id
    · subst hj
      have hself : w₁.mailbox j = some new := mailbox_setRow_self (w := w) j (some new)
      rw [hself] at hx
      rw [← Option.some.inj hx]
      exact hfile.setEntry _
    · have hother : w₁.mailbox j = w.mailbox j := mailbox_setRow_other (w := w) (some new) hj
      rw [hother] at hx
      exact (hold j x (h.row j x hx)).setEntry _
  · intro q j x hx
    by_cases hself : q = m.player_guid ∧ j = id
    · obtain ⟨rfl, rfl⟩ := hself
      rw [getMessage_setEntry_self _ ((online_setEntry _).1 (online_of_getMessage hx))] at hx
      rw [← Option.some.inj hx]
      exact ⟨hfile.setEntry _, rfl⟩
    · rw [getMessage_setEntry_other _ hself] at hx
      obtain ⟨hf, hq⟩ := h.entry q j x hx
      exact ⟨(hold j x hf).setEntry _, hq⟩
  · intro n d hd hn
    rw [log_setEntry, hlog] at hd
    rw [deleted_setEntry] at hn
    rw [mailbox_setEntry, online_setEntry]
    rcases Nat.lt_or_ge n w.log.length with hlt | hge
    · rw [List.getElem?_append_left hlt] at hd
      have hne := hfresh d (List.mem_of_getElem? hd)
      obtain ⟨hrow, hentry⟩ := h.present n d hd hn
      constructor
      · have hother : w₁.mailbox d.id = w.mailbox d.id :=
          mailbox_setRow_other (w := w) (some new) hne
        rw [hother]
        exact hrow
      · intro hon
        rw [getMessage_setEntry_other _ fun hself => hne hself.2]
        exact hentry hon
    · rw [List.getElem?_append_right hge] at hd
      have hd' := List.mem_singleton.1 (List.mem_of_getElem? hd)
      subst hd'
      constructor
      · have hself : w₁.mailbox id = some new := mailbox_setRow_self (w := w) id (some new)
        rw [hself]
        rfl
      · intro hon
        rw [getMessage_setEntry_self _ hon]
        rfl

/-! ## Deleting and returning -/

/-- The letter of a key is of the one delivery with this id. -/
theorem Filed.serial_eq (hl : w.Filed k l) (h : w.Keys) {n : Nat} {d : Delivery}
    (hd : w.log[n]? = some d) (hid : d.id = k) : n = l.serial :=
  h.serial_unique hd hl.delivery hid

/-- A letter marked as deleted, with the flag set. -/
theorem Filed.flag (hl : w.Filed k l) : (w.mark l.serial).Filed k l.flagged :=
  ⟨hl.id, hl.delivery, fun _ => List.mem_cons_self⟩

/-- The row of a deleted letter with a text copy. -/
theorem keys_flagRow (h : w.Keys) (hl : w.Filed k l) :
    (w.mark l.serial).SaveToDB l.flagged =
        some (l.flagged, (w.mark l.serial).setRow k (some l.flagged)) ∧
      ((w.mark l.serial).setRow k (some l.flagged)).Keys := by
  have hid : l.flagged.msg.message_id = k := hl.id
  refine ⟨?_, (h.mark l.serial).setRow hl.flag.allowed⟩
  rw [saveToDB_old (hid ▸ hl.ne_zero h), hid]

theorem keys_deleteMessage (h : w.Keys) (hl : w.Filed k l) (hp : l.msg.player_guid = p)
    {o : Option (PlayerGuid × UInt32)} {f : UInt32} (ho : o = none ∨ o = some (p, k) ∧ f = k)
    (hdel : w.DeleteMessage p o l f = some w') : w'.Keys := by
  have hid := hl.id
  unfold DeleteMessage at hdel
  by_cases hcopy : l.msg.copy_made
  · rw [if_pos hcopy] at hdel
    obtain ⟨hsave, hkeys⟩ := keys_flagRow h hl
    rw [hsave] at hdel
    rcases ho with rfl | ⟨rfl, -⟩
    · cases hdel
      exact hkeys
    · cases hdel
      have hflag : ((w.mark l.serial).setRow k (some l.flagged)).Filed k l.flagged :=
        ⟨hl.flag.id, hl.flag.delivery, hl.flag.marked⟩
      exact hkeys.setEntry hflag.allowed fun _ hx => Option.some.inj hx ▸ hp
  · rw [if_neg hcopy] at hdel
    have hrow : (if o.isSome = true then f else l.msg.message_id) = k := by
      rcases ho with rfl | ⟨rfl, rfl⟩
      · exact hid
      · rfl
    rw [hrow, hid] at hdel
    cases hdel
    have hgone : ∀ n d, w.log[n]? = some d → d.id = k → n ∈ l.serial :: w.deleted := by
      intro n d hd hdid
      rw [hl.serial_eq h hd hdid]
      exact List.mem_cons_self
    refine ((h.mark l.serial).setEntry (allowed_none hgone) nofun).setRow (allowed_none ?_)
    rw [log_setEntry, deleted_setEntry]
    exact hgone

/-- A row that is deleted, or kept with the flag for its text copy. -/
theorem keys_dropRow (h : w.Keys) (hl : w.Filed k l)
    (hdrop : w.dropRow l = some w') : w'.Keys := by
  unfold dropRow at hdrop
  by_cases hcopy : l.msg.copy_made
  · rw [if_pos hcopy] at hdrop
    obtain ⟨hsave, hkeys⟩ := keys_flagRow h hl
    rw [hsave] at hdrop
    cases hdrop
    exact hkeys
  · rw [if_neg hcopy, hl.id] at hdrop
    cases hdrop
    refine (h.mark l.serial).setRow (allowed_none fun n d hd hdid => ?_)
    rw [hl.serial_eq h hd hdid]
    exact List.mem_cons_self

theorem keys_returnToSender (h : w.Keys) (hl : w.Filed k l) (hp : l.msg.player_guid = p)
    {o : Option (PlayerGuid × UInt32)} {f : UInt32} (ho : o = none ∨ o = some (p, k) ∧ f = k)
    (hret : w.ReturnToSender o l f = some w') : w'.Keys := by
  unfold ReturnToSender at hret
  obtain ⟨w₁, hold, hdeliver⟩ := Option.bind_eq_some_iff.1 hret
  refine keys_deliver (m := w₁.returned l.msg) ?_ rfl rfl hdeliver
  unfold removeOld at hold
  by_cases hon : (w.m_mailBox l.msg.player_guid).isSome
  · rw [if_pos hon] at hold
    rw [hp] at hold
    exact keys_deleteMessage h hl hp ho hold
  · rw [if_neg hon] at hold
    exact keys_dropRow h hl hold

theorem keys_expireMessage (h : w.Keys) (hl : w.Filed k l)
    (hexp : w.expireMessage l = some w') : w'.Keys := by
  unfold expireMessage at hexp
  by_cases hempty : l.msg.items = [] ∧ l.msg.money = 0
  · rw [if_pos hempty] at hexp
    exact keys_dropRow h hl hexp
  · rw [if_neg hempty] at hexp
    exact keys_returnToSender h hl rfl (.inl rfl) hexp

/-! ## The pass over the expired rows -/

/-- Deliveries and marks are added only; nothing is attached or paid. -/
structure Grows (w w' : MailWorld) : Prop where
  log : ∃ e, w'.log = w.log ++ e
  deleted : ∀ n ∈ w.deleted, n ∈ w'.deleted
  attached : w'.attached = w.attached
  coinage : w'.coinage = w.coinage

theorem Grows.trans {u : MailWorld} (h : Grows w w') (h' : Grows w' u) : Grows w u where
  log := by
    obtain ⟨e, he⟩ := h.log
    obtain ⟨e', he'⟩ := h'.log
    exact ⟨e ++ e', by rw [he', he, List.append_assoc]⟩
  deleted n hn := h'.deleted n (h.deleted n hn)
  attached := h'.attached.trans h.attached
  coinage := h'.coinage.trans h.coinage

theorem Grows.filed (h : Grows w w') (hl : w.Filed k l) : w'.Filed k l := by
  obtain ⟨e, he⟩ := h.log
  exact hl.mono he h.deleted

theorem grows_mark (n : Nat) : Grows w (w.mark n) :=
  ⟨⟨[], (List.append_nil _).symm⟩, fun _ hn => List.mem_cons_of_mem _ hn, rfl, rfl⟩

theorem grows_setEntry (o : Option Letter) : Grows w (w.setEntry p k o) where
  log := ⟨[], by rw [log_setEntry, List.append_nil]⟩
  deleted n hn := by rwa [deleted_setEntry]
  attached := by
    unfold setEntry
    split <;> rfl
  coinage := by
    unfold setEntry
    split <;> rfl

theorem grows_setRow (id : UInt32) (o : Option Letter) : Grows w (w.setRow id o) :=
  ⟨⟨[], (List.append_nil _).symm⟩, fun _ hn => hn, rfl, rfl⟩

theorem grows_saveToDB (hsave : w.SaveToDB l = some (l', w')) : Grows w w' := by
  have hsame : w'.log = w.log ∧ w'.deleted = w.deleted ∧ w'.attached = w.attached ∧
      w'.coinage = w.coinage := by
    unfold SaveToDB at hsave
    by_cases hid : l.msg.message_id = 0
    · rw [if_pos hid] at hsave
      cases hr : w.replies with
      | nil =>
        rw [hr] at hsave
        cases hsave
      | cons r rs =>
        rw [hr] at hsave
        cases r with
        | refused id =>
          cases hsave
          exact ⟨rfl, rfl, rfl, rfl⟩
        | inserted id =>
          simp only at hsave
          split_ifs at hsave
          cases hsave
          exact ⟨rfl, rfl, rfl, rfl⟩
    · rw [if_neg hid] at hsave
      cases hsave
      exact ⟨rfl, rfl, rfl, rfl⟩
  obtain ⟨hlog, hdeleted, hattached, hcoinage⟩ := hsame
  exact ⟨⟨[], by rw [hlog, List.append_nil]⟩, fun n hn => hdeleted ▸ hn, hattached, hcoinage⟩

theorem grows_deliver {o : Nat} (hdeliver : w.DeliverMessage m o = some w') : Grows w w' := by
  unfold DeliverMessage at hdeliver
  obtain ⟨⟨l', w₁⟩, hsave, hrest⟩ := Option.bind_eq_some_iff.1 hdeliver
  cases hrest
  have hlog : Grows w₁ { w₁ with log := w₁.log ++ [⟨l'.msg.message_id, m.player_guid⟩] } :=
    ⟨⟨_, rfl⟩, fun n hn => hn, rfl, rfl⟩
  exact ((grows_saveToDB hsave).trans hlog).trans (grows_setEntry _)

theorem grows_dropRow (hdrop : w.dropRow l = some w') : Grows w w' := by
  unfold dropRow at hdrop
  by_cases hcopy : l.msg.copy_made
  · rw [if_pos hcopy] at hdrop
    obtain ⟨⟨l', w₁⟩, hsave, rfl⟩ := Option.map_eq_some_iff.1 hdrop
    exact (grows_mark l.serial).trans (grows_saveToDB hsave)
  · rw [if_neg hcopy] at hdrop
    cases hdrop
    exact (grows_mark l.serial).trans (grows_setRow _ _)

theorem grows_deleteMessage {o : Option (PlayerGuid × UInt32)} {f : UInt32}
    (hdel : w.DeleteMessage p o l f = some w') : Grows w w' := by
  unfold DeleteMessage at hdel
  by_cases hcopy : l.msg.copy_made
  · rw [if_pos hcopy] at hdel
    obtain ⟨⟨l', w₁⟩, hsave, hrest⟩ := Option.bind_eq_some_iff.1 hdel
    have h₁ := (grows_mark l.serial).trans (grows_saveToDB hsave)
    cases o with
    | none =>
      cases hrest
      exact h₁
    | some r =>
      cases hrest
      exact h₁.trans (grows_setEntry _)
  · rw [if_neg hcopy] at hdel
    cases hdel
    exact ((grows_mark l.serial).trans (grows_setEntry _)).trans (grows_setRow _ _)

theorem grows_removeOld {o : Option (PlayerGuid × UInt32)} {f : UInt32}
    (hrem : w.removeOld o l f = some w') : Grows w w' := by
  unfold removeOld at hrem
  by_cases hon : (w.m_mailBox l.msg.player_guid).isSome
  · rw [if_pos hon] at hrem
    exact grows_deleteMessage hrem
  · rw [if_neg hon] at hrem
    exact grows_dropRow hrem

theorem grows_returnToSender {o : Option (PlayerGuid × UInt32)} {f : UInt32}
    (hret : w.ReturnToSender o l f = some w') : Grows w w' := by
  obtain ⟨w₁, hrem, hdeliver⟩ := Option.bind_eq_some_iff.1 hret
  exact (grows_removeOld hrem).trans (grows_deliver hdeliver)

theorem grows_saveEntry (hsave : w.saveEntry p k l = some w') : Grows w w' := by
  obtain ⟨⟨l', w₁⟩, hrow, hentry⟩ := Option.bind_eq_some_iff.1 hsave
  cases hentry
  exact (grows_saveToDB hrow).trans (grows_setEntry _)

theorem grows_expireMessage (hexp : w.expireMessage l = some w') : Grows w w' := by
  unfold expireMessage at hexp
  by_cases hempty : l.msg.items = [] ∧ l.msg.money = 0
  · rw [if_pos hempty] at hexp
    exact grows_dropRow hexp
  · rw [if_neg hempty] at hexp
    exact grows_returnToSender hexp

theorem grows_expireAll {ls : List Letter} (hpass : ls.foldlM expireMessage w = some w') :
    Grows w w' := by
  induction ls generalizing w with
  | nil =>
    cases hpass
    exact ⟨⟨[], (List.append_nil _).symm⟩, fun _ hn => hn, rfl, rfl⟩
  | cons l ls ih =>
    rw [List.foldlM_cons] at hpass
    obtain ⟨w₁, hexp, hpass⟩ := Option.bind_eq_some_iff.1 hpass
    exact (grows_expireMessage hexp).trans (ih hpass)

/-- The letters of a result stay filed while others are worked on. -/
theorem keys_expireAll {ls : List Letter} (h : w.Keys) (hls : ∀ l ∈ ls, ∃ k, w.Filed k l)
    (hpass : ls.foldlM expireMessage w = some w') : w'.Keys := by
  induction ls generalizing w with
  | nil =>
    cases hpass
    exact h
  | cons l ls ih =>
    rw [List.foldlM_cons] at hpass
    obtain ⟨w₁, hexp, hpass⟩ := Option.bind_eq_some_iff.1 hpass
    obtain ⟨⟨k, hl⟩, hls⟩ := List.forall_mem_cons.1 hls
    refine ih (keys_expireMessage h hl hexp) (fun x hx => ?_) hpass
    obtain ⟨j, hj⟩ := hls x hx
    exact ⟨j, (grows_expireMessage hexp).filed hj⟩

theorem keys_updateMessages (h : w.Keys) {order : List UInt32}
    (hpass : w.UpdateMessages order = some w') : w'.Keys := by
  refine keys_expireAll h (fun l hl => ?_) hpass
  obtain ⟨k, -, hk⟩ := List.mem_filterMap.1 (List.mem_filter.1 hl).1
  exact ⟨k, h.row k l hk⟩

/-! ## Login and logout -/

theorem keys_login (h : w.Keys) (p : PlayerGuid) : (w.login p).Keys := by
  unfold login
  cases hbox : w.m_mailBox p with
  | some box => exact h
  | none =>
    refine ⟨h.accepted, h.given, h.distinct, ?_, ?_, ?_⟩
    · intro k l hl
      have hrow := h.row k l hl
      exact ⟨hrow.id, hrow.delivery, hrow.marked⟩
    · intro q k l hl
      by_cases hq : q = p
      · subst hq
        have hl' : (w.mailbox k).filter (fun l => l.msg.player_guid = q ∧
            (l.msg.deleted_flag = false ∨ l.msg.copy_made)) = some l := by
          simpa [GetMessage] using hl
        obtain ⟨hrow, hkeep⟩ := Option.filter_eq_some_iff.1 hl'
        have hf := h.row k l hrow
        exact ⟨⟨hf.id, hf.delivery, hf.marked⟩, (of_decide_eq_true hkeep).1⟩
      · have hl' : w.GetMessage q k = some l := by
          simpa [GetMessage, Function.update_of_ne hq] using hl
        obtain ⟨hf, hp⟩ := h.entry q k l hl'
        exact ⟨⟨hf.id, hf.delivery, hf.marked⟩, hp⟩
    · intro n d hd hn
      obtain ⟨hrow, hentry⟩ := h.present n d hd hn
      refine ⟨hrow, fun hon => ?_⟩
      by_cases hq : d.player = p
      · -- the row is loaded: it is of this player and has no flag
        obtain ⟨l, hl⟩ := Option.isSome_iff_exists.1 hrow
        have hf := h.row d.id l hl
        have hserial := hf.serial_eq h hd rfl
        have hplayer : l.msg.player_guid = d.player := by
          have hdel := hf.delivery
          rw [← hserial, hd] at hdel
          exact (congrArg Delivery.player (Option.some.inj hdel)).symm
        have hflag : l.msg.deleted_flag = false := by
          rw [Bool.eq_false_iff]
          intro hset
          exact hn (hserial ▸ hf.marked hset)
        show (MailWorld.GetMessage _ d.player d.id).isSome
        simp [GetMessage, hq, hl, hplayer ▸ hq, hflag]
      · have hon' : w.Online d.player := by
          simpa [Online, Function.update_of_ne hq] using hon
        show (MailWorld.GetMessage _ d.player d.id).isSome
        simpa [GetMessage, Function.update_of_ne hq] using hentry hon'

theorem keys_logout (h : w.Keys) (p : PlayerGuid) : (w.logout p).Keys := by
  have hget : ∀ q k, q ≠ p → (w.logout p).GetMessage q k = w.GetMessage q k := by
    intro q k hq
    simp [GetMessage, logout, Function.update_of_ne hq]
  have hoff : ∀ k, (w.logout p).GetMessage p k = none := by
    intro k
    simp [GetMessage, logout]
  refine ⟨h.accepted, h.given, h.distinct, ?_, ?_, ?_⟩
  · intro k l hl
    have hrow := h.row k l hl
    exact ⟨hrow.id, hrow.delivery, hrow.marked⟩
  · intro q k l hl
    by_cases hq : q = p
    · rw [hq, hoff] at hl
      cases hl
    · rw [hget q k hq] at hl
      obtain ⟨hf, hp⟩ := h.entry q k l hl
      exact ⟨⟨hf.id, hf.delivery, hf.marked⟩, hp⟩
  · intro n d hd hn
    obtain ⟨hrow, hentry⟩ := h.present n d hd hn
    refine ⟨hrow, fun hon => ?_⟩
    by_cases hq : d.player = p
    · have hno : ¬ (w.logout p).Online p := by simp [Online, logout]
      exact absurd (hq ▸ hon) hno
    · rw [hget _ _ hq]
      refine hentry ?_
      simpa [Online, logout, Function.update_of_ne hq] using hon

/-- Keys do not depend on anything but letters, ids and books. -/
theorem Keys.congr (h : w.Keys) (hbox : w'.m_mailBox = w.m_mailBox)
    (hrows : w'.mailbox = w.mailbox) (hgiven : w'.given = w.given)
    (hreplies : w'.replies = w.replies) (hlog : w'.log = w.log)
    (hdeleted : w'.deleted = w.deleted) : w'.Keys := by
  have hget : ∀ p k, w'.GetMessage p k = w.GetMessage p k := by
    intro p k
    unfold GetMessage
    rw [hbox]
  have hfiled : ∀ k l, w.Filed k l → w'.Filed k l := by
    intro k l hl
    exact ⟨hl.id, hlog ▸ hl.delivery, hdeleted ▸ hl.marked⟩
  refine ⟨hreplies ▸ h.accepted, ?_, hlog ▸ h.distinct, ?_, ?_, ?_⟩
  · rw [hlog, hgiven]
    exact h.given
  · intro k l hl
    exact hfiled k l (h.row k l (hrows ▸ hl))
  · intro p k l hl
    rw [hget] at hl
    exact ⟨hfiled k l (h.entry p k l hl).1, (h.entry p k l hl).2⟩
  · intro n d hd hn
    obtain ⟨hrow, hentry⟩ := h.present n d (hlog ▸ hd) (hdeleted ▸ hn)
    refine ⟨hrows ▸ hrow, fun hon => ?_⟩
    rw [hget]
    refine hentry ?_
    unfold Online at hon ⊢
    rwa [hbox] at hon

/-! ## Runs -/

/-- An erased message still shows its id. -/
def FreedIntact (_ : MailWorld) : MailEvent → Prop
  | .mailDelete _ message_id freed => freed = message_id
  | .returnToSender _ message_id freed => freed = message_id
  | .copyDeleted _ message_id freed => freed = message_id
  | _ => True

instance (w : MailWorld) (e : MailEvent) : Decidable (w.FreedIntact e) :=
  match e with
  | .mailDelete _ message_id freed => inferInstanceAs (Decidable (freed = message_id))
  | .returnToSender _ message_id freed => inferInstanceAs (Decidable (freed = message_id))
  | .copyDeleted _ message_id freed => inferInstanceAs (Decidable (freed = message_id))
  | .send _ | .markAsRead _ _ | .takeItem _ _ _ _ | .takeMoney _ _ | .createTextItem _ _ _
  | .updateMessages _ | .login _ | .logout _ | .clock _ => .isTrue trivial

theorem keys_send (h : w.Keys) (hsend : w.send m = some w') : w'.Keys := by
  unfold send at hsend
  rw [Option.ite_none_right_eq_some] at hsend
  obtain ⟨⟨hid, -, hflag, -⟩, hdeliver⟩ := hsend
  have h₁ : (w.attach m).Keys := h.congr rfl rfl rfl rfl rfl rfl
  exact keys_deliver h₁ hid hflag hdeliver

/-- The payment of a COD message is a delivery. -/
theorem keys_payCod (h : w.Keys) (hpay : w.payCod p m = some w') : w'.Keys := by
  unfold payCod at hpay
  by_cases hcod : 0 < m.cod
  · rw [if_pos hcod] at hpay
    have h₁ : ((w.setCoinage p (debit (w.coinage p) m.cod)).attach (w.codPayment m)).Keys :=
      h.congr rfl rfl rfl rfl rfl rfl
    exact keys_deliver h₁ rfl rfl hpay
  · rw [if_neg hcod] at hpay
    cases hpay
    exact h

theorem filed_payCod (hl : w.Filed k l) (hpay : w.payCod p m = some w') : w'.Filed k l := by
  unfold payCod at hpay
  by_cases hcod : 0 < m.cod
  · rw [if_pos hcod] at hpay
    exact (grows_deliver hpay).filed ⟨hl.id, hl.delivery, hl.marked⟩
  · rw [if_neg hcod] at hpay
    cases hpay
    exact hl

/-- The fields that a handler leaves as they are. -/
structure SameLetter (m m' : MailMessage) : Prop where
  id : m'.message_id = m.message_id
  player : m'.player_guid = m.player_guid
  flag : m'.deleted_flag = m.deleted_flag
  items : m'.items = m.items
  money : m'.money = m.money
  sender : m'.sender_guid = m.sender_guid
  cod : m'.cod = m.cod

theorem shortExpiry_same (m : MailMessage) : SameLetter m (w.shortExpiry m) := by
  unfold shortExpiry
  split_ifs <;> exact ⟨rfl, rfl, rfl, rfl, rfl, rfl, rfl⟩

theorem emptied_same (m : MailMessage) : SameLetter m (w.emptied m) := by
  unfold emptied
  split_ifs
  · exact shortExpiry_same m
  · exact ⟨rfl, rfl, rfl, rfl, rfl, rfl, rfl⟩

theorem readMessage_same (m : MailMessage) : SameLetter m (w.readMessage m) := by
  unfold readMessage
  split_ifs
  · exact ⟨rfl, rfl, rfl, rfl, rfl, rfl, rfl⟩
  · have h := shortExpiry_same (w := w) { m with read_flag := true }
    exact ⟨h.id, h.player, h.flag, h.items, h.money, h.sender, h.cod⟩

/-- The letter of an entry that a handler has worked on. -/
theorem Filed.handled (hl : w.Filed k l) (hserial : l'.serial = l.serial)
    (hid : l'.msg.message_id = l.msg.message_id)
    (hplayer : l'.msg.player_guid = l.msg.player_guid)
    (hflag : l'.msg.deleted_flag = l.msg.deleted_flag) : w.Filed k l' :=
  hl.same hid hserial hplayer fun hset => .inl (hflag ▸ hset)

/-- What a handler does with the entry it finds. -/
theorem handler_cases {f : Letter → Option MailWorld}
    (hrun : (match w.GetMessage p k with
      | none => some w
      | some l => f l) = some w') :
    w' = w ∨ ∃ l, w.GetMessage p k = some l ∧ f l = some w' := by
  cases hget : w.GetMessage p k with
  | none =>
    rw [hget] at hrun
    exact .inl (Option.some.inj hrun).symm
  | some l =>
    rw [hget] at hrun
    exact .inr ⟨l, rfl, hrun⟩

theorem keys_markAsRead (h : w.Keys) (hrun : w.HandleMarkAsRead p k = some w') : w'.Keys := by
  obtain rfl | ⟨l, hget, hrun⟩ := handler_cases hrun
  · exact h
  · obtain ⟨hl, hp⟩ := h.entry p k l hget
    split_ifs at hrun
    · cases hrun
      exact h
    · have hsame := readMessage_same (w := w) l.msg
      have hnew : w.Filed k { l with msg := w.readMessage l.msg } :=
        hl.handled rfl hsame.id hsame.player hsame.flag
      exact keys_saveEntry h hnew (hsame.player.trans hp) hrun

theorem keys_mailDelete (h : w.Keys) (hrun : w.HandleMailDelete p k k = some w') : w'.Keys := by
  obtain rfl | ⟨l, hget, hrun⟩ := handler_cases hrun
  · exact h
  · obtain ⟨hl, hp⟩ := h.entry p k l hget
    split_ifs at hrun
    · cases hrun
      exact h
    · exact keys_deleteMessage h hl hp (.inr ⟨rfl, rfl⟩) hrun

theorem keys_takeItem (h : w.Keys) {g : Guid} {stored : Bool}
    (hrun : w.HandleTakeItem p k g stored = some w') : w'.Keys := by
  obtain rfl | ⟨l, hget, hrun⟩ := handler_cases hrun
  · exact h
  · obtain ⟨hl, hp⟩ := h.entry p k l hget
    split_ifs at hrun
    · cases hrun
      exact h
    · cases hrun
      exact h
    · cases hrun
      exact h
    · obtain ⟨w₁, hpay, hrun⟩ := Option.bind_eq_some_iff.1 hrun
      obtain ⟨w₂, hsave, hrun⟩ := Option.bind_eq_some_iff.1 hrun
      cases hrun
      have hsame := emptied_same (w := w) { l.msg with items := l.msg.items.erase g }
      have hnew : w₁.Filed k { l with msg := { w.itemTaken l.msg g with cod := 0 } } :=
        (filed_payCod hl hpay).handled rfl hsame.id hsame.player hsame.flag
      have h₂ := keys_saveEntry (keys_payCod h hpay) hnew (hsame.player.trans hp) hsave
      exact h₂.congr rfl rfl rfl rfl rfl rfl

theorem keys_takeMoney (h : w.Keys) (hrun : w.HandleTakeMoney p k = some w') : w'.Keys := by
  obtain rfl | ⟨l, hget, hrun⟩ := handler_cases hrun
  · exact h
  · obtain ⟨hl, hp⟩ := h.entry p k l hget
    split_ifs at hrun
    · cases hrun
      exact h
    · cases hrun
      exact h
    · obtain ⟨w₁, hsave, hrun⟩ := Option.bind_eq_some_iff.1 hrun
      cases hrun
      have hsame := emptied_same (w := w) { l.msg with money := 0 }
      have h₁ : (w.setCoinage p (credit (w.coinage p) l.msg.money)).Keys :=
        h.congr rfl rfl rfl rfl rfl rfl
      have hnew : w.Filed k { l with msg := w.moneyTaken l.msg } :=
        hl.handled rfl hsame.id hsame.player hsame.flag
      have h₂ := keys_saveEntry h₁ ⟨hnew.id, hnew.delivery, hnew.marked⟩
        (hsame.player.trans hp) hsave
      exact h₂.congr rfl rfl rfl rfl rfl rfl

theorem keys_returnHandler (h : w.Keys) (hrun : w.HandleReturnToSender p k k = some w') :
    w'.Keys := by
  obtain rfl | ⟨l, hget, hrun⟩ := handler_cases hrun
  · exact h
  · obtain ⟨hl, hp⟩ := h.entry p k l hget
    split_ifs at hrun
    · cases hrun
      exact h
    · exact keys_returnToSender h hl hp (.inr ⟨rfl, rfl⟩) hrun

theorem keys_createTextItem (h : w.Keys) {stored : Bool}
    (hrun : w.HandleMailCreateTextItem p k stored = some w') : w'.Keys := by
  obtain rfl | ⟨l, hget, hrun⟩ := handler_cases hrun
  · exact h
  · obtain ⟨hl, hp⟩ := h.entry p k l hget
    split_ifs at hrun
    · cases hrun
      exact h
    · have hnew : w.Filed k { l with msg := { l.msg with copy_made := true } } :=
        hl.same rfl rfl rfl .inl
      exact keys_saveEntry h hnew hp hrun

theorem keys_copyDeleted (h : w.Keys) (hrun : w.OnMessageCopyDeleted p k k = some w') :
    w'.Keys := by
  obtain rfl | ⟨l, hget, hrun⟩ := handler_cases hrun
  · exact h
  · obtain ⟨hl, hp⟩ := h.entry p k l hget
    have hl' : w.Filed k (uncopied l) :=
      hl.same rfl rfl rfl .inl
    split_ifs at hrun
    · exact keys_deleteMessage h hl' hp (.inr ⟨rfl, rfl⟩) hrun
    · exact keys_saveEntry h hl' hp hrun

theorem keys_step (h : w.Keys) {e : MailEvent} (hok : w.FreedIntact e)
    (hstep : w.step e = some w') : w'.Keys := by
  cases e with
  | send m => exact keys_send h hstep
  | markAsRead p id => exact keys_markAsRead h hstep
  | mailDelete p id f =>
    obtain rfl : f = id := hok
    exact keys_mailDelete h hstep
  | takeItem p id g stored => exact keys_takeItem h hstep
  | takeMoney p id => exact keys_takeMoney h hstep
  | returnToSender p id f =>
    obtain rfl : f = id := hok
    exact keys_returnHandler h hstep
  | createTextItem p id stored => exact keys_createTextItem h hstep
  | copyDeleted p id f =>
    obtain rfl : f = id := hok
    exact keys_copyDeleted h hstep
  | updateMessages order => exact keys_updateMessages h hstep
  | login p =>
    cases hstep
    exact keys_login h p
  | logout p =>
    cases hstep
    exact keys_logout h p
  | clock t =>
    cases hstep
    exact h.congr rfl rfl rfl rfl rfl rfl

/-! ## Mailbox keying -/

/-- What the keys of a mailbox are meant for: every entry has the id of
the row it is saved as, and what was delivered and not deleted is there
once, as a row, and as an entry when the recipient is online. -/
structure Keyed (w : MailWorld) : Prop where
  saved : ∀ p k l, w.GetMessage p k = some l → l.msg.message_id = k ∧ k ≠ 0 ∧
    ∀ r, w.mailbox k = some r → r.serial = l.serial
  row : ∀ n d, w.log[n]? = some d → n ∉ w.deleted →
    ∃ r, w.mailbox d.id = some r ∧ r.serial = n ∧ r.msg.message_id = d.id ∧
      ∀ k r', w.mailbox k = some r' → r'.serial = n → k = d.id
  entry : ∀ n d, w.log[n]? = some d → n ∉ w.deleted → w.Online d.player →
    ∃ l, w.GetMessage d.player d.id = some l ∧ l.serial = n ∧
      ∀ p k l', w.GetMessage p k = some l' → l'.serial = n → p = d.player ∧ k = d.id

theorem Keys.keyed (h : w.Keys) : w.Keyed where
  saved p k l hl := by
    obtain ⟨hf, -⟩ := h.entry p k l hl
    refine ⟨hf.id, hf.ne_zero h, fun r hr => ?_⟩
    exact hf.serial_eq h (h.row k r hr).delivery rfl
  row n d hd hn := by
    obtain ⟨r, hr⟩ := Option.isSome_iff_exists.1 (h.present n d hd hn).1
    have hf := h.row d.id r hr
    refine ⟨r, hr, (hf.serial_eq h hd rfl).symm, hf.id, fun k r' hr' hserial => ?_⟩
    have hdel := (h.row k r' hr').delivery
    rw [hserial, hd] at hdel
    exact (congrArg Delivery.id (Option.some.inj hdel)).symm
  entry n d hd hn hon := by
    obtain ⟨l, hl⟩ := Option.isSome_iff_exists.1 ((h.present n d hd hn).2 hon)
    obtain ⟨hf, -⟩ := h.entry d.player d.id l hl
    refine ⟨l, hl, (hf.serial_eq h hd rfl).symm, fun p k l' hl' hserial => ?_⟩
    obtain ⟨hf', hp⟩ := h.entry p k l' hl'
    have hdel := hf'.delivery
    rw [hserial, hd] at hdel
    have heq := Option.some.inj hdel
    exact ⟨hp.symm.trans (congrArg Delivery.player heq).symm, (congrArg Delivery.id heq).symm⟩

theorem keys_new {now : UInt32} {noExpiry : Bool} {replies : List Reply}
    {coinage : PlayerGuid → UInt32} {loose : Guid → Bool} (hreplies : ∀ r ∈ replies, r.Inserted) :
    (new now noExpiry replies coinage loose).Keys where
  accepted := hreplies
  given _ hd := nomatch hd
  distinct := List.nodup_nil
  row _ _ hl := nomatch hl
  entry _ _ _ hl := nomatch hl
  present _ _ hd := nomatch hd

/-- While the database accepts the inserts, the mailboxes stay keyed: in
every state of every run of sends, deletions, returns, saves, expiries,
logins and logouts. -/
theorem mailbox_keyed {now : UInt32} {noExpiry : Bool} {replies : List Reply}
    {coinage : PlayerGuid → UInt32} {loose : Guid → Bool} {es : List MailEvent}
    (hreplies : ∀ r ∈ replies, r.Inserted)
    (hrun : Run (Guarded FreedIntact (PartialStep step))
      (new now noExpiry replies coinage loose) es w) : w.Keyed :=
  (Run.invariant Keys (fun _ _ _ h hstep => keys_step h hstep.1 hstep.2) hrun
    (keys_new hreplies)).keyed

/-- A letter without attachments. -/
def note (sender player : PlayerGuid) (body : String) : MailMessage where
  message_id := 0
  message_type := 0
  player_guid := player
  sender_guid := sender
  subject := "s"
  body := body
  money := 0
  items := []
  cod := 0
  stationary := 41
  expire_time := 0
  delivery_time := 0
  copy_made := false
  read_flag := false
  deleted_flag := false
  returned_flag := false

/-- Two messages to a player that is online, one of which he returns. -/
theorem mailbox_keyed_two : ∃ w, Run (Guarded FreedIntact (PartialStep step))
    (new 100 false [.inserted 4, .inserted 5, .inserted 6] (fun _ => 0) fun _ => true)
    [.login ⟨32, by decide⟩, .send (note ⟨31, by decide⟩ ⟨32, by decide⟩ "a"),
      .send (note ⟨31, by decide⟩ ⟨32, by decide⟩ "b"), .markAsRead ⟨32, by decide⟩ 4,
      .returnToSender ⟨32, by decide⟩ 5 5] w ∧ w.Keyed := by
  have hsome : (List.foldlM (fun w e => if FreedIntact w e then step w e else none)
      (new 100 false [.inserted 4, .inserted 5, .inserted 6] (fun _ => 0) fun _ => true)
      [.login ⟨32, by decide⟩, .send (note ⟨31, by decide⟩ ⟨32, by decide⟩ "a"),
        .send (note ⟨31, by decide⟩ ⟨32, by decide⟩ "b"), .markAsRead ⟨32, by decide⟩ 4,
        .returnToSender ⟨32, by decide⟩ 5 5]).isSome = true := by decide +kernel
  obtain ⟨w, hw⟩ := Option.isSome_iff_exists.1 hsome
  have hrun := Run.of_foldlM hw
  exact ⟨w, hrun, mailbox_keyed (by decide) hrun⟩

theorem length_le_escape (cs : List Char) : cs.length ≤ (cs.flatMap escapeChar).length := by
  induction cs with
  | nil => exact Nat.le_refl _
  | cons c cs ih =>
    have hone : 1 ≤ (escapeChar c).length := by
      unfold escapeChar
      split <;> simp
    rw [List.flatMap_cons, List.length_append, List.length_cons]
    omega

/-- The statement is no shorter than the body. -/
theorem body_le_replaceText (m : MailMessage) :
    m.body.toList.length ≤ (m.replaceText.map Char.utf8Size).sum := by
  have hchars : ∀ cs : List Char, cs.length ≤ (cs.map Char.utf8Size).sum := by
    intro cs
    induction cs with
    | nil => exact Nat.le_refl _
    | cons c cs ih =>
      have hone := c.utf8Size_pos
      rw [List.map_cons, List.sum_cons, List.length_cons]
      omega
  have htext : (escapeString m.body).length ≤ m.replaceText.length := by
    unfold MailMessage.replaceText
    simp only [List.length_append]
    omega
  exact Nat.le_trans (length_le_escape _) (Nat.le_trans htext (hchars _))

/-- The body of 10000 letters is too long for the statement; the message
gets the id of the one before it and takes its place in the mailbox. -/
theorem long_body_overwrites :
    (note ⟨31, by decide⟩ ⟨32, by decide⟩ (String.ofList (List.replicate 10000 'a'))).AddQueryFits =
        false ∧
      ∃ w, Run (PartialStep step)
        (new 100 false [.inserted 4, .refused 4] (fun _ => 0) fun _ => true)
        [.login ⟨32, by decide⟩, .send (note ⟨31, by decide⟩ ⟨32, by decide⟩ "a"),
          .send (note ⟨31, by decide⟩ ⟨32, by decide⟩ (String.ofList (List.replicate 10000 'a')))] w ∧
        ¬ w.Keyed := by
  constructor
  · have hlong := body_le_replaceText
      (note ⟨31, by decide⟩ ⟨32, by decide⟩ (String.ofList (List.replicate 10000 'a')))
    have hbody : (note ⟨31, by decide⟩ ⟨32, by decide⟩
        (String.ofList (List.replicate 10000 'a'))).body.toList.length = 10000 := by
      show (String.ofList (List.replicate 10000 'a')).toList.length = 10000
      rw [String.toList_ofList, List.length_replicate]
    rw [hbody] at hlong
    exact decide_eq_false (Nat.not_lt.2 hlong)
  · have hend : (List.foldlM (fun w e => if True then step w e else none)
        (new 100 false [.inserted 4, .refused 4] (fun _ => 0) fun _ => true)
        [.login ⟨32, by decide⟩, .send (note ⟨31, by decide⟩ ⟨32, by decide⟩ "a"),
          .send (note ⟨31, by decide⟩ ⟨32, by decide⟩
            (String.ofList (List.replicate 10000 'a')))]).map
        (fun w => ((w.GetMessage ⟨32, by decide⟩ 4).map Letter.serial, w.log[0]?, w.deleted,
          (w.m_mailBox ⟨32, by decide⟩).isSome)) =
        some (some 1, some ⟨4, ⟨32, by decide⟩⟩, [], true) := by decide +kernel
    obtain ⟨w, hw, hfacts⟩ := Option.map_eq_some_iff.1 hend
    simp only [Prod.mk.injEq] at hfacts
    obtain ⟨hserial, hlog, hdeleted, hon⟩ := hfacts
    refine ⟨w, (Run.of_foldlM hw).mono fun _ _ _ h => h.2, fun hkeyed => ?_⟩
    -- the first message was delivered and not deleted, but its entry is the second
    obtain ⟨l, hl, hzero, -⟩ := hkeyed.entry 0 _ hlog (by simp [hdeleted]) hon
    rw [hl] at hserial
    have hone : l.serial = 1 := Option.some.inj hserial
    omega

end MailWorld

end Mail

end HearthStone
