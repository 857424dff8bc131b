/-
HearthStone.Event.HolderTheorems — the list of one holder.

`HolderOk` says that a live event has at most one entry, and that what the
update has processed is behind its position. Then the next entry is not of
an event that has been processed already (`HolderOk.not_processed`).
There is one lemma for each thing that is done to a holder.
-/
import HearthStone.Event.EventableObject

namespace HearthStone

/-! ## One holder -/

namespace EventableObjectHolder

variable {H : EventableObjectHolder} {locked : Bool} {e x next next' : Nat} {l : List Nat}
  {live live' : Nat → Prop}

theorem count_entries (H : EventableObjectHolder) (x : Nat) :
    H.entries.count x = H.seen.count x + H.running.toList.count x + H.ahead.count x +
      H.beyond.count x + H.insertPool.count x := by
  simp only [entries, List.count_append]

theorem mem_entries : x ∈ H.entries ↔
    x ∈ H.seen ∨ x ∈ H.running.toList ∨ x ∈ H.ahead ∨ x ∈ H.beyond ∨ x ∈ H.insertPool := by
  simp [entries]

@[simp] theorem push_seen : (H.push locked e).seen = H.seen := by
  unfold push
  split
  · rfl
  · split <;> rfl

@[simp] theorem push_running : (H.push locked e).running = H.running := by
  unfold push
  split
  · rfl
  · split <;> rfl

@[simp] theorem push_update : (H.push locked e).update = H.update := by
  unfold push
  split
  · rfl
  · split <;> rfl

@[simp] theorem push_processed : (H.push locked e).processed = H.processed := by
  unfold push
  split
  · rfl
  · split <;> rfl

/-- Wherever it is pushed, there is one entry more. -/
theorem count_push : (H.push locked e).entries.count x = H.entries.count x + [e].count x := by
  rw [count_entries, count_entries]
  unfold push
  split
  · simp only [List.count_append]
    omega
  · split
    · simp only [List.count_append]
      omega
    · simp only [List.count_append]
      omega

theorem foldl_push (H : EventableObjectHolder) (locked : Bool) (l : List Nat) :
    let H' := l.foldl (EventableObjectHolder.push · locked) H
    (∀ x, H'.entries.count x = H.entries.count x + l.count x) ∧ H'.seen = H.seen ∧
      H'.running = H.running ∧ H'.update = H.update ∧ H'.processed = H.processed := by
  induction l generalizing H with
  | nil => exact ⟨fun x => rfl, rfl, rfl, rfl, rfl⟩
  | cons e l ih =>
    obtain ⟨hcount, hseen, hrunning, hupdate, hprocessed⟩ := ih (H.push locked e)
    refine ⟨?_, hseen.trans push_seen, hrunning.trans push_running, hupdate.trans push_update,
      hprocessed.trans push_processed⟩
    intro x
    have h := hcount x
    rw [count_push] at h
    rw [List.foldl_cons, h]
    simp only [List.count_cons, List.count_nil]
    omega

/-- A live event has one entry at most, and the entries the update has
processed are behind the position. -/
structure HolderOk (live : Nat → Prop) (next : Nat) (H : EventableObjectHolder) : Prop where
  fresh : ∀ e ∈ H.entries, e < next
  sole : ∀ e, live e → H.entries.count e ≤ 1
  once : (H.processed.map (·.event)).Nodup
  freshProcessed : ∀ p ∈ H.processed, p.event < next
  passed : H.update.isSome → ∀ p ∈ H.processed, live p.event →
    p.event ∈ H.seen ∨ p.event ∈ H.running.toList
  exact : ∀ p ∈ H.processed, ∀ t, p.after = some t →
    t.toNat + p.timeDifference.toNat = p.before.toNat

theorem holderOk_empty : HolderOk live next .empty := by
  refine ⟨?_, ?_, List.nodup_nil, ?_, ?_, ?_⟩
  · intro e he
    cases he
  · intro e _
    exact Nat.zero_le 1
  · intro p hp
    cases hp
  · intro _ p hp
    cases hp
  · intro p hp
    cases hp

/-- Fewer events are live, or new ones are that are on no list. -/
theorem HolderOk.mono (h : HolderOk live next H) (hnext : next ≤ next')
    (hlive : ∀ e, e < next → live' e → live e) : HolderOk live' next' H := by
  refine ⟨fun e he => Nat.lt_of_lt_of_le (h.fresh e he) hnext, ?_, h.once,
    fun p hp => Nat.lt_of_lt_of_le (h.freshProcessed p hp) hnext, ?_, h.exact⟩
  · intro e he
    by_cases hmem : e ∈ H.entries
    · exact h.sole e (hlive e (h.fresh e hmem) he)
    · rw [List.count_eq_zero_of_not_mem hmem]
      exact Nat.zero_le 1
  · intro hupdate p hp hp'
    exact h.passed hupdate p hp (hlive _ (h.freshProcessed p hp) hp')

/-- Events that are not on the list are added. -/
theorem HolderOk.foldl_push (h : HolderOk live next H) (hl : l.Nodup) (hnext : ∀ e ∈ l, e < next)
    (hnew : ∀ e ∈ l, live e → e ∉ H.entries) :
    HolderOk live next (l.foldl (EventableObjectHolder.push · locked) H) := by
  obtain ⟨hcount, hseen, hrunning, hupdate, hprocessed⟩ :=
    EventableObjectHolder.foldl_push H locked l
  refine ⟨?_, ?_, by rw [hprocessed]; exact h.once, by rw [hprocessed]; exact h.freshProcessed,
    by rw [hprocessed, hseen, hrunning, hupdate]; exact h.passed,
    by rw [hprocessed]; exact h.exact⟩
  · intro e he
    have hpos := List.count_pos_iff.2 he
    rw [hcount e] at hpos
    by_cases hmem : e ∈ l
    · exact hnext e hmem
    · rw [List.count_eq_zero_of_not_mem hmem] at hpos
      exact h.fresh e (List.count_pos_iff.1 hpos)
  · intro e he
    rw [hcount e]
    by_cases hmem : e ∈ l
    · rw [List.count_eq_zero_of_not_mem (hnew e hmem he), List.count_eq_one_of_mem hl hmem]
    · rw [List.count_eq_zero_of_not_mem hmem]
      exact h.sole e he

/-- The start of an update. -/
theorem HolderOk.begin (h : HolderOk live next H) {keep : Nat → Bool} {dt : UInt32} :
    HolderOk live next { H with
      ahead := H.ahead ++ H.insertPool.filter keep
      insertPool := []
      update := some dt
      processed := [] } := by
  have hle : ∀ x, (H.insertPool.filter keep).count x ≤ H.insertPool.count x :=
    fun x => List.filter_sublist.count_le x
  refine ⟨?_, ?_, List.nodup_nil, ?_, ?_, ?_⟩
  · intro e he
    refine h.fresh e (mem_entries.2 ?_)
    have hmem := mem_entries.1 he
    simp only [List.mem_append, List.mem_filter, List.not_mem_nil, or_false] at hmem
    tauto
  · intro e he
    have hold := h.sole e he
    have hfew := hle e
    rw [count_entries] at hold ⊢
    simp only [List.count_append, List.count_nil]
    omega
  · intro p hp
    cases hp
  · intro _ p hp
    cases hp
  · intro p hp
    cases hp

/-- The next entry is not among the processed ones, if it is live. -/
theorem HolderOk.not_processed (h : HolderOk live next H) (hupdate : H.update.isSome)
    (hahead : e ∈ H.ahead) (he : live e) : e ∉ H.processed.map (·.event) := by
  intro hmem
  obtain ⟨p, hp, rfl⟩ := List.mem_map.1 hmem
  have hcount := h.sole p.event he
  have hpos := List.count_pos_iff.2 hahead
  rw [count_entries] at hcount
  rcases h.passed hupdate p hp he with hseen | hrunning
  · have hpos' := List.count_pos_iff.2 hseen
    omega
  · have hpos' := List.count_pos_iff.2 hrunning
    omega

/-- An entry in front of the position is taken off the list. -/
theorem HolderOk.drop (h : HolderOk live next H) (hahead : H.ahead = e :: l) :
    HolderOk live next { H with ahead := l } := by
  refine ⟨?_, ?_, h.once, h.freshProcessed, h.passed, h.exact⟩
  · intro x hx
    refine h.fresh x (mem_entries.2 ?_)
    have hmem := mem_entries.1 hx
    rw [hahead, List.mem_cons]
    tauto
  · intro x hx
    have hold := h.sole x hx
    rw [count_entries] at hold ⊢
    rw [hahead, List.count_cons] at hold
    dsimp only
    omega

/-- An entry is processed: it goes behind the position, or its callback is
run. -/
theorem HolderOk.process (h : HolderOk live next H) (hupdate : H.update.isSome)
    (hrunning : H.running = none) (hahead : H.ahead = e :: l) (he : live e) {p : Processing}
    (hp : p.event = e) (hexact : ∀ t, p.after = some t →
      t.toNat + p.timeDifference.toNat = p.before.toNat) {seen : List Nat} {running : Option Nat}
    (hplace : (seen = H.seen ∧ running = some e) ∨
      (seen = H.seen ++ [e] ∧ running = H.running)) :
    HolderOk live next { H with
      seen := seen, running := running, ahead := l, processed := H.processed ++ [p] } := by
  have hmem : e ∈ H.ahead := by
    rw [hahead]
    exact List.mem_cons_self
  have hnew := h.not_processed hupdate hmem he
  have hcount : ∀ x, seen.count x + running.toList.count x =
      H.seen.count x + H.running.toList.count x + [e].count x := by
    intro x
    rcases hplace with ⟨rfl, rfl⟩ | ⟨rfl, rfl⟩
    · rw [hrunning]
      rfl
    · rw [List.count_append]
      exact Nat.add_right_comm _ _ _
  have hsame : ∀ x, ({ H with
      seen := seen, running := running, ahead := l, processed := H.processed ++ [p] } :
      EventableObjectHolder).entries.count x = H.entries.count x := by
    intro x
    have hx := hcount x
    rw [count_entries, count_entries, hahead, List.count_cons]
    rw [List.count_singleton] at hx
    dsimp only
    omega
  have hplaced : ∀ x, x ∈ H.seen ∨ x ∈ H.running.toList ∨ x = e →
      x ∈ seen ∨ x ∈ running.toList := by
    intro x hx
    rcases hplace with ⟨rfl, rfl⟩ | ⟨rfl, rfl⟩
    · rw [hrunning] at hx
      simpa using hx
    · rcases hx with hx | hx | hx
      · exact Or.inl (List.mem_append_left _ hx)
      · exact Or.inr hx
      · exact Or.inl (List.mem_append_right _ (List.mem_singleton.2 hx))
  refine ⟨?_, ?_, ?_, ?_, ?_, ?_⟩
  · intro x hx
    have hpos := List.count_pos_iff.2 hx
    rw [hsame x] at hpos
    exact h.fresh x (List.count_pos_iff.1 hpos)
  · intro x hx
    rw [hsame x]
    exact h.sole x hx
  · rw [List.map_append, List.map_singleton, hp]
    exact List.nodup_append.2 ⟨h.once, List.nodup_singleton e, by
      intro a ha b hb heq
      rw [List.mem_singleton.1 hb] at heq
      exact hnew (heq ▸ ha)⟩
  · intro q hq
    rcases List.mem_append.1 hq with hq | hq
    · exact h.freshProcessed q hq
    · rw [List.mem_singleton.1 hq, hp]
      exact h.fresh e (mem_entries.2 (by simp [hmem]))
  · intro _ q hq hlive
    rcases List.mem_append.1 hq with hq | hq
    · rcases h.passed hupdate q hq hlive with hseen | hrun
      · exact hplaced _ (Or.inl hseen)
      · exact hplaced _ (Or.inr (Or.inl hrun))
    · rw [List.mem_singleton.1 hq, hp]
      exact hplaced _ (Or.inr (Or.inr rfl))
  · intro q hq
    rcases List.mem_append.1 hq with hq | hq
    · exact h.exact q hq
    · rw [List.mem_singleton.1 hq]
      exact hexact

/-- The callback has returned, and the entry stays. -/
theorem HolderOk.keep (h : HolderOk live next H) (hrunning : H.running = some e) :
    HolderOk live next { H with running := none, seen := H.seen ++ [e] } := by
  have hsame : ∀ x, ({ H with running := none, seen := H.seen ++ [e] } :
      EventableObjectHolder).entries.count x = H.entries.count x := by
    intro x
    rw [count_entries, count_entries, hrunning]
    dsimp only [Option.toList]
    rw [List.count_append, List.count_nil]
    omega
  refine ⟨?_, ?_, h.once, h.freshProcessed, ?_, h.exact⟩
  · intro x hx
    have hpos := List.count_pos_iff.2 hx
    rw [hsame x] at hpos
    exact h.fresh x (List.count_pos_iff.1 hpos)
  · intro x hx
    rw [hsame x]
    exact h.sole x hx
  · intro hupdate p hp hlive
    have hold := h.passed hupdate p hp hlive
    rw [hrunning] at hold
    refine Or.inl (List.mem_append.2 ?_)
    simpa using hold

/-- The callback has returned, and the entry of a deleted event goes. -/
theorem HolderOk.erase (h : HolderOk live next H) (hrunning : H.running = some e)
    (he : ¬ live e) : HolderOk live next { H with running := none } := by
  refine ⟨?_, ?_, h.once, h.freshProcessed, ?_, h.exact⟩
  · intro x hx
    refine h.fresh x (mem_entries.2 ?_)
    have hmem := mem_entries.1 hx
    simp only [Option.toList_none, List.not_mem_nil, false_or] at hmem
    tauto
  · intro x hx
    have hold := h.sole x hx
    rw [count_entries] at hold ⊢
    simp only [Option.toList_none, List.count_nil]
    omega
  · intro hupdate p hp hlive
    have hold := h.passed hupdate p hp hlive
    rw [hrunning] at hold
    rcases hold with hseen | hrun
    · exact Or.inl hseen
    · have heq : p.event = e := by simpa using hrun
      rw [heq] at hlive
      exact absurd hlive he

/-- The end of an update. -/
theorem HolderOk.finish (h : HolderOk live next H) (hahead : H.ahead = []) :
    HolderOk live next
      { H with seen := [], ahead := H.seen ++ H.beyond, beyond := [], update := none } := by
  refine ⟨?_, ?_, h.once, h.freshProcessed, ?_, h.exact⟩
  · intro x hx
    refine h.fresh x (mem_entries.2 ?_)
    have hmem := mem_entries.1 hx
    simp only [List.not_mem_nil, List.mem_append, false_or] at hmem
    tauto
  · intro x hx
    have hold := h.sole x hx
    rw [count_entries] at hold ⊢
    rw [hahead] at hold
    simp only [List.count_nil, List.count_append] at hold ⊢
    omega
  · intro hupdate
    cases hupdate

end EventableObjectHolder

end HearthStone
