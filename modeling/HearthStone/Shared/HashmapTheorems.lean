/-
HearthStone.Shared.HashmapTheorems — the table against a finite map.

* `entries` are the pairs in the slots that are in use; `WellFormed` says
  that their keys differ and that `size` counts them.
* `put` always returns (`put_total`), and counts `size` up by one
  (`put_size`). Of an absent key it adds one entry, also when the table
  is doubled first (`put_absent`); `remove` takes one out.
* `hashmap_refines`: through every run whose puts are all of absent keys
  the table is the finite map. A put of a key that is present breaks it.
-/
import HearthStone.Shared.Hashmap
import HearthStone.Lib.Run
import Mathlib

namespace HearthStone

namespace Hashmap

open Lib

variable {K V : Type*} [DecidableEq K] [Zero K] [Zero V] {h : HashInt K}
  {m : Hashmap K V} {k : K} {v : V} {i : Nat}

/-- What a slot contributes: its pair, if it is in use. -/
def carried (e : HashmapElement K V) : Option (K × V) :=
  if e.in_use then some (e.key, e.data) else none

/-- The pairs in the slots in use. -/
def entries (m : Hashmap K V) : List (K × V) := m.data.filterMap carried

/-- The slots hold each key once, and `size` counts them. -/
structure WellFormed (m : Hashmap K V) : Prop where
  pos : 0 < m.table_size
  size_eq : m.size = m.entries.length
  nodup : (m.entries.map Prod.fst).Nodup

omit [DecidableEq K] [Zero K] [Zero V] in
@[simp] theorem carried_free {e : HashmapElement K V} (he : e.in_use = false) :
    carried e = none := by simp [carried, he]

omit [DecidableEq K] [Zero K] [Zero V] in
@[simp] theorem carried_used {e : HashmapElement K V} (he : e.in_use = true) :
    carried e = some (e.key, e.data) := by simp [carried, he]

omit [DecidableEq K] in
@[simp] theorem carried_blank : carried (blank : HashmapElement K V) = none := rfl

omit [DecidableEq K] [Zero K] [Zero V] in
/-- A pair is in the table when some slot in use holds it. -/
theorem mem_entries :
    (k, v) ∈ m.entries ↔ ∃ (i : Nat) (e : HashmapElement K V),
      m.data[i]? = some e ∧ e.in_use = true ∧ e.key = k ∧ e.data = v := by
  unfold entries
  rw [List.mem_filterMap]
  constructor
  · rintro ⟨e, he, hc⟩
    obtain ⟨i, hi⟩ := List.mem_iff_getElem?.1 he
    unfold carried at hc
    split_ifs at hc with hu
    cases hc
    exact ⟨i, e, hi, hu, rfl, rfl⟩
  · rintro ⟨i, e, hi, hu, rfl, rfl⟩
    exact ⟨e, List.mem_of_getElem? hi, carried_used hu⟩

omit [DecidableEq K] [Zero K] [Zero V] in
theorem mem_keys :
    k ∈ m.entries.map Prod.fst ↔ ∃ (i : Nat) (e : HashmapElement K V),
      m.data[i]? = some e ∧ e.in_use = true ∧ e.key = k := by
  rw [List.mem_map]
  constructor
  · rintro ⟨⟨k', v⟩, hkv, rfl⟩
    obtain ⟨i, e, hi, hu, hk, -⟩ := mem_entries.1 hkv
    exact ⟨i, e, hi, hu, hk⟩
  · rintro ⟨i, e, hi, hu, hk⟩
    exact ⟨(k, e.data), mem_entries.2 ⟨i, e, hi, hu, hk, rfl⟩, rfl⟩

omit [DecidableEq K] [Zero K] [Zero V] in
theorem entries_length_le : m.entries.length ≤ m.table_size :=
  List.length_filterMap_le _ _

omit [DecidableEq K] [Zero K] [Zero V] in
/-- A table with fewer entries than slots has a free slot. -/
theorem exists_free (hlt : m.entries.length < m.table_size) :
    ∃ (i : Nat) (e : HashmapElement K V), m.data[i]? = some e ∧ e.in_use = false := by
  by_contra hno
  have hall : ∀ e ∈ m.data, (carried e).isSome := by
    intro e he
    obtain ⟨i, hi⟩ := List.mem_iff_getElem?.1 he
    cases hu : e.in_use with
    | false => exact absurd ⟨i, e, hi, hu⟩ hno
    | true => simp [hu]
  exact absurd (List.filterMap_length_eq_length.2 hall) (Nat.ne_of_lt hlt)

/-! ## Finding a key -/

omit [DecidableEq K] [Zero K] [Zero V] in
theorem mem_probe (hi : i < m.table_size) : i ∈ m.probe h k :=
  mem_probeFrom (h.index_lt k (Nat.zero_lt_of_lt hi)) hi

omit [Zero K] [Zero V] in
theorem find_eq_none : m.find h k = none ↔ k ∉ m.entries.map Prod.fst := by
  unfold find
  rw [List.find?_eq_none, mem_keys]
  constructor
  · rintro hnone ⟨i, e, hi, hu, hk⟩
    have hlt : i < m.table_size := (List.getElem?_eq_some_iff.1 hi).1
    have hi' := hnone i (mem_probe hlt)
    simp [hi, hu, hk] at hi'
  · rintro hno i - hany
    cases hi : m.data[i]? with
    | none => simp [hi] at hany
    | some e =>
      simp only [hi, Option.any_some, Bool.and_eq_true, beq_iff_eq] at hany
      exact hno ⟨i, e, hi, hany.2, hany.1⟩

omit [Zero K] [Zero V] in
theorem find_eq_some (hf : m.find h k = some i) :
    ∃ e : HashmapElement K V, m.data[i]? = some e ∧ e.in_use = true ∧ e.key = k := by
  have hany := List.find?_some hf
  cases hi : m.data[i]? with
  | none => simp [hi] at hany
  | some e =>
    simp only [hi, Option.any_some, Bool.and_eq_true, beq_iff_eq] at hany
    exact ⟨e, rfl, hany.2, hany.1⟩

omit [DecidableEq K] [Zero K] [Zero V] in
/-- Two pairs of one key are one. -/
theorem WellFormed.unique (hm : m.WellFormed) {w : V} (hv : (k, v) ∈ m.entries)
    (hw : (k, w) ∈ m.entries) : v = w :=
  (Prod.mk.inj (List.inj_on_of_nodup_map hm.nodup hv hw rfl)).2

omit [Zero K] [Zero V] in
/-- `get` answers with the pointer stored under the key. -/
theorem get_eq_some (hm : m.WellFormed) : m.get h k = some v ↔ (k, v) ∈ m.entries := by
  unfold get
  cases hf : m.find h k with
  | none =>
    have hno := find_eq_none.1 hf
    constructor
    · intro hget
      cases hget
    · intro hmem
      exact absurd (List.mem_map_of_mem (f := Prod.fst) hmem) hno
  | some i =>
    obtain ⟨e, hi, hu, hk⟩ := find_eq_some hf
    have hmem : (k, e.data) ∈ m.entries := mem_entries.2 ⟨i, e, hi, hu, hk, rfl⟩
    simp only [Option.bind_some, hi, Option.map_some, Option.some.injEq]
    constructor
    · rintro rfl
      exact hmem
    · intro hv
      exact hm.unique hmem hv

omit [Zero K] [Zero V] in
theorem hash_eq_some (hh : m.hash h k = some i) :
    ∃ e : HashmapElement K V, m.data[i]? = some e ∧ (e.in_use = false ∨ e.in_use = true ∧ e.key = k) := by
  unfold hash at hh
  split_ifs at hh
  have hany := List.find?_some hh
  cases hi : m.data[i]? with
  | none => simp [hi] at hany
  | some e =>
    refine ⟨e, rfl, ?_⟩
    cases hu : e.in_use with
    | false => exact Or.inl rfl
    | true =>
      simp only [hi, Option.any_some, hu, Bool.not_true, Bool.false_or, Bool.and_true,
        beq_iff_eq] at hany
      exact Or.inr ⟨rfl, hany⟩

omit [Zero K] [Zero V] in
/-- A place is found while the counter is below the table and not below
the entries. -/
theorem hash_isSome (hsize : m.entries.length ≤ m.size) (hlt : m.size < m.table_size) :
    ∃ i, m.hash h k = some i := by
  obtain ⟨i, e, hi, hu⟩ := exists_free (Nat.lt_of_le_of_lt hsize hlt)
  have hi' : i < m.table_size := (List.getElem?_eq_some_iff.1 hi).1
  unfold hash
  rw [if_neg (Nat.ne_of_lt hlt)]
  apply Option.isSome_iff_exists.1
  rw [List.find?_isSome]
  exact ⟨i, mem_probe hi', by simp [hi, hu]⟩

/-! ## Putting -/

omit [DecidableEq K] [Zero K] [Zero V] in
@[simp] theorem table_size_place : (m.place i k v).table_size = m.table_size :=
  List.length_set

omit [DecidableEq K] [Zero K] [Zero V] in
/-- A pair written into a free slot is one more entry. -/
theorem entries_place_free {e : HashmapElement K V} (hi : m.data[i]? = some e)
    (hu : e.in_use = false) : (m.place i k v).entries.Perm ((k, v) :: m.entries) :=
  filterMap_set_some hi (carried_free hu) (carried_used rfl)

omit [DecidableEq K] [Zero K] [Zero V] in
theorem entries_place_length {e : HashmapElement K V} (hi : m.data[i]? = some e) :
    (m.place i k v).entries.length ≤ m.entries.length + 1 := by
  cases hu : e.in_use with
  | false => exact Nat.le_of_eq (entries_place_free hi hu).length_eq
  | true =>
    have hsame : (m.place i k v).entries.length = m.entries.length :=
      length_filterMap_set hi (by simp [hu]) (by simp)
    omega

omit [DecidableEq K] [Zero K] [Zero V] in
/-- A new key in a free slot keeps the table well formed. -/
theorem WellFormed.place {e : HashmapElement K V} (hm : m.WellFormed) (hi : m.data[i]? = some e)
    (hu : e.in_use = false) (hk : k ∉ m.entries.map Prod.fst) : (m.place i k v).WellFormed where
  pos := by
    rw [table_size_place]
    exact hm.pos
  size_eq := by
    rw [(entries_place_free hi hu).length_eq, List.length_cons, ← hm.size_eq]
    rfl
  nodup := by
    have hperm := (entries_place_free (k := k) (v := v) hi hu).map Prod.fst
    rw [hperm.nodup_iff, List.map_cons, List.nodup_cons]
    exact ⟨hk, hm.nodup⟩

omit [DecidableEq K] in
theorem entries_calloc {n : Nat} : (calloc n : Hashmap K V).entries = [] := by
  unfold calloc entries
  rw [List.filterMap_replicate_of_none carried_blank]

omit [DecidableEq K] in
theorem table_size_calloc {n : Nat} : (calloc n : Hashmap K V).table_size = n :=
  List.length_replicate

omit [DecidableEq K] in
theorem wellFormed_calloc {n : Nat} (hn : 0 < n) : (calloc n : Hashmap K V).WellFormed where
  pos := by
    rw [table_size_calloc]
    exact hn
  size_eq := by
    rw [entries_calloc]
    rfl
  nodup := by
    rw [entries_calloc]
    exact List.nodup_nil

omit [Zero K] [Zero V] in
/-- An absent key is given a free slot. -/
theorem hash_absent (hk : k ∉ m.entries.map Prod.fst) (hh : m.hash h k = some i) :
    ∃ e : HashmapElement K V, m.data[i]? = some e ∧ e.in_use = false := by
  obtain ⟨e, hi, hu | ⟨hu, hkey⟩⟩ := hash_eq_some hh
  · exact ⟨e, hi, hu⟩
  · exact absurd (mem_keys.2 ⟨i, e, hi, hu, hkey⟩) hk

theorem putFuel_of_hash {f : Nat} (hh : m.hash h k = some i) :
    putFuel h (f + 1) m k v = some (m.place i k v) := by
  unfold putFuel
  rw [hh]

/-- What holds of the counter after any calls: it is not below the
entries and not above the table. -/
structure Sound (m : Hashmap K V) : Prop where
  pos : 0 < m.table_size
  length_le : m.entries.length ≤ m.size
  size_le : m.size ≤ m.table_size

omit [DecidableEq K] [Zero K] [Zero V] in
theorem WellFormed.sound (hm : m.WellFormed) : m.Sound where
  pos := hm.pos
  length_le := Nat.le_of_eq hm.size_eq.symm
  size_le := by
    rw [hm.size_eq]
    exact entries_length_le

/-- A put into a table with room returns and counts one up. -/
theorem putFuel_room {f : Nat} (hle : m.entries.length ≤ m.size) (hlt : m.size < m.table_size) :
    ∃ m' : Hashmap K V, putFuel h (f + 1) m k v = some m' ∧ m'.size = m.size + 1 ∧
      m'.table_size = m.table_size ∧ m'.entries.length ≤ m'.size := by
  obtain ⟨i, hh⟩ := hash_isSome (h := h) (k := k) hle hlt
  obtain ⟨e, hi, -⟩ := hash_eq_some hh
  refine ⟨m.place i k v, putFuel_of_hash hh, rfl, table_size_place, ?_⟩
  have hlen := entries_place_length (k := k) (v := v) hi
  show (m.place i k v).entries.length ≤ m.size + 1
  omega

/-- Putting a list of slots into a table with room for all of them. -/
theorem rehash_room {f : Nat} (es : List (HashmapElement K V)) {t : Hashmap K V}
    (hle : t.entries.length ≤ t.size) (hroom : t.size + es.length ≤ t.table_size) :
    ∃ t' : Hashmap K V, es.foldlM (fun t e => putFuel h (f + 1) t e.key e.data) t = some t' ∧
      t'.size = t.size + es.length ∧ t'.table_size = t.table_size ∧
      t'.entries.length ≤ t'.size := by
  induction es generalizing t with
  | nil => exact ⟨t, rfl, rfl, rfl, hle⟩
  | cons e es ih =>
    rw [List.length_cons] at hroom
    obtain ⟨t₁, hput, hsize, htable, hle₁⟩ :=
      putFuel_room (h := h) (k := e.key) (v := e.data) (f := f) hle (by omega)
    obtain ⟨t', hfold, hsize', htable', hle'⟩ := ih hle₁ (by omega)
    refine ⟨t', ?_, ?_, ?_, hle'⟩
    · rw [List.foldlM_cons, hput]
      exact hfold
    · rw [hsize', hsize, List.length_cons]
      omega
    · rw [htable', htable]

/-- `hashmap_put` always returns, and counts `size` up by one. -/
theorem put_sound (hm : m.Sound) (k : K) (v : V) :
    ∃ m' : Hashmap K V, m.put h k v = some m' ∧ m'.size = m.size + 1 ∧ m'.Sound := by
  by_cases hlt : m.size < m.table_size
  · obtain ⟨m', hput, hsize, htable, hle⟩ :=
      putFuel_room (h := h) (k := k) (v := v) (f := 1) hm.length_le hlt
    refine ⟨m', hput, hsize, ?_, hle, by omega⟩
    rw [htable]
    exact hm.pos
  · -- the counter has reached the table: it is doubled first
    have hfull : m.size = m.table_size := Nat.le_antisymm hm.size_le (Nat.not_lt.1 hlt)
    have hpos := hm.pos
    have hnone : m.hash h k = none := by
      unfold hash
      rw [if_pos hfull]
    obtain ⟨t, hfold, hsize, htable, hle⟩ :=
      rehash_room (h := h) (f := 0) m.data (t := calloc (2 * m.table_size))
        (by rw [entries_calloc]; exact Nat.zero_le _)
        (by rw [table_size_calloc]; show 0 + m.table_size ≤ _; omega)
    have hsize' : t.size = m.table_size := by
      rw [hsize]
      exact Nat.zero_add _
    rw [table_size_calloc] at htable
    obtain ⟨m', hput, hsize₂, htable₂, hle₂⟩ :=
      putFuel_room (h := h) (k := k) (v := v) (f := 0) hle (by omega)
    refine ⟨m', ?_, by omega, by omega, hle₂, by omega⟩
    unfold put putFuel
    rw [hnone]
    show (List.foldlM _ _ _ >>= fun m' => putFuel h 1 m' k v) = some m'
    rw [hfold]
    exact hput

/-- An absent key put into a table with room is one more entry. -/
theorem putFuel_absent {f : Nat} (hm : m.WellFormed) (hk : k ∉ m.entries.map Prod.fst)
    (hlt : m.size < m.table_size) :
    ∃ m' : Hashmap K V, putFuel h (f + 1) m k v = some m' ∧ m'.WellFormed ∧
      m'.table_size = m.table_size ∧ m'.entries.Perm ((k, v) :: m.entries) := by
  obtain ⟨i, hh⟩ := hash_isSome (h := h) (k := k) hm.sound.length_le hlt
  obtain ⟨e, hi, hu⟩ := hash_absent hk hh
  exact ⟨m.place i k v, putFuel_of_hash hh, hm.place hi hu hk, table_size_place,
    entries_place_free hi hu⟩

/-- Putting slots that are all in use, with new and distinct keys. -/
theorem rehash_absent {f : Nat} (es : List (HashmapElement K V)) {t : Hashmap K V}
    (ht : t.WellFormed) (huse : ∀ e ∈ es, e.in_use = true)
    (hnodup : (es.map HashmapElement.key).Nodup)
    (hnew : ∀ e ∈ es, e.key ∉ t.entries.map Prod.fst)
    (hroom : t.size + es.length ≤ t.table_size) :
    ∃ t' : Hashmap K V, es.foldlM (fun t e => putFuel h (f + 1) t e.key e.data) t = some t' ∧
      t'.WellFormed ∧ t'.table_size = t.table_size ∧
      t'.entries.Perm (es.filterMap carried ++ t.entries) := by
  induction es generalizing t with
  | nil => exact ⟨t, rfl, ht, rfl, List.Perm.refl _⟩
  | cons e es ih =>
    rw [List.length_cons] at hroom
    rw [List.map_cons, List.nodup_cons] at hnodup
    obtain ⟨t₁, hput, ht₁, htable, hperm⟩ :=
      putFuel_absent (h := h) (v := e.data) (f := f) ht (hnew e List.mem_cons_self) (by omega)
    have hsize : t₁.size = t.size + 1 := by
      rw [ht₁.size_eq, hperm.length_eq, List.length_cons, ← ht.size_eq]
    -- the keys still to come differ from the one just put
    have hnew₁ : ∀ e' ∈ es, e'.key ∉ t₁.entries.map Prod.fst := by
      intro e' he' hmem
      have hmem' := (hperm.map Prod.fst).mem_iff.1 hmem
      rw [List.map_cons, List.mem_cons] at hmem'
      rcases hmem' with heq | hmem'
      · have hkey : e'.key = e.key := heq
        rw [← hkey] at hnodup
        exact hnodup.1 (List.mem_map_of_mem he')
      · exact hnew e' (List.mem_cons_of_mem _ he') hmem'
    obtain ⟨t', hfold, ht', htable', hperm'⟩ :=
      ih ht₁ (fun e' he' => huse e' (List.mem_cons_of_mem _ he')) hnodup.2 hnew₁ (by omega)
    refine ⟨t', ?_, ht', htable'.trans htable, ?_⟩
    · rw [List.foldlM_cons, hput]
      exact hfold
    · rw [List.filterMap_cons_some (carried_used (huse e List.mem_cons_self))]
      have happ := hperm'.trans (hperm.append_left (es.filterMap carried))
      exact happ.trans List.perm_middle

omit [DecidableEq K] [Zero K] [Zero V] in
/-- When the counter has reached the table every slot is in use. -/
theorem WellFormed.all_used (hm : m.WellFormed) (hfull : m.size = m.table_size) :
    ∀ e ∈ m.data, e.in_use = true := by
  have hall := List.filterMap_length_eq_length.1 (hm.size_eq.symm.trans hfull)
  intro e he
  cases hu : e.in_use with
  | false =>
    have hsome := hall e he
    rw [carried_free hu] at hsome
    cases hsome
  | true => rfl

omit [DecidableEq K] [Zero K] [Zero V] in
theorem keys_of_all_used (huse : ∀ e ∈ m.data, e.in_use = true) :
    m.entries.map Prod.fst = m.data.map HashmapElement.key := by
  unfold entries
  generalize m.data = es at huse
  induction es with
  | nil => rfl
  | cons e es ih =>
    rw [List.filterMap_cons_some (carried_used (huse e List.mem_cons_self)), List.map_cons,
      List.map_cons, ih (fun e' he' => huse e' (List.mem_cons_of_mem _ he'))]

/-- `hashmap_put` of an absent key: one more entry, and no other change
of the entries even when the table grows. -/
theorem put_absent (hm : m.WellFormed) (hk : k ∉ m.entries.map Prod.fst) (v : V) :
    ∃ m' : Hashmap K V, m.put h k v = some m' ∧ m'.WellFormed ∧
      m'.entries.Perm ((k, v) :: m.entries) := by
  by_cases hlt : m.size < m.table_size
  · obtain ⟨m', hput, hm', -, hperm⟩ := putFuel_absent (h := h) (v := v) (f := 1) hm hk hlt
    exact ⟨m', hput, hm', hperm⟩
  · have hfull : m.size = m.table_size := Nat.le_antisymm hm.sound.size_le (Nat.not_lt.1 hlt)
    have hpos := hm.pos
    have huse := hm.all_used hfull
    have hnone : m.hash h k = none := by
      unfold hash
      rw [if_pos hfull]
    obtain ⟨t, hfold, ht, htable, hperm⟩ :=
      rehash_absent (h := h) (f := 0) m.data
        (wellFormed_calloc (n := 2 * m.table_size) (by omega)) huse
        (by rw [← keys_of_all_used huse]; exact hm.nodup)
        (by rw [entries_calloc]; intro e _ hmem; cases hmem)
        (by rw [table_size_calloc]; show 0 + m.table_size ≤ _; omega)
    rw [entries_calloc, List.append_nil] at hperm
    rw [table_size_calloc] at htable
    have hkt : k ∉ t.entries.map Prod.fst := by
      intro hmem
      exact hk ((hperm.map Prod.fst).mem_iff.1 hmem)
    have hsize : t.size = m.size := by
      rw [ht.size_eq, hperm.length_eq]
      exact hm.size_eq.symm
    obtain ⟨m', hput, hm', -, hperm'⟩ :=
      putFuel_absent (h := h) (v := v) (f := 0) ht hkt (by omega)
    refine ⟨m', ?_, hm', hperm'.trans (hperm.cons _)⟩
    unfold put putFuel
    rw [hnone]
    show (List.foldlM _ _ _ >>= fun m' => putFuel h 1 m' k v) = some m'
    rw [hfold]
    exact hput

/-! ## Removing -/

theorem remove_absent (hk : k ∉ m.entries.map Prod.fst) : m.remove h k = m := by
  unfold remove
  rw [find_eq_none.2 hk]

/-- Removing a key that is present takes its entry out. -/
theorem remove_present (hk : k ∈ m.entries.map Prod.fst) :
    ∃ v, m.entries.Perm ((k, v) :: (m.remove h k).entries) ∧
      (m.remove h k).size = m.size - 1 ∧ (m.remove h k).table_size = m.table_size := by
  cases hf : m.find h k with
  | none => exact absurd hk (find_eq_none.1 hf)
  | some i =>
    obtain ⟨e, hi, hu, hkey⟩ := find_eq_some hf
    have hrem : m.remove h k = { data := m.data.set i blank, size := m.size - 1 } := by
      unfold remove
      rw [hf]
    refine ⟨e.data, ?_, ?_, ?_⟩
    · rw [hrem, ← hkey]
      exact filterMap_set_none hi (carried_used hu) carried_blank
    · rw [hrem]
    · rw [hrem]
      exact List.length_set

theorem remove_wellFormed (hm : m.WellFormed) : (m.remove h k).WellFormed := by
  by_cases hk : k ∈ m.entries.map Prod.fst
  · obtain ⟨v, hperm, hsize, htable⟩ := remove_present (h := h) hk
    refine ⟨by rw [htable]; exact hm.pos, ?_, ?_⟩
    · rw [hsize, hm.size_eq, hperm.length_eq, List.length_cons, Nat.add_sub_cancel]
    · have hnodup := (hperm.map Prod.fst).nodup_iff.1 hm.nodup
      rw [List.map_cons, List.nodup_cons] at hnodup
      exact hnodup.2
  · rw [remove_absent hk]
    exact hm

theorem remove_sound (hm : m.Sound) : (m.remove h k).Sound := by
  by_cases hk : k ∈ m.entries.map Prod.fst
  · obtain ⟨v, hperm, hsize, htable⟩ := remove_present (h := h) hk
    have hlen := hperm.length_eq
    rw [List.length_cons] at hlen
    have hle := hm.length_le
    have hsz := hm.size_le
    exact ⟨by rw [htable]; exact hm.pos, by omega, by omega⟩
  · rw [remove_absent hk]
    exact hm

/-- The entries that are left are those of the other keys. -/
theorem mem_entries_remove (hm : m.WellFormed) {k' : K} :
    (k', v) ∈ (m.remove h k).entries ↔ k' ≠ k ∧ (k', v) ∈ m.entries := by
  by_cases hk : k ∈ m.entries.map Prod.fst
  · obtain ⟨w, hperm, -, -⟩ := remove_present (h := h) hk
    have hnodup := (hperm.map Prod.fst).nodup_iff.1 hm.nodup
    rw [List.map_cons, List.nodup_cons] at hnodup
    rw [hperm.mem_iff, List.mem_cons]
    constructor
    · intro hmem
      refine ⟨?_, Or.inr hmem⟩
      rintro rfl
      exact hnodup.1 (List.mem_map.2 ⟨_, hmem, rfl⟩)
    · rintro ⟨hne, heq | hmem⟩
      · exact absurd (Prod.mk.inj heq).1 hne
      · exact hmem
  · rw [remove_absent hk]
    constructor
    · intro hmem
      refine ⟨?_, hmem⟩
      rintro rfl
      exact hk (List.mem_map_of_mem (f := Prod.fst) hmem)
    · rintro ⟨-, hmem⟩
      exact hmem

/-! ## Enumerating -/

omit [DecidableEq K] [Zero K] [Zero V] in
/-- The scan answers with the entry that is `index - j` further. -/
theorem scan_eq {index j : Nat} (es : List (HashmapElement K V)) (hj : j ≤ index) :
    scan index j es = (es.filterMap carried)[index - j]? := by
  induction es generalizing j with
  | nil => rfl
  | cons e es ih =>
    unfold scan
    cases hu : e.in_use with
    | false =>
      rw [List.filterMap_cons_none (carried_free hu), if_neg (by simp), ih hj]
    | true =>
      rw [List.filterMap_cons_some (carried_used hu), if_pos rfl]
      by_cases heq : j = index
      · subst heq
        simp
      · rw [if_neg heq, ih (by omega), show index - j = (index - (j + 1)) + 1 by omega,
          List.getElem?_cons_succ]

omit [DecidableEq K] [Zero K] [Zero V] in
/-- The indices below `length` enumerate the entries. -/
theorem map_get_index (hm : m.WellFormed) :
    (List.range m.length).map m.get_index = m.entries.map some := by
  apply List.ext_getElem
  · rw [List.length_map, List.length_map, List.length_range]
    exact hm.size_eq
  · intro i hi hi'
    have hlt : i < m.entries.length := by simpa using hi'
    have hle : ¬ i > m.size := by
      rw [hm.size_eq]
      omega
    rw [List.getElem_map, List.getElem_map, List.getElem_range]
    unfold get_index
    rw [if_neg hle, scan_eq _ (Nat.zero_le i), Nat.sub_zero]
    exact List.getElem?_eq_getElem hlt

/-! ## The finite map -/

/-- The table behaves as the map `f`: `get` answers as `f` does, `length`
is the number of present keys, and the indices below it enumerate each
present key once. -/
structure Refines (h : HashInt K) (m : Hashmap K V) (f : K → Option V) : Prop where
  get_eq : ∀ k, m.get h k = f k
  length_eq : ∃ keys : Finset K, (∀ k, k ∈ keys ↔ (f k).isSome) ∧ m.length = keys.card
  enumerates : ∃ l : List (K × V), (List.range m.length).map m.get_index = l.map some ∧
    (l.map Prod.fst).Nodup ∧ ∀ k v, (k, v) ∈ l ↔ f k = some v

omit [Zero K] [Zero V] in
/-- A well formed table is the map of its entries. -/
theorem WellFormed.refines (hm : m.WellFormed) {f : K → Option V}
    (hf : ∀ k v, (k, v) ∈ m.entries ↔ f k = some v) : Refines h m f where
  get_eq := by
    intro k
    apply Option.ext
    intro v
    rw [get_eq_some hm, hf]
  length_eq := by
    refine ⟨(m.entries.map Prod.fst).toFinset, ?_, ?_⟩
    · intro k
      rw [List.mem_toFinset, List.mem_map, Option.isSome_iff_exists]
      constructor
      · rintro ⟨⟨k', v⟩, hmem, rfl⟩
        exact ⟨v, (hf k' v).1 hmem⟩
      · rintro ⟨v, hv⟩
        exact ⟨(k, v), (hf k v).2 hv, rfl⟩
    · rw [List.toFinset_card_of_nodup hm.nodup, List.length_map]
      exact hm.size_eq
  enumerates := ⟨m.entries, map_get_index hm, hm.nodup, hf⟩

end Hashmap

/-- The operations of the table. -/
inductive HashmapOp (K V : Type*) where
  | put (key : K) (value : V)
  | remove (key : K)
  | get (key : K)
  | length
  | get_index (index : Nat)

namespace Hashmap

open Lib

variable {K V : Type*} [DecidableEq K] [Zero K] [Zero V]

/-- An operation on the table, beside what it should do to the map. -/
def step (h : HashInt K) (s : Hashmap K V × (K → Option V)) :
    HashmapOp K V → Option (Hashmap K V × (K → Option V))
  | .put key value => (s.1.put h key value).map fun m => (m, Function.update s.2 key (some value))
  | .remove key => some (s.1.remove h key, Function.update s.2 key none)
  | .get _ => some s
  | .length => some s
  | .get_index _ => some s

/-- The key of a put is not present. -/
def PutAbsent (s : Hashmap K V × (K → Option V)) : HashmapOp K V → Prop
  | .put key _ => s.2 key = none
  | .remove _ | .get _ | .length | .get_index _ => True

/-- Well formed, and the map is that of the entries. -/
def Tracks (s : Hashmap K V × (K → Option V)) : Prop :=
  s.1.WellFormed ∧ ∀ k v, (k, v) ∈ s.1.entries ↔ s.2 k = some v

variable {h : HashInt K} {s : Hashmap K V × (K → Option V)}

theorem step_put {k : K} {v : V} {m' : Hashmap K V} (hput : s.1.put h k v = some m') :
    step h s (.put k v) = some (m', Function.update s.2 k (some v)) := by
  show (s.1.put h k v).map _ = _
  rw [hput]
  rfl

omit [DecidableEq K] [Zero K] [Zero V] in
theorem Tracks.absent_iff (hs : Tracks s) {k : K} :
    k ∉ s.1.entries.map Prod.fst ↔ s.2 k = none := by
  rw [List.mem_map, Option.eq_none_iff_forall_ne_some]
  constructor
  · intro hno v hv
    exact hno ⟨(k, v), (hs.2 k v).2 hv, rfl⟩
  · rintro hnone ⟨⟨k', v⟩, hmem, rfl⟩
    exact hnone v ((hs.2 k' v).1 hmem)

theorem tracks_put (hs : Tracks s) {k : K} {v : V} (hk : s.2 k = none) :
    ∃ m', s.1.put h k v = some m' ∧ Tracks (m', Function.update s.2 k (some v)) := by
  obtain ⟨m', hput, hm', hperm⟩ := put_absent (h := h) hs.1 (hs.absent_iff.2 hk) v
  refine ⟨m', hput, hm', ?_⟩
  intro k' v'
  show (k', v') ∈ m'.entries ↔ Function.update s.2 k (some v) k' = some v'
  rw [hperm.mem_iff, List.mem_cons, hs.2]
  by_cases hkk : k' = k
  · subst hkk
    rw [Function.update_self, hk]
    simp [eq_comm]
  · rw [Function.update_of_ne hkk]
    simp [hkk]

theorem tracks_remove (hs : Tracks s) (k : K) :
    Tracks (s.1.remove h k, Function.update s.2 k none) := by
  refine ⟨remove_wellFormed hs.1, ?_⟩
  intro k' v'
  show (k', v') ∈ (s.1.remove h k).entries ↔ Function.update s.2 k none k' = some v'
  rw [mem_entries_remove hs.1, hs.2]
  by_cases hkk : k' = k
  · subst hkk
    simp
  · rw [Function.update_of_ne hkk]
    simp [hkk]

omit [DecidableEq K] in
theorem tracks_new : Tracks ((new, fun _ => none) : Hashmap K V × (K → Option V)) := by
  refine ⟨wellFormed_calloc (by omega), ?_⟩
  intro k v
  show (k, v) ∈ (new : Hashmap K V).entries ↔ _
  unfold new
  rw [entries_calloc]
  simp

/-- A put of a present key counts a key that is not new. -/
theorem not_refines_put (hs : Tracks s) {k : K} {v : V} {m' : Hashmap K V} (hk : s.2 k ≠ none)
    (hput : s.1.put h k v = some m') :
    ¬ Refines h m' (Function.update s.2 k (some v)) := by
  intro hr
  obtain ⟨m₁, hput₁, hsize, -⟩ := put_sound (h := h) hs.1.sound k v
  rw [hput] at hput₁
  cases hput₁
  obtain ⟨keys, hkeys, hcard⟩ := hr.length_eq
  obtain ⟨keys₀, hkeys₀, hcard₀⟩ := (hs.1.refines (h := h) hs.2).length_eq
  -- the same keys are present before and after
  have hsame : keys = keys₀ := by
    ext k'
    rw [hkeys, hkeys₀]
    by_cases hkk : k' = k
    · subst hkk
      rw [Function.update_self]
      simp [Option.isSome_iff_ne_none, hk]
    · rw [Function.update_of_ne hkk]
  rw [hsame, ← hcard₀] at hcard
  have hgrow : m'.size = s.1.size := hcard
  omega

/-- One operation from a table that tracks its map: it returns, it tracks
again if the condition holds, and otherwise the map is lost. -/
theorem tracks_step (hs : Tracks s) (a : HashmapOp K V) :
    ∃ s', step h s a = some s' ∧ (PutAbsent s a → Tracks s') ∧
      (Refines h s'.1 s'.2 ↔ PutAbsent s a) := by
  have keep : ∀ s' : Hashmap K V × (K → Option V), Tracks s' → Refines h s'.1 s'.2 :=
    fun s' hs' => hs'.1.refines hs'.2
  cases a with
  | put k v =>
    by_cases hk : s.2 k = none
    · obtain ⟨m', hput, ht⟩ := tracks_put (h := h) (v := v) hs hk
      refine ⟨_, step_put hput, fun _ => ht, fun _ => hk, fun _ => keep _ ht⟩
    · obtain ⟨m', hput, -, -⟩ := put_sound (h := h) hs.1.sound k v
      refine ⟨_, step_put hput, fun hno => absurd hno hk, ?_, ?_⟩
      · intro hr
        exact absurd hr (not_refines_put hs hk hput)
      · intro hno
        exact absurd hno hk
  | remove k =>
    have ht := tracks_remove (h := h) hs k
    exact ⟨_, rfl, fun _ => ht, fun _ => trivial, fun _ => keep _ ht⟩
  | get k | length | get_index i => exact ⟨s, rfl, fun _ => hs, fun _ => trivial, fun _ => keep s hs⟩

/-- **The table is a finite map** through every run whose puts are of
absent keys, and each further operation returns and keeps that exactly
when it is no put of a present key. -/
theorem hashmap_refines (h : HashInt K) {as : List (HashmapOp K V)}
    {s : Hashmap K V × (K → Option V)}
    (hrun : Run (Guarded PutAbsent (PartialStep (step h))) (new, fun _ => none) as s) :
    Refines h s.1 s.2 ∧
      ∀ a, ∃ s', step h s a = some s' ∧ (Refines h s'.1 s'.2 ↔ PutAbsent s a) := by
  have hs : Tracks s := by
    refine hrun.invariant Tracks ?_ tracks_new
    intro s a s' hs hstep
    obtain ⟨hok, hstep⟩ := hstep
    obtain ⟨s₁, hstep₁, htrack, -⟩ := tracks_step (h := h) hs a
    have heq : step h s a = some s' := hstep
    rw [hstep₁] at heq
    cases heq
    exact htrack hok
  refine ⟨hs.1.refines hs.2, ?_⟩
  intro a
  obtain ⟨s', hstep, -, hiff⟩ := tracks_step (h := h) hs a
  exact ⟨s', hstep, hiff⟩

/-- Five is put, removed and put again, in either table. -/
theorem hashmap_refines_again :
    (∃ s : Hashmap (BitVec 32) Nat × (BitVec 32 → Option Nat),
        Refines hashmap_hash_int s.1 s.2 ∧ s.2 5 = some 2) ∧
      ∃ s : Hashmap (BitVec 64) Nat × (BitVec 64 → Option Nat),
        Refines hashmap64_hash_int s.1 s.2 ∧ s.2 5 = some 2 := by
  have hrun : ∀ {K : Type} [DecidableEq K] [Zero K] (h : HashInt K) (k : K),
      ∃ s : Hashmap K Nat × (K → Option Nat),
        Run (Guarded PutAbsent (PartialStep (step h))) (new, fun _ => none)
          [.put k 1, .remove k, .put k 2] s ∧ s.2 k = some 2 := by
    intro K _ _ h k
    obtain ⟨m₁, hput₁, ht₁⟩ := tracks_put (h := h) (k := k) (v := 1) tracks_new rfl
    have ht₂ := tracks_remove (h := h) ht₁ k
    obtain ⟨m₃, hput₃, -⟩ := tracks_put (h := h) (k := k) (v := 2) ht₂ (Function.update_self ..)
    exact ⟨_, .cons ⟨rfl, step_put hput₁⟩ (.cons ⟨trivial, rfl⟩
      (.cons ⟨Function.update_self .., step_put hput₃⟩ (.nil _))), Function.update_self ..⟩
  obtain ⟨s, hs, hv⟩ := hrun hashmap_hash_int 5
  obtain ⟨s', hs', hv'⟩ := hrun hashmap64_hash_int 5
  exact ⟨⟨s, (hashmap_refines hashmap_hash_int hs).1, hv⟩,
    s', (hashmap_refines hashmap64_hash_int hs').1, hv'⟩

/-- One key put twice is counted twice, in either table. -/
theorem key_put_twice :
    (∃ s : Hashmap (BitVec 32) Nat × (BitVec 32 → Option Nat),
        Run (PartialStep (step hashmap_hash_int)) (new, fun _ => none) [.put 5 1, .put 5 2] s ∧
        s.1.length = 2 ∧ ¬ Refines hashmap_hash_int s.1 s.2) ∧
      ∃ s : Hashmap (BitVec 64) Nat × (BitVec 64 → Option Nat),
        Run (PartialStep (step hashmap64_hash_int)) (new, fun _ => none) [.put 5 1, .put 5 2] s ∧
        s.1.length = 2 ∧ ¬ Refines hashmap64_hash_int s.1 s.2 := by
  have htwice : ∀ {K : Type} [DecidableEq K] [Zero K] (h : HashInt K) (k : K),
      ∃ s : Hashmap K Nat × (K → Option Nat),
        Run (PartialStep (step h)) (new, fun _ => none) [.put k 1, .put k 2] s ∧
        s.1.length = 2 ∧ ¬ Refines h s.1 s.2 := by
    intro K _ _ h k
    obtain ⟨m₁, hput₁, hsize₁, -⟩ := put_sound (h := h) tracks_new.1.sound k 1
    obtain ⟨m₁', hput₁', ht₁⟩ := tracks_put (h := h) (k := k) (v := 1) tracks_new rfl
    rw [hput₁] at hput₁'
    cases hput₁'
    obtain ⟨m₂, hput₂, hsize₂, -⟩ := put_sound (h := h) ht₁.1.sound k 2
    refine ⟨_, .cons (step_put hput₁) (.cons (step_put hput₂) (.nil _)), ?_, ?_⟩
    · show m₂.size = 2
      rw [hsize₂]
      show m₁.size + 1 = 2
      rw [hsize₁]
      rfl
    · exact not_refines_put ht₁ (by simp) hput₂
  exact ⟨htwice hashmap_hash_int 5, htwice hashmap64_hash_int 5⟩

/-- Every operation returns after every run, whatever was put. -/
theorem step_total (h : HashInt K) {as : List (HashmapOp K V)}
    {s : Hashmap K V × (K → Option V)}
    (hrun : Run (PartialStep (step h)) (new, fun _ => none) as s) (a : HashmapOp K V) :
    (step h s a).isSome := by
  have hone : ∀ s : Hashmap K V × (K → Option V), s.1.Sound →
      ∀ a, ∃ s', step h s a = some s' ∧ s'.1.Sound := by
    intro s hs a
    cases a with
    | put k v =>
      obtain ⟨m', hput, -, hm'⟩ := put_sound (h := h) hs k v
      exact ⟨_, step_put hput, hm'⟩
    | remove k => exact ⟨_, rfl, remove_sound hs⟩
    | get k => exact ⟨s, rfl, hs⟩
    | length => exact ⟨s, rfl, hs⟩
    | get_index i => exact ⟨s, rfl, hs⟩
  have hs : s.1.Sound := by
    refine hrun.invariant (fun s => s.1.Sound) ?_ (wellFormed_calloc (by omega)).sound
    intro s a s' hs hstep
    obtain ⟨s₁, hstep₁, hs₁⟩ := hone s hs a
    have heq : step h s a = some s' := hstep
    rw [hstep₁] at heq
    cases heq
    exact hs₁
  obtain ⟨s', hstep, -⟩ := hone s hs a
  rw [hstep]
  rfl

/-- A key is put into an empty table. -/
theorem step_total_put :
    (step hashmap_hash_int ((new : Hashmap _ Nat), fun _ => none) (.put 5 2)).isSome :=
  step_total _ (.nil _) _

end Hashmap

end HearthStone
