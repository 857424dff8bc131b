/-
HearthStone.Shared.StorageTheorems — the array against the hash map that
refuses what is at or above a maximum.

Two things part them. The test of `SetEntry` lets the entry at the maximum
itself through, one cell behind the array. And the hash map keeps an entry
that was set to NULL, where the array has an empty cell: the map then
refuses to allocate it and reports it deallocated.

* `Alike` — each cell holds what the map has for its entry, and the map
  has nothing else.
* `alike_step` — what a step leaves of it, when the operation is `Proper`.
* `iterate_getNextElement`, `filterMap_array_perm` — the iterator goes
  through the cells in order, and these are the elements of the map.
* `storages_agree` — the two agree over a run exactly when each of its
  operations is proper.
-/
import Mathlib.Data.List.Perm.Basic
import Mathlib.Logic.Function.Iterate
import HearthStone.Shared.Storage

namespace HearthStone.Storage

/-! ## Agreement -/

/-- What can be seen of both: the lookups, what was freed, and what the
iterator stands on at its start and after each `Inc`. -/
structure Matches (s : ArrayStorageContainer) (r : Restricted) : Prop where
  max : s.max = r.max
  lookups : ∀ entry, s.step (.lookupEntry entry) = some ((r.step (.lookupEntry entry)).1, s)
  freed : s.heap.freed.Perm r.hash.heap.freed
  iterator : ∃ l : List Ptr, l.Perm r.hash.elements ∧
    ∀ n, (Nat.iterate (inc s) n (makeIterator s)).pointer = l[n]?

/-- Both give the same answer to each operation of a run, the array touches
no memory but its own, and what can be seen is the same all along. -/
def Agrees (s : ArrayStorageContainer) (r : Restricted) : List Op → Prop
  | [] => Matches s r
  | o :: ops => Matches s r ∧
    ∃ t, s.step o = some ((r.step o).1, t) ∧ Agrees t (r.step o).2 ops

/-- No `SetEntry` at the maximum, and nothing that allocates or deallocates
an entry the map has with NULL. -/
def Proper (r : Restricted) : Op → Prop
  | .setEntry e _ => e ≠ r.max
  | .allocateEntry e | .deallocateEntry e | .lookupEntryAllocate e =>
    r.hash.map.lookup e ≠ some none
  | .lookupEntry _ | .resetup _ | .clear => True

def AllProper (r : Restricted) : List Op → Prop
  | [] => True
  | o :: ops => Proper r o ∧ AllProper (r.step o).2 ops

/-! ## The relation -/

structure Alike (s : ArrayStorageContainer) (r : Restricted) : Prop where
  max : s.max = r.max
  cells : ∀ e < s.max, s.read e = some (r.hash.map.lookup e).join
  above : ∀ e, s.max ≤ e → r.hash.map.lookup e = none
  next : s.heap.next = r.hash.heap.next
  freed : s.heap.freed.Perm r.hash.heap.freed

theorem alike_setup (max : UInt32) :
    Alike (ArrayStorageContainer.setup max) (Restricted.setup max) where
  max := rfl
  cells := by
    intro e he
    have hlt : e.toNat < max.toNat := UInt32.lt_iff_toNat_lt.1 he
    change (List.replicate max.toNat none)[e.toNat]? = some none
    rw [List.getElem?_replicate, if_pos hlt]
  above := fun _ _ => rfl
  next := rfl
  freed := List.Perm.refl _

/-! ## Elements -/

/-- The entries an array of this size has a cell for. -/
def entriesBelow (max : UInt32) : List UInt32 := (List.range max.toNat).map UInt32.ofNat

theorem toNat_ofNat_of_lt {max : UInt32} {i : Nat} (h : i < max.toNat) :
    (UInt32.ofNat i).toNat = i :=
  UInt32.toNat_ofNat_of_lt' (Nat.lt_trans h max.toNat_lt_size)

theorem nodup_entriesBelow (max : UInt32) : (entriesBelow max).Nodup := by
  refine List.Nodup.map_on ?_ List.nodup_range
  intro a ha b hb hab
  have hto := congrArg UInt32.toNat hab
  rwa [toNat_ofNat_of_lt (List.mem_range.1 ha), toNat_ofNat_of_lt (List.mem_range.1 hb)] at hto

theorem mem_entriesBelow {max e : UInt32} : e ∈ entriesBelow max ↔ e < max := by
  unfold entriesBelow
  rw [List.mem_map, UInt32.lt_iff_toNat_lt]
  constructor
  · rintro ⟨i, hi, rfl⟩
    rw [List.mem_range] at hi
    rwa [toNat_ofNat_of_lt hi]
  · intro he
    exact ⟨e.toNat, List.mem_range.2 he, UInt32.ofNat_toNat⟩

/-- The values of a map, read key by key from any list that has each of its
keys once. -/
theorem filterMap_lookup_perm {κ α : Type*} [DecidableEq κ] (m : AList fun _ : κ => Option α)
    {keys : List κ} (hnodup : keys.Nodup) (hkeys : ∀ k ∈ m, k ∈ keys) :
    (keys.filterMap fun k => (m.lookup k).join).Perm (m.entries.filterMap Sigma.snd) := by
  have hhas : (keys.filter (· ∈ m)).Perm m.keys := by
    refine (List.perm_ext_iff_of_nodup (hnodup.filter _) m.keys_nodup).2 fun k => ?_
    rw [List.mem_filter, decide_eq_true_eq, ← AList.mem_keys]
    exact ⟨And.right, fun hk => ⟨hkeys k hk, hk⟩⟩
  have hothers : (keys.filterMap fun k => (m.lookup k).join)
      = (keys.filter (· ∈ m)).filterMap fun k => (m.lookup k).join := by
    rw [List.filterMap_filter]
    refine List.filterMap_congr fun k _ => ?_
    by_cases hk : k ∈ m
    · rw [if_pos (decide_eq_true hk)]
    · rw [if_neg (by simpa using hk), AList.lookup_eq_none.2 hk]
      rfl
  have hvalues : (m.keys.filterMap fun k => (m.lookup k).join)
      = m.entries.filterMap Sigma.snd := by
    change (m.entries.map Sigma.fst).filterMap _ = _
    rw [List.filterMap_map]
    refine List.filterMap_congr fun e he => ?_
    have hlookup : m.lookup e.1 = some e.2 := AList.mem_lookup_iff.2 he
    change (m.lookup e.1).join = e.2
    rw [hlookup]
    rfl
  rw [hothers, ← hvalues]
  exact hhas.filterMap _

/-- The cells hold the elements of the map. -/
theorem filterMap_array_perm {s : ArrayStorageContainer} {r : Restricted} (h : Alike s r) :
    (s.array.filterMap id).Perm r.hash.elements := by
  have harray : s.array = (entriesBelow s.max).map fun e => (r.hash.map.lookup e).join := by
    refine List.ext_getElem ?_ fun i hi _ => ?_
    · rw [s.size, List.length_map, entriesBelow, List.length_map, List.length_range]
    · have hlt : i < s.max.toNat := s.size ▸ hi
      have hto : (UInt32.ofNat i).toNat = i := toNat_ofNat_of_lt hlt
      have hcell := h.cells (UInt32.ofNat i) (UInt32.lt_iff_toNat_lt.2 (by omega))
      unfold ArrayStorageContainer.read at hcell
      rw [hto, List.getElem?_eq_getElem hi] at hcell
      simpa [entriesBelow] using Option.some.inj hcell
  rw [harray, List.filterMap_map]
  refine filterMap_lookup_perm r.hash.map (nodup_entriesBelow s.max) fun e he => ?_
  by_contra hnot
  rw [mem_entriesBelow, UInt32.not_lt] at hnot
  exact AList.lookup_eq_none.1 (h.above e hnot) he

/-! ## The iterator -/

/-- What the iterator stands on after `n` more steps. The induction is on
the cells that are left. -/
theorem iterate_getNextElement (s : ArrayStorageContainer) (i n : Nat) :
    (Nat.iterate (inc s) n (getNextElement s i)).pointer = ((s.array.drop i).filterMap id)[n]? := by
  induction hleft : s.max.toNat - i generalizing i n with
  | zero =>
    have hend : ¬ i < s.max.toNat := by omega
    have hstays : getNextElement s i = { myIndex := i, pointer := none } := by
      rw [getNextElement, dif_neg hend]
    have hfixed : inc s { myIndex := i, pointer := none } = { myIndex := i, pointer := none } :=
      hstays
    rw [hstays, Function.iterate_fixed hfixed, List.drop_eq_nil_of_le (by rw [s.size]; omega)]
    rfl
  | succ left ih =>
    have hlt : i < s.max.toNat := by omega
    have hi : i < s.array.length := s.size.symm ▸ hlt
    rw [getNextElement, dif_pos hlt, List.drop_eq_getElem_cons hi]
    cases hcell : s.array.get ⟨i, hi⟩ with
    | none =>
      rw [List.get_eq_getElem] at hcell
      rw [hcell, List.filterMap_cons_none rfl]
      exact ih (i + 1) n (by omega)
    | some p =>
      rw [List.get_eq_getElem] at hcell
      rw [hcell, List.filterMap_cons_some (f := id) rfl]
      cases n with
      | zero => rfl
      | succ n => exact ih (i + 1) n (by omega)

/-! ## Observations -/

theorem Alike.lookupEntry {s : ArrayStorageContainer} {r : Restricted} (h : Alike s r)
    (e : UInt32) : s.lookupEntry e = some (r.hash.lookupEntry e) := by
  unfold ArrayStorageContainer.lookupEntry HashMapStorageContainer.lookupEntry
  by_cases he : s.max ≤ e
  · rw [if_pos he, h.above e he]
    rfl
  · rw [if_neg he, h.cells e (UInt32.not_le.1 he)]

theorem step_of_refusal {r : Restricted} {o : Op} {a : Answer} (h : o.refusal r.max = some a) :
    r.step o = (a, r) := by
  unfold Restricted.step
  rw [h]

theorem step_of_accepted {r : Restricted} {o : Op} (h : o.refusal r.max = none) :
    r.step o
      = ((r.hash.step o).1, { hash := (r.hash.step o).2, max := o.raise r.max }) := by
  unfold Restricted.step
  rw [h]

theorem Alike.matches {s : ArrayStorageContainer} {r : Restricted} (h : Alike s r) :
    Matches s r where
  max := h.max
  lookups := by
    intro e
    change (s.lookupEntry e).map _ = _
    rw [h.lookupEntry]
    by_cases he : r.max ≤ e
    · have hrefused : (Op.lookupEntry e).refusal r.max = some (.pointer none) := if_pos he
      have hnone := h.above e (h.max ▸ he)
      rw [step_of_refusal hrefused, HashMapStorageContainer.lookupEntry, hnone]
      rfl
    · have haccepted : (Op.lookupEntry e).refusal r.max = none := if_neg he
      rw [step_of_accepted haccepted]
      rfl
  freed := h.freed
  iterator := ⟨s.array.filterMap id, filterMap_array_perm h, iterate_getNextElement s 0⟩

/-! ## The cells -/

theorem write_some {s : ArrayStorageContainer} {e : UInt32} (he : e < s.max) (p : Option Ptr) :
    ∃ t, s.write e p = some t ∧ t.max = s.max ∧ t.heap = s.heap ∧ t.read e = some p ∧
      ∀ e', e' ≠ e → t.read e' = s.read e' := by
  have hlt : e.toNat < s.array.length := s.size.symm ▸ UInt32.lt_iff_toNat_lt.1 he
  refine ⟨_, if_pos hlt, rfl, rfl, ?_, fun e' hne => ?_⟩
  · exact List.getElem?_set_self hlt
  · exact List.getElem?_set_ne fun heq => hne (UInt32.toNat_inj.1 heq.symm)

/-- The entry at the maximum has no cell. -/
theorem read_max (s : ArrayStorageContainer) : s.read s.max = none :=
  List.getElem?_eq_none (Nat.le_of_eq s.size)

/-- Both change at one entry below the maximum. -/
theorem Alike.update {s t : ArrayStorageContainer} {r : Restricted} {e : UInt32} (h : Alike s r)
    {hash : HashMapStorageContainer} (he : e < s.max) (hmax : t.max = s.max)
    (hcell : t.read e = some (hash.map.lookup e).join)
    (hcells : ∀ e', e' ≠ e → t.read e' = s.read e')
    (hmap : ∀ e', e' ≠ e → hash.map.lookup e' = r.hash.map.lookup e')
    (hnext : t.heap.next = hash.heap.next) (hfreed : t.heap.freed.Perm hash.heap.freed) :
    Alike t { hash := hash, max := r.max } where
  max := hmax.trans h.max
  cells := by
    intro e' he'
    by_cases heq : e' = e
    · rw [heq, hcell]
    · rw [hcells e' heq, h.cells e' (hmax ▸ he'), hmap e' heq]
  above := by
    intro e' he'
    rw [hmax] at he'
    have hne : e' ≠ e := fun heq => UInt32.not_lt.2 he' (heq ▸ he)
    rw [hmap e' hne, h.above e' he']
  next := hnext
  freed := hfreed

/-! ## One operation -/

variable {s t : ArrayStorageContainer} {r : Restricted} {e : UInt32}

theorem alike_allocateEntry (h : Alike s r) (he : e < s.max)
    (hnull : r.hash.map.lookup e ≠ some none) :
    ∃ t, s.allocateEntry e = some ((r.hash.allocateEntry e).1, t) ∧
      Alike t { hash := (r.hash.allocateEntry e).2, max := r.max } := by
  unfold ArrayStorageContainer.allocateEntry HashMapStorageContainer.allocateEntry
  rw [if_neg (UInt32.not_le.2 he), h.cells e he, Option.bind_some]
  cases hkey : r.hash.map.lookup e with
  | some p =>
    have hp : (some p).join ≠ none := fun hp => hnull (by rw [hkey]; exact congrArg some hp)
    rw [if_pos hp, if_pos (Option.some_ne_none p)]
    exact ⟨s, rfl, h⟩
  | none =>
    obtain ⟨t, ht, hmax, -, hcell, hcells⟩ := write_some he (some s.heap.next)
    rw [if_neg (not_not.2 rfl), Option.join_none, if_neg (not_not.2 rfl)]
    change ∃ t', (s.write e (some s.heap.next)).map _ = _ ∧ _
    rw [ht, Heap.new, ← h.next]
    refine ⟨_, rfl, h.update he hmax ?_ hcells ?_ rfl h.freed⟩
    · rw [AList.lookup_insert]
      exact hcell
    · intro e' hne
      exact AList.lookup_insert_ne hne

theorem lt_max_of_null (h : Alike s r) (hnull : r.hash.map.lookup e = some none) : e < s.max := by
  by_contra hnot
  rw [h.above e (UInt32.not_lt.1 hnot)] at hnull
  cases hnull

/-- Where the map has NULL the array allocates and the map refuses. -/
theorem allocateEntry_of_null (h : Alike s r) (hnull : r.hash.map.lookup e = some none) :
    (r.hash.allocateEntry e).1 = none ∧ ∃ p t, s.allocateEntry e = some (some p, t) := by
  have he := lt_max_of_null h hnull
  obtain ⟨t, ht, -⟩ := write_some he (some s.heap.next)
  unfold ArrayStorageContainer.allocateEntry HashMapStorageContainer.allocateEntry
  rw [if_neg (UInt32.not_le.2 he), h.cells e he, hnull, if_pos (Option.some_ne_none _)]
  refine ⟨rfl, s.heap.next, { t with heap := s.heap.new.2 }, ?_⟩
  change (s.write e (some s.heap.next)).map _ = _
  rw [ht]
  rfl

theorem alike_lookupEntryAllocate (h : Alike s r) (he : e < s.max)
    (hnull : r.hash.map.lookup e ≠ some none) :
    ∃ t, s.lookupEntryAllocate e = some ((r.hash.lookupEntryAllocate e).1, t) ∧
      Alike t { hash := (r.hash.lookupEntryAllocate e).2, max := r.max } := by
  unfold ArrayStorageContainer.lookupEntryAllocate HashMapStorageContainer.lookupEntryAllocate
  rw [h.lookupEntry, Option.bind_some]
  by_cases hret : r.hash.lookupEntry e = none
  · rw [if_pos hret, if_pos hret]
    exact alike_allocateEntry h he hnull
  · rw [if_neg hret, if_neg hret]
    exact ⟨s, rfl, h⟩

theorem lookupEntryAllocate_of_null (h : Alike s r) (hnull : r.hash.map.lookup e = some none) :
    (r.hash.lookupEntryAllocate e).1 = none ∧
      ∃ p t, s.lookupEntryAllocate e = some (some p, t) := by
  have hret : r.hash.lookupEntry e = none := congrArg Option.join hnull
  unfold ArrayStorageContainer.lookupEntryAllocate HashMapStorageContainer.lookupEntryAllocate
  rw [h.lookupEntry, hret, if_pos rfl]
  exact allocateEntry_of_null h hnull

theorem alike_deallocateEntry (h : Alike s r) (he : e < s.max)
    (hnull : r.hash.map.lookup e ≠ some none) :
    ∃ t, s.deallocateEntry e = some ((r.hash.deallocateEntry e).1, t) ∧
      Alike t { hash := (r.hash.deallocateEntry e).2, max := r.max } := by
  unfold ArrayStorageContainer.deallocateEntry HashMapStorageContainer.deallocateEntry
  rw [if_neg (UInt32.not_le.2 he), h.cells e he, Option.bind_some]
  cases hkey : r.hash.map.lookup e with
  | none => exact ⟨s, rfl, h⟩
  | some p =>
    have hp : (some p).join ≠ none := fun hp => hnull (by rw [hkey]; exact congrArg some hp)
    obtain ⟨t, ht, hmax, -, hcell, hcells⟩ := write_some he none
    rw [if_neg hp, ht]
    refine ⟨_, rfl, h.update he hmax ?_ hcells ?_ h.next ?_⟩
    · rw [AList.lookup_erase]
      exact hcell
    · intro e' hne
      exact AList.lookup_erase_ne hne
    · exact h.freed.append_right _

/-- Where the map has NULL the array has nothing to deallocate. -/
theorem deallocateEntry_of_null (h : Alike s r) (hnull : r.hash.map.lookup e = some none) :
    (r.hash.deallocateEntry e).1 = true ∧ s.deallocateEntry e = some (false, s) := by
  have he := lt_max_of_null h hnull
  unfold ArrayStorageContainer.deallocateEntry HashMapStorageContainer.deallocateEntry
  rw [if_neg (UInt32.not_le.2 he), h.cells e he, hnull]
  exact ⟨rfl, rfl⟩

theorem alike_setEntry (h : Alike s r) (he : e < s.max) (p : Option Ptr) :
    ∃ t, s.setEntry e p = some ((r.hash.setEntry e p).1, t) ∧
      Alike t { hash := (r.hash.setEntry e p).2, max := r.max } := by
  obtain ⟨t, ht, hmax, -, hcell, hcells⟩ := write_some he p
  unfold ArrayStorageContainer.setEntry HashMapStorageContainer.setEntry
  rw [if_neg (UInt32.lt_asymm he), h.cells e he, Option.bind_some, ht]
  cases hkey : r.hash.map.lookup e with
  | none =>
    refine ⟨_, rfl, h.update he hmax ?_ hcells ?_ h.next ?_⟩
    · rw [AList.lookup_insert]
      exact hcell
    · intro e' hne
      exact AList.lookup_insert_ne hne
    · change (s.heap.freed ++ []).Perm _
      rw [List.append_nil]
      exact h.freed
  | some old =>
    refine ⟨_, rfl, h.update he hmax ?_ hcells ?_ h.next ?_⟩
    · rw [AList.lookup_insert]
      exact hcell
    · intro e' hne
      exact AList.lookup_insert_ne hne
    · exact h.freed.append_right _

theorem alike_resetup (h : Alike s r) (max : UInt32) :
    Alike (s.resetup max) { hash := r.hash, max := if max < r.max then r.max else max } := by
  unfold ArrayStorageContainer.resetup
  by_cases hless : max < s.max
  · rw [dif_pos hless, if_pos (h.max ▸ hless)]
    exact h
  · rw [dif_neg hless, if_neg (h.max ▸ hless)]
    have hmax : s.max ≤ max := UInt32.not_lt.1 hless
    refine ⟨rfl, fun e he => ?_, fun e he => h.above e (UInt32.le_trans hmax he), h.next, h.freed⟩
    change (s.array ++ _)[e.toNat]? = _
    by_cases hold : e < s.max
    · rw [List.getElem?_append_left (s.size.symm ▸ UInt32.lt_iff_toNat_lt.1 hold)]
      exact h.cells e hold
    · have hle := UInt32.le_iff_toNat_le.1 (UInt32.not_lt.1 hold)
      have hlt := UInt32.lt_iff_toNat_lt.1 he
      rw [List.getElem?_append_right (s.size.symm ▸ hle), List.getElem?_replicate,
        if_pos (by rw [s.size]; change e.toNat < max.toNat at hlt; omega),
        h.above e (UInt32.not_lt.1 hold)]
      rfl

theorem foldl_delete (cells : List (Option Ptr)) (heap : Heap) :
    cells.foldl Heap.delete heap
      = { next := heap.next, freed := heap.freed ++ cells.filterMap id } := by
  induction cells generalizing heap with
  | nil => simp
  | cons p cells ih =>
    rw [List.foldl_cons, ih]
    cases p <;> simp [Heap.delete]

theorem alike_clear (h : Alike s r) : Alike s.clear { hash := r.hash.clear, max := r.max } where
  max := h.max
  cells := by
    intro e he
    have hlt : e.toNat < s.array.length := s.size.symm ▸ UInt32.lt_iff_toNat_lt.1 he
    change (s.array.map fun _ => none)[e.toNat]? = some none
    rw [List.getElem?_map, List.getElem?_eq_getElem hlt]
    rfl
  above := fun _ _ => rfl
  next := by
    change (s.array.foldl Heap.delete s.heap).next
      = ((r.hash.map.entries.map Sigma.snd).foldl Heap.delete r.hash.heap).next
    rw [foldl_delete, foldl_delete]
    exact h.next
  freed := by
    change (s.array.foldl Heap.delete s.heap).freed.Perm
      ((r.hash.map.entries.map Sigma.snd).foldl Heap.delete r.hash.heap).freed
    rw [foldl_delete, foldl_delete, List.filterMap_map]
    exact h.freed.append (filterMap_array_perm h)

/-! ## One step of both -/

/-- A proper operation gives the same answer on both and keeps them alike. -/
theorem alike_step (h : Alike s r) {o : Op} (hproper : Proper r o) :
    ∃ t, s.step o = some ((r.step o).1, t) ∧ Alike t (r.step o).2 := by
  cases o with
  | allocateEntry e =>
    by_cases he : r.max ≤ e
    · rw [step_of_refusal (o := .allocateEntry e) (if_pos he)]
      refine ⟨s, ?_, h⟩
      exact congrArg (Option.map _) (if_pos (h.max ▸ he))
    · obtain ⟨t, ht, halike⟩ := alike_allocateEntry h (h.max ▸ UInt32.not_le.1 he) hproper
      rw [step_of_accepted (o := .allocateEntry e) (if_neg he)]
      exact ⟨t, congrArg (Option.map _) ht, halike⟩
  | deallocateEntry e =>
    by_cases he : r.max ≤ e
    · rw [step_of_refusal (o := .deallocateEntry e) (if_pos he)]
      refine ⟨s, ?_, h⟩
      exact congrArg (Option.map _) (if_pos (h.max ▸ he))
    · obtain ⟨t, ht, halike⟩ := alike_deallocateEntry h (h.max ▸ UInt32.not_le.1 he) hproper
      rw [step_of_accepted (o := .deallocateEntry e) (if_neg he)]
      exact ⟨t, congrArg (Option.map _) ht, halike⟩
  | lookupEntry e =>
    refine ⟨s, h.matches.lookups e, ?_⟩
    by_cases he : r.max ≤ e
    · rw [step_of_refusal (o := .lookupEntry e) (if_pos he)]
      exact h
    · rw [step_of_accepted (o := .lookupEntry e) (if_neg he)]
      exact h
  | setEntry e p =>
    by_cases he : r.max ≤ e
    · have hbeyond : s.max < e := UInt32.lt_of_le_of_ne (h.max ▸ he) (h.max ▸ Ne.symm hproper)
      rw [step_of_refusal (o := .setEntry e p) (if_pos he)]
      refine ⟨s, ?_, h⟩
      exact congrArg (Option.map _) (if_pos hbeyond)
    · obtain ⟨t, ht, halike⟩ := alike_setEntry h (h.max ▸ UInt32.not_le.1 he) p
      rw [step_of_accepted (o := .setEntry e p) (if_neg he)]
      exact ⟨t, congrArg (Option.map _) ht, halike⟩
  | lookupEntryAllocate e =>
    by_cases he : r.max ≤ e
    · rw [step_of_refusal (o := .lookupEntryAllocate e) (if_pos he)]
      refine ⟨s, ?_, h⟩
      change (s.lookupEntryAllocate e).map _ = _
      unfold ArrayStorageContainer.lookupEntryAllocate ArrayStorageContainer.lookupEntry
        ArrayStorageContainer.allocateEntry
      rw [if_pos (h.max ▸ he), Option.bind_some, if_pos rfl, if_pos (h.max ▸ he)]
      rfl
    · obtain ⟨t, ht, halike⟩ := alike_lookupEntryAllocate h (h.max ▸ UInt32.not_le.1 he) hproper
      rw [step_of_accepted (o := .lookupEntryAllocate e) (if_neg he)]
      exact ⟨t, congrArg (Option.map _) ht, halike⟩
  | resetup max => exact ⟨s.resetup max, rfl, alike_resetup h max⟩
  | clear => exact ⟨s.clear, rfl, alike_clear h⟩

theorem accepted_of_null (h : Alike s r) (hnull : r.hash.map.lookup e = some none) :
    ¬ r.max ≤ e :=
  UInt32.not_le.2 (h.max ▸ lt_max_of_null h hnull)

/-- An operation that gives the same answer on both is proper. -/
theorem proper_of_step (h : Alike s r) {o : Op} (hstep : s.step o = some ((r.step o).1, t)) :
    Proper r o := by
  cases o with
  | allocateEntry e =>
    intro hnull
    obtain ⟨hrefused, p, u, hu⟩ := allocateEntry_of_null h hnull
    rw [step_of_accepted (o := .allocateEntry e) (if_neg (accepted_of_null h hnull))] at hstep
    change (s.allocateEntry e).map _ = some (Answer.pointer (r.hash.allocateEntry e).1, t) at hstep
    rw [hu, hrefused] at hstep
    cases hstep
  | deallocateEntry e =>
    intro hnull
    obtain ⟨hdone, hs⟩ := deallocateEntry_of_null h hnull
    rw [step_of_accepted (o := .deallocateEntry e) (if_neg (accepted_of_null h hnull))] at hstep
    change (s.deallocateEntry e).map _
      = some (Answer.success (r.hash.deallocateEntry e).1, t) at hstep
    rw [hs, hdone] at hstep
    cases hstep
  | lookupEntry e => trivial
  | setEntry e p =>
    intro he
    change (s.setEntry e p).map _ = _ at hstep
    unfold ArrayStorageContainer.setEntry at hstep
    rw [he, ← h.max, if_neg (UInt32.lt_irrefl s.max), read_max] at hstep
    cases hstep
  | lookupEntryAllocate e =>
    intro hnull
    obtain ⟨hrefused, p, u, hu⟩ := lookupEntryAllocate_of_null h hnull
    rw [step_of_accepted (o := .lookupEntryAllocate e) (if_neg (accepted_of_null h hnull))] at hstep
    change (s.lookupEntryAllocate e).map _
      = some (Answer.pointer (r.hash.lookupEntryAllocate e).1, t) at hstep
    rw [hu, hrefused] at hstep
    cases hstep
  | resetup max => trivial
  | clear => trivial

/-! ## Runs -/

theorem agrees_iff (h : Alike s r) (ops : List Op) : Agrees s r ops ↔ AllProper r ops := by
  induction ops generalizing s r with
  | nil => exact iff_of_true h.matches trivial
  | cons o ops ih =>
    constructor
    · rintro ⟨-, t, ht, hrest⟩
      have hproper := proper_of_step h ht
      obtain ⟨t', ht', halike⟩ := alike_step h hproper
      have htt : t' = t := congrArg Prod.snd (Option.some.inj (ht'.symm.trans ht))
      exact ⟨hproper, (ih (htt ▸ halike)).1 hrest⟩
    · rintro ⟨hproper, hrest⟩
      obtain ⟨t, ht, halike⟩ := alike_step h hproper
      exact ⟨h.matches, t, ht, (ih halike).2 hrest⟩

/-- The containers agree over a run exactly when no `SetEntry` is at the
maximum of its time, and nothing allocates or deallocates an entry that was
set to NULL. -/
theorem storages_agree (max : UInt32) (ops : List Op) :
    Agrees (ArrayStorageContainer.setup max) (Restricted.setup max) ops ↔
      AllProper (Restricted.setup max) ops :=
  agrees_iff (alike_setup max) ops

/-- `SetEntry(1, p)` on an array of one cell is not refused and writes
behind the array. -/
theorem setEntry_at_max_not_agrees :
    ¬ Agrees (ArrayStorageContainer.setup 1) (Restricted.setup 1) [.setEntry 1 (some 7)] ∧
      (ArrayStorageContainer.setup 1).step (.setEntry 1 (some 7)) = none := by
  refine ⟨?_, rfl⟩
  rintro ⟨-, t, ht, -⟩
  cases ht

end HearthStone.Storage
