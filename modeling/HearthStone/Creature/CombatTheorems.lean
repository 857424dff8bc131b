/-
HearthStone.Creature.CombatTheorems — what `UpdateFlag` keeps, and what
it needs.

`UpdateFlag` is called in the middle of other changes, when one side of a
relation is already gone. `Sound M X` is what it needs and keeps: an entry
of `M` may be missing on the other side, and the flag of a unit of `X` may
be wrong. The four sets are four sides, and a rule is stated for all.

* `updateFlagIn_spec` — one `UpdateFlag`, by induction on its depth. A
  unit that leaves combat on the way can do so only once, so the number
  of units is deep enough.
* `sweep_spec` — a walk of a set, each unit of which forgets one.
* `giveUp_spec`, `vanished_spec` — nobody remembers a unit that has
  vanished.
-/
import HearthStone.Creature.CombatStatus

namespace HearthStone.CombatStatus

/-! ## Sides -/

/-- The four sets of a unit. -/
inductive Side
  | healed
  | healers
  | targets
  | attackers

/-- Where the other one keeps the entry. -/
def Side.mirror : Side → Side
  | .healed => .healers
  | .healers => .healed
  | .targets => .attackers
  | .attackers => .targets

/-- Both ends of the relation are players. -/
def Side.heals : Side → Bool
  | .healed | .healers => true
  | .targets | .attackers => false

@[simp] theorem Side.mirror_mirror (s : Side) : s.mirror.mirror = s := by cases s <;> rfl

namespace Handler

/-- Somebody is in one of the sets. -/
def Holds (h : Handler) : Side → Nat → Prop
  | .healed, x => x ∈ h.healed
  | .healers, x => x ∈ h.healers
  | .targets, x => x ∈ h.attackTargets
  | .attackers, x => x ∈ h.attackers

/-- A handler that has forgotten the entries of `c`. -/
def Forgets (c : Side → Nat → Prop) (h h' : Handler) : Prop :=
  ∀ s x, h'.Holds s x ↔ h.Holds s x ∧ ¬ c s x

variable {h h' : Handler} {c : Side → Nat → Prop}

/-- A unit is in combat as long as somebody is left in one of three sets. -/
theorem internalIsInCombat_iff (h : Handler) : h.internalIsInCombat = true ↔
    ∃ s x, s ≠ .healers ∧ h.Holds s x := by
  have htargets : h.attackTargets.entries.isEmpty = false ↔ ∃ x, x ∈ h.attackTargets := by
    rw [List.isEmpty_eq_false_iff_exists_mem]
    constructor
    · intro ⟨x, hx⟩
      exact ⟨x.1, AList.mem_keys.2 (List.mem_keys_of_mem hx)⟩
    · intro ⟨x, hx⟩
      obtain ⟨y, hy, -⟩ := List.mem_map.1 (AList.mem_keys.1 hx)
      exact ⟨y, hy⟩
  unfold internalIsInCombat
  rw [Bool.or_eq_true, Bool.or_eq_true, Bool.not_eq_true', Bool.not_eq_true', Bool.not_eq_true',
    htargets, List.isEmpty_eq_false_iff_exists_mem, List.isEmpty_eq_false_iff_exists_mem]
  constructor
  · rintro ((⟨x, hx⟩ | ⟨x, hx⟩) | ⟨x, hx⟩)
    · exact ⟨.healed, x, nofun, hx⟩
    · exact ⟨.targets, x, nofun, hx⟩
    · exact ⟨.attackers, x, nofun, hx⟩
  · rintro ⟨s, x, hs, hx⟩
    cases s with
    | healed => exact .inl (.inl ⟨x, hx⟩)
    | healers => exact absurd rfl hs
    | targets => exact .inl (.inr ⟨x, hx⟩)
    | attackers => exact .inr ⟨x, hx⟩

theorem Forgets.internal (hf : Forgets c h h') (hc : h'.internalIsInCombat = true) :
    h.internalIsInCombat = true := by
  obtain ⟨s, x, hs, hx⟩ := (internalIsInCombat_iff _).1 hc
  exact (internalIsInCombat_iff _).2 ⟨s, x, hs, ((hf s x).1 hx).1⟩

/-- A handler that keeps every entry is in combat as before. -/
theorem Forgets.internal_eq (hf : Forgets (fun _ _ => False) h h') :
    h'.internalIsInCombat = h.internalIsInCombat := by
  have hback : Forgets (fun _ _ => False) h' h :=
    fun s x => ⟨fun hx => ⟨(hf s x).2 ⟨hx, id⟩, id⟩, fun hx => ((hf s x).1 hx.1).1⟩
  exact Bool.eq_iff_iff.2 ⟨hf.internal, hback.internal⟩

/-- Nothing is forgotten where the sets are the same. -/
theorem Forgets.of_eq (h1 : h'.healed = h.healed) (h2 : h'.healers = h.healers)
    (h3 : h'.attackTargets = h.attackTargets) (h4 : h'.attackers = h.attackers) :
    Forgets (fun _ _ => False) h h' := by
  intro s x
  cases s
  · simp [Holds, h1]
  · simp [Holds, h2]
  · simp [Holds, h3]
  · simp [Holds, h4]

/-- What a change forgets when it erases one entry of one side. -/
def one (s : Side) (u : Nat) : Side → Nat → Prop := fun s' x => s' = s ∧ x = u

theorem eraseHealed_forgets (u : Nat) (h : Handler) :
    Forgets (one .healed u) h (h.eraseHealed u) := by
  intro s x
  cases s <;> simp [Holds, one, eraseHealed]

theorem eraseHealer_forgets (u : Nat) (h : Handler) :
    Forgets (one .healers u) h (h.eraseHealer u) := by
  intro s x
  cases s <;> simp [Holds, one, eraseHealer]

theorem eraseTarget_forgets (u : Nat) (h : Handler) :
    Forgets (one .targets u) h (h.eraseTarget u) := by
  intro s x
  cases s <;> simp [Holds, one, eraseTarget, AList.mem_erase, and_comm]

theorem eraseAttacker_forgets (u : Nat) (h : Handler) :
    Forgets (one .attackers u) h (h.eraseAttacker u) := by
  intro s x
  cases s <;> simp [Holds, one, eraseAttacker]

/-- A change of the sets alone. -/
def KeepsFlag (f : Handler → Handler) : Prop :=
  ∀ h, (f h).lastStatus = h.lastStatus ∧ (f h).unitFlagCombat = h.unitFlagCombat

/-- What a change forgets when it empties some sides. -/
def whole (sides : List Side) : Side → Nat → Prop := fun s _ => s ∈ sides

/-- A handler with the entries of `c` besides. -/
def Adds (c : Side → Nat → Prop) (h h' : Handler) : Prop :=
  ∀ s x, h'.Holds s x ↔ h.Holds s x ∨ c s x

/-- Who has healed a unit does not keep it in combat. -/
theorem Adds.internal_eq {u : Nat} (hf : Adds (one .healers u) h h') :
    h'.internalIsInCombat = h.internalIsInCombat := by
  rw [Bool.eq_iff_iff, internalIsInCombat_iff, internalIsInCombat_iff]
  constructor
  · intro ⟨s, x, hs, hx⟩
    exact ⟨s, x, hs, ((hf s x).1 hx).resolve_right fun h => hs h.1⟩
  · intro ⟨s, x, hs, hx⟩
    exact ⟨s, x, hs, (hf s x).2 (.inl hx)⟩

end Handler

namespace CombatMap

open Handler

variable {m m' m₁ m₂ : CombatMap} {u i a b x k : Nat} {s : Side}
  {M M' : Side → Nat → Nat → Prop} {X X' : Nat → Prop}
  {c : Side → Nat → Prop} {d d₁ d₂ : Nat → Side → Nat → Prop}
  {flag : CombatMap → Nat → CombatMap} {find : CombatMap → Nat → Bool}
  {f : Handler → Handler}

/-! ## Small facts -/

@[simp] theorem modify_world (m : CombatMap) (u : Nat) (f : Handler → Handler) :
    (m.modify u f).world = m.world := rfl

@[simp] theorem modify_isPlayer (m : CombatMap) (u : Nat) (f : Handler → Handler) :
    (m.modify u f).isPlayer = m.isPlayer := rfl

@[simp] theorem modify_isDead (m : CombatMap) (u : Nat) (f : Handler → Handler) :
    (m.modify u f).isDead = m.isDead := rfl

@[simp] theorem modify_now (m : CombatMap) (u : Nat) (f : Handler → Handler) :
    (m.modify u f).now = m.now := rfl

@[simp] theorem modify_status_self (m : CombatMap) (u : Nat) (f : Handler → Handler) :
    (m.modify u f).status u = f (m.status u) := Function.update_self ..

theorem modify_status_ne (m : CombatMap) (f : Handler → Handler) (h : a ≠ u) :
    (m.modify u f).status a = m.status a := Function.update_of_ne h ..

/-! ## The invariant -/

/-- The state in the middle of a change. The entry `a` keeps of `b` may be
missing with `b` where `M` says so, and the flag of a unit of `X` may be
wrong. -/
structure Sound (M : Side → Nat → Nat → Prop) (X : Nat → Prop) (m : CombatMap) : Prop where
  found : ∀ a s b, (m.status a).Holds s b →
    b ∈ m.world ∧ (s.heals = true → m.isPlayer b = true)
  mirror : ∀ a s b, (m.status a).Holds s b → (m.status b).Holds s.mirror a ∨ M s a b
  flags : ∀ a, a ∈ m.world → ¬ X a → (m.status a).lastStatus = (m.status a).internalIsInCombat
  shown : ∀ a, a ∈ m.world → (m.status a).unitFlagCombat = (m.status a).lastStatus
  outside : ∀ a, a ∉ m.world → (∀ s b, ¬ (m.status a).Holds s b) ∧
    (m.status a).lastStatus = false ∧ (m.status a).unitFlagCombat = false

/-- More may be missing, less what no unit holds. -/
theorem Sound.mono (hm : Sound M X m) (hM : ∀ s a b, (m.status a).Holds s b → M s a b → M' s a b)
    (hX : ∀ a, X a → X' a) : Sound M' X' m :=
  ⟨hm.found, fun a s b hb => (hm.mirror a s b hb).imp_right (hM s a b hb),
    fun a ha hx => hm.flags a ha fun h => hx (hX a h), hm.shown, hm.outside⟩

/-- A unit forgets some entries: what mirrors them may then be missing. -/
theorem Sound.modify (hm : Sound M X m) (hi : i ∈ m.world) (hf : Forgets c (m.status i) (f (m.status i)))
    (hM : ∀ s x, c s x → (m.status i).Holds s x → (m.status x).Holds s.mirror i → M s.mirror x i)
    (hX : ∀ a, a ≠ i → X a → X' a)
    (hflag : ¬ X' i → (f (m.status i)).lastStatus = (f (m.status i)).internalIsInCombat)
    (hshown : (f (m.status i)).unitFlagCombat = (f (m.status i)).lastStatus) :
    Sound M X' (m.modify i f) := by
  have hless : ∀ a s b, ((m.modify i f).status a).Holds s b → (m.status a).Holds s b := by
    intro a s b hb
    by_cases ha : a = i
    · subst ha
      rw [modify_status_self] at hb
      exact ((hf s b).1 hb).1
    · rwa [modify_status_ne m f ha] at hb
  constructor
  case found =>
    intro a s b hb
    exact hm.found a s b (hless a s b hb)
  case mirror =>
    intro a s b hb
    rcases hm.mirror a s b (hless a s b hb) with hback | hmiss
    · by_cases hbi : b = i
      · subst hbi
        rw [modify_status_self]
        by_cases hgone : c s.mirror a
        · have hmiss := hM s.mirror a hgone hback
          rw [Side.mirror_mirror] at hmiss
          exact .inr (hmiss (hless a s b hb))
        · exact .inl ((hf s.mirror a).2 ⟨hback, hgone⟩)
      · rw [modify_status_ne m f hbi]
        exact .inl hback
    · exact .inr hmiss
  case flags =>
    intro a ha hx
    by_cases hai : a = i
    · subst hai
      rw [modify_status_self]
      exact hflag hx
    · rw [modify_status_ne m f hai]
      exact hm.flags a ha fun h => hx (hX a hai h)
  case shown =>
    intro a ha
    by_cases hai : a = i
    · subst hai
      rw [modify_status_self]
      exact hshown
    · rw [modify_status_ne m f hai]
      exact hm.shown a ha
  case outside =>
    intro a ha
    have hai : a ≠ i := fun h => ha (h ▸ hi)
    rw [modify_status_ne m f hai]
    exact hm.outside a ha

/-- A unit keeps its sets and its flag. -/
theorem Sound.touch (hm : Sound M X m) (hi : i ∈ m.world)
    (hf : Forgets (fun _ _ => False) (m.status i) (f (m.status i))) (hkeeps : KeepsFlag f) :
    Sound M X (m.modify i f) := by
  refine hm.modify hi hf (fun _ _ h => h.elim) (fun _ _ h => h) (fun hx => ?_) ?_
  · rw [(hkeeps _).1, hf.internal_eq]
    exact hm.flags i hi hx
  · rw [(hkeeps _).2, (hkeeps _).1]
    exact hm.shown i hi

/-- Two units enter each other. -/
theorem Sound.link {g : Handler → Handler} {t : Nat} (hm : Sound M X m) (hu : u ∈ m.world)
    (ht : t ∈ m.world) (hut : t ≠ u)
    (hplayers : s.heals = true → m.isPlayer u = true ∧ m.isPlayer t = true)
    (hf : Adds (one s t) (m.status u) (f (m.status u))) (hkf : KeepsFlag f)
    (hg : Adds (one s.mirror u) (m.status t) (g (m.status t))) (hkg : KeepsFlag g)
    (hX : ∀ a, ¬ X' a → ¬ X a ∧ a ≠ u ∧ (a = t → s.mirror = .healers)) :
    Sound M X' ((m.modify u f).modify t g) := by
  have hstatus_u : ((m.modify u f).modify t g).status u = f (m.status u) := by
    rw [modify_status_ne _ g hut.symm, modify_status_self]
  have hstatus_t : ((m.modify u f).modify t g).status t = g (m.status t) := by
    rw [modify_status_self, modify_status_ne _ f hut]
  have hother : ∀ a, a ≠ u → a ≠ t → ((m.modify u f).modify t g).status a = m.status a := by
    intro a hau hat
    rw [modify_status_ne _ g hat, modify_status_ne _ f hau]
  have hheld : ∀ a s' b, (((m.modify u f).modify t g).status a).Holds s' b ↔
      (m.status a).Holds s' b ∨ a = u ∧ one s t s' b ∨ a = t ∧ one s.mirror u s' b := by
    intro a s' b
    by_cases hau : a = u
    · subst hau
      rw [hstatus_u, hf s' b]
      simp [hut.symm]
    · by_cases hat : a = t
      · subst hat
        rw [hstatus_t, hg s' b]
        simp [hut]
      · rw [hother a hau hat]
        simp [hau, hat]
  have hflags : ∀ a, (((m.modify u f).modify t g).status a).lastStatus = (m.status a).lastStatus ∧
      (((m.modify u f).modify t g).status a).unitFlagCombat = (m.status a).unitFlagCombat := by
    intro a
    by_cases hau : a = u
    · subst hau
      rw [hstatus_u]
      exact hkf _
    · by_cases hat : a = t
      · subst hat
        rw [hstatus_t]
        exact hkg _
      · rw [hother a hau hat]
        exact ⟨rfl, rfl⟩
  constructor
  case found =>
    intro a s' b hb
    rcases (hheld a s' b).1 hb with h | ⟨-, rfl, rfl⟩ | ⟨-, rfl, rfl⟩
    · exact hm.found a s' b h
    · exact ⟨ht, fun h => (hplayers h).2⟩
    · refine ⟨hu, fun h => (hplayers ?_).1⟩
      cases s <;> exact h
  case mirror =>
    intro a s' b hb
    rcases (hheld a s' b).1 hb with h | ⟨rfl, rfl, rfl⟩ | ⟨rfl, rfl, rfl⟩
    · exact (hm.mirror a s' b h).imp_left fun h => (hheld b s'.mirror a).2 (.inl h)
    · exact .inl ((hheld b s'.mirror a).2 (.inr (.inr ⟨rfl, rfl, rfl⟩)))
    · exact .inl ((hheld b s.mirror.mirror a).2 (.inr (.inl ⟨rfl, s.mirror_mirror, rfl⟩)))
  case flags =>
    intro a ha hx
    obtain ⟨hx, hau, hat⟩ := hX a hx
    rw [(hflags a).1, hm.flags a ha hx]
    by_cases hat' : a = t
    · subst hat'
      rw [hstatus_t]
      rw [hat rfl] at hg
      exact hg.internal_eq.symm
    · rw [hother a hau hat']
  case shown =>
    intro a ha
    rw [(hflags a).1, (hflags a).2]
    exact hm.shown a ha
  case outside =>
    intro a ha
    have hau : a ≠ u := fun h => ha (h ▸ hu)
    have hat : a ≠ t := fun h => ha (h ▸ ht)
    rw [hother a hau hat]
    exact hm.outside a ha

/-! ## What a change leaves -/

/-- In combat, or still shown as if. -/
def busy (m : CombatMap) (a : Nat) : Bool :=
  (m.status a).lastStatus || (m.status a).internalIsInCombat

/-- The units that could still leave combat. -/
def busyUnits (m : CombatMap) : Nat := m.world.countP m.busy

/-- The same map, less the entries of `d`. -/
structure Faded (d : Nat → Side → Nat → Prop) (m m' : CombatMap) : Prop where
  world : m'.world = m.world
  isPlayer : m'.isPlayer = m.isPlayer
  isDead : m'.isDead = m.isDead
  now : m'.now = m.now
  holds : ∀ a s b, (m'.status a).Holds s b → (m.status a).Holds s b ∧ ¬ d a s b
  busy : ∀ a, m'.busy a = true → m.busy a = true

namespace Faded

theorem refl (m : CombatMap) : Faded (fun _ _ _ => False) m m :=
  ⟨rfl, rfl, rfl, rfl, fun _ _ _ h => ⟨h, id⟩, fun _ h => h⟩

theorem trans (h₁ : Faded d₁ m m₁) (h₂ : Faded d₂ m₁ m₂) :
    Faded (fun a s b => d₁ a s b ∨ d₂ a s b) m m₂ where
  world := h₂.world.trans h₁.world
  isPlayer := h₂.isPlayer.trans h₁.isPlayer
  isDead := h₂.isDead.trans h₁.isDead
  now := h₂.now.trans h₁.now
  holds a s b hb := by
    obtain ⟨hb₁, hd₂⟩ := h₂.holds a s b hb
    obtain ⟨hb₀, hd₁⟩ := h₁.holds a s b hb₁
    exact ⟨hb₀, not_or.2 ⟨hd₁, hd₂⟩⟩
  busy a ha := h₁.busy a (h₂.busy a ha)

theorem mono (h : Faded d m m') (hd : ∀ a s b, d₁ a s b → d a s b) : Faded d₁ m m' :=
  { h with holds := fun a s b hb => ⟨(h.holds a s b hb).1, fun h' => (h.holds a s b hb).2 (hd a s b h')⟩ }

theorem busyUnits_le (h : Faded d m m') : m'.busyUnits ≤ m.busyUnits := by
  unfold busyUnits
  rw [h.world]
  exact List.countP_mono_left fun a _ => h.busy a

end Faded

/-- A unit forgets some entries and keeps its flag. -/
theorem modify_faded (hf : Forgets c (m.status i) (f (m.status i)))
    (hlast : (f (m.status i)).lastStatus = true → m.busy i = true) :
    Faded (fun a s b => a = i ∧ c s b) m (m.modify i f) := by
  refine ⟨rfl, rfl, rfl, rfl, ?_, ?_⟩
  · intro a s b hb
    by_cases hai : a = i
    · subst hai
      rw [modify_status_self] at hb
      exact ⟨((hf s b).1 hb).1, fun h => ((hf s b).1 hb).2 h.2⟩
    · rw [modify_status_ne m f hai] at hb
      exact ⟨hb, fun h => hai h.1⟩
  · intro a ha
    by_cases hai : a = i
    · subst hai
      unfold busy at ha
      rw [modify_status_self, Bool.or_eq_true] at ha
      rcases ha with h | h
      · exact hlast h
      · unfold busy
        rw [hf.internal h, Bool.or_true]
    · unfold busy at ha ⊢
      rwa [modify_status_ne m f hai] at ha

/-! ## `UpdateFlag` -/

/-- What `UpdateFlag` does as long as fewer than `k` units could leave
combat. -/
def FlagSpec (flag : CombatMap → Nat → CombatMap) (k : Nat) : Prop :=
  ∀ (m : CombatMap) (u : Nat) (M : Side → Nat → Nat → Prop) (X : Nat → Prop),
    u ∈ m.world → Sound M (fun a => X a ∨ a = u) m → m.busyUnits < k →
    Faded (fun _ _ _ => False) m (flag m u) ∧ Sound M (fun a => X a ∧ a ≠ u) (flag m u)

/-- A walk of a set: each unit that is found forgets one, and every flag
is right again. -/
theorem sweep_spec (hflag : FlagSpec flag k) (hf : ∀ h, Forgets c h (f h))
    (hkeeps : KeepsFlag f) (hM : ∀ i s x, c s x → M s.mirror x i)
    (hfind : ∀ m i, find m i = true → i ∈ m.world)
    (hsame : ∀ m m' : CombatMap, m'.world = m.world → m'.isPlayer = m.isPlayer → find m' = find m)
    (set : List Nat) (hm : Sound M X m) (hk : m.busyUnits < k) :
    Faded (fun a s b => a ∈ set ∧ find m a = true ∧ c s b) m (sweep flag find f m set) ∧
      Sound M X (sweep flag find f m set) := by
  induction set generalizing m with
  | nil => exact ⟨(Faded.refl m).mono fun _ _ _ h => absurd h.1 List.not_mem_nil, hm⟩
  | cons i rest ih =>
    unfold sweep
    rw [List.foldl_cons]
    change Faded _ m (sweep flag find f _ rest) ∧ Sound M X (sweep flag find f _ rest)
    cases hfi : find m i with
    | false =>
      rw [if_neg (by simp)]
      obtain ⟨hfaded, hsound⟩ := ih hm hk
      refine ⟨hfaded.mono ?_, hsound⟩
      rintro a s b ⟨ha, hfa, hc⟩
      rcases List.mem_cons.1 ha with rfl | ha
      · rw [hfi] at hfa
        cases hfa
      · exact ⟨ha, hfa, hc⟩
    | true =>
      rw [if_pos rfl]
      have hi : i ∈ m.world := hfind m i hfi
      have hfaded₁ : Faded (fun a s b => a = i ∧ c s b) m (m.modify i f) := by
        refine modify_faded (hf _) fun h => ?_
        rw [(hkeeps _).1] at h
        unfold busy
        rw [h, Bool.true_or]
      have hsound₁ : Sound M (fun a => X a ∨ a = i) (m.modify i f) := by
        refine hm.modify hi (hf _) (fun s x hc _ _ => hM i s x hc) (fun a _ h => .inl h) ?_ ?_
        · exact fun h => absurd (.inr rfl) h
        · rw [(hkeeps _).2, (hkeeps _).1]
          exact hm.shown i hi
      have hk₁ : (m.modify i f).busyUnits < k := Nat.lt_of_le_of_lt hfaded₁.busyUnits_le hk
      obtain ⟨hfaded₂, hsound₂⟩ := hflag _ i M X (by simpa using hi) hsound₁ hk₁
      have hstep := hfaded₁.trans hfaded₂
      have hk₂ := Nat.lt_of_le_of_lt hstep.busyUnits_le hk
      obtain ⟨hfaded₃, hsound₃⟩ := ih (hsound₂.mono (fun _ _ _ _ h => h) fun a h => h.1) hk₂
      refine ⟨(hstep.trans hfaded₃).mono ?_, hsound₃⟩
      rintro a s b ⟨ha, hfa, hc⟩
      rcases List.mem_cons.1 ha with rfl | ha
      · exact .inl (.inl ⟨rfl, hc⟩)
      · rw [hsame m _ hstep.world hstep.isPlayer]
        exact .inr ⟨ha, hfa, hc⟩

theorem hasPlayer_world (m : CombatMap) (i : Nat) (h : m.hasPlayer i = true) : i ∈ m.world :=
  of_decide_eq_true (Bool.and_eq_true_iff.1 h).1

theorem hasUnit_world (m : CombatMap) (i : Nat) (h : m.hasUnit i = true) : i ∈ m.world :=
  of_decide_eq_true h

theorem hasPlayer_same (m m' : CombatMap) (hw : m'.world = m.world)
    (hp : m'.isPlayer = m.isPlayer) : hasPlayer m' = hasPlayer m := by
  funext i
  unfold hasPlayer
  rw [hw, hp]

theorem hasUnit_same (m m' : CombatMap) (hw : m'.world = m.world)
    (_ : m'.isPlayer = m.isPlayer) : hasUnit m' = hasUnit m := by
  funext i
  unfold hasUnit
  rw [hw]

/-- Who is in a set of a unit is found. -/
theorem Sound.hasUnit (hm : Sound M X m) (hb : (m.status a).Holds s b) : m.hasUnit b = true :=
  decide_eq_true (hm.found a s b hb).1

theorem Sound.hasPlayer (hm : Sound M X m) (hb : (m.status a).Holds s b) (hs : s.heals = true) :
    m.hasPlayer b = true :=
  Bool.and_eq_true_iff.2 ⟨decide_eq_true (hm.found a s b hb).1, (hm.found a s b hb).2 hs⟩

/-- `ClearMyHealers` of a unit that has left combat. -/
theorem clearMyHealers_spec (hflag : FlagSpec flag k) (hu : u ∈ m.world) (hm : Sound M X m)
    (hx : ¬ X u) (hfree : (m.status u).lastStatus = false) (hk : m.busyUnits < k) :
    Faded (fun _ _ _ => False) m (clearMyHealers flag m u) ∧
      Sound M X (clearMyHealers flag m u) := by
  -- while the healers are told, the set of `u` still names them
  let M' : Side → Nat → Nat → Prop := fun s a b => M s a b ∨ s = .healers ∧ a = u
  have hm' : Sound M' X m := hm.mono (fun _ _ _ _ h => .inl h) fun _ h => h
  obtain ⟨hfaded, hsound⟩ := sweep_spec hflag (eraseHealed_forgets u)
    (fun _ => ⟨rfl, rfl⟩) (by rintro i s x ⟨rfl, rfl⟩; exact .inr ⟨rfl, rfl⟩)
    hasPlayer_world hasPlayer_same (m.status u).healers hm' hk
  have hu' : u ∈ (sweep flag hasPlayer (.eraseHealed u) m (m.status u).healers).world := by
    rwa [hfaded.world]
  unfold clearMyHealers
  generalize sweep flag hasPlayer (.eraseHealed u) m (m.status u).healers = m₁ at *
  have hlast : (m₁.status u).lastStatus = false := by
    have hbusy : m.busy u = false := by
      have hinternal := hm.flags u hu hx
      unfold busy
      rw [← hinternal, hfree, Bool.or_false]
    cases hl : (m₁.status u).lastStatus with
    | false => rfl
    | true =>
      have hbusy₁ := hfaded.busy u (by unfold busy; rw [hl, Bool.true_or])
      rw [hbusy] at hbusy₁
      cases hbusy₁
  have hforgets : Forgets (whole [.healers]) (m₁.status u) { m₁.status u with healers := [] } := by
    intro s x
    cases s <;> simp [Holds, whole]
  have hcleared : Sound M' X (m₁.modify u fun h => { h with healers := [] }) := by
    refine hsound.modify hu' hforgets ?_ (fun a _ h => h) ?_ (hsound.shown u hu')
    · intro s x hs hheld hback
      obtain rfl := List.mem_singleton.1 hs
      have hheld₀ := (hfaded.holds u .healers x hheld).1
      exact absurd ⟨hheld₀, hm.hasPlayer hheld₀ rfl, rfl, rfl⟩ (hfaded.holds x .healed u hback).2
    · exact fun _ => hsound.flags u hu' hx
  refine ⟨(hfaded.trans (modify_faded hforgets ?_)).mono fun _ _ _ h => h.elim, ?_⟩
  · intro h
    rw [show ({ m₁.status u with healers := [] } : Handler).lastStatus = (m₁.status u).lastStatus
      from rfl, hlast] at h
    cases h
  · refine hcleared.mono ?_ fun _ h => h
    rintro s a b hb (hmiss | ⟨rfl, rfl⟩)
    · exact hmiss
    · rw [modify_status_self] at hb
      exact absurd hb List.not_mem_nil

/-- Fewer units can leave combat once one has. -/
theorem busyUnits_lt (hu : u ∈ m.world) (hfaded : Faded d m m') (hbusy : m.busy u = true)
    (hfree : m'.busy u = false) : m'.busyUnits < m.busyUnits := by
  unfold busyUnits
  rw [hfaded.world]
  obtain ⟨l₁, l₂, hl⟩ := List.append_of_mem hu
  rw [hl, List.countP_append, List.countP_append, List.countP_cons_of_pos hbusy,
    List.countP_cons_of_neg (by rw [hfree]; exact Bool.false_ne_true)]
  have h₁ := List.countP_mono_left (l := l₁) fun a _ => hfaded.busy a
  have h₂ := List.countP_mono_left (l := l₂) fun a _ => hfaded.busy a
  omega

theorem updateFlagIn_spec (k : Nat) : FlagSpec (updateFlagIn k) k := by
  induction k with
  | zero => exact fun m u M X _ _ hk => absurd hk (Nat.not_lt_zero _)
  | succ k ih =>
    intro m u M X hu hm hk
    unfold updateFlagIn
    by_cases hsame : (m.status u).internalIsInCombat = (m.status u).lastStatus
    case pos =>
      rw [if_pos hsame]
      refine ⟨.refl m, hm.found, hm.mirror, ?_, hm.shown, hm.outside⟩
      intro a ha hx
      by_cases hau : a = u
      · subst hau
        exact hsame.symm
      · exact hm.flags a ha fun h => h.elim (fun h => hx ⟨h, hau⟩) hau
    case neg =>
      rw [if_neg hsame]
      generalize hn : (m.status u).internalIsInCombat = n at *
      have hforgets : Forgets (fun _ _ => False) (m.status u)
          { m.status u with lastStatus := n, unitFlagCombat := n } :=
        .of_eq rfl rfl rfl rfl
      have hfaded : Faded (fun _ _ _ => False) m
          (m.modify u fun h => { h with lastStatus := n, unitFlagCombat := n }) := by
        refine (modify_faded hforgets fun h => ?_).mono fun _ _ _ h => h.elim
        unfold busy
        rw [hn, show n = true from h, Bool.or_true]
      have hsound : Sound M (fun a => X a ∧ a ≠ u)
          (m.modify u fun h => { h with lastStatus := n, unitFlagCombat := n }) := by
        refine hm.modify hu hforgets (fun _ _ h => h.elim) ?_ (fun _ => hn.symm) rfl
        rintro a hau (h | h)
        · exact ⟨h, hau⟩
        · exact absurd h hau
      cases n with
      | true =>
        rw [if_pos rfl]
        exact ⟨hfaded, hsound⟩
      | false =>
        rw [if_neg (by simp)]
        have hbusy : m.busy u = true := by
          unfold busy
          rw [Bool.eq_true_of_not_eq_false fun h => hsame h.symm, Bool.true_or]
        have hfree : (m.modify u fun h =>
            { h with lastStatus := false, unitFlagCombat := false }).busy u = false := by
          unfold busy
          rw [modify_status_self]
          exact hn
        have hlt := busyUnits_lt hu hfaded hbusy hfree
        obtain ⟨hfaded', hsound'⟩ := clearMyHealers_spec ih (by simpa using hu) hsound
          (fun h => h.2 rfl) (by rw [modify_status_self]) (by omega)
        exact ⟨(hfaded.trans hfaded').mono fun _ _ _ h => h.elim, hsound'⟩

/-- One `UpdateFlag`: there are more levels than units. -/
theorem updateFlag_spec (hu : u ∈ m.world) (hm : Sound M (fun a => X a ∨ a = u) m) :
    Faded (fun _ _ _ => False) m (m.updateFlag u) ∧
      Sound M (fun a => X a ∧ a ≠ u) (m.updateFlag u) :=
  updateFlagIn_spec (m.world.length + 1) m u M X hu hm
    (Nat.lt_succ_of_le List.countP_le_length)

theorem updateFlag_flagSpec (k : Nat) : FlagSpec updateFlag k :=
  fun _ _ _ _ hu hm _ => updateFlag_spec hu hm

/-! ## Leaving -/

/-- Both sides of a relation are given up: every unit on one side forgets
`u`, every unit on the other does, and then he forgets them. -/
theorem giveUp_spec (s : Side) (set₁ set₂ : Handler → List Nat) {f₁ f₂ g : Handler → Handler}
    (hset₁ : ∀ h x, x ∈ set₁ h ↔ h.Holds s x) (hset₂ : ∀ h x, x ∈ set₂ h ↔ h.Holds s.mirror x)
    (hf₁ : ∀ h, Forgets (one s.mirror u) h (f₁ h)) (hk₁ : KeepsFlag f₁)
    (hf₂ : ∀ h, Forgets (one s u) h (f₂ h)) (hk₂ : KeepsFlag f₂)
    (hg : ∀ h, Forgets (whole [s, s.mirror]) h (g h)) (hkg : KeepsFlag g)
    (hworld : ∀ m i, find m i = true → i ∈ m.world)
    (hsame : ∀ m m' : CombatMap, m'.world = m.world → m'.isPlayer = m.isPlayer → find m' = find m)
    (hfind : ∀ a s' b, s' = s ∨ s' = s.mirror → (m.status a).Holds s' b → find m b = true)
    (hu : u ∈ m.world) (hm : Sound (fun _ _ _ => False) (fun a => a = u) m) :
    let m₁ := sweep updateFlag find f₁ m (set₁ (m.status u))
    let m₂ := sweep updateFlag find f₂ m₁ (set₂ (m₁.status u))
    Faded (fun a s' _ => a = u ∧ (s' = s ∨ s' = s.mirror)) m ((m₂.modify u g).updateFlag u) ∧
      Sound (fun _ _ _ => False) (fun _ => False) ((m₂.modify u g).updateFlag u) := by
  intro m₁ m₂
  -- until the end, what `u` holds may be missing on the other side
  let M : Side → Nat → Nat → Prop := fun s' a _ => (s' = s ∨ s' = s.mirror) ∧ a = u
  have hm' : Sound M (fun a => a = u) m := hm.mono (fun _ _ _ _ h => h.elim) fun _ h => h
  obtain ⟨hfaded₁, hsound₁⟩ : Faded _ m m₁ ∧ Sound M _ m₁ :=
    sweep_spec (updateFlag_flagSpec (m.world.length + 1)) hf₁ hk₁
      (by rintro i _ x ⟨rfl, rfl⟩; exact ⟨.inl (Side.mirror_mirror s), rfl⟩) hworld hsame _ hm'
      (Nat.lt_succ_of_le List.countP_le_length)
  obtain ⟨hfaded₂, hsound₂⟩ : Faded _ m₁ m₂ ∧ Sound M _ m₂ :=
    sweep_spec (updateFlag_flagSpec (m₁.world.length + 1)) hf₂ hk₂
      (by rintro i _ x ⟨rfl, rfl⟩; exact ⟨.inr rfl, rfl⟩) hworld hsame _ hsound₁
      (Nat.lt_succ_of_le List.countP_le_length)
  have hu₂ : u ∈ m₂.world := by rwa [hfaded₂.world, hfaded₁.world]
  have hsound₃ : Sound M (fun a => a = u) (m₂.modify u g) := by
    refine hsound₂.modify hu₂ (hg _) ?_ (fun a _ h => h) (fun h => absurd rfl h) ?_
    · intro s' x hs' hheld hback
      have hheld₁ := (hfaded₂.holds u s' x hheld).1
      rcases List.mem_cons.1 hs' with rfl | hs'
      · -- whom the first walk has told
        have hheld₀ := (hfaded₁.holds u s' x hheld₁).1
        have hback₁ := (hfaded₂.holds x s'.mirror u hback).1
        exact absurd ⟨(hset₁ _ x).2 hheld₀, hfind u s' x (.inl rfl) hheld₀, rfl, rfl⟩
          (hfaded₁.holds x s'.mirror u hback₁).2
      · -- whom the second walk has told
        obtain rfl := List.mem_singleton.1 hs'
        rw [Side.mirror_mirror] at hback
        have hheld₀ := (hfaded₁.holds u s.mirror x hheld₁).1
        have hfx : find m₁ x = true := by
          rw [hsame m m₁ hfaded₁.world hfaded₁.isPlayer]
          exact hfind u s.mirror x (.inr rfl) hheld₀
        exact absurd ⟨(hset₂ _ x).2 hheld₁, hfx, rfl, rfl⟩ (hfaded₂.holds x s u hback).2
    · rw [(hkg _).2, (hkg _).1]
      exact hsound₂.shown u hu₂
  have hfaded₃ : Faded (fun a s' b => a = u ∧ whole [s, s.mirror] s' b) m₂ (m₂.modify u g) := by
    refine modify_faded (hg _) fun h => ?_
    rw [(hkg _).1] at h
    unfold busy
    rw [h, Bool.true_or]
  have hempty : ∀ s' b, s' = s ∨ s' = s.mirror → ¬ ((m₂.modify u g).status u).Holds s' b := by
    intro s' b hs' hb
    refine (hfaded₃.holds u s' b hb).2 ⟨rfl, ?_⟩
    rcases hs' with rfl | rfl
    · exact List.mem_cons_self
    · exact List.mem_cons_of_mem _ List.mem_cons_self
  have hsound₄ : Sound (fun _ _ _ => False) (fun a => False ∨ a = u) (m₂.modify u g) := by
    refine hsound₃.mono ?_ fun _ h => .inr h
    rintro s' a b hb ⟨hs', rfl⟩
    exact hempty s' b hs' hb
  obtain ⟨hfaded₅, hsound₅⟩ := updateFlag_spec (m := m₂.modify u g) hu₂ hsound₄
  have hall := (((hfaded₁.trans hfaded₂).trans hfaded₃).trans hfaded₅)
  refine ⟨hall.mono ?_, hsound₅.mono (fun _ _ _ _ h => h) fun _ h => h.1⟩
  rintro a s' b ⟨rfl, hs'⟩
  refine .inl (.inr ⟨rfl, ?_⟩)
  rcases hs' with rfl | rfl
  · exact List.mem_cons_self
  · exact List.mem_cons_of_mem _ List.mem_cons_self

theorem clearAttackers_spec (hu : u ∈ m.world)
    (hm : Sound (fun _ _ _ => False) (fun a => a = u) m) :
    Faded (fun a s _ => a = u ∧ (s = .targets ∨ s = .attackers)) m (m.clearAttackers u) ∧
      Sound (fun _ _ _ => False) (fun _ => False) (m.clearAttackers u) := by
  refine giveUp_spec .targets (fun h => h.attackTargets.keys) (fun h => h.attackers)
    (fun h x => AList.mem_keys.symm) (fun h x => Iff.rfl)
    (eraseAttacker_forgets u) (fun _ => ⟨rfl, rfl⟩) (eraseTarget_forgets u) (fun _ => ⟨rfl, rfl⟩)
    ?_ (fun _ => ⟨rfl, rfl⟩) hasUnit_world hasUnit_same (fun a s b _ hb => hm.hasUnit hb) hu hm
  intro h s x
  cases s <;> simp [Holds, whole, Side.mirror]

theorem clearHealers_spec (hu : u ∈ m.world)
    (hm : Sound (fun _ _ _ => False) (fun a => a = u) m) :
    Faded (fun a s _ => a = u ∧ (s = .healed ∨ s = .healers)) m (m.clearHealers u) ∧
      Sound (fun _ _ _ => False) (fun _ => False) (m.clearHealers u) := by
  refine giveUp_spec .healed (fun h => h.healed) (fun h => h.healers)
    (fun h x => Iff.rfl) (fun h x => Iff.rfl) (eraseHealer_forgets u) (fun _ => ⟨rfl, rfl⟩)
    (eraseHealed_forgets u) (fun _ => ⟨rfl, rfl⟩) ?_ (fun _ => ⟨rfl, rfl⟩) hasPlayer_world
    hasPlayer_same ?_ hu hm
  · intro h s x
    cases s <;> simp [Holds, whole, Side.mirror]
  · rintro a s b (rfl | rfl) hb
    · exact hm.hasPlayer hb rfl
    · exact hm.hasPlayer hb rfl

/-- Nobody is in a set of a unit that has vanished, and its flag is off. -/
theorem vanished_spec (hu : u ∈ m.world) (hm : Sound (fun _ _ _ => False) (fun a => a = u) m) :
    Sound (fun _ _ _ => False) (fun _ => False) (m.vanished u) ∧ (m.vanished u).world = m.world ∧
      ∀ s b, ¬ ((m.vanished u).status u).Holds s b := by
  obtain ⟨hfaded₁, hsound₁⟩ := clearAttackers_spec hu hm
  have hu₁ : u ∈ (m.clearAttackers u).world := by rwa [hfaded₁.world]
  obtain ⟨hfaded₂, hsound₂⟩ :=
    clearHealers_spec hu₁ (hsound₁.mono (fun _ _ _ _ h => h) fun _ h => h.elim)
  have hu₂ : u ∈ ((m.clearAttackers u).clearHealers u).world := by rwa [hfaded₂.world]
  have hforgets : Forgets (fun _ _ => False) (((m.clearAttackers u).clearHealers u).status u)
      { ((m.clearAttackers u).clearHealers u).status u with damageMap := ∅ } :=
    .of_eq rfl rfl rfl rfl
  unfold vanished
  refine ⟨hsound₂.modify hu₂ hforgets (fun _ _ h => h.elim) (fun _ _ h => h)
    (fun _ => hsound₂.flags u hu₂ id) (hsound₂.shown u hu₂), hfaded₂.world.trans hfaded₁.world, ?_⟩
  intro s b hb
  rw [modify_status_self] at hb
  have hb₂ := hfaded₂.holds u s b ((hforgets s b).1 hb).1
  have hb₁ := hfaded₁.holds u s b hb₂.1
  cases s with
  | healed => exact hb₂.2 ⟨rfl, .inl rfl⟩
  | healers => exact hb₂.2 ⟨rfl, .inr rfl⟩
  | targets => exact hb₁.2 ⟨rfl, .inl rfl⟩
  | attackers => exact hb₁.2 ⟨rfl, .inr rfl⟩

end CombatMap

end HearthStone.CombatStatus
