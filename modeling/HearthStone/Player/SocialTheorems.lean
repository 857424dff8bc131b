/-
HearthStone.Player.SocialTheorems — when friend lists are mirrored.

The reverse set of a player is the answer of a query as long as he logs
in, and is kept in memory afterwards. `Mirror` says of each phase what its
copy holds; it fails where a row changes between the query and the moment
at which the one who changes it finds the player.

* `mirror_addFriend`, `mirror_removeFriend` — the two calls.
* `Undisturbed` — the condition on one step.
* `mirror_step`, `friends_run` — one step, every run.
-/
import HearthStone.Player.Social
import HearthStone.Lib.Run

namespace HearthStone.Social

open Lib

namespace Phase

/-- The query of the rows is answered and the player not yet known. -/
def loading : Phase → Bool
  | .queried .. | .loaded => true
  | _ => false

/-- The query of the rows is answered and the player not yet found. -/
def hidden : Phase → Bool
  | .queried .. | .loaded | .loggedIn | .told => true
  | _ => false

/-- The player has a map of friends. -/
def hasFriends : Phase → Bool
  | .offline | .queried .. => false
  | _ => true

/-- The reverse set is kept. -/
def keepsReverse : Phase → Bool
  | .offline | .queried .. | .removed => false
  | _ => true

end Phase

namespace Realm

variable {m m' : Realm} {a b c g : Nat} {name : String} {note : Option String}

/-! ## Small facts -/

@[simp] theorem setPhase_self (m : Realm) (c : Nat) (p : Phase) :
    (m.setPhase c p).phase c = p := Function.update_self ..

theorem setPhase_other (m : Realm) (p : Phase) (h : a ≠ c) :
    (m.setPhase c p).phase a = m.phase a := Function.update_of_ne h ..

@[simp] theorem setPhase_friends (m : Realm) (c : Nat) (p : Phase) :
    (m.setPhase c p).friends = m.friends := rfl

@[simp] theorem setPhase_hasFriendList (m : Realm) (c : Nat) (p : Phase) :
    (m.setPhase c p).hasFriendList = m.hasFriendList := rfl

@[simp] theorem setFriends_self (m : Realm) (c : Nat) (l : AList fun _ : Nat => Option String) :
    (m.setFriends c l).friends c = l := Function.update_self ..

theorem setFriends_other (m : Realm) (l : AList fun _ : Nat => Option String) (h : a ≠ c) :
    (m.setFriends c l).friends a = m.friends a := Function.update_of_ne h ..

@[simp] theorem setFriends_hasFriendList (m : Realm) (c : Nat)
    (l : AList fun _ : Nat => Option String) :
    (m.setFriends c l).hasFriendList = m.hasFriendList := rfl

@[simp] theorem setFriends_phase (m : Realm) (c : Nat)
    (l : AList fun _ : Nat => Option String) : (m.setFriends c l).phase = m.phase := rfl

@[simp] theorem setHasFriendList_self (m : Realm) (c : Nat) (l : List Nat) :
    (m.setHasFriendList c l).hasFriendList c = l := Function.update_self ..

theorem setHasFriendList_other (m : Realm) (l : List Nat) (h : a ≠ c) :
    (m.setHasFriendList c l).hasFriendList a = m.hasFriendList a := Function.update_of_ne h ..

@[simp] theorem setHasFriendList_friends (m : Realm) (c : Nat) (l : List Nat) :
    (m.setHasFriendList c l).friends = m.friends := rfl

@[simp] theorem setHasFriendList_phase (m : Realm) (c : Nat) (l : List Nat) :
    (m.setHasFriendList c l).phase = m.phase := rfl

@[simp] theorem setFriends_rows (m : Realm) (c : Nat)
    (l : AList fun _ : Nat => Option String) : (m.setFriends c l).rows = m.rows := rfl

@[simp] theorem setHasFriendList_rows (m : Realm) (c : Nat) (l : List Nat) :
    (m.setHasFriendList c l).rows = m.rows := rfl

@[simp] theorem send_friends (m : Realm) (l : List Notice) : (m.send l).friends = m.friends := rfl

@[simp] theorem send_hasFriendList (m : Realm) (l : List Notice) :
    (m.send l).hasFriendList = m.hasFriendList := rfl

@[simp] theorem send_phase (m : Realm) (l : List Notice) : (m.send l).phase = m.phase := rfl

@[simp] theorem send_rows (m : Realm) (l : List Notice) : (m.send l).rows = m.rows := rfl

/-! ## Rows -/

theorem mem_friendRows : (∃ n, (g, n) ∈ m.friendRows c) ↔ (c, g) ∈ m.rows := by
  rw [AList.mem_keys, AList.keys, List.keys, List.mem_map]
  unfold friendRows
  constructor
  · rintro ⟨n, hn⟩
    obtain ⟨e, he, hrow⟩ := List.mem_filterMap.1 hn
    rw [Option.ite_none_right_eq_some, Option.some.injEq, Prod.mk.injEq] at hrow
    obtain ⟨hc, hg, -⟩ := hrow
    exact ⟨e, he, Prod.ext hc hg⟩
  · rintro ⟨e, he, hkey⟩
    refine ⟨e.2, List.mem_filterMap.2 ⟨e, he, ?_⟩⟩
    rw [if_pos (congrArg Prod.fst hkey), congrArg Prod.snd hkey]

theorem mem_hasFriendRows : a ∈ m.hasFriendRows c ↔ (a, c) ∈ m.rows := by
  rw [AList.mem_keys, AList.keys, List.keys, List.mem_map]
  unfold hasFriendRows
  constructor
  · intro ha
    obtain ⟨e, he, hrow⟩ := List.mem_filterMap.1 ha
    rw [Option.ite_none_right_eq_some, Option.some.injEq] at hrow
    exact ⟨e, he, Prod.ext hrow.2 hrow.1⟩
  · rintro ⟨e, he, hkey⟩
    refine List.mem_filterMap.2 ⟨e, he, ?_⟩
    rw [if_pos (congrArg Prod.snd hkey), congrArg Prod.fst hkey]

theorem mem_insertRow (n : String) (p : Nat × Nat) :
    p ∈ (m.insertRow a b n).rows ↔ p = (a, b) ∨ p ∈ m.rows := by
  unfold insertRow
  split
  case isTrue hmem =>
    constructor
    · exact .inr
    · rintro (rfl | h)
      · exact hmem
      · exact h
  case isFalse => exact AList.mem_insert _

theorem insertRow_same (n : String) : (m.insertRow a b n).phase = m.phase ∧
    (m.insertRow a b n).friends = m.friends ∧
    (m.insertRow a b n).hasFriendList = m.hasFriendList := by
  unfold insertRow
  split
  · exact ⟨rfl, rfl, rfl⟩
  · exact ⟨rfl, rfl, rfl⟩

theorem mem_loadFriends (rows : List (Nat × String)) :
    g ∈ loadFriends rows ↔ ∃ n, (g, n) ∈ rows := by
  have hfold : ∀ friends : AList fun _ : Nat => Option String,
      g ∈ rows.foldl (fun friends row =>
        if row.1 ∈ friends then friends
        else friends.insert row.1 (if row.2.isEmpty then none else some row.2)) friends ↔
      g ∈ friends ∨ ∃ n, (g, n) ∈ rows := by
    induction rows with
    | nil => simp
    | cons row rest ih =>
      intro friends
      rw [List.foldl_cons, ih]
      split
      case isTrue hmem =>
        constructor
        · rintro (h | ⟨n, hn⟩)
          · exact .inl h
          · exact .inr ⟨n, List.mem_cons_of_mem _ hn⟩
        · rintro (h | ⟨n, hn⟩)
          · exact .inl h
          · rcases List.mem_cons.1 hn with rfl | hn
            · exact .inl hmem
            · exact .inr ⟨n, hn⟩
      case isFalse =>
        rw [AList.mem_insert]
        constructor
        · rintro ((rfl | h) | ⟨n, hn⟩)
          · exact .inr ⟨row.2, List.mem_cons_self⟩
          · exact .inl h
          · exact .inr ⟨n, List.mem_cons_of_mem _ hn⟩
        · rintro (h | ⟨n, hn⟩)
          · exact .inl (.inr h)
          · rcases List.mem_cons.1 hn with rfl | hn
            · exact .inl (.inl rfl)
            · exact .inr ⟨n, hn⟩
  rw [loadFriends, hfold]
  simp

theorem mem_loadHasFriendList (rows : List Nat) : a ∈ loadHasFriendList rows ↔ a ∈ rows := by
  have hfold : ∀ has : List Nat,
      a ∈ rows.foldl (fun has a => has.insert a) has ↔ a ∈ has ∨ a ∈ rows := by
    induction rows with
    | nil => simp
    | cons row rest ih =>
      intro has
      rw [List.foldl_cons, ih, List.mem_insert_iff, List.mem_cons]
      tauto
  rw [loadHasFriendList, hfold]
  simp

/-! ## The invariant -/

/-- What each copy of the table holds. -/
structure Mirror (m : Realm) : Prop where
  queried : ∀ c friends has, m.phase c = .queried friends has →
    (∀ g, (∃ n, (g, n) ∈ friends) ↔ (c, g) ∈ m.rows) ∧ ∀ a, a ∈ has ↔ (a, c) ∈ m.rows
  friends : ∀ c, (m.phase c).hasFriends = true → ∀ g, g ∈ m.friends c ↔ (c, g) ∈ m.rows
  reverse : ∀ c, (m.phase c).keepsReverse = true →
    ∀ a, a ∈ m.hasFriendList c ↔ (a, c) ∈ m.rows

theorem Mirror.send (hm : Mirror m) (notices : List Notice) : Mirror (m.send notices) :=
  ⟨hm.queried, hm.friends, hm.reverse⟩

/-- Nothing changes but one character, whose copies hold what they
should. -/
theorem Mirror.character (hm : Mirror m) (hrows : m'.rows = m.rows)
    (hother : ∀ x, x ≠ c → m'.phase x = m.phase x ∧ m'.friends x = m.friends x ∧
      m'.hasFriendList x = m.hasFriendList x)
    (hq : ∀ friends has, m'.phase c = .queried friends has →
      (∀ g, (∃ n, (g, n) ∈ friends) ↔ (c, g) ∈ m.rows) ∧ ∀ a, a ∈ has ↔ (a, c) ∈ m.rows)
    (hf : (m'.phase c).hasFriends = true → ∀ g, g ∈ m'.friends c ↔ (c, g) ∈ m.rows)
    (hr : (m'.phase c).keepsReverse = true → ∀ a, a ∈ m'.hasFriendList c ↔ (a, c) ∈ m.rows) :
    Mirror m' := by
  constructor
  case queried =>
    intro x friends has hx
    rw [hrows]
    by_cases hxc : x = c
    · subst hxc
      exact hq friends has hx
    · rw [(hother x hxc).1] at hx
      exact hm.queried x friends has hx
  case friends =>
    intro x hx
    rw [hrows]
    by_cases hxc : x = c
    · subst hxc
      exact hf hx
    · rw [(hother x hxc).1] at hx
      rw [(hother x hxc).2.1]
      exact hm.friends x hx
  case reverse =>
    intro x hx
    rw [hrows]
    by_cases hxc : x = c
    · subst hxc
      exact hr hx
    · rw [(hother x hxc).1] at hx
      rw [(hother x hxc).2.2]
      exact hm.reverse x hx

/-- A player goes on to a phase that keeps less. -/
theorem Mirror.setPhase {p : Phase} (hm : Mirror m) (hq : p.loading = true → p = .loaded)
    (hf : p.hasFriends = true → (m.phase c).hasFriends = true)
    (hr : p.keepsReverse = true → (m.phase c).keepsReverse = true) : Mirror (m.setPhase c p) := by
  refine hm.character rfl (fun x hx => ⟨setPhase_other m p hx, rfl, rfl⟩) ?_ ?_ ?_
  · intro friends has hp
    rw [setPhase_self] at hp
    subst hp
    cases hq rfl
  · intro hp
    rw [setPhase_self] at hp
    exact hm.friends c (hf hp)
  · intro hp
    rw [setPhase_self] at hp
    exact hm.reverse c (hr hp)

/-- The answers are the rows. -/
theorem Mirror.queryFriends (hm : Mirror m) :
    Mirror (m.setPhase c (.queried (m.friendRows c) (m.hasFriendRows c))) := by
  refine hm.character rfl (fun x hx => ⟨setPhase_other m _ hx, rfl, rfl⟩) ?_ ?_ ?_
  · intro friends has hp
    rw [setPhase_self] at hp
    cases hp
    exact ⟨fun g => mem_friendRows, fun a => mem_hasFriendRows⟩
  · intro hp
    rw [setPhase_self] at hp
    cases hp
  · intro hp
    rw [setPhase_self] at hp
    cases hp

/-- The copies are the answers. -/
theorem Mirror.load {friends : List (Nat × String)} {has : List Nat} (hm : Mirror m)
    (hc : m.phase c = .queried friends has) :
    Mirror (((m.setFriends c (loadFriends friends)).setHasFriendList c
      (loadHasFriendList has)).setPhase c .loaded) := by
  obtain ⟨hfriends, hhas⟩ := hm.queried c friends has hc
  refine hm.character (c := c) rfl ?_ ?_ ?_ ?_
  · intro x hx
    exact ⟨Function.update_of_ne hx .., Function.update_of_ne hx .., Function.update_of_ne hx ..⟩
  · intro friends' has' hp
    rw [setPhase_self] at hp
    cases hp
  · intro _ g
    rw [setPhase_friends, setHasFriendList_friends, setFriends_self, mem_loadFriends]
    exact hfriends g
  · intro _ a
    rw [setPhase_hasFriendList, setHasFriendList_self, mem_loadHasFriendList]
    exact hhas a

/-! ## The calls -/

theorem acts_hasFriends {p : Phase} (h : p.acts = true) : p.hasFriends = true := by
  cases p <;> first | rfl | cases h

theorem acts_not_queried {p : Phase} {friends : List (Nat × String)} {has : List Nat}
    (h : p.acts = true) : p ≠ .queried friends has := by
  rintro rfl
  cases h

/-- Who is not known keeps no reverse set once nothing is being loaded. -/
theorem keepsReverse_known {p : Phase} (hkeeps : p.keepsReverse = true) (hp : p.loading = false) :
    p.loggedInPlayer = true := by
  revert hkeeps hp
  cases p <;> simp [Phase.keepsReverse, Phase.loading, Phase.loggedInPlayer]

theorem keepsReverse_found {p : Phase} (hkeeps : p.keepsReverse = true) (hp : p.hidden = false) :
    p.found = true := by
  revert hkeeps hp
  cases p <;> simp [Phase.keepsReverse, Phase.hidden, Phase.found]

/-- Nothing changes but the row of `a` and `b`, with the map of `a` and the
reverse set of `b`. -/
theorem Mirror.row (hm : Mirror m) (hacts : (m.phase a).acts = true)
    (hb : ∀ friends has, m.phase b = .queried friends has →
      ((a, b) ∈ m'.rows ↔ (a, b) ∈ m.rows))
    (hphase : m'.phase = m.phase)
    (hrows : ∀ p, p ≠ (a, b) → (p ∈ m'.rows ↔ p ∈ m.rows))
    (hfriends : ∀ g, g ∈ m'.friends a ↔ (a, g) ∈ m'.rows)
    (hfriends' : ∀ x, x ≠ a → m'.friends x = m.friends x)
    (hreverse : (m.phase b).keepsReverse = true →
      ∀ x, x ∈ m'.hasFriendList b ↔ (x, b) ∈ m'.rows)
    (hreverse' : ∀ x, x ≠ b → m'.hasFriendList x = m.hasFriendList x) : Mirror m' := by
  constructor
  case queried =>
    intro c friends has hc
    rw [hphase] at hc
    have hca : c ≠ a := by
      rintro rfl
      exact acts_not_queried hacts hc
    obtain ⟨hold, hold'⟩ := hm.queried c friends has hc
    constructor
    · intro g
      rw [hold g, hrows (c, g) fun h => hca (congrArg Prod.fst h)]
    · intro x
      by_cases hp : (x, c) = (a, b)
      · obtain ⟨rfl, rfl⟩ := Prod.mk.inj hp
        rw [hold' x, hb friends has hc]
      · rw [hold' x, hrows (x, c) hp]
  case friends =>
    intro c hc g
    by_cases hca : c = a
    · subst hca
      exact hfriends g
    · rw [hphase] at hc
      rw [hfriends' c hca, hrows (c, g) fun h => hca (congrArg Prod.fst h)]
      exact hm.friends c hc g
  case reverse =>
    intro c hc x
    rw [hphase] at hc
    by_cases hcb : c = b
    · subst hcb
      exact hreverse hc x
    · rw [hreverse' c hcb, hrows (x, c) fun h => hcb (congrArg Prod.snd h)]
      exact hm.reverse c hc x

/-- Nobody who is logging in is taken as a friend. -/
theorem mirror_addFriend (hm : Mirror m) (hacts : (m.phase a).acts = true)
    (hfree : ∀ b, m.playerInfoByName name = some b → m.team b = m.team a → b ≠ a →
      b ∉ m.friends a → (m.phase b).loading = false) :
    Mirror (m.addFriend a name note) := by
  unfold addFriend
  split
  case h_1 => exact hm.send _
  case h_2 info hinfo =>
    by_cases hteam : m.team info = m.team a
    case neg =>
      rw [if_pos hteam]
      exact hm.send _
    rw [if_neg (not_not.2 hteam)]
    by_cases hself : info = a
    case pos =>
      rw [if_pos hself]
      exact hm.send _
    rw [if_neg hself]
    by_cases hmem : info ∈ m.friends a
    case pos =>
      rw [if_pos hmem]
      exact hm.send _
    rw [if_neg hmem]
    have hloading := hfree info hinfo hteam hself hmem
    have hqueried : ∀ (m' : Realm) friends has, m.phase info = .queried friends has →
        ((a, info) ∈ m'.rows ↔ (a, info) ∈ m.rows) := by
      intro _ friends has h
      rw [h] at hloading
      cases hloading
    have hfriends : ∀ g, g ∈ (m.friends a).insert info note ↔ (a, g) = (a, info) ∨ (a, g) ∈ m.rows := by
      intro g
      rw [AList.mem_insert, hm.friends a (acts_hasFriends hacts) g, Prod.mk.injEq]
      simp
    split
    case isTrue =>
      have hsame := insertRow_same (m := ((m.setHasFriendList info
        ((m.hasFriendList info).insert a)).setFriends a ((m.friends a).insert info note)).send
          [⟨a, .FRIEND_ADDED_ONLINE, some info⟩]) (a := a) (b := info) (note.getD "")
      obtain ⟨hphase, hfriends', hreverse'⟩ := hsame
      refine hm.row (b := info) hacts (hqueried _) hphase ?_ ?_ ?_ ?_ ?_
      · intro p hp
        rw [mem_insertRow]
        exact or_iff_right hp
      · intro g
        rw [hfriends', mem_insertRow, send_friends, setFriends_self]
        exact hfriends g
      · intro x hx
        rw [hfriends', send_friends, setFriends_other _ _ hx, setHasFriendList_friends]
      · intro hkeeps x
        rw [hreverse', mem_insertRow, send_hasFriendList, setFriends_hasFriendList,
          setHasFriendList_self, List.mem_insert_iff, hm.reverse info hkeeps x, Prod.mk.injEq]
        simp
      · intro x hx
        rw [hreverse', send_hasFriendList, setFriends_hasFriendList, setHasFriendList_other _ _ hx]
    case isFalse hlogged =>
      have hsame := insertRow_same (m := (m.setFriends a ((m.friends a).insert info note)).send
        [⟨a, .FRIEND_ADDED_OFFLINE, some info⟩]) (a := a) (b := info) (note.getD "")
      obtain ⟨hphase, hfriends', hreverse'⟩ := hsame
      refine hm.row (b := info) hacts (hqueried _) hphase ?_ ?_ ?_ ?_ ?_
      · intro p hp
        rw [mem_insertRow]
        exact or_iff_right hp
      · intro g
        rw [hfriends', mem_insertRow, send_friends, setFriends_self]
        exact hfriends g
      · intro x hx
        rw [hfriends', send_friends, setFriends_other _ _ hx]
      · exact fun hkeeps => absurd (keepsReverse_known hkeeps hloading) hlogged
      · intro x _
        rw [hreverse', send_hasFriendList, setFriends_hasFriendList]

/-- Nobody who is logging in is given up. -/
theorem mirror_removeFriend (hm : Mirror m) (hacts : (m.phase a).acts = true)
    (hfree : g ≠ a → g ∈ m.friends a → (m.phase g).hidden = false) :
    Mirror (m.removeFriend a g) := by
  unfold removeFriend
  by_cases hself : g = a
  case pos =>
    rw [if_pos hself]
    exact hm.send _
  rw [if_neg hself]
  have hold := hm.friends a (acts_hasFriends hacts) g
  have hrows : ∀ p : Nat × Nat, p ∈ m.rows.erase (a, g) ↔ p ≠ (a, g) ∧ p ∈ m.rows :=
    fun p => AList.mem_erase
  dsimp only
  split
  case isTrue hfound =>
    refine hm.row (a := a) (b := g) hacts ?_ rfl ?_ ?_ ?_ ?_ ?_
    · intro friends has h
      unfold getPlayer at hfound
      rw [setFriends_phase, h] at hfound
      cases hfound
    · exact fun p hp => (hrows p).trans (and_iff_right hp)
    · intro x
      change x ∈ (setFriends m a ((m.friends a).erase g)).friends a ↔ (a, x) ∈ m.rows.erase (a, g)
      rw [setFriends_self, AList.mem_erase, hrows, hm.friends a (acts_hasFriends hacts) x]
      simp
    · exact fun x hx => setFriends_other m _ hx
    · intro hkeeps x
      change x ∈ (setHasFriendList _ g _).hasFriendList g ↔ (x, g) ∈ m.rows.erase (a, g)
      rw [setHasFriendList_self, List.mem_filter, hrows, setFriends_hasFriendList,
        hm.reverse g hkeeps x]
      simp [and_comm]
    · exact fun x hx => setHasFriendList_other _ _ hx
  case isFalse hfound =>
    have hgone : (m.phase g).keepsReverse = true ∨ (∃ friends has, m.phase g = .queried friends has) →
        (a, g) ∉ m.rows := by
      intro hg hrow
      have hhidden := hfree hself (hold.2 hrow)
      rcases hg with hkeeps | ⟨friends, has, hq⟩
      · exact hfound (keepsReverse_found hkeeps hhidden)
      · rw [hq] at hhidden
        cases hhidden
    refine hm.row (a := a) (b := g) hacts ?_ rfl ?_ ?_ ?_ ?_ ?_
    · intro friends has h
      have hnone := hgone (.inr ⟨friends, has, h⟩)
      exact iff_of_false (fun h => hnone ((hrows _).1 h).2) hnone
    · exact fun p hp => (hrows p).trans (and_iff_right hp)
    · intro x
      change x ∈ (setFriends m a ((m.friends a).erase g)).friends a ↔ (a, x) ∈ m.rows.erase (a, g)
      rw [setFriends_self, AList.mem_erase, hrows, hm.friends a (acts_hasFriends hacts) x]
      simp
    · exact fun x hx => setFriends_other m _ hx
    · intro hkeeps x
      change x ∈ m.hasFriendList g ↔ (x, g) ∈ m.rows.erase (a, g)
      rw [hrows, hm.reverse g hkeeps x]
      refine (and_iff_right_of_imp ?_).symm
      rintro hrow heq
      rw [heq] at hrow
      exact hgone (.inl hkeeps) hrow
    · exact fun x _ => rfl

/-! ## Runs -/

/-- The step does not take a friend who is logging in, or give up one who
is not yet findable, and announces everybody who comes online. -/
def Undisturbed (m : Realm) : Op → Prop
  | .addFriend a name _ =>
    ∀ b, m.playerInfoByName name = some b → m.team b = m.team a → b ≠ a → b ∉ m.friends a →
      (m.phase b).loading = false
  | .removeFriend a guid => guid ≠ a → guid ∈ m.friends a → (m.phase guid).hidden = false
  | .tellFriendsOnline c => m.hasGMPermissions c = false
  | _ => True

instance : ∀ (m : Realm) (op : Op), Decidable (Undisturbed m op)
  | m, .addFriend a name _ =>
    inferInstanceAs (Decidable (∀ b ∈ m.playerInfoByName name, m.team b = m.team a → b ≠ a →
      b ∉ m.friends a → (m.phase b).loading = false))
  | m, .removeFriend a guid =>
    inferInstanceAs (Decidable (guid ≠ a → guid ∈ m.friends a → (m.phase guid).hidden = false))
  | m, .tellFriendsOnline c => inferInstanceAs (Decidable (m.hasGMPermissions c = false))
  | _, .queryFriends _ => isTrue trivial
  | _, .loadFailed _ => isTrue trivial
  | _, .load _ => isTrue trivial
  | _, .setLoggedInPlayer _ => isTrue trivial
  | _, .addPlayer _ => isTrue trivial
  | _, .tellFriendsOffline _ => isTrue trivial
  | _, .removePlayer _ => isTrue trivial
  | _, .clearLoggedInPlayer _ => isTrue trivial

theorem mirror_step {op : Op} (hm : Mirror m) (hok : Undisturbed m op)
    (hstep : m.step op = some m') : Mirror m' := by
  cases op with
  | queryFriends c =>
    obtain ⟨-, rfl⟩ := Option.ite_some_none_eq_some.1 hstep
    exact hm.queryFriends
  | loadFailed c =>
    simp only [step] at hstep
    split at hstep
    · obtain rfl := Option.some.inj hstep
      exact hm.setPhase nofun nofun nofun
    · cases hstep
  | load c =>
    simp only [step] at hstep
    split at hstep
    case h_1 friends has hc =>
      obtain rfl := Option.some.inj hstep
      exact hm.load hc
    case h_2 => cases hstep
  | setLoggedInPlayer c | addPlayer c =>
    obtain ⟨hc, rfl⟩ := Option.ite_some_none_eq_some.1 hstep
    exact hm.setPhase nofun (fun _ => by rw [hc]; rfl) fun _ => by rw [hc]; rfl
  | tellFriendsOnline c =>
    obtain ⟨hc, htold⟩ := Option.ite_none_right_eq_some.1 hstep
    rw [if_neg (Bool.not_eq_true _ ▸ hok)] at htold
    obtain rfl := Option.some.inj htold
    exact (hm.send _).setPhase nofun (fun _ => by rw [send_phase, hc]; rfl)
      fun _ => by rw [send_phase, hc]; rfl
  | tellFriendsOffline c =>
    obtain ⟨hc, rfl⟩ := Option.ite_some_none_eq_some.1 hstep
    exact (hm.send _).setPhase nofun (fun _ => by rw [send_phase, hc]; rfl)
      fun _ => by rw [send_phase, hc]; rfl
  | removePlayer c =>
    obtain ⟨hc, rfl⟩ := Option.ite_some_none_eq_some.1 hstep
    exact hm.setPhase nofun (fun _ => by rw [hc]; rfl) nofun
  | clearLoggedInPlayer c =>
    obtain ⟨-, rfl⟩ := Option.ite_some_none_eq_some.1 hstep
    exact hm.setPhase nofun nofun nofun
  | addFriend a name note =>
    obtain ⟨hacts, rfl⟩ := Option.ite_some_none_eq_some.1 hstep
    exact mirror_addFriend hm hacts hok
  | removeFriend a guid =>
    obtain ⟨hacts, rfl⟩ := Option.ite_some_none_eq_some.1 hstep
    exact mirror_removeFriend hm hacts hok

/-- Friends who are both online have each other, and the table has them. -/
def FriendsMirrored (m : Realm) : Prop :=
  ∀ a b, m.getPlayer a = true → m.getPlayer b = true →
    (b ∈ m.friends a ↔ a ∈ m.hasFriendList b) ∧ (b ∈ m.friends a ↔ (a, b) ∈ m.rows)

theorem found_hasFriends {p : Phase} (h : p.found = true) : p.hasFriends = true := by
  revert h
  cases p <;> simp [Phase.found, Phase.hasFriends]

theorem found_keepsReverse {p : Phase} (h : p.found = true) : p.keepsReverse = true := by
  revert h
  cases p <;> simp [Phase.found, Phase.keepsReverse]

theorem Mirror.friendsMirrored (hm : Mirror m) : FriendsMirrored m := by
  intro a b ha hb
  have hfriends := hm.friends a (found_hasFriends ha) b
  exact ⟨hfriends.trans (hm.reverse b (found_keepsReverse hb) a).symm, hfriends⟩

/-- Whom a step announces, and how. -/
def Op.announces : Op → Option (Nat × FriendStatus)
  | .tellFriendsOnline c => some (c, .FRIEND_ONLINE)
  | .tellFriendsOffline c => some (c, .FRIEND_OFFLINE)
  | _ => none

/-- A login or a logout is told to those who are online and have the
player as a friend, and to nobody else. -/
def ToldExactly (m : Realm) (op : Op) (m' : Realm) : Prop :=
  ∃ new, m'.sent = m.sent ++ new ∧ ∀ a c status,
    status = .FRIEND_ONLINE ∨ status = .FRIEND_OFFLINE →
      (⟨a, status, some c⟩ ∈ new ↔
        op.announces = some (c, status) ∧ m.getPlayer a = true ∧ c ∈ m.friends a)

/-- A step that announces nobody sends no word of a login or a logout. -/
theorem ToldExactly.silent {op : Op} {new : List Notice} (hsent : m'.sent = m.sent ++ new)
    (hop : op.announces = none)
    (hnew : ∀ n ∈ new, n.status ≠ .FRIEND_ONLINE ∧ n.status ≠ .FRIEND_OFFLINE) :
    ToldExactly m op m' := by
  refine ⟨new, hsent, fun a c status hstatus => ?_⟩
  rw [hop]
  constructor
  · intro hmem
    obtain ⟨honline, hoffline⟩ := hnew _ hmem
    rcases hstatus with rfl | rfl
    · exact absurd rfl honline
    · exact absurd rfl hoffline
  · rintro ⟨h, -⟩
    cases h

theorem ToldExactly.tellFriends {op : Op} {s : FriendStatus} (hm : Mirror m)
    (hc : (m.phase c).keepsReverse = true) (hop : op.announces = some (c, s))
    (hsent : m'.sent = (m.tellFriends c s).sent) : ToldExactly m op m' := by
  refine ⟨_, hsent, fun a c' status _ => ?_⟩
  rw [List.mem_map, hop, Option.some.injEq, Prod.mk.injEq]
  constructor
  · rintro ⟨x, hx, heq⟩
    obtain ⟨hhas, hfound⟩ := List.mem_filter.1 hx
    obtain ⟨rfl, rfl, hguid⟩ := Notice.mk.inj heq
    obtain rfl := Option.some.inj hguid
    have hrow := (hm.reverse c hc x).1 hhas
    exact ⟨⟨rfl, rfl⟩, hfound, (hm.friends x (found_hasFriends hfound) c).2 hrow⟩
  · rintro ⟨⟨rfl, rfl⟩, hfound, hfriend⟩
    have hrow := (hm.friends a (found_hasFriends hfound) c).1 hfriend
    exact ⟨a, List.mem_filter.2 ⟨(hm.reverse c hc a).2 hrow, hfound⟩, rfl⟩

theorem insertRow_sent (n : String) : (m.insertRow a b n).sent = m.sent := by
  unfold insertRow
  split
  · rfl
  · rfl

/-- `Social_AddFriend` answers its caller. -/
theorem addFriend_sent : ∃ n, (m.addFriend a name note).sent = m.sent ++ [n] ∧
    n.status ≠ .FRIEND_ONLINE ∧ n.status ≠ .FRIEND_OFFLINE := by
  unfold addFriend
  split
  case h_1 => exact ⟨_, rfl, nofun, nofun⟩
  split
  case isTrue => exact ⟨_, rfl, nofun, nofun⟩
  split
  case isTrue => exact ⟨_, rfl, nofun, nofun⟩
  split
  case isTrue => exact ⟨_, rfl, nofun, nofun⟩
  split
  case isTrue => exact ⟨_, insertRow_sent _, nofun, nofun⟩
  case isFalse => exact ⟨_, insertRow_sent _, nofun, nofun⟩

theorem removeFriend_sent : ∃ n, (m.removeFriend a g).sent = m.sent ++ [n] ∧
    n.status ≠ .FRIEND_ONLINE ∧ n.status ≠ .FRIEND_OFFLINE := by
  unfold removeFriend
  split
  case isTrue => exact ⟨_, rfl, nofun, nofun⟩
  dsimp only
  split
  case isTrue => exact ⟨_, rfl, nofun, nofun⟩
  case isFalse => exact ⟨_, rfl, nofun, nofun⟩

theorem told_step {op : Op} (hm : Mirror m) (hok : Undisturbed m op)
    (hstep : m.step op = some m') : ToldExactly m op m' := by
  have hnothing : ∀ n ∈ ([] : List Notice),
      n.status ≠ .FRIEND_ONLINE ∧ n.status ≠ .FRIEND_OFFLINE := nofun
  cases op with
  | queryFriends c | setLoggedInPlayer c | addPlayer c | removePlayer c | clearLoggedInPlayer c =>
    obtain ⟨-, rfl⟩ := Option.ite_some_none_eq_some.1 hstep
    exact .silent (List.append_nil _).symm rfl hnothing
  | loadFailed c | load c =>
    simp only [step] at hstep
    split at hstep
    · obtain rfl := Option.some.inj hstep
      exact .silent (List.append_nil _).symm rfl hnothing
    · cases hstep
  | tellFriendsOnline c =>
    obtain ⟨hc, htold⟩ := Option.ite_none_right_eq_some.1 hstep
    rw [if_neg (Bool.not_eq_true _ ▸ hok)] at htold
    obtain rfl := Option.some.inj htold
    exact .tellFriends hm (by rw [hc]; rfl) rfl rfl
  | tellFriendsOffline c =>
    obtain ⟨hc, rfl⟩ := Option.ite_some_none_eq_some.1 hstep
    exact .tellFriends hm (by rw [hc]; rfl) rfl rfl
  | addFriend a name note =>
    obtain ⟨-, rfl⟩ := Option.ite_some_none_eq_some.1 hstep
    obtain ⟨n, hsent, hstatus⟩ := @addFriend_sent m a name note
    exact .silent hsent rfl fun n' hn' => List.mem_singleton.1 hn' ▸ hstatus
  | removeFriend a guid =>
    obtain ⟨-, rfl⟩ := Option.ite_some_none_eq_some.1 hstep
    obtain ⟨n, hsent, hstatus⟩ := @removeFriend_sent m a guid
    exact .silent hsent rfl fun n' hn' => List.mem_singleton.1 hn' ▸ hstatus

theorem start_mirror (playerInfoByName : String → Option Nat) (team : Nat → Nat)
    (hasGMPermissions : Nat → Bool) (rows : AList fun _ : Nat × Nat => String) :
    Mirror (start playerInfoByName team hasGMPermissions rows) :=
  ⟨fun _ _ _ h => (by cases h), fun _ h => (by cases h), fun _ h => (by cases h)⟩

/-- In every undisturbed run friends are mirrored, and the next step tells
exactly the friends. -/
theorem friends_run {playerInfoByName : String → Option Nat} {team : Nat → Nat}
    {hasGMPermissions : Nat → Bool} {rows : AList fun _ : Nat × Nat => String} {ops : List Op}
    (hrun : Run (Guarded Undisturbed (PartialStep step))
      (start playerInfoByName team hasGMPermissions rows) ops m) :
    FriendsMirrored m ∧ ∀ op m', Undisturbed m op → m.step op = some m' → ToldExactly m op m' := by
  have hm : Mirror m := hrun.invariant Mirror
    (fun m op m' hm ⟨hok, hstep⟩ => mirror_step hm hok hstep) (start_mirror ..)
  exact ⟨hm.friendsMirrored, fun op m' hok hstep => told_step hm hok hstep⟩

/-- A login from the query to `AddPlayer`. -/
def login (c : Nat) : List Op :=
  [.queryFriends c, .load c, .setLoggedInPlayer c, .tellFriendsOnline c, .addPlayer c]

/-- "b" is 2; everybody is on one side, nobody a game master. -/
def twoPlayers : Realm := start (fun name => if name = "b" then some 2 else none) (fun _ => 0)
  (fun _ => false) ∅

/-- 1 takes 2 as a friend, 2 logs out and in again, and is given up. -/
def friendship : List Op :=
  login 1 ++ login 2 ++ [.addFriend 1 "b" none, .tellFriendsOffline 2, .removePlayer 2,
    .clearLoggedInPlayer 2] ++ login 2 ++ [.removeFriend 1 2]

theorem friends_run_friendship :
    (friendship.foldlM (fun m op => if Undisturbed m op then step m op else none)
      twoPlayers).isSome = true ∧
    ∀ m ∈ friendship.foldlM (fun m op => if Undisturbed m op then step m op else none) twoPlayers,
      FriendsMirrored m ∧ ∀ op m', Undisturbed m op → m.step op = some m' → ToldExactly m op m' :=
  ⟨by decide +kernel, fun _ hm => friends_run (Run.of_foldlM hm)⟩

/-- 1 takes 2 as a friend while the answer for 2 is on its way. -/
def lostFriend : List Op :=
  login 1 ++ [.queryFriends 2, .addFriend 1 "b" none, .load 2, .setLoggedInPlayer 2,
    .tellFriendsOnline 2, .addPlayer 2]

theorem lostFriend_some :
    (lostFriend.foldlM (fun m op => if True then step m op else none) twoPlayers).isSome = true := by
  decide +kernel

/-- 1 has 2 in his map, and 2 knows nothing of him. -/
theorem not_friends_run : ¬ ∀ (playerInfoByName : String → Option Nat) (team : Nat → Nat)
    (hasGMPermissions : Nat → Bool) (rows : AList fun _ : Nat × Nat => String) (ops : List Op)
    (m : Realm), Run (PartialStep step) (start playerInfoByName team hasGMPermissions rows) ops m →
      FriendsMirrored m := by
  intro hall
  have hguarded : Run (Guarded (fun _ _ => True) (PartialStep step)) twoPlayers lostFriend
      (Option.get _ lostFriend_some) := Run.of_foldlM (Option.some_get lostFriend_some).symm
  have hmirrored := hall _ _ _ _ _ _ (hguarded.mono fun _ _ _ h => h.2) 1 2 (by decide +kernel)
    (by decide +kernel)
  exact absurd (hmirrored.1.1 (by decide +kernel)) (by decide +kernel)

end Realm

end HearthStone.Social
