/-
HearthStone.Trade.TradeItems — the items of an exchange.

The check before the exchange nets the two offers against the free slots
of both sides; the loop then moves one item at a time, the player's
before the target's, and destroys an item for which the receiver has no
place at that moment. `MoveFits` is what a single move needs: the item is
found, it is not a bag that has been filled on the way, and the receiver
has room.

* `moveOffer_spec` — one move: its item goes over, stays or is lost, and
  nothing else changes.
* `moves_spec` — the loop, over any list of moves.
* `trade_items_conserved` — the accept: items are conserved exactly when
  every move fits.
-/
import HearthStone.Item.FreeSlot
import HearthStone.Trade.TradeGold
import HearthStone.Trade.TradeOffers

namespace HearthStone

open Lib

namespace ItemWorld

variable {w w' : ItemWorld} {p q src dst : PlayerGuid} {x g : Guid}

/-- The item is in a slot of the player or in a bag in one. -/
def HeldBy (w : ItemWorld) (p : PlayerGuid) (g : Guid) : Prop :=
  ∃ a, w.PlaceOf p a ∧ w.slots a = some g

/-- Where everything is with its owner, the holder is the owner. -/
theorem heldBy_iff (hw : w.WellFormed) :
    w.HeldBy p g ↔ Placed w.slots g ∧ (w.item g).owner = some p := by
  constructor
  · rintro ⟨a, ha, hg⟩
    refine ⟨⟨a, hg⟩, ?_⟩
    cases ha with
    | top s hs => exact hw.topOwner p s g hg
    | cell s b i htop hcont hi => rw [hw.cellOwner b i g hg, hw.topOwner p s b htop]
  · rintro ⟨⟨a, hg⟩, howner⟩
    cases a with
    | top r s =>
      obtain rfl : r = p := Option.some.inj ((hw.topOwner r s g hg).symm.trans howner)
      exact ⟨_, .top s (hw.topRange r s g hg), hg⟩
    | cell b i =>
      obtain ⟨r, s, hs, hb⟩ := hw.bagOwner hg
      obtain ⟨hcont, hi⟩ := hw.cellRange b i g hg
      have hr : (w.item g).owner = some r := (hw.cellOwner b i g hg).trans hb
      obtain rfl : r = p := Option.some.inj (hr.symm.trans howner)
      exact ⟨_, .cell s b i hs hcont hi, hg⟩

theorem HeldBy.placed (h : w.HeldBy p g) : Placed w.slots g := by
  obtain ⟨a, -, hg⟩ := h
  exact ⟨a, hg⟩

theorem HeldBy.unique (hw : w.WellFormed) (h₁ : w.HeldBy p g) (h₂ : w.HeldBy q g) : p = q :=
  Option.some.inj (((heldBy_iff hw).1 h₁).2.symm.trans ((heldBy_iff hw).1 h₂).2)

/-- What a single move of an offered item needs. -/
def MoveFits (w : ItemWorld) (src dst : PlayerGuid) (x : Guid) : Prop :=
  (w.locate src x).isSome = true ∧ w.isFullBag x = false ∧ w.HasRoom dst x

/-- Nothing but the item `x` has changed its place or itself. -/
structure Aside (w w' : ItemWorld) (x : Guid) : Prop where
  item : ∀ g, g ≠ x → w'.item g = w.item g
  placed : ∀ g, g ≠ x → (Placed w'.slots g ↔ Placed w.slots g)

theorem Aside.refl (w : ItemWorld) (x : Guid) : w.Aside w x :=
  ⟨fun _ _ => rfl, fun _ _ => Iff.rfl⟩

theorem Aside.heldBy (h : w.Aside w' x) (hw : w.WellFormed) (hw' : w'.WellFormed) (hg : g ≠ x) :
    w'.HeldBy p g ↔ w.HeldBy p g := by
  rw [heldBy_iff hw, heldBy_iff hw', h.item g hg, h.placed g hg]

/-- The places of another player are not those of a removal. -/
theorem RemovesAt.sameRoom {a : Place} (h : w.RemovesAt a x w') (hw : w.WellFormed)
    (hp : w.PlaceOf src a) (hne : src ≠ dst) : w.SameRoom w' dst where
  tops := by
    intro s
    refine h.keeps ?_
    rintro rfl
    cases hp with
    | top _ _ => exact hne rfl
  cells := by
    intro s b hb j
    refine h.keeps ?_
    rintro rfl
    cases hp with
    | cell t _ _ ht _ _ =>
      have heq := hw.once _ _ _ hb ht
      injection heq with heq _
      exact hne heq.symm
  kind := h.kinds

theorem isFullBag_of_noItems (h : w.NoItems x) : w.isFullBag x = false := by
  unfold isFullBag hasItems
  rw [Bool.and_eq_false_iff]
  right
  rw [List.any_eq_false]
  intro i _
  simp [h i]

/-! ## One move -/

/-- What a move does to its own item. -/
structure MoveSpec (w w' : ItemWorld) (src dst : PlayerGuid) (x : Guid) : Prop where
  wellFormed : w'.WellFormed
  aside : w.Aside w' x
  old : Placed w'.slots x → Placed w.slots x
  idle : ¬ (w.HeldBy src x ∧ (w.item x).isSoulbound = false) → w' = w
  given : w.HeldBy src x → (w.item x).isSoulbound = false →
    (w'.HeldBy dst x ↔ w.MoveFits src dst x)

theorem moveSpec_refl (hw : w.WellFormed) (hne : src ≠ dst)
    (h : w.HeldBy src x → (w.item x).isSoulbound = false → ¬ w.MoveFits src dst x) :
    w.MoveSpec w src dst x where
  wellFormed := hw
  aside := Aside.refl w x
  old := id
  idle := fun _ => rfl
  given := fun hheld hfree =>
    iff_of_false (fun hdst => hne (hheld.unique hw hdst)) (h hheld hfree)

theorem moveOffer_spec (hw : w.WellFormed) (hne : src ≠ dst) (x : Guid) :
    w.MoveSpec (World.moveOffer w src dst (some x)) src dst x := by
  unfold World.moveOffer
  dsimp only
  by_cases hbound : (w.item x).isSoulbound = true
  · rw [if_pos hbound]
    refine moveSpec_refl hw hne ?_
    intro _ hfree
    rw [hbound] at hfree
    cases hfree
  rw [if_neg hbound]
  rcases safeRemoveByGuid_spec hw.orderly src x with ⟨hstay, hwhy⟩ | ⟨a, w₁, hrem, hloc, hplace, hremoves⟩
  · rw [hstay]
    refine moveSpec_refl hw hne ?_
    rintro _ _ ⟨hfound, hbag, -⟩
    rcases hwhy with hnone | hfull
    · simp [hnone] at hfound
    · simp [hfull] at hbag
  · rw [hrem]
    have hheld : w.HeldBy src x := ⟨a, hplace, hremoves.held⟩
    have hw₁ := hremoves.wellFormed hw
    have hfree₁ := hremoves.not_placed hw.orderly
    -- the item, out of its place, now belongs to the receiver
    let w₂ := w₁.modify x fun it => { it with owner := some dst }
    have hw₂ : w₂.WellFormed := hw₁.modify_of_not_placed hfree₁
    have hroom : w₂.HasRoom dst x ↔ w.HasRoom dst x :=
      ((hremoves.sameRoom hw hplace hne).modify_owner).hasRoom
    have haside : ∀ g, g ≠ x → w₂.item g = w.item g := by
      intro g hg
      rw [show w₂.item g = w₁.item g from modify_item_of_ne hg, hremoves.others g hg]
    have hplaced : ∀ g, g ≠ x → (Placed w₂.slots g ↔ Placed w.slots g) := by
      intro g hg
      exact (hremoves.placed hw.orderly).trans (and_iff_right hg)
    have hfits : w.MoveFits src dst x ↔ w₂.HasRoom dst x := by
      rw [hroom]
      unfold MoveFits
      rw [hloc, isFullBag_of_noItems hremoves.noItems]
      simp
    have hsucceeds : (w₂.addItemToFreeSlot dst x).isSome = true ↔ w₂.HasRoom dst x :=
      addItemToFreeSlot_iff hw₂.orderly hfree₁
    change w.MoveSpec ((w₂.addItemToFreeSlot dst x).getD (w₂.destructor x)) src dst x
    cases hadd : w₂.addItemToFreeSlot dst x with
    | none =>
      rw [hadd] at hsucceeds
      have hempty : w₂.NoItems x := hw₂.orderly.noItems_of_not_placed hfree₁
      rw [Option.getD_none, destructor_of_noItems hempty]
      refine ⟨hw₂.modify_of_not_placed hfree₁, ⟨?_, hplaced⟩,
        fun h => absurd h hfree₁, fun h => absurd ⟨hheld, by simpa using hbound⟩ h, ?_⟩
      · intro g hg
        rw [modify_item_of_ne hg, haside g hg]
      · intro _ _
        refine iff_of_false (fun h => hfree₁ h.placed) ?_
        rw [hfits, ← hsucceeds]
        simp
    | some w₃ =>
      rw [hadd] at hsucceeds
      rw [Option.getD_some]
      rcases addItemToFreeSlot_spec hw₂.orderly (fun h => absurd h hfree₁) (fun h => absurd h hfree₁) hadd
        with ⟨-, hin⟩ | hadded
      · exact absurd ((inInventory_iff hw₂.orderly).1 hin).1 hfree₁
      · have hw₃ := hadded.wellFormed hw₂ fun s hs hbag => absurd hbag hs
        obtain ⟨-, b, hadds, -⟩ := hadded
        refine ⟨hw₃, ⟨?_, ?_⟩, fun _ => hheld.placed,
          fun h => absurd ⟨hheld, by simpa using hbound⟩ h, ?_⟩
        · intro g hg
          rw [hadds.others g hg, haside g hg]
        · intro g hg
          rw [hadds.placed, or_iff_right hg, hplaced g hg]
        · intro _ _
          refine iff_of_true ((heldBy_iff hw₃).2 ⟨hadds.placed.2 (Or.inl rfl), hadds.owner⟩) ?_
          rw [hfits, ← hsucceeds]
          rfl

/-! ## The loop -/

/-- An offered item, whose offer it is in and for whom. -/
structure Move where
  src : PlayerGuid
  dst : PlayerGuid
  item : Guid

def Move.run (w : ItemWorld) (m : Move) : ItemWorld := World.moveOffer w m.src m.dst (some m.item)

/-- The item is to change hands: its offerer has it and it is not bound. -/
def Due (w : ItemWorld) (m : Move) : Prop :=
  w.HeldBy m.src m.item ∧ (w.item m.item).isSoulbound = false

/-- At each move of the loop the item fits, if it is to change hands. -/
def AllFit : ItemWorld → List Move → Prop
  | _, [] => True
  | w, m :: ms => (w.Due m → w.MoveFits m.src m.dst m.item) ∧ AllFit (m.run w) ms

variable {m : Move} {ms : List Move}

/-- What a list of moves does: nothing to other items and to those that
are not to change hands, and it gives the rest when each of them fits. -/
structure MovesSpec (w w' : ItemWorld) (ms : List Move) : Prop where
  wellFormed : w'.WellFormed
  others : ∀ g, g ∉ ms.map Move.item → ∀ r, w'.HeldBy r g ↔ w.HeldBy r g
  old : ∀ g, Placed w'.slots g → Placed w.slots g
  idle : ∀ m ∈ ms, ¬ w.Due m → ∀ r, w'.HeldBy r m.item ↔ w.HeldBy r m.item
  given : w.AllFit ms ↔ ∀ m ∈ ms, w.Due m → w'.HeldBy m.dst m.item

theorem MoveSpec.due (h : w.MoveSpec w' src dst x) (hw : w.WellFormed) (hm : m.item ≠ x) :
    w'.Due m ↔ w.Due m := by
  unfold Due
  rw [h.aside.heldBy hw h.wellFormed hm, h.aside.item _ hm]

/-- By induction on the moves; no item is moved twice, so a later move
finds its item as the first state has it. -/
theorem moves_spec (hw : w.WellFormed) (hne : ∀ m ∈ ms, m.src ≠ m.dst)
    (hnodup : (ms.map Move.item).Nodup) : w.MovesSpec (ms.foldl Move.run w) ms := by
  induction ms generalizing w with
  | nil =>
    refine ⟨hw, fun _ _ _ => Iff.rfl, fun _ h => h, ?_, ?_⟩
    · intro m hm
      cases hm
    · simp [AllFit]
  | cons m ms ih =>
    rw [List.map_cons, List.nodup_cons] at hnodup
    obtain ⟨hfresh, hnodup⟩ := hnodup
    have hfirst : w.MoveSpec (m.run w) m.src m.dst m.item :=
      moveOffer_spec hw (hne m List.mem_cons_self) m.item
    have hrest := ih hfirst.wellFormed (fun n hn => hne n (List.mem_cons_of_mem m hn)) hnodup
    have hdiffer : ∀ n ∈ ms, n.item ≠ m.item := by
      intro n hn heq
      exact hfresh (heq ▸ List.mem_map_of_mem hn)
    have hholder : ∀ g, g ≠ m.item → ∀ r, (m.run w).HeldBy r g ↔ w.HeldBy r g :=
      fun g hg r => hfirst.aside.heldBy hw hfirst.wellFormed hg
    rw [List.foldl_cons]
    refine ⟨hrest.wellFormed, ?_, ?_, ?_, ?_⟩
    · intro g hg r
      rw [List.map_cons, List.mem_cons, not_or] at hg
      rw [hrest.others g hg.2 r, hholder g hg.1 r]
    · intro g hg
      have hmid := hrest.old g hg
      by_cases hgm : g = m.item
      · rw [hgm] at hmid ⊢
        exact hfirst.old hmid
      · exact (hfirst.aside.placed g hgm).1 hmid
    · intro n hn hidle r
      rcases List.mem_cons.1 hn with rfl | hn
      · rw [hrest.others _ hfresh r]
        rw [show n.run w = w from hfirst.idle hidle]
      · rw [hrest.idle n hn (fun h => hidle ((hfirst.due hw (hdiffer n hn)).1 h)) r,
          hholder _ (hdiffer n hn) r]
    · unfold AllFit
      rw [List.forall_mem_cons, hrest.given]
      refine and_congr ?_ ?_
      · refine forall_congr' fun hdue => ?_
        rw [hrest.others _ hfresh m.dst]
        exact (hfirst.given hdue.1 hdue.2).symm
      · refine forall_congr' fun n => forall_congr' fun hn => ?_
        rw [hfirst.due hw (hdiffer n hn)]

end ItemWorld

namespace World

open ItemWorld

variable {w w' : World} {p q r x : PlayerGuid} {g : Guid}

/-! ## The exchange -/

/-- The move of one trade slot, if it is filled. -/
def slotMove (src dst : PlayerGuid) (item : Option Guid) : List Move :=
  (item.map (Move.mk src dst)).toList

/-- The moves of an exchange between `p` and `q`, in the order of the loop. -/
def tradeMoves (w : World) (p q : PlayerGuid) : List Move :=
  tradedSlots.flatMap fun i =>
    slotMove p q ((w.players p).mTradeItems i) ++ slotMove q p ((w.players q).mTradeItems i)

theorem mem_slotMove {m : Move} {src dst : PlayerGuid} {item : Option Guid} :
    m ∈ slotMove src dst item ↔ m.src = src ∧ m.dst = dst ∧ item = some m.item := by
  unfold slotMove
  rw [Option.mem_toList, Option.map_eq_some_iff]
  constructor
  · rintro ⟨g, hg, rfl⟩
    exact ⟨rfl, rfl, hg⟩
  · rintro ⟨rfl, rfl, hg⟩
    exact ⟨m.item, hg, rfl⟩

theorem foldl_slotMove (v : ItemWorld) (src dst : PlayerGuid) (item : Option Guid) :
    (slotMove src dst item).foldl Move.run v = moveOffer v src dst item := by
  cases item with
  | none => rfl
  | some g => rfl

theorem moveOffers_eq :
    moveOffers p q (w.players p).mTradeItems (w.players q).mTradeItems w.items =
      (w.tradeMoves p q).foldl Move.run w.items := by
  unfold moveOffers tradeMoves
  simp only [List.foldl_flatMap, List.foldl_append, foldl_slotMove]

/-- Every move is from one of the two to the other. -/
theorem mem_tradeMoves {m : Move} (h : m ∈ w.tradeMoves p q) :
    ∃ i, (m.src = p ∧ m.dst = q ∧ (w.players p).mTradeItems i = some m.item) ∨
      (m.src = q ∧ m.dst = p ∧ (w.players q).mTradeItems i = some m.item) := by
  unfold tradeMoves at h
  obtain ⟨i, -, h⟩ := List.mem_flatMap.1 h
  rw [List.mem_append, mem_slotMove, mem_slotMove] at h
  exact ⟨i, h⟩

theorem nodup_slotMove (src dst : PlayerGuid) (item : Option Guid) :
    ((slotMove src dst item).map Move.item).Nodup := by
  cases item with
  | none => exact List.nodup_nil
  | some g => simp [slotMove]

/-- Offers without a repeated item make a list of moves without one. -/
theorem OffersDistinct.nodup (h : w.OffersDistinct p q) :
    ((w.tradeMoves p q).map Move.item).Nodup := by
  have hmem : ∀ i g, g ∈ ((slotMove p q ((w.players p).mTradeItems i) ++
      slotMove q p ((w.players q).mTradeItems i)).map Move.item) →
      (w.players p).mTradeItems i = some g ∨ (w.players q).mTradeItems i = some g := by
    intro i g hg
    obtain ⟨m, hm, rfl⟩ := List.mem_map.1 hg
    rw [List.mem_append, mem_slotMove, mem_slotMove] at hm
    exact hm.imp (fun h => h.2.2) fun h => h.2.2
  unfold tradeMoves
  rw [List.map_flatMap, List.nodup_flatMap]
  constructor
  · intro i _
    rw [List.map_append, List.nodup_append']
    refine ⟨nodup_slotMove _ _ _, nodup_slotMove _ _ _, ?_⟩
    intro g hp hq
    obtain ⟨m, hm, rfl⟩ := List.mem_map.1 hp
    obtain ⟨n, hn, heq⟩ := List.mem_map.1 hq
    exact h.apart i i m.item (mem_slotMove.1 hm).2.2 (heq ▸ (mem_slotMove.1 hn).2.2)
  · have hslots : tradedSlots.Nodup := by decide
    refine hslots.imp ?_
    intro i j hij g hi hj
    rcases hmem i g hi with hi | hi
    · rcases hmem j g hj with hj | hj
      · exact hij (h.player i j g hi hj)
      · exact h.apart i j g hi hj
    · rcases hmem j g hj with hj | hj
      · exact h.apart j i g hj hi
      · exact hij (h.target i j g hi hj)

/-! ## The accept -/

/-- What an accept by `p`, whose partner is `q`, is to do with the items:
the two still have theirs, each at one place of one of them; the other
party has what was offered and not bound; whatever is not to change hands
stays with whoever had it; and nothing appears. -/
structure ItemsConserved (w w' : World) (p q : PlayerGuid) : Prop where
  kept : ∀ g, w.items.HeldBy p g ∨ w.items.HeldBy q g →
    (∃! r, (r = p ∨ r = q) ∧ w'.items.HeldBy r g) ∧ ∃! a, w'.items.slots a = some g
  given : w.exchangesWith p = some q → ∀ m ∈ w.tradeMoves p q, w.items.Due m →
    w'.items.HeldBy m.dst m.item
  stays : ∀ r g, w.items.HeldBy r g →
    (∀ m ∈ w.tradeMoves p q, w.items.Due m → m.item ≠ g) → w'.items.HeldBy r g
  old : ∀ g, Placed w'.items.slots g → Placed w.items.slots g

theorem items_reset : (w.resetTradeVariables p).items = w.items := rfl

theorem items_exchange :
    ((((w.setAccepted p).exchange p q).resetTradeVariables p).resetTradeVariables q).items =
      (w.tradeMoves p q).foldl Move.run w.items := by
  have hoffer : ∀ y, ((w.setAccepted p).players y).mTradeItems = (w.players y).mTradeItems := by
    intro y
    unfold World.setAccepted
    rw [players_record]
    exact field_setTrader Trader.mTradeItems
  rw [← moveOffers_eq, ← hoffer p, ← hoffer q, items_reset, items_reset]
  unfold World.exchange moveGold
  dsimp only [record]
  split <;> split <;> rfl

/-- The holder of an item that is held has it at one place. -/
theorem HeldBy.kept {v : ItemWorld} (hv : v.WellFormed) (hr : r = p ∨ r = q)
    (h : v.HeldBy r g) : (∃! s, (s = p ∨ s = q) ∧ v.HeldBy s g) ∧ ∃! a, v.slots a = some g := by
  obtain ⟨a, ha⟩ := h.placed
  refine ⟨⟨r, ⟨hr, h⟩, fun s hs => hs.2.unique hv h⟩, ⟨a, ha, fun b hb => ?_⟩⟩
  exact hv.once b a g hb ha

/-- Everything follows from what is given. -/
theorem MovesSpec.itemsConserved (h : w.items.MovesSpec w'.items (w.tradeMoves p q))
    (hgiven : ∀ m ∈ w.tradeMoves p q, w.items.Due m → w'.items.HeldBy m.dst m.item) :
    w.ItemsConserved w' p q := by
  have hstays : ∀ r g, w.items.HeldBy r g →
      (∀ m ∈ w.tradeMoves p q, w.items.Due m → m.item ≠ g) → w'.items.HeldBy r g := by
    intro r g hheld hnot
    by_cases hmem : g ∈ (w.tradeMoves p q).map Move.item
    · obtain ⟨m, hm, rfl⟩ := List.mem_map.1 hmem
      exact (h.idle m hm (fun hdue => hnot m hm hdue rfl) r).2 hheld
    · exact (h.others g hmem r).2 hheld
  refine ⟨?_, fun _ => hgiven, hstays, h.old⟩
  intro g hheld
  by_cases hdue : ∃ m ∈ w.tradeMoves p q, w.items.Due m ∧ m.item = g
  · obtain ⟨m, hm, hdue, rfl⟩ := hdue
    refine HeldBy.kept h.wellFormed ?_ (hgiven m hm hdue)
    obtain ⟨i, ⟨-, hdst, -⟩ | ⟨-, hdst, -⟩⟩ := mem_tradeMoves hm
    · exact Or.inr hdst
    · exact Or.inl hdst
  · have hnot : ∀ m ∈ w.tradeMoves p q, w.items.Due m → m.item ≠ g :=
      fun m hm hd heq => hdue ⟨m, hm, hd, heq⟩
    rcases hheld with hp | hq
    · exact HeldBy.kept h.wellFormed (Or.inl rfl) (hstays p g hp hnot)
    · exact HeldBy.kept h.wellFormed (Or.inr rfl) (hstays q g hq hnot)

/-- An accept that moves nothing. -/
theorem itemsConserved_of_same (hw : w.items.WellFormed) (hitems : w'.items = w.items)
    (hex : w.exchangesWith p ≠ some q) : w.ItemsConserved w' p q := by
  refine ⟨?_, fun h => absurd h hex, ?_, ?_⟩
  · rw [hitems]
    rintro g (hp | hq)
    · exact HeldBy.kept hw (Or.inl rfl) hp
    · exact HeldBy.kept hw (Or.inr rfl) hq
  · rw [hitems]
    exact fun _ _ hheld _ => hheld
  · rw [hitems]
    exact fun _ h => h

theorem accept_movesSpec (hpq : p ≠ q) (hw : w.items.WellFormed) (hoffers : w.OffersDistinct p q) :
    w.items.MovesSpec ((w.tradeMoves p q).foldl Move.run w.items) (w.tradeMoves p q) := by
  refine moves_spec hw ?_ hoffers.nodup
  intro m hm
  obtain ⟨i, ⟨hsrc, hdst, -⟩ | ⟨hsrc, hdst, -⟩⟩ := mem_tradeMoves hm
  · rw [hsrc, hdst]
    exact hpq
  · rw [hsrc, hdst]
    exact hpq.symm

theorem itemsConserved_iff (hpq : p ≠ q) (hw : w.items.WellFormed) (hoffers : w.OffersDistinct p q)
    (hacc : w.acceptTrade p = some w') (htarget : w.getTradeTarget p = some q) :
    w.ItemsConserved w' p q ↔
      (w.exchangesWith p = some q → w.items.AllFit (w.tradeMoves p q)) := by
  rcases acceptTrade_cases hacc with ⟨q', hex, heq⟩ | ⟨hnone, hitems, -⟩
  · obtain rfl : q' = q := by
      have hq' := target_of_exchangesWith hex
      rw [(getPlayer_eq_some htarget).1] at hq'
      exact (Option.some.inj hq').symm
    have hspec := accept_movesSpec hpq hw hoffers
    have hitems : w'.items = (w.tradeMoves p q').foldl Move.run w.items := by
      rw [heq]
      exact items_exchange
    rw [← hitems] at hspec
    constructor
    · intro h _
      exact hspec.given.2 (h.given hex)
    · intro hfit
      exact MovesSpec.itemsConserved hspec (hspec.given.1 (hfit hex))
  · have hex : w.exchangesWith p ≠ some q := by
      rw [hnone]
      simp
    exact iff_of_true (itemsConserved_of_same hw hitems hex) fun h => absurd h hex

/-- An accept between two players conserves their items exactly when it
exchanges nothing or each offered item fits at its move of the loop: it
is found, it is no bag that has been filled on the way, and the receiver
has a free place for it. The offers of two partners never repeat an item
in a run that leaves no partner behind. -/
theorem trade_items_conserved (w : World) :
    (∀ (w' : World) (p q : PlayerGuid), p ≠ q → w.items.WellFormed → w.OffersDistinct p q →
      w.getTradeTarget p = some q → w.acceptTrade p = some w' →
      (w.ItemsConserved w' p q ↔
        (w.exchangesWith p = some q → w.items.AllFit (w.tradeMoves p q)))) ∧
    ∀ (w₀ : World) (es : List TradeEvent) (p q : PlayerGuid), w₀.NoTrades →
      Run (Guarded KeepsPartner (PartialStep TradeEvent.step)) w₀ es w → p ≠ q →
      (w.players p).mTradeTarget = some q → w.OffersDistinct p q := by
  constructor
  · intro w' p q hpq hw hoffers htarget hacc
    exact itemsConserved_iff hpq hw hoffers hacc htarget
  · intro w₀ es p q h₀ hrun hpq htarget
    exact offers_distinct h₀ hrun hpq htarget

/-! ### One item for another -/

/-- Alice's first `n` slots of the backpack and Bob's first are full. -/
def backpackSlots (n : Nat) : Place → Option Guid
  | .top p s =>
    if p = alice ∧ 23 ≤ s ∧ s < 23 + n then some (s - 22)
    else if p = bob ∧ s = 23 then some 17
    else none
  | .cell _ _ => none

def backpackItems (n : Nat) : ItemWorld where
  item g := { ItemWorld.newItem (.plain 0) false with
    owner := if g = 17 then some bob else some alice }
  slots := backpackSlots n
  fields a := (backpackSlots n a).getD 0
  nextGuid := 18

def backpackWorld (n : Nat) : World := { idleWorld with items := backpackItems n }

theorem backpackItems_cases {n : Nat} {a : Place} (h : (backpackItems n).slots a = some g) :
    (∃ s, a = .top alice s ∧ 23 ≤ s ∧ s < 23 + n ∧ g = s - 22) ∨ (a = .top bob 23 ∧ g = 17) := by
  cases a with
  | cell b i => cases h
  | top r s =>
    simp only [backpackItems, backpackSlots] at h
    split at h
    · rename_i hr
      exact Or.inl ⟨s, by rw [hr.1], hr.2.1, hr.2.2, (Option.some.inj h).symm⟩
    · split at h
      · rename_i hr
        exact Or.inr ⟨by rw [hr.1, hr.2], (Option.some.inj h).symm⟩
      · cases h

theorem backpackItems_wellFormed {n : Nat} (hn : n ≤ 16) : (backpackItems n).WellFormed where
  once := by
    intro a b g ha hb
    rcases backpackItems_cases ha with ⟨s, rfl, hs, hlt, rfl⟩ | ⟨rfl, rfl⟩
    · rcases backpackItems_cases hb with ⟨t, rfl, ht, htl, heq⟩ | ⟨-, heq⟩
      · have hst : s - 22 = t - 22 := heq
        have hst : s = t := by omega
        rw [hst]
      · have hs17 : s - 22 = 17 := heq
        omega
    · rcases backpackItems_cases hb with ⟨t, rfl, ht, htl, heq⟩ | ⟨rfl, -⟩
      · have ht17 : 17 = t - 22 := heq
        omega
      · rfl
  fields := fun _ => rfl
  topRange := by
    intro r s g hg
    unfold MAX_INVENTORY_SLOT
    rcases backpackItems_cases hg with ⟨t, heq, ht, htl, -⟩ | ⟨heq, -⟩
    · injection heq with _ heq
      omega
    · injection heq with _ heq
      omega
  topOwner := by
    intro r s g hg
    rcases backpackItems_cases hg with ⟨t, heq, ht, htl, rfl⟩ | ⟨heq, rfl⟩
    · injection heq with hr _
      rw [hr]
      have hne : t - 22 ≠ 17 := by omega
      exact if_neg hne
    · injection heq with hr _
      rw [hr]
      rfl
  bags := by
    intro r s g hg hs
    unfold IsBagSlot isBagSlot INVENTORY_SLOT_BAG_START INVENTORY_SLOT_BAG_END
      BANK_SLOT_BAG_START BANK_SLOT_BAG_END at hs
    rcases backpackItems_cases hg with ⟨t, heq, ht, htl, -⟩ | ⟨heq, -⟩
    · injection heq with _ heq
      simp at hs
      omega
    · injection heq with _ heq
      simp at hs
      omega
  cellRange := by
    intro b i g hg
    cases hg
  cellOwner := by
    intro b i g hg
    cases hg
  atTop := by
    intro b i g hg
    cases hg

/-- Both offer the first item of their backpack, and Alice accepts. -/
def bothOffer : List TradeEvent :=
  [.initiate alice (some bob) false, .begin bob false, .setItem alice 0 (-1) 23,
    .setItem bob 0 (-1) 23, .accept alice]

theorem backpackWorld_noTrades (n : Nat) : (backpackWorld n).NoTrades :=
  fun x => idleWorld_noTrades x

/-- A full backpack and no bags are no room for an ordinary item. -/
theorem not_hasRoom_full : ¬ (backpackItems 16).HasRoom alice 17 := by
  have hbag : ∀ i, i < 23 → (backpackItems 16).slots (.top alice i) = none := by
    intro i hi
    simp only [backpackItems, backpackSlots]
    rw [if_neg (by omega), if_neg (by simp [alice, bob])]
  rintro (⟨hfamily, -⟩ | ⟨s, hs, hlt, hempty⟩ | ⟨i, b, j, hi, hlt, hb, -⟩)
  · exact hfamily rfl
  · simp only [backpackItems, backpackSlots] at hempty
    rw [if_pos ⟨trivial, hs, hlt⟩] at hempty
    cases hempty
  · obtain ⟨htop, -⟩ := bagAt_spec hb
    rw [hbag i hlt] at htop
    cases htop

/-- Alice and Bob offer an item each. Alice's backpack is full and Bob
accepts last: his item is moved first, and destroyed. -/
theorem traded_item_destroyed :
    ¬ ∀ (w₀ w w' : World) (es : List TradeEvent) (p q : PlayerGuid), w₀.NoTrades →
      w₀.items.WellFormed → Run (Guarded KeepsPartner (PartialStep TradeEvent.step)) w₀ es w →
      w.items.WellFormed → p ≠ q → w.getTradeTarget p = some q → w.acceptTrade p = some w' →
      w.ItemsConserved w' p q := by
  intro hall
  have hrun : Run (Guarded KeepsPartner (PartialStep TradeEvent.step)) (backpackWorld 16)
      bothOffer _ :=
    .cons ⟨fun _ => Or.inl rfl, rfl⟩ (.cons ⟨(by intro h; cases h), rfl⟩ (.cons ⟨trivial, rfl⟩
      (.cons ⟨trivial, rfl⟩ (.cons ⟨trivial, rfl⟩ (.nil _)))))
  have hw : (backpackItems 16).WellFormed := backpackItems_wellFormed (by omega)
  have hne : bob ≠ alice := by decide
  have hoffers := offers_distinct (backpackWorld_noTrades 16) hrun hne rfl
  have hcons := hall _ _ _ _ bob alice (backpackWorld_noTrades 16) hw hrun hw hne rfl rfl
  have hfit := (itemsConserved_iff hne hw hoffers rfl rfl).1 hcons (by decide +kernel)
  have hfirst : ((backpackItems 16).Due ⟨bob, alice, 17⟩ →
      (backpackItems 16).MoveFits bob alice 17) ∧ _ := hfit
  have hdue : (backpackItems 16).Due ⟨bob, alice, 17⟩ :=
    ⟨⟨.top bob 23, .top 23 (by decide), rfl⟩, rfl⟩
  exact not_hasRoom_full (hfirst.1 hdue).2.2

/-- With a slot free on both sides each gets the other's item. -/
theorem trade_items_conserved_with_room :
    ∃ w w' : World, w.acceptTrade bob = some w' ∧ w.ItemsConserved w' bob alice := by
  have hrun : Run (Guarded KeepsPartner (PartialStep TradeEvent.step)) (backpackWorld 1)
      bothOffer _ :=
    .cons ⟨fun _ => Or.inl rfl, rfl⟩ (.cons ⟨(by intro h; cases h), rfl⟩ (.cons ⟨trivial, rfl⟩
      (.cons ⟨trivial, rfl⟩ (.cons ⟨trivial, rfl⟩ (.nil _)))))
  have hw : (backpackItems 1).WellFormed := backpackItems_wellFormed (by omega)
  have hne : bob ≠ alice := by decide
  refine ⟨_, _, rfl, ((trade_items_conserved _).1 _ bob alice hne hw
    ((trade_items_conserved _).2 _ _ bob alice (backpackWorld_noTrades 1) hrun hne rfl) rfl rfl).2 ?_⟩
  intro _
  have hbobs : (backpackItems 1).MoveFits bob alice 17 :=
    ⟨by decide +kernel, by decide +kernel, Or.inr (Or.inl ⟨24, by decide, by decide, by decide +kernel⟩)⟩
  refine ⟨fun _ => hbobs, fun _ => ?_, trivial⟩
  exact ⟨by decide +kernel, by decide +kernel,
    Or.inr (Or.inl ⟨24, by decide, by decide, by decide +kernel⟩)⟩

end World

end HearthStone
