/-
HearthStone.Auction.AuctionList — what the auction house lists for a
search (`AuctionHouse::SendAuctionList`).

The loop goes over the map once. `counted_items` counts the auctions
that match; `current_index` counts them as far as the end of the page,
and both are compared with the start that the client asks for. The
numbers start with one, so the page at zero ends before the fiftieth and
the total at the end of the packet is one more than what was counted.

* `AuctionSearch` — the packet.
* `matchesSearch` — the checks of the loop that continue with the next
  auction.
* `listStep`, `sendAuctionList` — the page.
-/
import HearthStone.Auction.AuctionHouse
import HearthStone.Item.Item
import Mathlib

namespace HearthStone.Auctions

/-- `CMSG_AUCTION_LIST_ITEMS`, without the auctioneer. -/
structure AuctionSearch where
  startIndex : UInt32
  auctionString : List UInt8
  levelRange1 : UInt8
  levelRange2 : UInt8
  inventoryType : Int32
  itemClass : Int32
  itemSubclass : Int32
  rarityCheck : Int32
  usableCheck : UInt8

/-- What the usable check reads of the player. -/
structure Searcher where
  classMask : UInt32
  raceMask : UInt32
  level : UInt32
  armorProficiency : UInt32
  weaponProficiency : UInt32

/-- `tolower`. -/
def toLower (c : UInt8) : UInt8 := if 65 ≤ c ∧ c ≤ 90 then c + 32 else c

/-- The usable check: it passes. -/
def usable (plr : Searcher) (proto : ItemPrototype) : Bool :=
  !(proto.allowableClass ≠ 0 && plr.classMask &&& proto.allowableClass = 0) &&
    !(proto.requiredLevel ≠ 0 && proto.requiredLevel > plr.level) &&
    !(proto.allowableRace ≠ 0 && plr.raceMask &&& proto.allowableRace = 0) &&
    !(proto.itemClass = 4 && proto.subClass ≠ 0 &&
      plr.armorProficiency &&& (1 <<< proto.subClass) = 0) &&
    !(proto.itemClass = 2 && proto.subClass ≠ 0 &&
      plr.weaponProficiency &&& (1 <<< proto.subClass) = 0)

/-- The auction passes all checks of the loop. -/
def matchesSearch (storage : UInt32 → ItemPrototype) (plr : Searcher) (search : AuctionSearch)
    (a : Auction) : Bool :=
  let proto := storage a.pItem.entry
  let auctionString := search.auctionString.map toLower
  !a.deleted &&
    !(search.inventoryType ≠ -1 && search.inventoryType ≠ proto.inventoryType.toInt32) &&
    !(search.itemClass ≠ -1 && search.itemClass ≠ proto.itemClass.toInt32) &&
    !(search.itemSubclass ≠ -1 && search.itemSubclass ≠ proto.subClass.toInt32) &&
    !(auctionString ≠ [] && !auctionString <:+: proto.lowercaseName) &&
    !(search.rarityCheck ≠ -1 && search.rarityCheck ≠ proto.quality.toInt32) &&
    !(search.levelRange1 ≠ 0 && proto.itemLevel < search.levelRange1.toUInt32) &&
    !(search.levelRange2 ≠ 0 && proto.itemLevel > search.levelRange2.toUInt32) &&
    (search.usableCheck = 0 || usable plr proto)

/-- The variables of the loop and the packet so far. -/
structure AuctionPage where
  currentIndex : UInt32
  countedItems : UInt32
  /-- the number at the head of the packet -/
  count : UInt32
  /-- `AddToPacket` -/
  listed : List Auction

/-- The end of the loop's body, for an auction that matches. -/
def listStep (startIndex : UInt32) (s : AuctionPage) (a : Auction) : AuctionPage :=
  let s := { s with countedItems := s.countedItems + 1 }
  if s.countedItems ≥ startIndex + 50 then s
  else
    let s := { s with currentIndex := s.currentIndex + 1 }
    if startIndex ≠ 0 ∧ s.currentIndex < startIndex then s
    else { s with listed := s.listed ++ [a], count := s.count + 1 }

/-- `SMSG_AUCTION_LIST_RESULT`. -/
structure AuctionListResult where
  count : UInt32
  listed : List Auction
  total : UInt32

/-- The auctions in the order of the map; its pointers are alive
(`QueueInv.live`). -/
def AuctionHouse.table (h : AuctionHouse) : List Auction := h.auctions.filterMap fun e => h.objs e.2

/-- `AuctionHouse::SendAuctionList`. -/
def AuctionHouse.sendAuctionList (h : AuctionHouse) (storage : UInt32 → ItemPrototype)
    (plr : Searcher) (search : AuctionSearch) : AuctionListResult :=
  let s := h.table.foldl (fun s a =>
    if matchesSearch storage plr search a then listStep search.startIndex s a else s) ⟨0, 0, 0, []⟩
  ⟨s.count, s.listed, 1 + s.countedItems⟩

end HearthStone.Auctions

/-! ## Theorems

The pages of a search share the matches out among them.

The page at a start of `s` has the matches from the `s`-th to the
`s + 49`-th, counted from one; the page at zero has the first forty-nine.
The total is one more than there are matches, which makes it the first
number that no page need start at.

* `window` — the matches of a page.
* `foldl_listStep` — the loop, by induction on the matches from the end.
* `flatMap_window` — the windows side by side.
* `auctionList_pages` — the pages, for as many matches as the starts of
  32 bits reach.
-/

namespace HearthStone.Auctions

variable {h : AuctionHouse} {storage : UInt32 → ItemPrototype} {plr : Searcher}
  {search : AuctionSearch} {start : UInt32} {l : List Auction} {s n : Nat}

/-! ## The statement -/

/-- The matches of a search, in the order of the map. -/
def matching (h : AuctionHouse) (storage : UInt32 → ItemPrototype) (plr : Searcher)
    (search : AuctionSearch) : List Auction :=
  h.table.filter (matchesSearch storage plr search)

/-- The page of a search that starts at `start`. -/
def pageAt (h : AuctionHouse) (storage : UInt32 → ItemPrototype) (plr : Searcher)
    (search : AuctionSearch) (start : UInt32) : AuctionListResult :=
  h.sendAuctionList storage plr { search with startIndex := start }

/-- 0, 50, 100 and so on, as far as 32 bits go. -/
def pageStarts : List UInt32 := (List.range 85899346).map fun i => UInt32.ofNat (50 * i)

/-- The pages share out the matches, and each of them reports one more
than there are; a page behind the first has something on it exactly when
it starts before that number. -/
structure Pages (h : AuctionHouse) (storage : UInt32 → ItemPrototype) (plr : Searcher)
    (search : AuctionSearch) : Prop where
  partition : (pageStarts.flatMap fun start => (pageAt h storage plr search start).listed) =
    matching h storage plr search
  size : ∀ start ∈ pageStarts, (pageAt h storage plr search start).listed.length ≤ 50
  count : ∀ start ∈ pageStarts, (pageAt h storage plr search start).count.toNat =
    (pageAt h storage plr search start).listed.length
  total : ∀ start ∈ pageStarts, (pageAt h storage plr search start).total.toNat =
    (matching h storage plr search).length + 1
  reaches : ∀ start ∈ pageStarts, start ≠ 0 →
    ((pageAt h storage plr search start).listed ≠ [] ↔
      start < (pageAt h storage plr search start).total)

/-! ## Windows -/

/-- The matches from the `s`-th to the `s + 49`-th. -/
def window (s : Nat) (l : List Auction) : List Auction := (l.take (s + 49)).drop (s - 1)

theorem window_length_le : (window s l).length ≤ 50 := by
  unfold window
  rw [List.length_drop, List.length_take]
  omega

theorem window_ne_nil (hs : 0 < s) : window s l ≠ [] ↔ s ≤ l.length := by
  unfold window
  rw [← List.length_pos_iff, List.length_drop, List.length_take]
  omega

/-- The next match is on the page, behind it or before it. -/
theorem window_append_singleton (a : Auction) :
    window s (l ++ [a]) =
      if s ≤ l.length + 1 ∧ l.length + 1 < s + 50 then window s l ++ [a] else window s l := by
  unfold window
  by_cases hlt : l.length + 1 < s + 50
  · rw [List.take_of_length_le (by rw [List.length_append, List.length_singleton]; omega),
      List.take_of_length_le (by omega)]
    by_cases hle : s ≤ l.length + 1
    · rw [if_pos ⟨hle, hlt⟩, List.drop_append_of_le_length (by omega)]
    · have hlong : (l ++ [a]).length ≤ s - 1 := by
        rw [List.length_append, List.length_singleton]
        omega
      rw [if_neg (fun hboth => hle hboth.1), List.drop_of_length_le hlong,
        List.drop_of_length_le (by omega)]
  · rw [if_neg (fun hboth => hlt hboth.2), List.take_append_of_le_length (by omega)]

/-- The windows that start at the multiples of fifty, side by side. -/
theorem flatMap_window (l : List Auction) (n : Nat) :
    ((List.range n).flatMap fun i => window (50 * i) l) = l.take (50 * n - 1) := by
  induction n with
  | zero => rfl
  | succ n ih =>
    have htake : l.take (50 * n - 1) = (l.take (50 * n + 49)).take (50 * n - 1) := by
      rw [List.take_take, Nat.min_eq_left (by omega)]
    rw [List.range_succ, List.flatMap_append, ih, List.flatMap_singleton, htake]
    unfold window
    rw [List.take_append_drop]
    rfl

/-! ## The loop -/

theorem toNat_ofNat_of_lt (hn : n < 2 ^ 32) : (UInt32.ofNat n).toNat = n :=
  UInt32.toNat_ofNat_of_lt' hn

/-- Where the end of the page fits into 32 bits. -/
theorem foldl_listStep (hstart : start.toNat + 50 < 2 ^ 32) (hl : l.length < 2 ^ 32) :
    l.foldl (listStep start) ⟨0, 0, 0, []⟩ =
      ⟨UInt32.ofNat (min l.length (start.toNat + 49)), UInt32.ofNat l.length,
        UInt32.ofNat (window start.toNat l).length, window start.toNat l⟩ := by
  induction l using List.reverseRecOn with
  | nil =>
    have hnil : window start.toNat [] = [] := by
      unfold window
      rw [List.take_nil, List.drop_nil]
    rw [hnil]
    simp
  | append_singleton l a ih =>
    rw [List.length_append, List.length_singleton] at hl
    rw [List.foldl_append, ih (by omega), List.foldl_cons, List.foldl_nil,
      window_append_singleton, List.length_append, List.length_singleton]
    have hcounted : UInt32.ofNat l.length + 1 = UInt32.ofNat (l.length + 1) := by
      rw [UInt32.ofNat_add]
      rfl
    have hend : (start + 50).toNat = start.toNat + 50 := by
      rw [UInt32.toNat_add]
      exact Nat.mod_eq_of_lt hstart
    have hbehind : UInt32.ofNat (l.length + 1) ≥ start + 50 ↔ start.toNat + 50 ≤ l.length + 1 := by
      rw [ge_iff_le, UInt32.le_iff_toNat_le, hend, toNat_ofNat_of_lt hl]
    unfold listStep
    rw [hcounted]
    by_cases hlt : l.length + 1 < start.toNat + 50
    · have hcurrent : UInt32.ofNat (min l.length (start.toNat + 49)) + 1 =
          UInt32.ofNat (l.length + 1) := by
        rw [Nat.min_eq_left (by omega), hcounted]
      have hbefore : (start ≠ 0 ∧ UInt32.ofNat (l.length + 1) < start) ↔
          l.length + 1 < start.toNat := by
        rw [UInt32.lt_iff_toNat_lt, toNat_ofNat_of_lt hl]
        refine and_iff_right_of_imp fun hpos hzero => ?_
        rw [hzero] at hpos
        exact Nat.not_lt_zero _ hpos
      rw [if_neg (by rw [hbehind]; omega), hcurrent,
        Nat.min_eq_left (by omega : l.length + 1 ≤ start.toNat + 49)]
      by_cases hle : start.toNat ≤ l.length + 1
      · rw [if_neg (by rw [hbefore]; omega), if_pos ⟨hle, hlt⟩, List.length_append,
          List.length_singleton, UInt32.ofNat_add (window start.toNat l).length 1]
        rfl
      · rw [if_pos (by rw [hbefore]; omega), if_neg fun hboth => hle hboth.1]
    · rw [if_pos (by rw [hbehind]; omega), if_neg fun hboth => hlt hboth.2,
        Nat.min_eq_right (by omega), Nat.min_eq_right (by omega)]

/-- At the last start the end of the page wraps around, and nothing is
listed. -/
theorem foldl_listStep_last (hstart : start.toNat = 4294967250) (hl : l.length < 4294967250) :
    (l.foldl (listStep start) ⟨0, 0, 0, []⟩).countedItems = UInt32.ofNat l.length ∧
      (l.foldl (listStep start) ⟨0, 0, 0, []⟩).currentIndex = UInt32.ofNat (min l.length 3) ∧
      (l.foldl (listStep start) ⟨0, 0, 0, []⟩).count = 0 ∧
      (l.foldl (listStep start) ⟨0, 0, 0, []⟩).listed = [] := by
  induction l using List.reverseRecOn with
  | nil => exact ⟨rfl, rfl, rfl, rfl⟩
  | append_singleton l a ih =>
    rw [List.length_append, List.length_singleton] at hl
    obtain ⟨hcounted, hcurrent, hcount, hlisted⟩ := ih (by omega)
    rw [List.foldl_append, List.foldl_cons, List.foldl_nil, List.length_append,
      List.length_singleton]
    generalize l.foldl (listStep start) ⟨0, 0, 0, []⟩ = s at hcounted hcurrent hcount hlisted
    have hnext : s.countedItems + 1 = UInt32.ofNat (l.length + 1) := by
      rw [hcounted, UInt32.ofNat_add]
      rfl
    have hend : (start + 50).toNat = 4 := by
      rw [UInt32.toNat_add, hstart]
      rfl
    have hbehind : UInt32.ofNat (l.length + 1) ≥ start + 50 ↔ 4 ≤ l.length + 1 := by
      rw [ge_iff_le, UInt32.le_iff_toNat_le, hend, toNat_ofNat_of_lt (by omega)]
    unfold listStep
    rw [hnext]
    by_cases hlt : l.length + 1 < 4
    · have hindex : s.currentIndex + 1 = UInt32.ofNat (l.length + 1) := by
        rw [hcurrent, Nat.min_eq_left (by omega), UInt32.ofNat_add]
        rfl
      have hbefore : start ≠ 0 ∧ UInt32.ofNat (l.length + 1) < start := by
        rw [UInt32.lt_iff_toNat_lt, toNat_ofNat_of_lt (by omega), hstart]
        refine ⟨?_, by omega⟩
        rintro rfl
        cases hstart
      rw [if_neg (by rw [hbehind]; omega), hindex, if_pos hbefore, Nat.min_eq_left (by omega)]
      exact ⟨rfl, rfl, hcount, hlisted⟩
    · rw [if_pos (by rw [hbehind]; omega), Nat.min_eq_right (by omega)]
      rw [Nat.min_eq_right (by omega)] at hcurrent
      exact ⟨rfl, hcurrent, hcount, hlisted⟩

/-! ## The pages -/

theorem pageAt_eq_foldl : pageAt h storage plr search start =
    ⟨((matching h storage plr search).foldl (listStep start) ⟨0, 0, 0, []⟩).count,
      ((matching h storage plr search).foldl (listStep start) ⟨0, 0, 0, []⟩).listed,
      1 + ((matching h storage plr search).foldl (listStep start) ⟨0, 0, 0, []⟩).countedItems⟩ := by
  unfold matching
  rw [List.foldl_filter]
  rfl

theorem toNat_total (hlen : (matching h storage plr search).length < 4294967250) :
    (1 + UInt32.ofNat (matching h storage plr search).length).toNat =
      (matching h storage plr search).length + 1 := by
  rw [UInt32.toNat_add, toNat_ofNat_of_lt (by omega), Nat.mod_eq_of_lt, Nat.add_comm]
  · rfl
  · change 1 + _ < 2 ^ 32
    omega

theorem pageAt_eq (hstart : start.toNat + 50 < 2 ^ 32)
    (hlen : (matching h storage plr search).length < 4294967250) :
    pageAt h storage plr search start =
      ⟨UInt32.ofNat (window start.toNat (matching h storage plr search)).length,
        window start.toNat (matching h storage plr search),
        1 + UInt32.ofNat (matching h storage plr search).length⟩ := by
  rw [pageAt_eq_foldl, foldl_listStep hstart (by omega)]

theorem pageAt_last (hstart : start.toNat = 4294967250)
    (hlen : (matching h storage plr search).length < 4294967250) :
    pageAt h storage plr search start =
      ⟨0, [], 1 + UInt32.ofNat (matching h storage plr search).length⟩ := by
  obtain ⟨hcounted, -, hcount, hlisted⟩ := foldl_listStep_last hstart hlen
  rw [pageAt_eq_foldl, hcounted, hcount, hlisted]

/-- A start is one of those before the last, or the last. -/
theorem mem_pageStarts (hstart : start ∈ pageStarts) :
    start.toNat + 50 < 2 ^ 32 ∨ start.toNat = 4294967250 := by
  obtain ⟨i, hi, rfl⟩ := List.mem_map.1 hstart
  have hlt := List.mem_range.1 hi
  rw [toNat_ofNat_of_lt (by omega)]
  omega

/-- All pages but the last share out the matches, and the last adds
nothing. -/
theorem pages_partition (hlen : (matching h storage plr search).length < 4294967250) :
    (pageStarts.flatMap fun start => (pageAt h storage plr search start).listed) =
      matching h storage plr search := by
  have hsplit : List.range 85899346 = List.range 85899345 ++ [85899345] := List.range_succ
  have hwindows : ((List.range 85899345).flatMap fun i =>
        (pageAt h storage plr search (UInt32.ofNat (50 * i))).listed) =
      (List.range 85899345).flatMap fun i =>
        window (50 * i) (matching h storage plr search) := by
    refine List.flatMap_congr fun i hi => ?_
    have hlt := List.mem_range.1 hi
    have hnat : (UInt32.ofNat (50 * i)).toNat = 50 * i := toNat_ofNat_of_lt (by omega)
    rw [pageAt_eq (by rw [hnat]; omega) hlen, hnat]
  have hlast : (pageAt h storage plr search (UInt32.ofNat (50 * 85899345))).listed = [] := by
    rw [pageAt_last (toNat_ofNat_of_lt (by norm_num)) hlen]
  unfold pageStarts
  rw [List.flatMap_map, hsplit, List.flatMap_append, hwindows, flatMap_window,
    List.flatMap_singleton, hlast, List.append_nil, List.take_of_length_le (by omega)]

/-- A search that fewer auctions match than 32-bit starts reach. -/
theorem auctionList_pages (h : AuctionHouse) (storage : UInt32 → ItemPrototype) (plr : Searcher)
    (search : AuctionSearch) (hlen : (matching h storage plr search).length < 4294967250) :
    Pages h storage plr search where
  partition := pages_partition hlen
  size := by
    intro start hmem
    rcases mem_pageStarts hmem with hstart | hstart
    · rw [pageAt_eq hstart hlen]
      exact window_length_le
    · rw [pageAt_last hstart hlen]
      exact Nat.zero_le _
  count := by
    intro start hmem
    rcases mem_pageStarts hmem with hstart | hstart
    · have hle : (window start.toNat (matching h storage plr search)).length ≤ 50 :=
        window_length_le
      rw [pageAt_eq hstart hlen]
      exact toNat_ofNat_of_lt (by omega)
    · rw [pageAt_last hstart hlen]
      rfl
  total := by
    intro start hmem
    rcases mem_pageStarts hmem with hstart | hstart
    · rw [pageAt_eq hstart hlen]
      exact toNat_total hlen
    · rw [pageAt_last hstart hlen]
      exact toNat_total hlen
  reaches := by
    intro start hmem hne
    have hpos : 0 < start.toNat := Nat.pos_of_ne_zero fun hz => hne (UInt32.toNat.inj hz)
    rcases mem_pageStarts hmem with hstart | hstart
    · rw [pageAt_eq hstart hlen, UInt32.lt_iff_toNat_lt]
      rw [toNat_total hlen, window_ne_nil hpos]
      omega
    · rw [pageAt_last hstart hlen, UInt32.lt_iff_toNat_lt]
      rw [toNat_total hlen]
      simp only [ne_eq, not_true, false_iff]
      omega

/-! ## One auction -/

/-- A house with one auction. -/
def oneAuction : AuctionHouse where
  objs := fun p => if p = 0 then some ⟨9, 4, 0, 25, 90, 3, 7200, ⟨12, 131⟩, false, .expired⟩ else none
  nextPtr := 1
  auctions := [(9, 0)]
  removalList := []
  maxId := 9
  coinage := fun _ => 0
  online := fun _ => false
  auctionCut := fun _ => 0
  cancelCut := fun _ => 0
  log := []

/-- A search for anything. -/
def anything : AuctionSearch := ⟨0, [], 0, 0, -1, -1, -1, -1, 0⟩

def browser : Searcher := ⟨1, 1, 10, 0, 0⟩

theorem auctionList_pages_one : Pages oneAuction ItemPrototype.plain browser anything :=
  auctionList_pages oneAuction ItemPrototype.plain browser anything (by decide)

/-- One auction matches, and two are reported. -/
theorem one_reported_as_two : ¬ ∀ (h : AuctionHouse) (storage : UInt32 → ItemPrototype)
    (plr : Searcher) (search : AuctionSearch), ∀ start ∈ pageStarts,
    (pageAt h storage plr search start).total.toNat = (matching h storage plr search).length := by
  intro hall
  have hzero : (0 : UInt32) ∈ pageStarts :=
    List.mem_map.2 ⟨0, List.mem_range.2 (by norm_num), rfl⟩
  have htotal := hall oneAuction ItemPrototype.plain browser anything 0 hzero
  exact absurd htotal (by decide)

end HearthStone.Auctions
