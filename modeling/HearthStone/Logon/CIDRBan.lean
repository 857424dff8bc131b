/-
HearthStone.Logon.CIDRBan — `ParseCIDRBan` on the bans that
`IPBanner::Add` makes of a text.

An address is the `s_addr` of the socket: the first octet is the byte at the
lowest address, the low byte on the machines the server runs on. The
function compares whole bytes and then the high bits of one more, which is
the order the bits of an address are counted in.

A text is split at its first slash. What is before it goes to `sscanf`, what
is after it to `atoi`, and both take more than digits: blanks, a sign, any
number of digits and whatever follows. No ban is made when the address or
the number of bits is 0, which two kinds of well-formed masks share with
texts that are none.

* `parseCIDRBan_iff` — the comparison is that of the first bits.
* `addBan_none_iff` — which texts make no ban (`Accepted` says it as a
  grammar).
* `cidrBan_iff` — for which texts the ban is right.
-/
import HearthStone.Logon.Numerals

namespace HearthStone.Logon

open LogonServer

/-! ## ParseCIDRBan -/

/-- `((unsigned char*)&x)[i]`. -/
def byteAt (x : UInt32) (i : Nat) : UInt8 := (x >>> UInt32.ofNat (8 * i)).toUInt8

def leftoverBitsCompare : List UInt8 :=
  [0x00, 0x80, 0xC0, 0xE0, 0xF0, 0xF8, 0xFC, 0xFE, 0xFF]

/-- `memcmp` of the first bytes gives 0. -/
def sameBytes (x y : UInt32) (n : Nat) : Bool :=
  (List.range n).all fun i => byteAt x i == byteAt y i

/-- True if the address hits the mask. -/
def parseCIDRBan (ip mask maskBits : UInt32) : Bool :=
  let fullBytes := maskBits.toNat / 8
  let leftoverBits := maskBits.toNat % 8
  let compare := leftoverBitsCompare.getD leftoverBits 0
  if maskBits > 32 then false
  else if fullBytes > 0 ∧ sameBytes ip mask fullBytes = false then false
  else if leftoverBits > 0 ∧
      byteAt ip fullBytes &&& compare ≠ byteAt mask fullBytes &&& compare then false
  else true

/-- The check of `CalculateBanStatus` on one ban. -/
def IPBan.hits (ban : IPBan) (address : UInt32) : Bool :=
  parseCIDRBan address ban.mask ban.bytes.toUInt32

/-! ## Masks -/

/-- A text `a.b.c.d/n`. -/
structure MaskString where
  a : Decimal
  b : Decimal
  c : Decimal
  d : Decimal
  bits : Decimal
  a_le : a.value ≤ 255
  b_le : b.value ≤ 255
  c_le : c.value ≤ 255
  d_le : d.value ≤ 255
  bits_le : bits.value ≤ 32

namespace MaskString

def dotted (m : MaskString) : Dotted :=
  { n0 := m.a.numeral, n1 := m.b.numeral, n2 := m.c.numeral, n3 := m.d.numeral }

def text (m : MaskString) : Text := m.dotted.text ++ '/' :: m.bits.numeral.text

def octet (m : MaskString) (i : Nat) : Nat :=
  [m.a.value, m.b.value, m.c.value, m.d.value].getD i 0

end MaskString

/-- The address and the mask have the same first bits, the high bit of an
octet before the others. -/
def AgreeOn (n : Nat) (address : UInt32) (m : MaskString) : Prop :=
  ∀ i < n, (byteAt address (i / 8)).toNat.testBit (7 - i % 8)
    = (m.octet (i / 8)).testBit (7 - i % 8)

/-- What is expected of the ban for a text. -/
structure Right (ip : Text) (expire : UInt32) : Prop where
  hits : ∀ m : MaskString, m.text = ip → ∃ ban, addBan ip expire = some ban ∧
    ∀ address, ban.hits address = true ↔ AgreeOn m.bits.value address m
  rejects : (¬ ∃ m : MaskString, m.text = ip) → addBan ip expire = none

/-- A text of which a ban is made: before the first slash it begins with
four numerals with dots that do not make 0, and after it with one that is
not 0. -/
def Accepted (ip : Text) : Prop :=
  ∃ (d : Dotted) (more : Text) (n : Numeral) (rest : Text),
    ip = (d.text ++ more) ++ '/' :: (n.text ++ rest) ∧ '/' ∉ d.text ++ more ∧
      Ends more ∧ Ends rest ∧ d.packed ≠ 0 ∧ n.count ≠ 0

/-! ## The comparison -/

theorem byte_eq_iff_testBit {x y : UInt8} :
    x = y ↔ ∀ j < 8, x.toNat.testBit j = y.toNat.testBit j := by
  constructor
  · rintro rfl j -
    rfl
  · intro h
    refine UInt8.toNat_inj.1 (Nat.eq_of_testBit_eq fun j => ?_)
    by_cases hj : j < 8
    · exact h j hj
    · have hpow : 2 ^ 8 ≤ 2 ^ j := Nat.pow_le_pow_right (by omega) (by omega)
      rw [Nat.testBit_lt_two_pow (Nat.lt_of_lt_of_le x.toNat_lt hpow),
        Nat.testBit_lt_two_pow (Nat.lt_of_lt_of_le y.toNat_lt hpow)]

theorem testBit_leftoverBitsCompare :
    ∀ k < 8, ∀ j < 8, (leftoverBitsCompare.getD k 0).toNat.testBit j = decide (8 ≤ j + k) := by
  decide

/-- The table keeps the high bits. -/
theorem and_leftoverBitsCompare {k : Nat} (hk : k < 8) (x y : UInt8) :
    x &&& leftoverBitsCompare.getD k 0 = y &&& leftoverBitsCompare.getD k 0 ↔
      ∀ t < k, x.toNat.testBit (7 - t) = y.toNat.testBit (7 - t) := by
  rw [byte_eq_iff_testBit]
  have hbit : ∀ z : UInt8, ∀ j < 8, (z &&& leftoverBitsCompare.getD k 0).toNat.testBit j
      = (z.toNat.testBit j && decide (8 ≤ j + k)) := by
    intro z j hj
    rw [UInt8.toNat_and, Nat.testBit_and, testBit_leftoverBitsCompare k hk j hj]
  constructor
  · intro h t ht
    have heq := h (7 - t) (by omega)
    rw [hbit x _ (by omega), hbit y _ (by omega), decide_eq_true (by omega), Bool.and_true,
      Bool.and_true] at heq
    exact heq
  · intro h j hj
    rw [hbit x j hj, hbit y j hj]
    by_cases hin : 8 ≤ j + k
    · have heq := h (7 - j) (by omega)
      rw [show 7 - (7 - j) = j by omega] at heq
      rw [heq]
    · rw [decide_eq_false hin, Bool.and_false, Bool.and_false]

theorem sameBytes_iff {x y : UInt32} {n : Nat} :
    sameBytes x y n = true ↔ ∀ i < n, byteAt x i = byteAt y i := by
  simp [sameBytes]

theorem parseCIDRBan_eq_true {ip mask maskBits : UInt32} (h : maskBits ≤ 32) :
    parseCIDRBan ip mask maskBits = true ↔
      (∀ i < maskBits.toNat / 8, byteAt ip i = byteAt mask i) ∧
        byteAt ip (maskBits.toNat / 8) &&& leftoverBitsCompare.getD (maskBits.toNat % 8) 0
          = byteAt mask (maskBits.toNat / 8) &&& leftoverBitsCompare.getD (maskBits.toNat % 8) 0 := by
  unfold parseCIDRBan
  generalize hfull : maskBits.toNat / 8 = full
  generalize hleft : maskBits.toNat % 8 = left
  rw [if_neg (UInt32.not_lt.2 h), ← sameBytes_iff]
  have hnone : full > 0 ∨ sameBytes ip mask full = true := by
    by_cases hpos : full > 0
    · exact Or.inl hpos
    · obtain rfl : full = 0 := by omega
      exact Or.inr rfl
  have hclear : left > 0 ∨ byteAt ip full &&& leftoverBitsCompare.getD left 0
      = byteAt mask full &&& leftoverBitsCompare.getD left 0 := by
    by_cases hpos : left > 0
    · exact Or.inl hpos
    · obtain rfl : left = 0 := by omega
      exact Or.inr (by simp [leftoverBitsCompare])
  by_cases hsame : sameBytes ip mask full = true
  · rw [if_neg (by rw [hsame]; simp)]
    by_cases hand : byteAt ip full &&& leftoverBitsCompare.getD left 0
        = byteAt mask full &&& leftoverBitsCompare.getD left 0
    · rw [if_neg (fun hboth => hboth.2 hand)]
      exact iff_of_true rfl ⟨hsame, hand⟩
    · rw [if_pos ⟨hclear.resolve_right hand, hand⟩]
      exact iff_of_false (by decide) fun hboth => hand hboth.2
  · rw [if_pos ⟨hnone.resolve_right hsame, Bool.eq_false_iff.2 hsame⟩]
    exact iff_of_false (by decide) fun hboth => hsame hboth.1

/-- The comparison is that of the first bits. -/
theorem parseCIDRBan_iff {ip mask maskBits : UInt32} (h : maskBits ≤ 32) :
    parseCIDRBan ip mask maskBits = true ↔ ∀ i < maskBits.toNat,
      (byteAt ip (i / 8)).toNat.testBit (7 - i % 8)
        = (byteAt mask (i / 8)).toNat.testBit (7 - i % 8) := by
  have hmod := Nat.mod_lt maskBits.toNat (show 8 > 0 by omega)
  rw [parseCIDRBan_eq_true h, and_leftoverBitsCompare hmod]
  constructor
  · rintro ⟨hfull, hleft⟩ i hi
    by_cases hbyte : i / 8 < maskBits.toNat / 8
    · rw [hfull _ hbyte]
    · have heq : i / 8 = maskBits.toNat / 8 := by omega
      rw [heq]
      exact hleft (i % 8) (by omega)
  · intro hbits
    refine ⟨fun i hi => byte_eq_iff_testBit.2 fun j hj => ?_, fun t ht => ?_⟩
    · have heq := hbits (8 * i + (7 - j)) (by omega)
      rwa [show (8 * i + (7 - j)) / 8 = i by omega, show 7 - (8 * i + (7 - j)) % 8 = j by omega]
        at heq
    · have heq := hbits (8 * (maskBits.toNat / 8) + t) (by omega)
      rwa [show (8 * (maskBits.toNat / 8) + t) / 8 = maskBits.toNat / 8 by omega,
        show (8 * (maskBits.toNat / 8) + t) % 8 = t by omega] at heq

/-! ## The bytes of a packed address -/

theorem testBit_byteAt (x : UInt32) {i j : Nat} (hi : i < 4) (hj : j < 8) :
    (byteAt x i).toNat.testBit j = x.toNat.testBit (8 * i + j) := by
  unfold byteAt
  rw [UInt32.toNat_toUInt8, UInt32.toNat_shiftRight,
    UInt32.toNat_ofNat_of_lt' (by unfold UInt32.size; omega),
    Nat.mod_eq_of_lt (by omega : 8 * i < 32), Nat.testBit_mod_two_pow, Nat.testBit_shiftRight,
    decide_eq_true hj, Bool.true_and]

/-- An octet shifted to its place. -/
theorem testBit_shiftLeft_octet {v : Nat} (hv : v ≤ 255) {k i j : Nat} (hk : k < 4) (hi : i < 4)
    (hj : j < 8) : (UInt32.ofNat v <<< UInt32.ofNat (8 * k)).toNat.testBit (8 * i + j)
      = (decide (i = k) && v.testBit j) := by
  have hsize : 8 * k < UInt32.size := by unfold UInt32.size; omega
  have hvsize : v < UInt32.size := by unfold UInt32.size; omega
  rw [UInt32.toNat_shiftLeft, UInt32.toNat_ofNat_of_lt' hsize, UInt32.toNat_ofNat_of_lt' hvsize,
    Nat.mod_eq_of_lt (by omega : 8 * k < 32), Nat.testBit_mod_two_pow, Nat.testBit_shiftLeft,
    decide_eq_true (by omega : 8 * i + j < 32), Bool.true_and]
  rcases Nat.lt_trichotomy i k with hlt | rfl | hgt
  · rw [decide_eq_false (by omega), decide_eq_false (by omega), Bool.false_and, Bool.false_and]
  · rw [decide_eq_true (by omega), decide_eq_true rfl, Bool.true_and, Bool.true_and,
      Nat.add_sub_cancel_left]
  · have hbig : v < 2 ^ (8 * i + j - 8 * k) := by
      have hpow : 2 ^ 8 ≤ 2 ^ (8 * i + j - 8 * k) := Nat.pow_le_pow_right (by omega) (by omega)
      omega
    rw [decide_eq_false (by omega : ¬ i = k), Nat.testBit_lt_two_pow hbig, Bool.and_false,
      Bool.false_and]

theorem testBit_packBytes {v0 v1 v2 v3 : Nat} (h0 : v0 ≤ 255) (h1 : v1 ≤ 255) (h2 : v2 ≤ 255)
    (h3 : v3 ≤ 255) {i j : Nat} (hi : i < 4) (hj : j < 8) :
    (packBytes (UInt32.ofNat v0) (UInt32.ofNat v1) (UInt32.ofNat v2)
      (UInt32.ofNat v3)).toNat.testBit (8 * i + j) = ([v0, v1, v2, v3].getD i 0).testBit j := by
  have hat0 : (UInt32.ofNat v0).toNat.testBit (8 * i + j) = (decide (i = 0) && v0.testBit j) := by
    rw [← testBit_shiftLeft_octet h0 (by omega : 0 < 4) hi hj]
    simp
  have hat1 := testBit_shiftLeft_octet h1 (by omega : 1 < 4) hi hj
  have hat2 := testBit_shiftLeft_octet h2 (by omega : 2 < 4) hi hj
  have hat3 := testBit_shiftLeft_octet h3 (by omega : 3 < 4) hi hj
  unfold packBytes
  rw [UInt32.toNat_or, UInt32.toNat_or, UInt32.toNat_or, Nat.testBit_or, Nat.testBit_or,
    Nat.testBit_or, hat0]
  rw [show (8 : UInt32) = UInt32.ofNat (8 * 1) from rfl, hat1,
    show (16 : UInt32) = UInt32.ofNat (8 * 2) from rfl, hat2,
    show (24 : UInt32) = UInt32.ofNat (8 * 3) from rfl, hat3]
  match i, hi with
  | 0, _ | 1, _ | 2, _ | 3, _ => simp

/-! ## The two parts of a text -/

theorem slash_not_mem_numeral (n : Numeral) : '/' ∉ n.text := by
  intro h
  unfold Numeral.text Numeral.signText at h
  rw [List.mem_append, List.mem_append, Option.mem_toList] at h
  rcases h with hblank | hsign | hdigit
  · exact absurd (n.blank _ hblank) (by decide)
  · exact absurd (n.signed _ hsign) (by decide)
  · exact absurd (n.digit _ hdigit) (by decide)

theorem slash_not_mem_dotted (d : Dotted) : '/' ∉ d.text := by
  intro h
  unfold Dotted.text at h
  have hdot : '/' ≠ '.' := by decide
  simp only [List.mem_append, List.mem_cons, hdot, false_or] at h
  rcases h with h | h | h | h
  · exact slash_not_mem_numeral d.n0 h
  · exact slash_not_mem_numeral d.n1 h
  · exact slash_not_mem_numeral d.n2 h
  · exact slash_not_mem_numeral d.n3 h

theorem addBan_split {pre suf : Text} (hpre : '/' ∉ pre) (expire : UInt32) :
    addBan (pre ++ '/' :: suf) expire = ipBanOf (pre ++ '/' :: suf) pre suf expire := by
  have hall : ∀ c ∈ pre, decide (c ≠ '/') = true := by
    intro c hc
    exact decide_eq_true fun heq => hpre (heq ▸ hc)
  have hbefore : beforeSlash (pre ++ '/' :: suf) = pre := by
    unfold beforeSlash
    rw [List.takeWhile_append_of_pos hall]
    simp
  have hafter : afterSlash (pre ++ '/' :: suf) = suf := by
    unfold afterSlash
    rw [List.dropWhile_append_of_pos hall]
    simp
  unfold addBan
  rw [if_pos (by simp), hbefore, hafter]

theorem exists_split {ip : Text} (h : '/' ∈ ip) :
    ∃ pre suf, ip = pre ++ '/' :: suf ∧ '/' ∉ pre := by
  obtain ⟨pre, suf, hpre, heq⟩ := List.eq_append_cons_of_mem h
  exact ⟨pre, suf, hpre, heq⟩

/-- A ban is made of the texts of the grammar. -/
theorem addBan_none_iff (ip : Text) (expire : UInt32) :
    addBan ip expire = none ↔ ¬ Accepted ip := by
  constructor
  · rintro hnone ⟨d, more, n, rest, rfl, hslash, hmore, hrest, hip, hbits⟩
    rw [addBan_split hslash] at hnone
    unfold ipBanOf at hnone
    rw [makeIP_text d hmore, n.atoi_text hrest, if_neg (not_or.2 ⟨hip, hbits⟩)] at hnone
    cases hnone
  · intro hnot
    by_cases hslash : '/' ∈ ip
    · obtain ⟨pre, suf, rfl, hpre⟩ := exists_split hslash
      rw [addBan_split hpre]
      by_contra hsome
      have hzero : ¬ (makeIP pre = 0 ∨ atoi suf = 0) := fun hzero => hsome (if_pos hzero)
      obtain ⟨hip, hbits⟩ := not_or.1 hzero
      obtain ⟨d, more, rfl, hmore, hpacked⟩ := exists_dotted hip
      obtain ⟨n, rest, rfl, hrest, hcount⟩ := exists_numeral_of_atoi hbits
      exact hnot ⟨d, more, n, rest, rfl, hpre, hmore, hrest, hpacked, hcount⟩
    · exact if_neg hslash

/-! ## Well-formed masks -/

theorem Decimal.unsigned_numeral {d : Decimal} (h : d.value ≤ 255) :
    d.numeral.unsigned = UInt32.ofNat d.value := by
  have hnot : ¬ d.numeral.value ≥ 2 ^ 64 := by
    change ¬ d.value ≥ 2 ^ 64
    omega
  unfold Numeral.unsigned
  rw [if_neg hnot, if_neg (by simp [Decimal.numeral])]
  rfl

theorem Decimal.count_numeral {d : Decimal} (h : d.value ≤ 255) :
    d.numeral.count = UInt32.ofNat d.value := by
  unfold Numeral.count
  rw [if_neg (by simp [Decimal.numeral]), Nat.min_eq_left]
  · rfl
  · change d.value ≤ 2 ^ 63 - 1
    omega

namespace MaskString

variable (m : MaskString)

theorem packed_dotted : m.dotted.packed = packBytes (UInt32.ofNat m.a.value)
    (UInt32.ofNat m.b.value) (UInt32.ofNat m.c.value) (UInt32.ofNat m.d.value) := by
  unfold Dotted.packed dotted
  rw [Decimal.unsigned_numeral m.a_le, Decimal.unsigned_numeral m.b_le,
    Decimal.unsigned_numeral m.c_le, Decimal.unsigned_numeral m.d_le]

theorem octet_le (i : Nat) : m.octet i ≤ 255 := by
  unfold octet
  match i with
  | 0 => exact m.a_le
  | 1 => exact m.b_le
  | 2 => exact m.c_le
  | 3 => exact m.d_le
  | i + 4 => simp

/-- The octets are the bytes of the mask. -/
theorem testBit_octet {i j : Nat} (hi : i < 4) (hj : j < 8) :
    (byteAt m.dotted.packed i).toNat.testBit j = (m.octet i).testBit j := by
  rw [testBit_byteAt _ hi hj, packed_dotted,
    testBit_packBytes m.a_le m.b_le m.c_le m.d_le hi hj]
  rfl

/-- `0.0.0.0`. -/
def IsZero : Prop := ∀ i < 4, m.octet i = 0

theorem packed_eq_zero : m.dotted.packed = 0 ↔ m.IsZero := by
  constructor
  · intro hzero i hi
    refine Nat.zero_of_testBit_eq_false fun j => ?_
    by_cases hj : j < 8
    · rw [← m.testBit_octet hi hj, hzero]
      simp [byteAt]
    · have hpow : 2 ^ 8 ≤ 2 ^ j := Nat.pow_le_pow_right (by omega) (by omega)
      have hle := m.octet_le i
      exact Nat.testBit_lt_two_pow (by omega)
  · intro hzero
    rw [packed_dotted, show m.a.value = 0 from hzero 0 (by omega),
      show m.b.value = 0 from hzero 1 (by omega), show m.c.value = 0 from hzero 2 (by omega),
      show m.d.value = 0 from hzero 3 (by omega)]
    rfl

theorem makeIP_dotted : makeIP m.dotted.text = m.dotted.packed := by
  simpa using makeIP_text m.dotted ends_nil

theorem atoi_bits : atoi m.bits.numeral.text = UInt32.ofNat m.bits.value := by
  have hle := m.bits_le
  rw [← Decimal.count_numeral (by omega)]
  simpa using m.bits.numeral.atoi_text ends_nil

theorem bits_eq_zero : UInt32.ofNat m.bits.value = 0 ↔ m.bits.value = 0 := by
  have hle := m.bits_le
  rw [← UInt32.toNat_inj, UInt32.toNat_ofNat_of_lt' (by unfold UInt32.size; omega)]
  rfl

/-- The ban of a mask that is not 0 hits what agrees with it. -/
theorem hits_iff (expire : UInt32) (address : UInt32) :
    (IPBan.mk m.dotted.packed (UInt32.ofNat m.bits.value).toUInt8 expire m.text).hits address
        = true ↔ AgreeOn m.bits.value address m := by
  have hle := m.bits_le
  have hbits : ((UInt32.ofNat m.bits.value).toUInt8.toUInt32).toNat = m.bits.value := by
    rw [UInt8.toNat_toUInt32, UInt32.toNat_toUInt8,
      UInt32.toNat_ofNat_of_lt' (by unfold UInt32.size; omega)]
    omega
  have h32 : (UInt32.ofNat m.bits.value).toUInt8.toUInt32 ≤ 32 := by
    rw [UInt32.le_iff_toNat_le, hbits]
    exact hle
  unfold IPBan.hits AgreeOn
  rw [parseCIDRBan_iff h32, hbits]
  refine forall₂_congr fun i hi => ?_
  rw [m.testBit_octet (by omega) (by omega)]

theorem ban_iff (expire : UInt32) :
    (∃ ban, addBan m.text expire = some ban ∧
      ∀ address, ban.hits address = true ↔ AgreeOn m.bits.value address m) ↔
      ¬ m.IsZero ∧ m.bits.value ≠ 0 := by
  have hadd : addBan m.text expire = ipBanOf m.text m.dotted.text m.bits.numeral.text expire :=
    addBan_split (slash_not_mem_dotted m.dotted) expire
  unfold ipBanOf at hadd
  rw [m.makeIP_dotted, m.atoi_bits] at hadd
  constructor
  · rintro ⟨ban, hban, -⟩
    rw [hadd] at hban
    have hzero : ¬ (m.dotted.packed = 0 ∨ UInt32.ofNat m.bits.value = 0) := by
      intro hzero
      rw [if_pos hzero] at hban
      cases hban
    obtain ⟨hip, hbits⟩ := not_or.1 hzero
    exact ⟨mt m.packed_eq_zero.2 hip, mt m.bits_eq_zero.2 hbits⟩
  · rintro ⟨hip, hbits⟩
    rw [if_neg (not_or.2 ⟨mt m.packed_eq_zero.1 hip, mt m.bits_eq_zero.1 hbits⟩)] at hadd
    exact ⟨_, hadd, m.hits_iff expire⟩

end MaskString

/-! ## Bans -/

/-- The ban of a text is right when it is a mask of more than no bits of an
address other than 0.0.0.0, and when it is no mask and not one of the texts
that are read as one. -/
theorem cidrBan_iff (ip : Text) (expire : UInt32) :
    Right ip expire ↔
      (∀ m : MaskString, m.text = ip → ¬ m.IsZero ∧ m.bits.value ≠ 0) ∧
        ((¬ ∃ m : MaskString, m.text = ip) → ¬ Accepted ip) := by
  constructor
  · rintro ⟨hhits, hrejects⟩
    refine ⟨?_, fun hform => (addBan_none_iff ip expire).1 (hrejects hform)⟩
    rintro m rfl
    exact (m.ban_iff expire).1 (hhits m rfl)
  · rintro ⟨hmask, hother⟩
    refine ⟨?_, fun hform => (addBan_none_iff ip expire).2 (hother hform)⟩
    rintro m rfl
    exact (m.ban_iff expire).2 (hmask m rfl)

/-- `10.0.0.0/0`, which every address agrees with, makes no ban. -/
theorem zeroBits_not_right :
    ¬ Right ['1', '0', '.', '0', '.', '0', '.', '0', '/', '0'] 0 := by
  intro h
  let zero : Decimal := { digits := ['0'], ne_nil := by decide, digit := by simp }
  let ten : Decimal := { digits := ['1', '0'], ne_nil := by decide, digit := by simp }
  let m : MaskString := {
    a := ten, b := zero, c := zero, d := zero, bits := zero
    a_le := by decide, b_le := by decide, c_le := by decide, d_le := by decide
    bits_le := by decide }
  exact ((m.ban_iff 0).1 (h.hits m rfl)).2 rfl

end HearthStone.Logon
