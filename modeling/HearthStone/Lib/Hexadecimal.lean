/-
HearthStone.Lib.Hexadecimal — hexadecimal digits, in either case.

`hexValue` is the number of a text of digits, the first one the highest;
`hexChars` and `hexBytes?` write and read bytes, two digits each.

* `hexBytes?_hexChars` — what is written is read.
* `hexValue_of_hexBytes?` — the number of the digits is that of the bytes.
* `pow_le_hexValue_iff` — its size, by the digits behind the leading zeros.
-/
import HearthStone.Lib.LittleEndian

namespace HearthStone.Lib

variable {c : Char} {cs : List Char} {bs : List UInt8} {d m : Nat}

def hexDigit? (c : Char) : Option Nat :=
  if '0'.toNat ≤ c.toNat ∧ c.toNat ≤ '9'.toNat then some (c.toNat - '0'.toNat)
  else if 'a'.toNat ≤ c.toNat ∧ c.toNat ≤ 'f'.toNat then some (c.toNat - 'a'.toNat + 10)
  else if 'A'.toNat ≤ c.toNat ∧ c.toNat ≤ 'F'.toNat then some (c.toNat - 'A'.toNat + 10)
  else none

def isHexDigit (c : Char) : Bool := (hexDigit? c).isSome

/-- The number of a text of digits. -/
def hexValue (cs : List Char) : Nat := cs.foldl (fun n c => 16 * n + (hexDigit? c).getD 0) 0

def hexChar (d : Nat) : Char := Char.ofNat (if d < 10 then '0'.toNat + d else 'a'.toNat + (d - 10))

def hexChars : List UInt8 → List Char
  | [] => []
  | b :: bs => hexChar (b.toNat / 16) :: hexChar (b.toNat % 16) :: hexChars bs

/-- The bytes of pairs of digits; nothing else is accepted. -/
def hexBytes? : List Char → Option (List UInt8)
  | [] => some []
  | [_] => none
  | a :: b :: cs =>
    (hexDigit? a).bind fun x => (hexDigit? b).bind fun y =>
      (hexBytes? cs).map fun bs => UInt8.ofNat (16 * x + y) :: bs

/-! ## Digits -/

theorem hexDigit?_lt (h : hexDigit? c = some d) : d < 16 := by
  have h9 : '9'.toNat = '0'.toNat + 9 := rfl
  have hf : 'f'.toNat = 'a'.toNat + 5 := rfl
  have hF : 'F'.toNat = 'A'.toNat + 5 := rfl
  unfold hexDigit? at h
  split_ifs at h with hdec hlow hup
  · obtain rfl := Option.some.inj h
    omega
  · obtain rfl := Option.some.inj h
    omega
  · obtain rfl := Option.some.inj h
    omega

theorem hexDigit?_hexChar (h : d < 16) : hexDigit? (hexChar d) = some d := by
  have hall : ∀ d : Fin 16, hexDigit? (hexChar d) = some d.val := by decide
  exact hall ⟨d, h⟩

theorem toNat_toUpper (c : Char) :
    c.toUpper.toNat = if 'a'.toNat ≤ c.toNat ∧ c.toNat ≤ 'z'.toNat then c.toNat - 32 else c.toNat := by
  have hiff : ('a'.val ≤ c.val ∧ c.val ≤ 'z'.val) ↔ ('a'.toNat ≤ c.toNat ∧ c.toNat ≤ 'z'.toNat) :=
    and_congr UInt32.le_iff_toNat_le UInt32.le_iff_toNat_le
  unfold Char.toUpper
  by_cases h : 'a'.val ≤ c.val ∧ c.val ≤ 'z'.val
  · have ha : 'a'.toNat = 97 := rfl
    have hnat := hiff.1 h
    rw [dif_pos h, if_pos hnat]
    show (c.val + ('A'.val - 'a'.val)).toNat = c.toNat - 32
    have hshift : ('A'.val - 'a'.val).toNat = 2 ^ 32 - 32 := rfl
    have hlt := c.val.toNat_lt
    have hval : c.toNat = c.val.toNat := rfl
    rw [UInt32.toNat_add, hshift]
    omega
  · rw [dif_neg h, if_neg fun hnat => h (hiff.2 hnat)]

/-- Digits are the same in either case. -/
theorem hexDigit?_toUpper (c : Char) : hexDigit? c.toUpper = hexDigit? c := by
  have h0 : '0'.toNat = 48 := rfl
  have h9 : '9'.toNat = 57 := rfl
  have ha : 'a'.toNat = 97 := rfl
  have hf : 'f'.toNat = 102 := rfl
  have hz : 'z'.toNat = 122 := rfl
  have hA : 'A'.toNat = 65 := rfl
  have hF : 'F'.toNat = 70 := rfl
  unfold hexDigit?
  rw [toNat_toUpper, h0, h9, ha, hf, hz, hA, hF]
  by_cases hlow : 97 ≤ c.toNat ∧ c.toNat ≤ 122
  · rw [if_pos hlow]
    split_ifs <;> first | omega | exact congrArg some (by omega) | rfl
  · rw [if_neg hlow]

theorem isHexDigit_toUpper (c : Char) : isHexDigit c.toUpper = isHexDigit c := by
  rw [isHexDigit, hexDigit?_toUpper, isHexDigit]

/-! ## Numbers -/

theorem foldl_hexDigit (cs : List Char) (n : Nat) :
    cs.foldl (fun n c => 16 * n + (hexDigit? c).getD 0) n = n * 16 ^ cs.length + hexValue cs := by
  induction cs generalizing n with
  | nil => simp [hexValue]
  | cons c cs ih =>
    rw [hexValue, List.foldl_cons, List.foldl_cons, ih, ih, List.length_cons]
    ring

theorem hexValue_cons (c : Char) (cs : List Char) :
    hexValue (c :: cs) = (hexDigit? c).getD 0 * 16 ^ cs.length + hexValue cs := by
  rw [hexValue, List.foldl_cons, foldl_hexDigit]
  simp

theorem getD_hexDigit?_lt (c : Char) : (hexDigit? c).getD 0 < 16 := by
  cases h : hexDigit? c with
  | none => exact Nat.zero_lt_succ _
  | some d => exact hexDigit?_lt h

theorem hexValue_lt (cs : List Char) : hexValue cs < 16 ^ cs.length := by
  induction cs with
  | nil => exact Nat.one_pos
  | cons c cs ih =>
    have hdigit := getD_hexDigit?_lt c
    calc hexValue (c :: cs) = (hexDigit? c).getD 0 * 16 ^ cs.length + hexValue cs := hexValue_cons c cs
      _ < (hexDigit? c).getD 0 * 16 ^ cs.length + 16 ^ cs.length := by omega
      _ = ((hexDigit? c).getD 0 + 1) * 16 ^ cs.length := by ring
      _ ≤ 16 * 16 ^ cs.length := Nat.mul_le_mul_right _ hdigit
      _ = 16 ^ (cs.length + 1) := (Nat.pow_succ' ..).symm

theorem hexValue_map_toUpper (cs : List Char) : hexValue (cs.map Char.toUpper) = hexValue cs := by
  induction cs with
  | nil => rfl
  | cons c cs ih =>
    rw [List.map_cons, hexValue_cons, hexValue_cons, hexDigit?_toUpper, List.length_map, ih]

/-- The digits behind the leading zeros. -/
def significant (cs : List Char) : List Char := cs.dropWhile fun c => hexDigit? c = some 0

/-- Leading zeros do not count. -/
theorem pow_le_hexValue_iff (hcs : ∀ c ∈ cs, isHexDigit c = true) :
    16 ^ m ≤ hexValue cs ↔ m < (significant cs).length := by
  induction cs with
  | nil =>
    simp [hexValue, significant]
  | cons c cs ih =>
    obtain ⟨d, hd⟩ := Option.isSome_iff_exists.1 (hcs c List.mem_cons_self)
    rw [hexValue_cons, hd, Option.getD_some]
    by_cases hzero : d = 0
    · subst hzero
      rw [Nat.zero_mul, Nat.zero_add, ih fun c hc => hcs c (List.mem_cons_of_mem _ hc)]
      simp [significant, hd]
    · have hkeep : significant (c :: cs) = c :: cs := by
        simp [significant, hd, hzero]
      rw [hkeep, List.length_cons]
      constructor
      · intro hle
        by_contra hlong
        have hpow : 16 ^ (cs.length + 1) ≤ 16 ^ m := Nat.pow_le_pow_right (by omega) (by omega)
        have hlt := hexValue_lt (c :: cs)
        rw [hexValue_cons, hd, Option.getD_some, List.length_cons] at hlt
        omega
      · intro hlt
        calc 16 ^ m ≤ 16 ^ cs.length := Nat.pow_le_pow_right (by omega) (by omega)
          _ ≤ d * 16 ^ cs.length := Nat.le_mul_of_pos_left _ (Nat.pos_of_ne_zero hzero)
          _ ≤ d * 16 ^ cs.length + hexValue cs := Nat.le_add_right _ _

/-! ## Bytes -/

theorem hexBytes?_hexChars (bs : List UInt8) : hexBytes? (hexChars bs) = some bs := by
  induction bs with
  | nil => rfl
  | cons b bs ih =>
    have hb := b.toNat_lt
    have hbyte : UInt8.ofNat (16 * (b.toNat / 16) + b.toNat % 16) = b := by
      rw [Nat.div_add_mod, UInt8.ofNat_toNat]
    rw [hexChars, hexBytes?, hexDigit?_hexChar (by omega), hexDigit?_hexChar (by omega), ih,
      Option.bind_some, Option.bind_some, Option.map_some, hbyte]

theorem hexBytes?_cons {a b : Char} (h : hexBytes? (a :: b :: cs) = some bs) :
    ∃ x y bs', hexDigit? a = some x ∧ hexDigit? b = some y ∧ hexBytes? cs = some bs' ∧
      bs = UInt8.ofNat (16 * x + y) :: bs' := by
  rw [hexBytes?] at h
  obtain ⟨x, hx, h⟩ := Option.bind_eq_some_iff.1 h
  obtain ⟨y, hy, h⟩ := Option.bind_eq_some_iff.1 h
  obtain ⟨bs', hbs, rfl⟩ := Option.map_eq_some_iff.1 h
  exact ⟨x, y, bs', hx, hy, hbs, rfl⟩

theorem length_of_hexBytes? (h : hexBytes? cs = some bs) : cs.length = 2 * bs.length := by
  induction cs using hexBytes?.induct generalizing bs with
  | case1 =>
    obtain rfl := Option.some.inj h
    rfl
  | case2 => cases h
  | case3 a b cs ih =>
    obtain ⟨x, y, bs', -, -, hbs, rfl⟩ := hexBytes?_cons h
    have hlength := ih hbs
    rw [List.length_cons, List.length_cons, List.length_cons, hlength]
    omega

/-- The number of the digits is that of the bytes, the first one the highest. -/
theorem hexValue_of_hexBytes? (h : hexBytes? cs = some bs) : hexValue cs = ofLeBytes bs.reverse := by
  induction cs using hexBytes?.induct generalizing bs with
  | case1 =>
    obtain rfl := Option.some.inj h
    rfl
  | case2 => cases h
  | case3 a b cs ih =>
    obtain ⟨x, y, bs', hx, hy, hbs, rfl⟩ := hexBytes?_cons h
    have hpair : (UInt8.ofNat (16 * x + y)).toNat = 16 * x + y := by
      have hx' := hexDigit?_lt hx
      have hy' := hexDigit?_lt hy
      rw [UInt8.toNat_ofNat']
      exact Nat.mod_eq_of_lt (by omega)
    have hlength : 16 ^ cs.length = 256 ^ bs'.length := by
      rw [length_of_hexBytes? hbs, Nat.pow_mul]
    rw [hexValue_cons, hexValue_cons, hx, hy, Option.getD_some, Option.getD_some, ih hbs,
      List.length_cons, List.reverse_cons, ofLeBytes_append, List.length_reverse, ofLeBytes, hpair,
      ofLeBytes, Nat.pow_succ, hlength]
    ring

theorem isHexDigit_of_hexBytes? (h : hexBytes? cs = some bs) : ∀ c ∈ cs, isHexDigit c = true := by
  induction cs using hexBytes?.induct generalizing bs with
  | case1 => simp
  | case2 => cases h
  | case3 a b cs ih =>
    obtain ⟨x, y, bs', hx, hy, hbs, -⟩ := hexBytes?_cons h
    intro c hc
    rw [List.mem_cons, List.mem_cons] at hc
    rcases hc with rfl | rfl | hc
    · simp [isHexDigit, hx]
    · simp [isHexDigit, hy]
    · exact ih hbs c hc

end HearthStone.Lib
