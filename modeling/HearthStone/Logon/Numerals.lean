/-
HearthStone.Logon.Numerals — what `%u` and `atoi` read of a text.

A `Numeral` is blanks, a sign and digits. Both functions read the numeral a
text begins with, up to the first character that is no digit.

* `scanUnsigned_text`, `atoi_text` — what they make of a numeral.
* `exists_numeral` — a text they find digits in begins with one.
* `makeIP_text`, `exists_dotted` — the same for four numerals with dots.
-/
import HearthStone.Logon.AccountCache

namespace HearthStone.Logon

/-! ## Numerals -/

/-- Digits, at least one. -/
structure Decimal where
  digits : Text
  ne_nil : digits ≠ []
  digit : ∀ c ∈ digits, c.isDigit = true

def Decimal.value (d : Decimal) : Nat := Logon.value d.digits

structure Numeral extends Decimal where
  blanks : Text
  sign : Option Char
  blank : ∀ c ∈ blanks, isSpace c = true
  signed : ∀ c ∈ sign, isSign c = true

namespace Numeral

def signText (n : Numeral) : Text := n.sign.toList ++ n.digits

def text (n : Numeral) : Text := n.blanks ++ n.signText

/-- The number as `%u` stores it. -/
def unsigned (n : Numeral) : UInt32 :=
  if n.value ≥ 2 ^ 64 then 0xFFFFFFFF
  else if n.sign = some '-' then 0 - UInt32.ofNat n.value
  else UInt32.ofNat n.value

/-- The number as `atoi` gives it to an `unsigned int`. -/
def count (n : Numeral) : UInt32 :=
  if n.sign = some '-' then 0 - UInt32.ofNat (min n.value (2 ^ 63))
  else UInt32.ofNat (min n.value (2 ^ 63 - 1))

end Numeral

/-- Digits without a sign or a blank. -/
def Decimal.numeral (d : Decimal) : Numeral :=
  { d with blanks := [], sign := none, blank := by simp, signed := by simp }

/-- The text goes on with something else than a digit. -/
def Ends (rest : Text) : Prop := ∀ c ∈ rest.head?, c.isDigit = false

theorem ends_nil : Ends [] := fun _ h => by cases h

theorem ends_cons {c : Char} {rest : Text} (h : c.isDigit = false) : Ends (c :: rest) := by
  intro d hd
  obtain rfl : c = d := Option.some.inj hd
  exact h

/-! ## Characters -/

theorem isSign_iff {c : Char} : isSign c = true ↔ c = '-' ∨ c = '+' := by
  simp [isSign]

theorem isSign_of_isDigit {c : Char} (h : c.isDigit = true) : isSign c = false := by
  by_contra hsign
  rcases isSign_iff.1 (Bool.eq_true_of_not_eq_false hsign) with rfl | rfl
  · exact absurd h (by decide)
  · exact absurd h (by decide)

theorem isSpace_of_isDigit {c : Char} (h : c.isDigit = true) : isSpace c = false := by
  have hlow : 48 ≤ c.val.toNat :=
    UInt32.le_iff_toNat_le.1 (of_decide_eq_true (Bool.and_eq_true_iff.1 h).1)
  by_contra hspace
  rcases Bool.or_eq_true_iff.1 (Bool.eq_true_of_not_eq_false hspace) with hblank | hcontrol
  · obtain rfl := of_decide_eq_true hblank
    exact absurd hlow (by decide)
  · have hhigh := of_decide_eq_true (Bool.and_eq_true_iff.1 hcontrol).2
    have hto : c.val.toNat ≤ 13 := UInt32.le_iff_toNat_le.1 hhigh
    omega

theorem isSpace_of_isSign {c : Char} (h : isSign c = true) : isSpace c = false := by
  rcases isSign_iff.1 h with rfl | rfl
  · decide
  · decide

/-! ## One numeral -/

theorem takeWhile_append_ends {ds rest : Text} (hds : ∀ c ∈ ds, c.isDigit = true)
    (hrest : Ends rest) : (ds ++ rest).takeWhile Char.isDigit = ds := by
  rw [List.takeWhile_append_of_pos hds]
  cases rest with
  | nil => simp
  | cons c rest => simp [hrest c rfl]

theorem dropWhile_append_ends {ds rest : Text} (hds : ∀ c ∈ ds, c.isDigit = true)
    (hrest : Ends rest) : (ds ++ rest).dropWhile Char.isDigit = rest := by
  rw [List.dropWhile_append_of_pos hds]
  cases rest with
  | nil => rfl
  | cons c rest => simp [hrest c rfl]

namespace Numeral

variable (n : Numeral) {rest : Text}

/-- A numeral without its blanks begins with a sign or a digit. -/
theorem skipBlanks_text : skipBlanks (n.text ++ rest) = n.signText ++ rest := by
  have hstart : ∀ c ∈ (n.signText ++ rest).head?, isSpace c = false := by
    intro c hc
    unfold signText at hc
    cases hsign : n.sign with
    | some s =>
      rw [hsign] at hc
      obtain rfl : s = c := Option.some.inj hc
      exact isSpace_of_isSign (n.signed s hsign)
    | none =>
      obtain ⟨d, ds, hds⟩ := List.exists_cons_of_ne_nil n.ne_nil
      rw [hsign, hds] at hc
      obtain rfl : d = c := Option.some.inj hc
      exact isSpace_of_isDigit (n.digit d (hds ▸ List.mem_cons_self))
  unfold skipBlanks text
  rw [List.append_assoc, List.dropWhile_append_of_pos n.blank]
  cases htext : n.signText ++ rest with
  | nil => rfl
  | cons c more =>
    rw [htext] at hstart
    simp [hstart c rfl]

theorem skipSign_signText : skipSign (n.signText ++ rest) = n.digits ++ rest := by
  unfold skipSign signText
  cases hsign : n.sign with
  | some s => simp [n.signed s hsign]
  | none =>
    obtain ⟨d, ds, hds⟩ := List.exists_cons_of_ne_nil n.ne_nil
    have hd := isSign_of_isDigit (n.digit d (hds ▸ List.mem_cons_self))
    simp [hds, hd]

theorem digits_signText (hrest : Ends rest) : Logon.digits (n.signText ++ rest) = n.digits := by
  unfold Logon.digits
  rw [n.skipSign_signText, takeWhile_append_ends n.digit hrest]

theorem afterDigits_signText (hrest : Ends rest) : afterDigits (n.signText ++ rest) = rest := by
  unfold afterDigits
  rw [n.skipSign_signText, dropWhile_append_ends n.digit hrest]

theorem head_signText : (n.signText ++ rest).head? = some '-' ↔ n.sign = some '-' := by
  unfold signText
  cases hsign : n.sign with
  | some s => simp
  | none =>
    obtain ⟨d, ds, hds⟩ := List.exists_cons_of_ne_nil n.ne_nil
    have hd := n.digit d (hds ▸ List.mem_cons_self)
    rw [hds]
    refine iff_of_false (fun h => ?_) (by simp)
    obtain rfl : d = '-' := Option.some.inj h
    exact absurd hd (by decide)

/-- `%u` on a text that begins with a numeral. -/
theorem scanUnsigned_text (hrest : Ends rest) :
    scanUnsigned (n.text ++ rest) = some (n.unsigned, rest) := by
  unfold scanUnsigned
  rw [n.skipBlanks_text, n.digits_signText hrest, if_neg n.ne_nil, n.afterDigits_signText hrest]
  unfold unsignedOf
  rw [n.digits_signText hrest]
  simp only [n.head_signText]
  rfl

/-- `atoi` on a text that begins with a numeral. -/
theorem atoi_text (hrest : Ends rest) : atoi (n.text ++ rest) = n.count := by
  unfold atoi
  rw [n.skipBlanks_text, n.digits_signText hrest]
  simp only [n.head_signText]
  rfl

end Numeral

/-! ## Texts that begin with a numeral -/

theorem ends_afterDigits (s : Text) : Ends (afterDigits s) := by
  intro c hc
  have hstop := List.head?_dropWhile_not Char.isDigit (skipSign s)
  unfold afterDigits at hc
  rw [hc] at hstop
  exact hstop

/-- The sign that `skipSign` skips. -/
def signOf (s : Text) : Option Char := if s.head?.any isSign then s.head? else none

theorem signOf_skipSign (s : Text) : (signOf s).toList ++ skipSign s = s := by
  unfold signOf skipSign
  cases s with
  | nil => rfl
  | cons c s =>
    by_cases hc : isSign c = true
    · simp [hc]
    · simp [hc]

theorem isSign_of_mem_signOf {s : Text} {c : Char} (h : c ∈ signOf s) : isSign c = true := by
  unfold signOf at h
  by_cases hany : s.head?.any isSign = true
  · rw [if_pos hany] at h
    rw [h] at hany
    exact hany
  · rw [if_neg hany] at h
    cases h

/-- A text in which digits are found begins with a numeral. -/
theorem exists_numeral {s : Text} (h : digits (skipBlanks s) ≠ []) :
    ∃ (n : Numeral) (rest : Text), s = n.text ++ rest ∧ Ends rest := by
  let n : Numeral := {
    digits := digits (skipBlanks s)
    ne_nil := h
    digit := fun c hc => List.mem_takeWhile_imp hc
    blanks := s.takeWhile isSpace
    sign := signOf (skipBlanks s)
    blank := fun c hc => List.mem_takeWhile_imp hc
    signed := fun c hc => isSign_of_mem_signOf hc }
  refine ⟨n, afterDigits (skipBlanks s), ?_, ends_afterDigits _⟩
  have hdigits : digits (skipBlanks s) ++ afterDigits (skipBlanks s) = skipSign (skipBlanks s) :=
    List.takeWhile_append_dropWhile
  calc s = s.takeWhile isSpace ++ skipBlanks s := List.takeWhile_append_dropWhile.symm
    _ = s.takeWhile isSpace
        ++ ((signOf (skipBlanks s)).toList ++ skipSign (skipBlanks s)) := by rw [signOf_skipSign]
    _ = n.text ++ afterDigits (skipBlanks s) := by
      rw [← hdigits]
      simp [n, Numeral.text, Numeral.signText]

theorem exists_numeral_of_scanUnsigned {s rest : Text} {v : UInt32}
    (h : scanUnsigned s = some (v, rest)) :
    ∃ n : Numeral, s = n.text ++ rest ∧ Ends rest ∧ v = n.unsigned := by
  have hdigits : digits (skipBlanks s) ≠ [] := by
    intro hnil
    unfold scanUnsigned at h
    rw [if_pos hnil] at h
    cases h
  obtain ⟨n, rest', rfl, hends⟩ := exists_numeral hdigits
  rw [n.scanUnsigned_text hends] at h
  obtain ⟨rfl, rfl⟩ := Prod.mk.inj (Option.some.inj h)
  exact ⟨n, rfl, hends, rfl⟩

theorem exists_numeral_of_atoi {s : Text} (h : atoi s ≠ 0) :
    ∃ (n : Numeral) (rest : Text), s = n.text ++ rest ∧ Ends rest ∧ n.count ≠ 0 := by
  have hdigits : digits (skipBlanks s) ≠ [] := by
    intro hnil
    apply h
    unfold atoi
    rw [hnil]
    simp [value]
  obtain ⟨n, rest, rfl, hends⟩ := exists_numeral hdigits
  rw [n.atoi_text hends] at h
  exact ⟨n, rest, rfl, hends, h⟩

/-! ## Four numerals -/

/-- Four numerals with dots between them. -/
structure Dotted where
  n0 : Numeral
  n1 : Numeral
  n2 : Numeral
  n3 : Numeral

namespace Dotted

def text (d : Dotted) : Text :=
  d.n0.text ++ '.' :: (d.n1.text ++ '.' :: (d.n2.text ++ '.' :: d.n3.text))

def packed (d : Dotted) : UInt32 :=
  packBytes d.n0.unsigned d.n1.unsigned d.n2.unsigned d.n3.unsigned

end Dotted

theorem scanDot_some {s rest : Text} (h : scanDot s = some rest) : s = '.' :: rest := by
  unfold scanDot at h
  split at h
  · rw [Option.some.inj h]
  · cases h

theorem makeIP_text (d : Dotted) {rest : Text} (hrest : Ends rest) :
    makeIP (d.text ++ rest) = d.packed := by
  have hdot : ∀ s : Text, Ends ('.' :: s) := fun s => ends_cons (by decide)
  unfold makeIP Dotted.text
  simp only [List.append_assoc, List.cons_append]
  rw [d.n0.scanUnsigned_text (hdot _), Option.bind_some, scanDot, Option.bind_some,
    d.n1.scanUnsigned_text (hdot _), Option.bind_some, scanDot, Option.bind_some,
    d.n2.scanUnsigned_text (hdot _), Option.bind_some, scanDot, Option.bind_some,
    d.n3.scanUnsigned_text hrest]
  rfl

theorem exists_of_getD_ne_zero {o : Option UInt32} (h : o.getD 0 ≠ 0) :
    ∃ v, o = some v ∧ v ≠ 0 := by
  cases o with
  | none => exact absurd rfl h
  | some v => exact ⟨v, rfl, h⟩

theorem exists_dotted {s : Text} (h : makeIP s ≠ 0) :
    ∃ (d : Dotted) (rest : Text), s = d.text ++ rest ∧ Ends rest ∧ d.packed ≠ 0 := by
  have hne := h
  obtain ⟨v, hv, -⟩ := exists_of_getD_ne_zero h
  simp only [Option.bind_eq_some_iff, Option.map_eq_some_iff, Prod.exists] at hv
  obtain ⟨v0, t0, h0, s1, hd1, v1, t1, h1, s2, hd2, v2, t2, h2, s3, hd3, v3, rest, h3, -⟩ := hv
  obtain ⟨n0, rfl, -⟩ := exists_numeral_of_scanUnsigned h0
  obtain rfl := scanDot_some hd1
  obtain ⟨n1, rfl, -⟩ := exists_numeral_of_scanUnsigned h1
  obtain rfl := scanDot_some hd2
  obtain ⟨n2, rfl, -⟩ := exists_numeral_of_scanUnsigned h2
  obtain rfl := scanDot_some hd3
  obtain ⟨n3, rfl, hends, -⟩ := exists_numeral_of_scanUnsigned h3
  have htext : n0.text ++ '.' :: (n1.text ++ '.' :: (n2.text ++ '.' :: (n3.text ++ rest)))
      = (Dotted.mk n0 n1 n2 n3).text ++ rest := by
    simp [Dotted.text]
  rw [htext] at hne ⊢
  rw [makeIP_text _ hends] at hne
  exact ⟨_, rest, rfl, hends, hne⟩

end HearthStone.Logon
