/-
HearthStone.Shared.Config — configuration files (`ConfigFile::SetSource`).

* A text is a list of characters, one for each byte of the file. The file
  has no NUL, at which the buffer would end.
* `cut c` is `find`, `substr` and `erase` in one: what stands before the
  first `c` and what stands behind it.
* `pass` is one pass of the loop body from the label `parse`; it gives the
  rest of the line when it ends in `goto parse`.
* `none` is an error or a failed `ASSERT`.
* Of a `ConfigSetting` there is `AsString`; the other fields are functions of
  it. `ConfigBlock` and the map of blocks are functions from hashes.
-/
import Mathlib

namespace HearthStone.Config

abbrev Text := List Char

abbrev ConfigBlock := UInt32 → Option Text

/-- What stands before the first `c`, and behind it. -/
def cut (c : Char) : Text → Option (Text × Text)
  | [] => none
  | d :: t => if d = c then some ([], t) else (cut c t).map fun p => (d :: p.1, p.2)

/-- What stands behind the first `*/`. -/
def cutStar : Text → Option Text
  | [] => none
  | c :: t => if c = '*' ∧ t.head? = some '/' then some t.tail else cutStar t

def isSpace (c : Char) : Bool := c == ' ' || c == '\t'

/-- `remove_spaces`: in front only. -/
def removeSpaces (t : Text) : Text := t.dropWhile isSpace

/-- `remove_all_spaces`: everywhere, but for tabs. -/
def removeAllSpaces (t : Text) : Text := t.filter fun c => c != ' '

/-- A `char` as an `int`, after `tolower`. -/
def lowered (c : Char) : UInt32 :=
  if c.toNat < 128 then c.toLower.toNat.toUInt32 else c.toNat.toUInt32 - 256

def ahash (t : Text) : UInt32 := t.foldl (fun ret c => ret + (5 * ret + lowered c)) 0

/-- `is_comment`: what it returns, and whether it sets its flag. The third
character is asked where the second is meant. -/
def isComment (line : Text) : Bool × Bool :=
  match removeSpaces line with
  | '/' :: '*' :: _ => (true, true)
  | '/' :: _ :: '/' :: _ => (true, false)
  | '#' :: _ => (true, false)
  | _ => (false, false)

structure ParseState where
  inMultilineComment : Bool
  inMultilineQuote : Bool
  inBlock : Bool
  currentSetting : Text
  currentVariable : Text
  currentBlock : Text
  currentBlockMap : ConfigBlock
  settings : UInt32 → Option ConfigBlock

def start : ParseState := ⟨false, false, false, [], [], [], fun _ => none, fun _ => none⟩

namespace ParseState

variable (s : ParseState) (line : Text)

/-- The setting is done. -/
def apply (value : Text) : ParseState :=
  { s with
    currentBlockMap := Function.update s.currentBlockMap (ahash s.currentVariable) (some value)
    currentSetting := []
    currentVariable := []
    inMultilineQuote := false }

/-- The block is done. -/
def close : ParseState :=
  { s with
    inBlock := false
    settings := Function.update s.settings (ahash s.currentBlock) (some s.currentBlockMap)
    currentBlockMap := fun _ => none
    currentSetting := []
    currentVariable := []
    currentBlock := [] }

/-- From the search for the opening quote on. -/
def quoted : Option (ParseState × Option Text) :=
  match cut '"' line with
  | some (before, behind) =>
    if s.currentSetting ≠ [] ∨ s.currentVariable = [] then none
    else
      match cut '"' behind with
      | some (value, rest) => some (s.apply value, some rest)
      | none =>
        some ({ s with currentSetting := s.currentSetting ++ before, inMultilineQuote := true },
          none)
  | none =>
    match cut '>' line with
    | some _ => some (s.close, none)
    | none => some (s, none)

/-- From `remove_spaces` on, in a block. -/
def directive : Option (ParseState × Option Text) :=
  let line := removeSpaces line
  if line = [] then some (s, none)
  else
    match cut '=' line with
    | some (name, rest) =>
      if s.currentVariable ≠ [] then none
      else { s with currentVariable := removeAllSpaces name }.quoted rest
    | none => s.quoted line

/-- What is done with a line, or what is left of it, when the comments have
been dealt with. -/
def content : Option (ParseState × Option Text) :=
  if s.inBlock then
    if s.inMultilineQuote then
      match cut '"' line with
      | none => some ({ s with currentSetting := s.currentSetting ++ line ++ ['\n'] }, none)
      | some (before, rest) =>
        if s.currentBlock = [] ∨ s.currentVariable = [] then none
        else (s.apply (s.currentSetting ++ (before ++ ['"']))).directive rest
    else s.directive line
  else
    match cut '<' line with
    | none => some (s, none)
    | some (_, behind) =>
      match cut ' ' behind with
      | none => none
      | some (name, rest) => some ({ s with inBlock := true, currentBlock := name }, some rest)

/-- One pass from the label `parse`. -/
def pass : Option (ParseState × Option Text) :=
  if line = [] then some (s, none)
  else
    if s.inMultilineComment = false ∧ isComment line = (true, false) then some (s, none)
    else if s.inMultilineComment = true ∨ (isComment line).2 = true then
      match cutStar line with
      | none => some ({ s with inMultilineComment := true }, none)
      | some rest => { s with inMultilineComment := false }.content rest
    else s.content line

end ParseState

/-! ## Every pass takes something off the line -/

theorem length_cut {c : Char} {t pre rest : Text} (h : cut c t = some (pre, rest)) :
    rest.length < t.length := by
  induction t generalizing pre with
  | nil => cases h
  | cons d t ih =>
    unfold cut at h
    split at h
    · obtain ⟨rfl, rfl⟩ := Prod.mk.inj (Option.some.inj h)
      exact Nat.lt_succ_self _
    · obtain ⟨⟨pre', rest'⟩, hcut, heq⟩ := Option.map_eq_some_iff.1 h
      obtain ⟨rfl, rfl⟩ := Prod.mk.inj heq
      exact (ih hcut).trans (Nat.lt_succ_self _)

theorem length_cutStar {t rest : Text} (h : cutStar t = some rest) :
    rest.length < t.length := by
  induction t with
  | nil => cases h
  | cons c t ih =>
    unfold cutStar at h
    split at h
    · obtain rfl := Option.some.inj h
      exact Nat.lt_succ_of_le (List.length_tail ▸ Nat.sub_le ..)
    · exact (ih h).trans (Nat.lt_succ_self _)

variable {s s' : ParseState} {line rest : Text}

theorem length_quoted (h : s.quoted line = some (s', some rest)) : rest.length < line.length := by
  unfold ParseState.quoted at h
  split at h
  · rename_i before behind hopen
    split at h
    · cases h
    · split at h
      · rename_i value rest' hclose
        obtain ⟨-, heq⟩ := Prod.mk.inj (Option.some.inj h)
        obtain rfl := Option.some.inj heq
        exact (length_cut hclose).trans (length_cut hopen)
      · cases h
  · split at h <;> cases h

theorem length_directive (h : s.directive line = some (s', some rest)) :
    rest.length < line.length := by
  have hle : (removeSpaces line).length ≤ line.length := (List.dropWhile_suffix _).length_le
  unfold ParseState.directive at h
  dsimp only at h
  split at h
  · cases h
  · split at h
    · rename_i name behind hcut
      split at h
      · cases h
      · exact ((length_quoted h).trans (length_cut hcut)).trans_le hle
    · exact (length_quoted h).trans_le hle

theorem length_content (h : s.content line = some (s', some rest)) :
    rest.length < line.length := by
  unfold ParseState.content at h
  split at h
  · split at h
    · split at h
      · cases h
      · rename_i before behind hcut
        split at h
        · cases h
        · exact (length_directive h).trans (length_cut hcut)
    · exact length_directive h
  · split at h
    · cases h
    · rename_i before behind hcut
      split at h
      · cases h
      · rename_i name rest' hname
        obtain ⟨-, heq⟩ := Prod.mk.inj (Option.some.inj h)
        obtain rfl := Option.some.inj heq
        exact (length_cut hname).trans (length_cut hcut)

theorem length_pass (h : s.pass line = some (s', some rest)) : rest.length < line.length := by
  unfold ParseState.pass at h
  split at h
  · cases h
  · split at h
    · cases h
    · split at h
      · split at h
        · cases h
        · rename_i behind hcut
          exact (length_content h).trans (length_cutStar hcut)
      · exact length_content h

/-! ## The loop -/

/-- One line. -/
def parse (s : ParseState) (line : Text) : Option ParseState :=
  match _h : s.pass line with
  | none => none
  | some (s', none) => some s'
  | some (s', some rest) => parse s' rest
termination_by line.length
decreasing_by exact length_pass _h

/-- The lines that end in a line feed, one by one. -/
def run (s : ParseState) (buffer : Text) : Option ParseState :=
  match _h : cut '\n' buffer with
  | none => some s
  | some (line, rest) => (parse s line).bind fun s => run s rest
termination_by buffer.length
decreasing_by exact length_cut _h

/-- `ConfigFile::SetSource`. -/
def setSource (buffer : Text) : Option (UInt32 → Option ConfigBlock) :=
  (run start buffer).bind fun s =>
    if s.inBlock ∨ s.inMultilineComment ∨ s.inMultilineQuote then none else some s.settings

/-- `GetSetting`, and `GetString` on it. -/
def getString (settings : UInt32 → Option ConfigBlock) (block name : Text) : Option Text :=
  (settings (ahash block)).bind fun b => b (ahash name)

end HearthStone.Config
