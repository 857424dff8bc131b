/-
HearthStone.Shared.ConfigTheorems — what the parser makes of a text.

`resume` is the parser in the middle of a line, at one of the places of
`Clean`. Each kind of piece has a lemma on what it does to a line
(`contentLoop_setting`, `parse_star`, …); the pieces of a clean text are then
gone through one by one (`resume_text`).

A value that is written on several lines never comes out: what is stored has
no line feed, or has a quote at its end (`Stored`).
-/
import HearthStone.Shared.ConfigText

namespace HearthStone.Config

variable {c d : Char} {t u x y l r : Text} {s s' : ParseState} {b : Bool}

/-! ## Cutting -/

theorem cut_cons_of_ne (h : d ≠ c) : cut c (d :: t) = (cut c t).map fun p => (d :: p.1, p.2) :=
  if_neg h

theorem cut_of_notMem (h : c ∉ t) : cut c t = none := by
  induction t with
  | nil => rfl
  | cons d t ih =>
    rw [cut_cons_of_ne (List.ne_of_not_mem_cons h).symm, ih (List.not_mem_of_not_mem_cons h)]
    rfl

theorem cut_append (h : c ∉ x) :
    cut c (x ++ t) = (cut c t).map fun p => (x ++ p.1, p.2) := by
  induction x with
  | nil => simp
  | cons d x ih =>
    rw [List.cons_append, cut_cons_of_ne (List.ne_of_not_mem_cons h).symm,
      ih (List.not_mem_of_not_mem_cons h), Option.map_map]
    rfl

theorem cut_at (h : c ∉ x) : cut c (x ++ c :: t) = some (x, t) := by
  have hself : cut c (c :: t) = some ([], t) := if_pos rfl
  rw [cut_append h, hself]
  simp

theorem exists_cut (h : c ∈ t) : ∃ l r, cut c t = some (l, r) ∧ t = l ++ c :: r ∧ c ∉ l := by
  obtain ⟨l, r, rfl, hl⟩ := List.eq_append_cons_of_mem h
  exact ⟨l, r, cut_at hl, rfl, hl⟩

theorem cutStar_end : cutStar ('*' :: '/' :: t) = some t := if_pos ⟨rfl, rfl⟩

theorem cutStar_cons (h : ¬ (c = '*' ∧ t.head? = some '/')) : cutStar (c :: t) = cutStar t :=
  if_neg h

theorem cutStar_append (h : cutStar x = some y) : cutStar (x ++ t) = some (y ++ t) := by
  induction x with
  | nil => cases h
  | cons c x ih =>
    by_cases hend : c = '*' ∧ x.head? = some '/'
    · obtain ⟨rfl, hhead⟩ := hend
      obtain ⟨x, rfl⟩ := List.head?_eq_some_iff.1 hhead
      rw [cutStar_end] at h
      obtain rfl := Option.some.inj h
      exact cutStar_end
    · rw [cutStar_cons hend] at h
      have hx : x ≠ [] := by
        rintro rfl
        cases h
      have hsame : (x ++ t).head? = x.head? := List.head?_append_of_ne_nil x hx
      rw [List.cons_append, cutStar_cons (hsame ▸ hend)]
      exact ih h

/-- The end is not looked for across another character. -/
theorem cutStar_break (hstar : c ≠ '*') (hslash : c ≠ '/') :
    cutStar (x ++ c :: y) = match cutStar x with
      | some r => some (r ++ c :: y)
      | none => cutStar y := by
  induction x with
  | nil => exact cutStar_cons fun h => hstar h.1
  | cons d x ih =>
    have hsame : d = '*' ∧ (x ++ c :: y).head? = some '/' ↔ d = '*' ∧ x.head? = some '/' := by
      cases x with
      | nil => simp [hslash]
      | cons e x => rfl
    by_cases hend : d = '*' ∧ x.head? = some '/'
    · obtain ⟨rfl, hhead⟩ := hend
      obtain ⟨x, rfl⟩ := List.head?_eq_some_iff.1 hhead
      rw [cutStar_end]
      exact cutStar_end
    · rw [List.cons_append, cutStar_cons (hsame.not.2 hend), cutStar_cons hend]
      exact ih

/-! ## One line -/

theorem parse_eq (s : ParseState) (line : Text) :
    parse s line = match s.pass line with
      | none => none
      | some (s', none) => some s'
      | some (s', some rest) => parse s' rest := by
  rw [parse]
  split <;> rename_i h <;> rw [h]

/-- A line in which comments have been dealt with. -/
def contentLoop (s : ParseState) (line : Text) : Option ParseState :=
  match s.content line with
  | none => none
  | some (s', none) => some s'
  | some (s', some rest) => parse s' rest

/-- Neither in a comment nor in a quote. -/
structure Calm (b : Bool) (s : ParseState) : Prop where
  comment : s.inMultilineComment = false
  quote : s.inMultilineQuote = false
  block : s.inBlock = b

/-- Between two pieces. -/
structure Idle (b : Bool) (s : ParseState) : Prop extends Calm b s where
  setting : s.currentSetting = []
  variableName : s.currentVariable = []

theorem parse_nil (s : ParseState) : parse s [] = some s := by
  rw [parse_eq]
  rfl

theorem contentLoop_nil (hs : Calm b s) : contentLoop s [] = some s := by
  unfold contentLoop ParseState.content
  rw [hs.block, hs.quote]
  cases b <;> rfl

/-- A line that starts with no comment. -/
theorem parse_content (hs : Calm b s) (h : isComment l = (false, false)) :
    parse s l = contentLoop s l := by
  by_cases hnil : l = []
  · rw [hnil, parse_nil, contentLoop_nil hs]
  · rw [parse_eq]
    unfold ParseState.pass
    rw [if_neg hnil, hs.comment, h]
    rfl

/-- A line that is a comment. -/
theorem parse_skip (hs : Calm b s) (h : isComment l = (true, false)) : parse s l = some s := by
  by_cases hnil : l = []
  · rw [hnil, parse_nil]
  · rw [parse_eq]
    unfold ParseState.pass
    rw [if_neg hnil, hs.comment, h]
    rfl

/-- A line in a comment. -/
theorem parse_inComment (h : s.inMultilineComment = true) :
    parse s l = match cutStar l with
      | none => some s
      | some rest => contentLoop { s with inMultilineComment := false } rest := by
  by_cases hnil : l = []
  · rw [hnil, parse_nil]
    rfl
  · rw [parse_eq]
    unfold ParseState.pass
    rw [if_neg hnil, h]
    cases cutStar l with
    | none => simp [← h]
    | some rest => rfl

/-- The start of a comment. -/
theorem parse_star (hs : Calm b s) (h : isComment l = (true, true)) :
    parse s l = match cutStar l with
      | none => some { s with inMultilineComment := true }
      | some rest => contentLoop s rest := by
  have hnil : l ≠ [] := by
    rintro rfl
    cases h
  have hsame : { s with inMultilineComment := false } = s := by
    rw [← hs.comment]
  rw [parse_eq]
  unfold ParseState.pass
  rw [if_neg hnil, hs.comment, h]
  cases cutStar l with
  | none => rfl
  | some rest =>
    rw [hsame]
    rfl

/-! ## Blanks -/

theorem isComment_space (hc : isSpace c = true) : isComment (c :: l) = isComment l := by
  unfold isComment removeSpaces
  rw [List.dropWhile_cons_of_pos hc]

theorem not_mark_of_isSpace (hc : isSpace c = true) :
    c ≠ '<' ∧ c ≠ '=' ∧ c ≠ '"' ∧ c ≠ '>' ∧ c ≠ '*' ∧ c ≠ '/' ∧ c ≠ '\n' := by
  have hcases : c = ' ' ∨ c = '\t' := by simpa [isSpace] using hc
  rcases hcases with rfl | rfl <;> decide

theorem contentLoop_space (hs : Calm b s) (hc : isSpace c = true) :
    contentLoop s (c :: l) = contentLoop s l := by
  obtain ⟨hlt, -⟩ := not_mark_of_isSpace hc
  unfold contentLoop ParseState.content
  rw [hs.block, hs.quote]
  cases b with
  | true =>
    have hdirective : s.directive (c :: l) = s.directive l := by
      unfold ParseState.directive removeSpaces
      rw [List.dropWhile_cons_of_pos hc]
    simp only [if_true, Bool.false_eq_true, if_false, hdirective]
  | false =>
    simp only [Bool.false_eq_true, if_false, cut_cons_of_ne hlt]
    cases cut '<' l <;> rfl

theorem parse_space (hs : Calm b s) (hc : isSpace c = true) : parse s (c :: l) = parse s l := by
  obtain ⟨-, -, -, -, hstar, -⟩ := not_mark_of_isSpace hc
  have hsame := isComment_space (l := l) hc
  have hcut : cutStar (c :: l) = cutStar l := cutStar_cons fun h => hstar h.1
  by_cases hcontent : isComment l = (false, false)
  · rw [parse_content hs hcontent, parse_content hs (hsame.trans hcontent), contentLoop_space hs hc]
  · by_cases hskip : isComment l = (true, false)
    · rw [parse_skip hs hskip, parse_skip hs (hsame.trans hskip)]
    · have hstarred : isComment l = (true, true) := by
        revert hcontent hskip
        unfold isComment
        split <;> simp
      rw [parse_star hs hstarred, parse_star hs (hsame.trans hstarred), hcut]

/-! ## What has nothing in it -/

theorem Quiet.append_iff : Quiet b (x ++ y) ↔ Quiet b x ∧ Quiet b y := by
  unfold Quiet
  cases b
  · simp
  · simp
    tauto

theorem mem_removeSpaces (hc : isSpace c = false) : c ∈ removeSpaces l ↔ c ∈ l := by
  refine ⟨fun h => (List.dropWhile_suffix _).subset h, fun h => ?_⟩
  rw [← List.takeWhile_append_dropWhile (p := isSpace) (l := l)] at h
  rcases List.mem_append.1 h with h | h
  · have hspace := List.mem_takeWhile_imp h
    rw [hc] at hspace
    cases hspace
  · exact h

/-- A line in a block without a setting. -/
theorem directive_of_no_setting (heq : '=' ∉ l) (hquote : '"' ∉ l) :
    s.directive l = some (if '>' ∈ l then s.close else s, none) := by
  have heq' : '=' ∉ removeSpaces l := mt (mem_removeSpaces rfl).1 heq
  have hquote' : '"' ∉ removeSpaces l := mt (mem_removeSpaces rfl).1 hquote
  have hgt : '>' ∈ removeSpaces l ↔ '>' ∈ l := mem_removeSpaces rfl
  unfold ParseState.directive
  dsimp only
  split
  · rename_i hnil
    rw [hnil] at hgt
    rw [if_neg (hgt.not.1 List.not_mem_nil)]
  · rw [cut_of_notMem heq']
    unfold ParseState.quoted
    rw [cut_of_notMem hquote']
    by_cases hin : '>' ∈ l
    · obtain ⟨pre, rest, hcut, -⟩ := exists_cut (hgt.2 hin)
      rw [if_pos hin]
      simp only [hcut]
    · rw [if_neg hin]
      simp only [cut_of_notMem (hgt.not.2 hin)]

theorem contentLoop_block (hs : Calm true s) :
    contentLoop s l = match s.directive l with
      | none => none
      | some (s', none) => some s'
      | some (s', some rest) => parse s' rest := by
  unfold contentLoop ParseState.content
  rw [hs.block, hs.quote]
  rfl

theorem contentLoop_outside (hs : Calm false s) :
    contentLoop s l = match cut '<' l with
      | none => some s
      | some (_, behind) => match cut ' ' behind with
        | none => none
        | some (name, rest) => parse { s with inBlock := true, currentBlock := name } rest := by
  unfold contentLoop ParseState.content
  rw [hs.block]
  cases cut '<' l with
  | none => rfl
  | some p =>
    simp only [Bool.false_eq_true, if_false]
    cases cut ' ' p.2 <;> rfl

/-- A quiet piece of a line on which there is no setting. -/
theorem contentLoop_quiet (hs : Calm b s) (hx : Quiet b x) (hl : b = true → '=' ∉ l ∧ '"' ∉ l) :
    contentLoop s (x ++ l) = contentLoop s l := by
  cases b with
  | false =>
    rw [contentLoop_outside hs, contentLoop_outside hs, cut_append hx]
    cases cut '<' l <;> rfl
  | true =>
    obtain ⟨heq, hquote, hgt⟩ := hx
    obtain ⟨heq', hquote'⟩ := hl rfl
    have hmem : '>' ∈ x ++ l ↔ '>' ∈ l := by simp [hgt]
    rw [contentLoop_block hs, contentLoop_block hs,
      directive_of_no_setting (by simp [heq, heq']) (by simp [hquote, hquote']),
      directive_of_no_setting heq' hquote']
    simp only [hmem]

/-! ## Blocks and settings -/

/-- The state behind a name, a setting, a block. -/
def ParseState.after (s : ParseState) : Piece → ParseState
  | .opening name => { s with inBlock := true, currentBlock := name }
  | .setting name _ _ value => { s with currentVariable := name }.apply value
  | .closing => s.close
  | .blank _ | .slashes _ | .hash _ | .star _ => s

theorem contentLoop_opening (hs : Calm false s) {name : Text} (hname : ' ' ∉ name) :
    contentLoop s ('<' :: (name ++ ' ' :: l)) = parse (s.after (.opening name)) l := by
  rw [contentLoop_outside hs, show cut '<' ('<' :: (name ++ ' ' :: l)) = some ([], _) from if_pos rfl]
  dsimp only
  rw [cut_at hname]
  rfl

theorem contentLoop_closing (hs : Calm true s) (heq : '=' ∉ l) (hquote : '"' ∉ l) :
    contentLoop s ('>' :: l) = some (s.after .closing) := by
  rw [contentLoop_block hs, directive_of_no_setting (by simp [heq]) (by simp [hquote]),
    if_pos List.mem_cons_self]
  rfl

theorem removeSpaces_of_not_isSpace (hc : isSpace c = false) :
    removeSpaces (c :: l) = c :: l := by
  unfold removeSpaces
  rw [List.dropWhile_cons_of_neg (by simp [hc])]

/-- The quotes and what they are around. -/
theorem quoted_value (hs : s.currentSetting = []) (hname : s.currentVariable ≠ [])
    (hx : '"' ∉ x) (ht : '"' ∉ t) :
    s.quoted (x ++ '"' :: (t ++ '"' :: l)) = some (s.apply t, some l) := by
  unfold ParseState.quoted
  rw [cut_at hx]
  dsimp only
  rw [if_neg (by simp [hs, hname]), cut_at ht]

theorem not_mark_of_isNameChar (hc : isNameChar c = true) :
    isSpace c = false ∧ c ≠ ' ' ∧ c ≠ '=' ∧ c ≠ '"' ∧ c ≠ '/' ∧ c ≠ '#' ∧ c ≠ '\n' := by
  have hmarks : ∀ d, isNameChar d = false → c ≠ d := by
    rintro d hd rfl
    rw [hc] at hd
    cases hd
  refine ⟨?_, hmarks _ (by decide), hmarks _ (by decide), hmarks _ (by decide),
    hmarks _ (by decide), hmarks _ (by decide), hmarks _ (by decide)⟩
  unfold isSpace
  simp [hmarks ' ' (by decide), hmarks '\t' (by decide)]

theorem Name.notMem {n : Text} (h : Name n) (hc : isNameChar c = false) : c ∉ n := by
  intro hin
  rw [h.2 c hin] at hc
  cases hc

/-- What stands in front of the `=`. -/
theorem directive_name {n : Text} (hs : Idle true s) (hn : Name n) (hx : ∀ c ∈ x, c = ' ') :
    s.directive (n ++ (x ++ '=' :: l)) = { s with currentVariable := n }.quoted l := by
  obtain ⟨c, n', rfl⟩ := List.exists_cons_of_ne_nil hn.1
  obtain ⟨hspace, -⟩ := not_mark_of_isNameChar (hn.2 c List.mem_cons_self)
  have hfront : '=' ∉ (c :: n') ++ x := by
    rw [List.mem_append]
    rintro (hin | hin)
    · exact hn.notMem (by decide) hin
    · exact absurd (hx '=' hin) (by decide)
  have hname : removeAllSpaces ((c :: n') ++ x) = c :: n' := by
    unfold removeAllSpaces
    have hleft : ∀ d ∈ c :: n', (d != ' ') = true :=
      fun d hd => bne_iff_ne.2 (not_mark_of_isNameChar (hn.2 d hd)).2.1
    have hright : ∀ d ∈ x, ¬ (d != ' ') = true := fun d hd => by simp [hx d hd]
    rw [List.filter_append, List.filter_eq_self.2 hleft, List.filter_eq_nil_iff.2 hright,
      List.append_nil]
  unfold ParseState.directive
  rw [List.cons_append, removeSpaces_of_not_isSpace hspace, if_neg (List.cons_ne_nil _ _),
    ← List.cons_append, ← List.append_assoc, cut_at hfront]
  dsimp only
  rw [if_neg (by simp [hs.variableName]), hname]

theorem isComment_name {n : Text} (hn : Name n) : isComment (n ++ l) = (false, false) := by
  obtain ⟨c, n', rfl⟩ := List.exists_cons_of_ne_nil hn.1
  obtain ⟨hspace, -, -, -, hslash, hhash, -⟩ :=
    not_mark_of_isNameChar (hn.2 c List.mem_cons_self)
  unfold isComment
  rw [List.cons_append, removeSpaces_of_not_isSpace hspace]
  split
  · rename_i heq
    exact absurd (List.cons.inj heq).1 hslash
  · rename_i heq
    exact absurd (List.cons.inj heq).1 hslash
  · rename_i heq
    exact absurd (List.cons.inj heq).1 hhash
  · rfl

/-- A setting whose value stands on the line of its name. -/
theorem contentLoop_setting {n : Text} (hs : Idle true s) (hn : Name n) (hx : ∀ c ∈ x, c = ' ')
    (hy : '"' ∉ y) (ht : '"' ∉ t) :
    contentLoop s (n ++ (x ++ '=' :: (y ++ '"' :: (t ++ '"' :: l)))) =
      parse (s.after (.setting n x y t)) l := by
  rw [contentLoop_block hs.toCalm, directive_name hs hn hx,
    quoted_value (s := { s with currentVariable := n }) hs.setting hn.1 hy ht]
  rfl

/-- The line of a name whose value is to come. -/
theorem contentLoop_name {n : Text} (hs : Idle true s) (hn : Name n) (hx : ∀ c ∈ x, c = ' ')
    (hy : '"' ∉ y) (hy' : '>' ∉ y) :
    contentLoop s (n ++ (x ++ '=' :: y)) = some { s with currentVariable := n } := by
  rw [contentLoop_block hs.toCalm, directive_name hs hn hx]
  unfold ParseState.quoted
  rw [cut_of_notMem hy]
  rw [cut_of_notMem hy']

/-- The line of a value whose name has been there. -/
theorem parse_value (hs : Calm true s) (hsetting : s.currentSetting = [])
    (hname : s.currentVariable ≠ []) (ht : '"' ∉ t) (heq : '=' ∉ t) (heq' : '=' ∉ l) :
    parse s ('"' :: (t ++ '"' :: l)) = parse (s.apply t) l := by
  rw [parse_content hs rfl, contentLoop_block hs]
  have hcut : '=' ∉ '"' :: (t ++ '"' :: l) := by simp [heq, heq']
  have hdirective : s.directive ('"' :: (t ++ '"' :: l)) = some (s.apply t, some l) := by
    unfold ParseState.directive
    rw [removeSpaces_of_not_isSpace (by decide), if_neg (List.cons_ne_nil _ _), cut_of_notMem hcut]
    exact quoted_value (x := []) hsetting hname List.not_mem_nil ht
  rw [hdirective]

/-! ## In the middle of a line -/

/-- What is left of a line, at a place. -/
def onLine (place : Place) (s : ParseState) (l : Text) : Option ParseState :=
  match place with
  | .checked => parse s l
  | .unchecked => contentLoop s l
  | .dropped => some s

def resume (place : Place) (s : ParseState) (t : Text) : Option ParseState :=
  match cut '\n' t with
  | none => some s
  | some (l, r) => (onLine place s l).bind fun s => run s r

theorem run_eq_resume (s : ParseState) (t : Text) : run s t = resume .checked s t := by
  rw [run]
  unfold resume onLine
  split <;> rename_i h <;> rw [h]

variable {place place' : Place} {ps : List Piece}

theorem resume_of_notMem (h : '\n' ∉ t) : resume place s t = some s := by
  unfold resume
  rw [cut_of_notMem h]

theorem restOfLine_at (h : '\n' ∉ l) : restOfLine (l ++ '\n' :: r) = l := by
  unfold restOfLine
  have hl : ∀ c ∈ l, (c != '\n') = true := fun c hc => bne_iff_ne.2 fun heq => h (heq ▸ hc)
  rw [List.takeWhile_append_of_pos hl, List.takeWhile_cons_of_neg (by simp), List.append_nil]

theorem resume_at (h : '\n' ∉ l) :
    resume place s (l ++ '\n' :: r) = (onLine place s l).bind fun s => run s r := by
  unfold resume
  rw [cut_at h]

/-- A piece of a line. -/
theorem resume_step (hx : '\n' ∉ x) (ht : '\n' ∈ t)
    (h : onLine place s (x ++ restOfLine t) = onLine place' s' (restOfLine t)) :
    resume place s (x ++ t) = resume place' s' t := by
  obtain ⟨l, r, -, rfl, hl⟩ := exists_cut ht
  rw [restOfLine_at hl] at h
  have hxl : '\n' ∉ x ++ l := by simp [hx, hl]
  rw [← List.append_assoc, resume_at hxl, resume_at hl, h]

theorem onLine_nil (hs : Calm b s) : onLine place s [] = some s := by
  cases place with
  | checked => exact parse_nil s
  | unchecked => exact contentLoop_nil hs
  | dropped => rfl

theorem resume_newline (hs : Calm b s) : resume place s ('\n' :: t) = resume .checked s t := by
  have h : resume place s ([] ++ '\n' :: t) = _ := resume_at List.not_mem_nil
  rw [List.nil_append] at h
  rw [h, onLine_nil hs, ← run_eq_resume]
  rfl

theorem resume_space (hs : Calm b s) (hc : isSpace c = true) (ht : '\n' ∈ t) :
    resume place s (c :: t) = resume place s t := by
  have hne : c ≠ '\n' := (not_mark_of_isSpace hc).2.2.2.2.2.2
  refine resume_step (x := [c]) (by simpa using hne.symm) ht ?_
  cases place with
  | checked => exact parse_space hs hc
  | unchecked => exact contentLoop_space hs hc
  | dropped => rfl

/-- A comment up to the end of its line. -/
theorem resume_toEnd (hs : Calm b s) (hx : '\n' ∉ x) (h : onLine place s x = some s) :
    resume place s (x ++ '\n' :: t) = resume place s ('\n' :: t) := by
  rw [resume_at hx, h, resume_newline hs, ← run_eq_resume]
  rfl

/-- The rest of a comment. -/
theorem resume_inComment (hs : Calm b s) (hend : cutStar (x ++ ['*', '/']) = some [])
    (ht : '\n' ∈ t) :
    resume .checked { s with inMultilineComment := true } (x ++ '*' :: '/' :: t) =
      resume .unchecked s t := by
  have hsame : { s with inMultilineComment := false } = s := by
    rw [← hs.comment]
  induction hlen : x.length using Nat.strong_induction_on generalizing x with
  | _ n ih =>
    by_cases hx : '\n' ∈ x
    · obtain ⟨l, r, -, rfl, hl⟩ := exists_cut hx
      rw [List.append_assoc, List.cons_append, cutStar_break (by decide) (by decide)] at hend
      have hnone : cutStar l = none := by
        cases hcut : cutStar l with
        | none => rfl
        | some rest =>
          rw [hcut] at hend
          exact absurd (Option.some.inj hend) (by simp)
      rw [hnone] at hend
      have hlt : r.length < n := by
        rw [← hlen, List.length_append, List.length_cons]
        omega
      rw [List.append_assoc, List.cons_append, resume_at hl]
      have hline : onLine .checked { s with inMultilineComment := true } l =
          some { s with inMultilineComment := true } := by
        change parse _ l = _
        rw [parse_inComment rfl, hnone]
      rw [hline, Option.bind_some, run_eq_resume]
      exact ih r.length hlt hend rfl
    · have hcons : x ++ '*' :: '/' :: t = (x ++ ['*', '/']) ++ t := by simp
      rw [hcons]
      refine resume_step (by simp [hx]) ht ?_
      change parse _ _ = contentLoop s _
      rw [parse_inComment rfl, cutStar_append hend, List.nil_append]
      exact congrArg (contentLoop · _) hsame

theorem cutStar_opened (h : x.head? ≠ some '/') : cutStar ('/' :: '*' :: x) = cutStar x := by
  rw [cutStar_cons (by simp), cutStar_cons fun hboth => h hboth.2]

theorem resume_star (hs : Calm b s) (hend : cutStar (x ++ ['*', '/']) = some [])
    (hfirst : x.head? ≠ some '/') (ht : '\n' ∈ t) :
    resume .checked s ('/' :: '*' :: (x ++ '*' :: '/' :: t)) = resume .unchecked s t := by
  have hstarts : ∀ y : Text, isComment ('/' :: '*' :: y) = (true, true) := fun y => rfl
  by_cases hx : '\n' ∈ x
  · -- the comment goes on behind its first line
    obtain ⟨l, r, -, rfl, hl⟩ := exists_cut hx
    have hhead : l.head? ≠ some '/' := by
      cases l with
      | nil => simp
      | cons c l => exact hfirst
    rw [List.append_assoc, List.cons_append, cutStar_break (by decide) (by decide)] at hend
    have hnone : cutStar l = none := by
      cases hcut : cutStar l with
      | none => rfl
      | some rest =>
        rw [hcut] at hend
        exact absurd (Option.some.inj hend) (by simp)
    rw [hnone] at hend
    have hline : '\n' ∉ '/' :: '*' :: l := by simp [hl]
    have hsplit : '/' :: '*' :: ((l ++ '\n' :: r) ++ '*' :: '/' :: t) =
        ('/' :: '*' :: l) ++ '\n' :: (r ++ '*' :: '/' :: t) := by simp
    rw [hsplit, resume_at hline]
    change (parse s _).bind _ = _
    rw [parse_star hs (hstarts l), cutStar_opened hhead, hnone, Option.bind_some, run_eq_resume]
    exact resume_inComment hs hend ht
  · have hhead : ∀ y : Text, (x ++ '*' :: y).head? ≠ some '/' := by
      intro y
      cases x with
      | nil => simp
      | cons c x => exact hfirst
    have hsplit : '/' :: '*' :: (x ++ '*' :: '/' :: t) = ('/' :: '*' :: (x ++ ['*', '/'])) ++ t := by
      simp
    rw [hsplit]
    refine resume_step (by simp [hx]) ht ?_
    change parse s _ = contentLoop s _
    rw [List.cons_append, List.cons_append, parse_star hs (hstarts _), List.append_assoc]
    rw [List.cons_append, cutStar_opened (hhead _)]
    have hcut := cutStar_append (t := restOfLine t) hend
    rw [List.append_assoc, List.cons_append] at hcut
    rw [hcut]
    rfl

theorem isBlank_cases (h : isBlank c = true) : isSpace c = true ∨ c = '\n' := by
  simpa [isBlank, isSpace] using h

/-- A value, behind blanks. -/
theorem resume_value (hs : Calm true s) (hsetting : s.currentSetting = [])
    (hname : s.currentVariable ≠ []) (hy : ∀ c ∈ y, isBlank c = true) (hu : '"' ∉ u)
    (hu' : '\n' ∉ u) (heq : '=' ∉ u) (heq' : '=' ∉ restOfLine t) (ht : '\n' ∈ t) :
    resume .checked s (y ++ '"' :: (u ++ '"' :: t)) = resume .checked (s.apply u) t := by
  induction y with
  | nil =>
    have hsplit : [] ++ '"' :: (u ++ '"' :: t) = ('"' :: (u ++ ['"'])) ++ t := by simp
    rw [hsplit]
    refine resume_step (by simp [hu']) ht ?_
    have hline : ('"' :: (u ++ ['"'])) ++ restOfLine t = '"' :: (u ++ '"' :: restOfLine t) := by simp
    rw [hline]
    exact parse_value hs hsetting hname hu heq heq'
  | cons c y ih =>
    have hrest := ih fun d hd => hy d (List.mem_cons_of_mem c hd)
    have hnewline : '\n' ∈ y ++ '"' :: (u ++ '"' :: t) := by simp [ht]
    rw [List.cons_append, ← hrest]
    rcases isBlank_cases (hy c List.mem_cons_self) with hc | rfl
    · exact resume_space hs hc hnewline
    · exact resume_newline hs

/-- A setting whose value stands behind its name, maybe on another line. -/
theorem resume_setting {n : Text} (hs : Idle true s) (hplace : place ≠ .dropped) (hn : Name n)
    (hx : ∀ c ∈ x, c = ' ') (hy : ∀ c ∈ y, isBlank c = true) (hu : '"' ∉ u) (hu' : '\n' ∉ u)
    (hbroken : '\n' ∈ y → '=' ∉ u ∧ '=' ∉ restOfLine t) (ht : '\n' ∈ t) :
    resume place s (n ++ (x ++ '=' :: (y ++ '"' :: (u ++ '"' :: t)))) =
      resume .checked (s.after (.setting n x y u)) t := by
  have hline : ∀ l, onLine place s (n ++ l) = contentLoop s (n ++ l) := by
    intro l
    cases place with
    | checked => exact parse_content hs.toCalm (isComment_name hn)
    | unchecked => rfl
    | dropped => exact absurd rfl hplace
  have hfront : '\n' ∉ n ++ x := by
    rw [List.mem_append]
    rintro (hin | hin)
    · exact hn.notMem (by decide) hin
    · exact absurd (hx _ hin) (by decide)
  have hmark : ∀ c, isBlank c = false → c ∉ y := by
    rintro c hc hin
    rw [hy c hin] at hc
    cases hc
  by_cases hin : '\n' ∈ y
  · obtain ⟨l, r, -, rfl, hl⟩ := exists_cut hin
    obtain ⟨heq, heq'⟩ := hbroken hin
    have hquote : '"' ∉ l := fun h => hmark '"' (by decide) (List.mem_append_left _ h)
    have hgt : '>' ∉ l := fun h => hmark '>' (by decide) (List.mem_append_left _ h)
    have hsplit : n ++ (x ++ '=' :: ((l ++ '\n' :: r) ++ '"' :: (u ++ '"' :: t))) =
        (n ++ (x ++ '=' :: l)) ++ '\n' :: (r ++ '"' :: (u ++ '"' :: t)) := by simp
    have hfirst : '\n' ∉ n ++ (x ++ '=' :: l) := by
      rw [← List.append_assoc, List.mem_append]
      simp [hfront, hl]
    rw [hsplit, resume_at hfirst, hline, contentLoop_name hs hn hx hquote hgt, Option.bind_some,
      run_eq_resume]
    exact resume_value ⟨hs.comment, hs.quote, hs.block⟩ hs.setting hn.1
      (fun c hc => hy c (List.mem_append_right _ (List.mem_cons_of_mem _ hc))) hu hu' heq heq' ht
  · have hsplit : n ++ (x ++ '=' :: (y ++ '"' :: (u ++ '"' :: t))) =
        (n ++ (x ++ '=' :: (y ++ '"' :: (u ++ ['"'])))) ++ t := by simp
    have hwhole : '\n' ∉ n ++ (x ++ '=' :: (y ++ '"' :: (u ++ ['"']))) := by
      rw [← List.append_assoc, List.mem_append]
      simp [hfront, hin, hu']
    rw [hsplit]
    refine resume_step hwhole ht ?_
    have hjoin : (n ++ (x ++ '=' :: (y ++ '"' :: (u ++ ['"'])))) ++ restOfLine t =
        n ++ (x ++ '=' :: (y ++ '"' :: (u ++ '"' :: restOfLine t))) := by simp
    rw [hjoin, hline]
    exact contentLoop_setting hs hn hx (hmark '"' (by decide)) hu

/-- The start of a block, in front of a space. -/
theorem resume_opening {n : Text} (hs : Calm false s) (hplace : place ≠ .dropped) (hn : Name n)
    (ht : '\n' ∈ t) :
    resume place s ('<' :: (n ++ ' ' :: t)) =
      resume .checked (s.after (.opening n)) (' ' :: t) := by
  have hcalm : Calm true (s.after (.opening n)) := ⟨hs.comment, hs.quote, rfl⟩
  have hsplit : '<' :: (n ++ ' ' :: t) = ('<' :: (n ++ [' '])) ++ t := by simp
  have hin : '\n' ∉ '<' :: (n ++ [' ']) := by simp [hn.notMem (c := '\n') (by decide)]
  rw [hsplit, resume_space hcalm (by decide) ht]
  refine resume_step hin ht ?_
  have hjoin : ('<' :: (n ++ [' '])) ++ restOfLine t = '<' :: (n ++ ' ' :: restOfLine t) := by simp
  rw [hjoin]
  have hopen := contentLoop_opening (l := restOfLine t) hs (hn.notMem (c := ' ') (by decide))
  cases place with
  | checked => exact (parse_content hs rfl).trans hopen
  | unchecked => exact hopen
  | dropped => exact absurd rfl hplace

/-- The end of a block, and of what is looked at on its line. -/
theorem resume_closing (hs : Calm true s) (hplace : place ≠ .dropped)
    (heq : '=' ∉ restOfLine t) (hquote : '"' ∉ restOfLine t) (ht : '\n' ∈ t) :
    resume place s ('>' :: t) = resume .dropped (s.after .closing) t := by
  refine resume_step (x := ['>']) (by decide) ht ?_
  have hclose := contentLoop_closing hs heq hquote
  cases place with
  | checked => exact (parse_content hs rfl).trans hclose
  | unchecked => exact hclose
  | dropped => exact absurd rfl hplace

/-! ## Piece by piece -/

theorem contentLoop_of_quiet (hs : Calm b s) (hx : Quiet b x) : contentLoop s x = some s := by
  have h := contentLoop_quiet (l := []) hs hx fun _ => ⟨List.not_mem_nil, List.not_mem_nil⟩
  rwa [List.append_nil, contentLoop_nil hs] at h

theorem quiet_cons (hc : c ≠ '=' ∧ c ≠ '"' ∧ c ≠ '>' ∧ c ≠ '<') : Quiet b (c :: t) ↔ Quiet b t := by
  obtain ⟨heq, hquote, hgt, hlt⟩ := hc
  unfold Quiet
  cases b <;> simp [heq.symm, hquote.symm, hgt.symm, hlt.symm]

theorem onLine_slashes (hs : Calm b s)
    (h : match place with
      | .checked => t.head? = some '/' ∨ Quiet b t
      | .unchecked => Quiet b t
      | .dropped => True) :
    onLine place s ('/' :: '/' :: t) = some s := by
  have hquiet : Quiet b t → contentLoop s ('/' :: '/' :: t) = some s := fun hq =>
    contentLoop_of_quiet hs ((quiet_cons (by decide)).2 ((quiet_cons (by decide)).2 hq))
  cases place with
  | checked =>
    by_cases hthird : t.head? = some '/'
    · obtain ⟨t, rfl⟩ := List.head?_eq_some_iff.1 hthird
      exact parse_skip hs rfl
    · have hnot : isComment ('/' :: '/' :: t) = (false, false) := by
        cases t with
        | nil => rfl
        | cons c t =>
          have hne : c ≠ '/' := fun heq => hthird (congrArg some heq)
          unfold isComment
          rw [removeSpaces_of_not_isSpace (by decide)]
          simp [hne]
      exact (parse_content hs hnot).trans (hquiet (h.resolve_left hthird))
  | unchecked => exact hquiet h
  | dropped => rfl

theorem onLine_hash (hs : Calm b s) (h : place = .unchecked → Quiet b t) :
    onLine place s ('#' :: t) = some s := by
  cases place with
  | checked => exact parse_skip hs rfl
  | unchecked => exact contentLoop_of_quiet hs ((quiet_cons (by decide)).2 (h rfl))
  | dropped => rfl

/-- A comment on the rest of its line, and what the grammar has behind it. -/
theorem resume_line_comment (hs : Calm b s) (hx : '\n' ∉ x)
    (hhead : ∀ q ∈ ps.head?, q = .blank '\n') (h : onLine place s x = some s) :
    resume place s (x ++ text ps) = resume place s (text ps) := by
  cases ps with
  | nil => rw [text_nil, List.append_nil, resume_of_notMem hx, resume_of_notMem List.not_mem_nil]
  | cons q ps =>
    obtain rfl := hhead q rfl
    exact resume_toEnd hs hx h

theorem foldl_after_of_isIdle (h : ∀ p ∈ ps, p.isIdle = true) :
    ps.foldl ParseState.after s = s := by
  induction ps generalizing s with
  | nil => rfl
  | cons p ps ih =>
    have hp : s.after p = s := by
      have hidle := h p List.mem_cons_self
      cases p <;> first | rfl | cases hidle
    rw [List.foldl_cons, hp]
    exact ih fun q hq => h q (List.mem_cons_of_mem p hq)

/-- A block that is open is closed further on. -/
theorem exists_not_isIdle (h : Grammar true ps) : ∃ p ∈ ps, p.isIdle = false := by
  induction ps with
  | nil => cases h
  | cons p ps ih =>
    obtain ⟨-, h⟩ := h
    have hlater : Grammar true ps → ∃ q ∈ p :: ps, q.isIdle = false := fun hg =>
      let ⟨q, hq, hidle⟩ := ih hg
      ⟨q, List.mem_cons_of_mem p hq, hidle⟩
    cases p with
    | blank c => exact hlater h
    | star t => exact hlater h
    | slashes t => exact hlater h.2
    | hash t => exact hlater h.2
    | opening n => exact ⟨_, List.mem_cons_self, rfl⟩
    | setting n x y v => exact ⟨_, List.mem_cons_self, rfl⟩
    | closing => exact ⟨_, List.mem_cons_self, rfl⟩

/-- The last line, if no line feed ends it. -/
theorem isIdle_of_clean (hnot : '\n' ∉ text ps) (hc : Clean place b ps) :
    ∀ p ∈ ps, p.isIdle = true := by
  cases ps with
  | nil => exact fun p hp => absurd hp List.not_mem_nil
  | cons p ps =>
    unfold Clean at hc
    rwa [if_neg hnot] at hc

/-- The pieces of a clean text, one by one. -/
theorem resume_text (hg : Grammar b ps) (hc : Clean place b ps) (hs : Idle b s) :
    resume place s (text ps) = some (ps.foldl ParseState.after s) := by
  induction ps generalizing place b s with
  | nil => exact resume_of_notMem List.not_mem_nil
  | cons p ps ih =>
    unfold Clean at hc
    by_cases hin : '\n' ∈ text (p :: ps)
    · rw [if_pos hin] at hc
      rw [text_cons] at hin ⊢
      obtain ⟨hvalid, hg⟩ := hg
      have hrest : '\n' ∉ p.text → '\n' ∈ text ps := fun hnot =>
        (List.mem_append.1 hin).resolve_left hnot
      cases p with
      | blank c =>
        have hstep := ih hg hc hs
        rcases isBlank_cases hvalid with hspace | rfl
        · have hne := (not_mark_of_isSpace hspace).2.2.2.2.2.2
          rw [if_neg hne] at hstep
          exact (resume_space hs.toCalm hspace (hrest (by simpa [Piece.text] using hne.symm))).trans
            hstep
        · rw [if_pos rfl] at hstep
          exact (resume_newline hs.toCalm).trans hstep
      | slashes t =>
        obtain ⟨hhead, hg⟩ := hg
        have hnot : '\n' ∉ t := hvalid
        have hline : '\n' ∉ '/' :: '/' :: t := by simp [hnot]
        cases place with
        | checked | unchecked =>
          exact (resume_line_comment hs.toCalm hline hhead (onLine_slashes hs.toCalm hc.1)).trans
            (ih hg hc.2 hs)
        | dropped => exact (resume_line_comment hs.toCalm hline hhead rfl).trans (ih hg hc hs)
      | hash t =>
        obtain ⟨hhead, hg⟩ := hg
        have hnot : '\n' ∉ t := hvalid
        have hline : '\n' ∉ '#' :: t := by simp [hnot]
        cases place with
        | checked =>
          exact (resume_line_comment hs.toCalm hline hhead
            (onLine_hash hs.toCalm fun h => by cases h)).trans (ih hg hc hs)
        | unchecked =>
          exact (resume_line_comment hs.toCalm hline hhead
            (onLine_hash hs.toCalm fun _ => hc.1)).trans (ih hg hc.2 hs)
        | dropped => exact (resume_line_comment hs.toCalm hline hhead rfl).trans (ih hg hc hs)
      | star t =>
        have hjoin : (Piece.star t).text ++ text ps = '/' :: '*' :: (t ++ '*' :: '/' :: text ps) := by
          simp [Piece.text]
        have hone : '\n' ∉ t → '\n' ∉ (Piece.star t).text := by
          intro hnot
          simp [Piece.text, hnot]
        cases place with
        | checked =>
          have hnewline : '\n' ∈ text ps := by
            by_cases hnot : '\n' ∈ t
            · exact hc.2.1 hnot
            · exact hrest (hone hnot)
          rw [hjoin]
          exact (resume_star hs.toCalm hvalid hc.1 hnewline).trans (ih hg hc.2.2 hs)
        | unchecked =>
          obtain ⟨hnot, hquiet, hline, hc⟩ := hc
          refine (resume_step (hone hnot) (hrest (hone hnot)) ?_).trans (ih hg hc hs)
          refine contentLoop_quiet hs.toCalm ?_ hline
          have hend : Quiet b ['*', '/'] := by
            unfold Quiet
            cases b <;> decide
          exact (quiet_cons (by decide)).2
            ((quiet_cons (by decide)).2 (Quiet.append_iff.2 ⟨hquiet, hend⟩))
        | dropped => exact (resume_step (hone hc.1) (hrest (hone hc.1)) rfl).trans (ih hg hc.2 hs)
      | opening n =>
        obtain ⟨rfl, -, hg⟩ := hg
        have hplace : place ≠ .dropped := by
          rintro rfl
          exact hc
        have hboth : (∃ c ∈ ps.head?, c = .blank ' ') ∧ Clean .checked true ps := by
          cases place with
          | dropped => exact absurd rfl hplace
          | checked => exact hc
          | unchecked => exact hc
        obtain ⟨⟨q, hq, rfl⟩, hc⟩ := hboth
        obtain ⟨ps, rfl⟩ := List.head?_eq_some_iff.1 hq
        have hnewline : '\n' ∈ text ps := by
          have htail := hrest (by simp [Piece.text, hvalid.notMem (c := '\n') (by decide)])
          simpa [Piece.text] using htail
        have hafter : Idle true (s.after (.opening n)) :=
          ⟨⟨hs.comment, hs.quote, rfl⟩, hs.setting, hs.variableName⟩
        exact (resume_opening hs.toCalm hplace hvalid hnewline).trans (ih hg hc hafter)
      | setting n x y v =>
        obtain ⟨rfl, hg⟩ := hg
        obtain ⟨hn, -, hy, hv⟩ := hvalid
        have hplace : place ≠ .dropped := by
          rintro rfl
          exact hc
        have hall : (∀ c ∈ x, c = ' ') ∧ '\n' ∉ v ∧
            ('\n' ∈ y → '=' ∉ v ∧ '=' ∉ restOfLine (text ps)) ∧ Clean .checked true ps := by
          cases place with
          | dropped => exact absurd rfl hplace
          | checked => exact hc
          | unchecked => exact hc
        obtain ⟨hx, hv', hbroken, hc⟩ := hall
        have hafter : Idle true (s.after (.setting n x y v)) :=
          ⟨⟨hs.comment, rfl, hs.block⟩, rfl, rfl⟩
        have hnewline : '\n' ∈ text ps := by
          by_contra hnot
          obtain ⟨q, hq, hidle⟩ := exists_not_isIdle hg
          rw [isIdle_of_clean hnot hc q hq] at hidle
          cases hidle
        have hjoin : (Piece.setting n x y v).text ++ text ps =
            n ++ (x ++ '=' :: (y ++ '"' :: (v ++ '"' :: text ps))) := by
          simp [Piece.text]
        rw [hjoin]
        exact (resume_setting hs hplace hn hx hy hv hv' hbroken hnewline).trans (ih hg hc hafter)
      | closing =>
        obtain ⟨rfl, hg⟩ := hg
        have hplace : place ≠ .dropped := by
          rintro rfl
          exact hc
        have hall : '=' ∉ restOfLine (text ps) ∧ '"' ∉ restOfLine (text ps) ∧
            Clean .dropped false ps := by
          cases place with
          | dropped => exact absurd rfl hplace
          | checked => exact hc
          | unchecked => exact hc
        obtain ⟨heq, hquote, hc⟩ := hall
        have hafter : Idle false (s.after .closing) := ⟨⟨hs.comment, hs.quote, rfl⟩, rfl, rfl⟩
        exact (resume_closing hs.toCalm hplace heq hquote (hrest (by decide))).trans
          (ih hg hc hafter)
    · rw [if_neg hin] at hc
      rw [foldl_after_of_isIdle hc]
      exact resume_of_notMem hin

/-! ## The maps -/

/-- Values under the hashes of their names, the later ones over the earlier. -/
def table {α : Type*} (es : List (Text × α)) (m : UInt32 → Option α) : UInt32 → Option α :=
  es.foldl (fun m e => Function.update m (ahash e.1) (some e.2)) m

/-- The last value under the hash of a name. -/
def lastOf {α : Type*} (es : List (Text × α)) (k : UInt32) : Option α :=
  (es.reverse.find? fun e => ahash e.1 == k).map Prod.snd

theorem table_apply {α : Type*} (es : List (Text × α)) (m : UInt32 → Option α) (k : UInt32) :
    table es m k = (lastOf es k).or (m k) := by
  induction es generalizing m with
  | nil => rfl
  | cons e es ih =>
    have hcons : table (e :: es) m = table es (Function.update m (ahash e.1) (some e.2)) := rfl
    unfold lastOf
    rw [hcons, ih, List.reverse_cons, List.find?_append]
    unfold lastOf
    cases es.reverse.find? fun e => ahash e.1 == k with
    | some e' => rfl
    | none =>
      by_cases hk : ahash e.1 = k
      · simp [hk]
      · have hne : k ≠ ahash e.1 := fun h => hk h.symm
        simp [hk, Function.update_of_ne hne]

theorem mem_of_lastOf {α : Type*} {es : List (Text × α)} {k : UInt32} {v : α}
    (h : lastOf es k = some v) : ∃ e ∈ es, ahash e.1 = k ∧ e.2 = v := by
  obtain ⟨e, he, rfl⟩ := Option.map_eq_some_iff.1 h
  exact ⟨e, List.mem_reverse.1 (List.mem_of_find?_eq_some he),
    beq_iff_eq.1 (List.find?_some (p := fun e : Text × α => ahash e.1 == k) he), rfl⟩

/-- The blocks as the parser keeps them. -/
def settingsOf (bs : List (Text × List (Text × Text))) : List (Text × ConfigBlock) :=
  bs.map fun blk => (blk.1, table blk.2 fun _ => none)

theorem settings_foldl {name : Text} {es : List (Text × Text)} (hg : Grammar b ps)
    (hblock : s.currentBlock = name) (hmap : s.currentBlockMap = table es fun _ => none)
    (hout : b = false → es = []) :
    (ps.foldl ParseState.after s).settings =
      table (settingsOf (blocksOf name es ps)) s.settings := by
  induction ps generalizing b s name es with
  | nil => rfl
  | cons p ps ih =>
    obtain ⟨-, hg⟩ := hg
    cases p with
    | blank c => exact ih hg hblock hmap hout
    | star t => exact ih hg hblock hmap hout
    | slashes t => exact ih hg.2 hblock hmap hout
    | hash t => exact ih hg.2 hblock hmap hout
    | opening n =>
      obtain ⟨rfl, -, hg⟩ := hg
      obtain rfl := hout rfl
      exact ih (s := s.after (.opening n)) hg rfl hmap fun h => by cases h
    | setting n x y v =>
      obtain ⟨rfl, hg⟩ := hg
      refine ih (s := s.after (.setting n x y v)) hg hblock ?_ fun h => by cases h
      change Function.update s.currentBlockMap (ahash n) (some v) = _
      unfold table
      rw [hmap, List.foldl_append]
      rfl
    | closing =>
      obtain ⟨rfl, hg⟩ := hg
      refine (ih (s := s.after .closing) hg rfl rfl fun _ => rfl).trans ?_
      change table _ (Function.update s.settings (ahash s.currentBlock) (some s.currentBlockMap)) = _
      rw [hblock, hmap]
      rfl

theorem idle_foldl (hg : Grammar b ps) (hs : Idle b s) :
    Idle false (ps.foldl ParseState.after s) := by
  induction ps generalizing b s with
  | nil =>
    obtain rfl : b = false := hg
    exact hs
  | cons p ps ih =>
    obtain ⟨-, hg⟩ := hg
    cases p with
    | blank c => exact ih hg hs
    | star t => exact ih hg hs
    | slashes t => exact ih hg.2 hs
    | hash t => exact ih hg.2 hs
    | opening n =>
      obtain ⟨rfl, -, hg⟩ := hg
      exact ih hg ⟨⟨hs.comment, hs.quote, rfl⟩, hs.setting, hs.variableName⟩
    | setting n x y v =>
      obtain ⟨rfl, hg⟩ := hg
      exact ih hg ⟨⟨hs.comment, rfl, hs.block⟩, rfl, rfl⟩
    | closing =>
      obtain ⟨rfl, hg⟩ := hg
      exact ih hg ⟨⟨hs.comment, hs.quote, rfl⟩, rfl, rfl⟩

/-! ## What parsing is for -/

/-- The file is accepted; every setting has the text between its quotes, and
there is nothing else. -/
def Right (f : ConfigFile) : Prop :=
  ∃ m, setSource f.text = some m ∧
    (∀ blk ∈ f.blocks, ∀ e ∈ blk.2, getString m blk.1 e.1 = some e.2) ∧
    ∀ block name value, getString m block name = some value →
      ∃ blk ∈ f.blocks, ahash blk.1 = ahash block ∧
        ∃ e ∈ blk.2, ahash e.1 = ahash name ∧ e.2 = value

/-- The last block and the last setting with the hashes of a block and a
setting have its value. -/
def Consistent (f : ConfigFile) : Prop :=
  ∀ blk ∈ f.blocks, ∀ e ∈ blk.2,
    ((lastOf f.blocks (ahash blk.1)).bind fun es => lastOf es (ahash e.1)) = some e.2

theorem setSource_of_clean {f : ConfigFile} (h : Clean .checked false f.pieces) :
    setSource f.text = some (table (settingsOf f.blocks) fun _ => none) := by
  have hidle : Idle false start := ⟨⟨rfl, rfl, rfl⟩, rfl, rfl⟩
  have hrun : run start f.text = some (f.pieces.foldl ParseState.after start) := by
    rw [run_eq_resume]
    exact resume_text f.grammar h hidle
  have hend := idle_foldl f.grammar hidle
  have hsettings : (f.pieces.foldl ParseState.after start).settings =
      table (settingsOf f.blocks) start.settings :=
    settings_foldl f.grammar rfl rfl fun _ => rfl
  unfold setSource
  rw [hrun, Option.bind_some, if_neg (by simp [hend.block, hend.comment, hend.quote]), hsettings]
  rfl

theorem getString_table (bs : List (Text × List (Text × Text))) (block name : Text) :
    getString (table (settingsOf bs) fun _ => none) block name =
      (lastOf bs (ahash block)).bind fun es => lastOf es (ahash name) := by
  have hlast : lastOf (settingsOf bs) (ahash block) =
      (lastOf bs (ahash block)).map fun es => table es fun _ => none := by
    unfold lastOf settingsOf
    rw [← List.map_reverse, List.find?_map, Option.map_map, Option.map_map]
    rfl
  unfold getString
  rw [table_apply, Option.or_none, hlast]
  cases lastOf bs (ahash block) with
  | none => rfl
  | some es =>
    change table es _ (ahash name) = lastOf es (ahash name)
    rw [table_apply, Option.or_none]

/-- Of a clean file. -/
theorem right_iff_consistent {f : ConfigFile} (h : Clean .checked false f.pieces) :
    Right f ↔ Consistent f := by
  have hsource := setSource_of_clean h
  constructor
  · rintro ⟨m, hm, hall, -⟩ blk hblk e he
    obtain rfl := Option.some.inj (hsource.symm.trans hm)
    rw [← getString_table]
    exact hall blk hblk e he
  · intro hconsistent
    refine ⟨_, hsource, fun blk hblk e he => ?_, fun block name value hget => ?_⟩
    · rw [getString_table]
      exact hconsistent blk hblk e he
    · rw [getString_table] at hget
      obtain ⟨es, hes, hvalue⟩ := Option.bind_eq_some_iff.1 hget
      obtain ⟨blk, hblk, hhash, rfl⟩ := mem_of_lastOf hes
      exact ⟨blk, hblk, hhash, mem_of_lastOf hvalue⟩

/-! ## Values on several lines -/

/-- A value that the parser can come to. -/
def Storable (v : Text) : Prop := '\n' ∉ v ∨ '"' ∈ v

structure Stored (s : ParseState) : Prop where
  inBlock : ∀ k v, s.currentBlockMap k = some v → Storable v
  inBlocks : ∀ k m, s.settings k = some m → ∀ j v, m j = some v → Storable v

theorem Stored.apply (h : Stored s) {v : Text} (hv : Storable v) : Stored (s.apply v) := by
  refine ⟨fun k u hu => ?_, h.inBlocks⟩
  change Function.update s.currentBlockMap (ahash s.currentVariable) (some v) k = some u at hu
  by_cases hk : k = ahash s.currentVariable
  · rw [hk, Function.update_self] at hu
    obtain rfl := Option.some.inj hu
    exact hv
  · rw [Function.update_of_ne hk] at hu
    exact h.inBlock k u hu

theorem Stored.close (h : Stored s) : Stored s.close := by
  refine ⟨fun k u hu => (by cases hu), fun k m hm => ?_⟩
  change Function.update s.settings (ahash s.currentBlock) (some s.currentBlockMap) k = some m at hm
  by_cases hk : k = ahash s.currentBlock
  · rw [hk, Function.update_self] at hm
    obtain rfl := Option.some.inj hm
    exact h.inBlock
  · rw [Function.update_of_ne hk] at hm
    exact h.inBlocks k m hm

theorem eq_of_cut (h : cut c t = some (l, r)) : t = l ++ c :: r := by
  by_cases hin : c ∈ t
  · obtain ⟨l', r', hcut, heq, -⟩ := exists_cut hin
    obtain ⟨rfl, rfl⟩ := Prod.mk.inj (Option.some.inj (h.symm.trans hcut))
    exact heq
  · rw [cut_of_notMem hin] at h
    cases h

/-- Both sides of a cut are parts of the line. -/
theorem notMem_of_cut (h : cut c t = some (l, r)) (hd : d ∉ t) : d ∉ l ∧ d ∉ r := by
  rw [eq_of_cut h] at hd
  simp only [List.mem_append, List.mem_cons, not_or] at hd
  exact ⟨hd.1, hd.2.2⟩

theorem notMem_of_cutStar (h : cutStar t = some r) (hd : d ∉ t) : d ∉ r := by
  induction t with
  | nil => cases h
  | cons c t ih =>
    have ht : d ∉ t := List.not_mem_of_not_mem_cons hd
    by_cases hend : c = '*' ∧ t.head? = some '/'
    · obtain ⟨rfl, hhead⟩ := hend
      obtain ⟨t, rfl⟩ := List.head?_eq_some_iff.1 hhead
      rw [cutStar_end] at h
      obtain rfl := Option.some.inj h
      exact List.not_mem_of_not_mem_cons ht
    · rw [cutStar_cons hend] at h
      exact ih h ht

variable {rest : Option Text}

/-- What a part of the loop body keeps. -/
def Keeps (f : Text → Option (ParseState × Option Text)) (line : Text) : Prop :=
  ∀ s' rest, f line = some (s', rest) → Stored s' ∧ ∀ r ∈ rest, '\n' ∉ r

theorem Stored.quoted (h : Stored s) (hl : '\n' ∉ l) : Keeps s.quoted l := by
  intro s' rest hq
  unfold ParseState.quoted at hq
  split at hq
  · rename_i before behind hopen
    obtain ⟨-, hbehind⟩ := notMem_of_cut hopen hl
    split at hq
    · cases hq
    · split at hq
      · rename_i value rest' hclose
        obtain ⟨hvalue, hrest⟩ := notMem_of_cut hclose hbehind
        obtain ⟨rfl, rfl⟩ := Prod.mk.inj (Option.some.inj hq)
        exact ⟨h.apply (.inl hvalue), fun r hr => Option.some.inj hr ▸ hrest⟩
      · obtain ⟨rfl, rfl⟩ := Prod.mk.inj (Option.some.inj hq)
        exact ⟨⟨h.inBlock, h.inBlocks⟩, fun r hr => by cases hr⟩
  · split at hq
    · obtain ⟨rfl, rfl⟩ := Prod.mk.inj (Option.some.inj hq)
      exact ⟨h.close, fun r hr => by cases hr⟩
    · obtain ⟨rfl, rfl⟩ := Prod.mk.inj (Option.some.inj hq)
      exact ⟨h, fun r hr => by cases hr⟩

theorem Stored.directive (h : Stored s) (hl : '\n' ∉ l) : Keeps s.directive l := by
  have hl' : '\n' ∉ removeSpaces l := mt (mem_removeSpaces rfl).1 hl
  intro s' rest hd
  unfold ParseState.directive at hd
  dsimp only at hd
  split at hd
  · obtain ⟨rfl, rfl⟩ := Prod.mk.inj (Option.some.inj hd)
    exact ⟨h, fun r hr => by cases hr⟩
  · split at hd
    · rename_i name behind hcut
      split at hd
      · cases hd
      · have hnamed : Stored { s with currentVariable := removeAllSpaces name } :=
          ⟨h.inBlock, h.inBlocks⟩
        exact hnamed.quoted (notMem_of_cut hcut hl').2 s' rest hd
    · exact h.quoted hl' s' rest hd

theorem Stored.content (h : Stored s) (hl : '\n' ∉ l) : Keeps s.content l := by
  intro s' rest hc
  unfold ParseState.content at hc
  split at hc
  · split at hc
    · split at hc
      · obtain ⟨rfl, rfl⟩ := Prod.mk.inj (Option.some.inj hc)
        exact ⟨⟨h.inBlock, h.inBlocks⟩, fun r hr => by cases hr⟩
      · rename_i before behind hcut
        split at hc
        · cases hc
        · -- the closing quote goes into the value
          have hvalue : Storable (s.currentSetting ++ (before ++ ['"'])) := .inr (by simp)
          exact (h.apply hvalue).directive (notMem_of_cut hcut hl).2 s' rest hc
    · exact h.directive hl s' rest hc
  · split at hc
    · obtain ⟨rfl, rfl⟩ := Prod.mk.inj (Option.some.inj hc)
      exact ⟨h, fun r hr => by cases hr⟩
    · rename_i before behind hcut
      split at hc
      · cases hc
      · rename_i name rest' hname
        obtain ⟨rfl, rfl⟩ := Prod.mk.inj (Option.some.inj hc)
        exact ⟨⟨h.inBlock, h.inBlocks⟩, fun r hr =>
          Option.some.inj hr ▸ (notMem_of_cut hname (notMem_of_cut hcut hl).2).2⟩

theorem Stored.pass (h : Stored s) (hl : '\n' ∉ l) : Keeps s.pass l := by
  intro s' rest hp
  unfold ParseState.pass at hp
  split at hp
  · obtain ⟨rfl, rfl⟩ := Prod.mk.inj (Option.some.inj hp)
    exact ⟨h, fun r hr => by cases hr⟩
  · split at hp
    · obtain ⟨rfl, rfl⟩ := Prod.mk.inj (Option.some.inj hp)
      exact ⟨h, fun r hr => by cases hr⟩
    · split at hp
      · split at hp
        · obtain ⟨rfl, rfl⟩ := Prod.mk.inj (Option.some.inj hp)
          exact ⟨⟨h.inBlock, h.inBlocks⟩, fun r hr => by cases hr⟩
        · rename_i behind hcut
          have hended : Stored { s with inMultilineComment := false } := ⟨h.inBlock, h.inBlocks⟩
          exact hended.content (notMem_of_cutStar hcut hl) s' rest hp
      · exact h.content hl s' rest hp

theorem Stored.parse (h : Stored s) (hl : '\n' ∉ l) (hp : parse s l = some s') : Stored s' := by
  induction hlen : l.length using Nat.strong_induction_on generalizing s l with
  | _ n ih =>
    rw [parse_eq] at hp
    split at hp
    · cases hp
    · rename_i s₁ hpass
      obtain rfl := Option.some.inj hp
      exact (h.pass hl _ _ hpass).1
    · rename_i s₁ rest hpass
      obtain ⟨hs₁, hrest⟩ := h.pass hl _ _ hpass
      exact ih rest.length (hlen ▸ length_pass hpass) hs₁ (hrest rest rfl) hp rfl

theorem Stored.run (h : Stored s) (hr : run s t = some s') : Stored s' := by
  induction hlen : t.length using Nat.strong_induction_on generalizing s t with
  | _ n ih =>
    rw [Config.run] at hr
    split at hr
    · obtain rfl := Option.some.inj hr
      exact h
    · rename_i line rest hcut
      obtain ⟨s₁, hline, hrest⟩ := Option.bind_eq_some_iff.1 hr
      have hin : '\n' ∈ t := by
        by_contra hnot
        rw [cut_of_notMem hnot] at hcut
        cases hcut
      obtain ⟨line', rest', hcut', -, hnot⟩ := exists_cut hin
      obtain ⟨rfl, rfl⟩ := Prod.mk.inj (Option.some.inj (hcut.symm.trans hcut'))
      exact ih rest.length (hlen ▸ length_cut hcut) (h.parse hnot hline) hrest rfl

/-- No text makes the parser come to a value with a line feed and no quote. -/
theorem storable_of_getString {m : UInt32 → Option ConfigBlock} (h : setSource t = some m)
    {block name value : Text} (hget : getString m block name = some value) : Storable value := by
  obtain ⟨s, hrun, hend⟩ := Option.bind_eq_some_iff.1 h
  have hstored : Stored s :=
    Stored.run ⟨fun k v hv => (by cases hv), fun k m hm => (by cases hm)⟩ hrun
  split at hend
  · cases hend
  · obtain rfl := Option.some.inj hend
    obtain ⟨b, hb, hvalue⟩ := Option.bind_eq_some_iff.1 hget
    exact hstored.inBlocks _ b hb _ value hvalue

/-- Values have no quotes in them. -/
theorem no_quote_of_mem_blocksOf {name : Text} {es : List (Text × Text)} (hg : Grammar b ps)
    (hes : ∀ e ∈ es, '"' ∉ e.2) : ∀ blk ∈ blocksOf name es ps, ∀ e ∈ blk.2, '"' ∉ e.2 := by
  induction ps generalizing b name es with
  | nil => exact fun blk hblk => absurd hblk List.not_mem_nil
  | cons p ps ih =>
    obtain ⟨hvalid, hg⟩ := hg
    have hnil : ∀ e ∈ ([] : List (Text × Text)), '"' ∉ e.2 := fun e he => absurd he List.not_mem_nil
    cases p with
    | blank c => exact ih hg hes
    | star t => exact ih hg hes
    | slashes t => exact ih hg.2 hes
    | hash t => exact ih hg.2 hes
    | opening n => exact ih hg.2.2 hnil
    | setting n x y v =>
      refine ih hg.2 fun e he => ?_
      rcases List.mem_append.1 he with he | he
      · exact hes e he
      · obtain rfl := List.mem_singleton.1 he
        exact hvalid.2.2.2
    | closing =>
      intro blk hblk
      rcases List.mem_cons.1 hblk with rfl | hblk
      · exact hes
      · exact ih hg.2 hnil blk hblk

def OnSeveralLines (f : ConfigFile) : Prop := ∃ blk ∈ f.blocks, ∃ e ∈ blk.2, '\n' ∈ e.2

theorem not_right_of_onSeveralLines {f : ConfigFile} (h : OnSeveralLines f) : ¬ Right f := by
  obtain ⟨blk, hblk, e, he, hnewline⟩ := h
  rintro ⟨m, hm, hall, -⟩
  have hquote := no_quote_of_mem_blocksOf f.grammar (fun e he => absurd he List.not_mem_nil)
    blk hblk e he
  rcases storable_of_getString hm (hall blk hblk e he) with hnot | hin
  · exact hnot hnewline
  · exact hquote hin

/-- A value on two lines. -/
def severalLines : ConfigFile where
  pieces := [.opening ['A'], .blank ' ', .setting ['b'] [' '] [' '] ['1', '\n', '2'], .closing,
    .blank '\n']
  grammar := by
    simp [Grammar, Piece.Valid, Name, isNameChar, isBlank, Piece.isSetting]

theorem severalLines_not_right : ¬ Right severalLines :=
  not_right_of_onSeveralLines ⟨_, List.mem_cons_self, _, List.mem_cons_self, by decide⟩

/-- A clean file is parsed rightly unless hashes collide; a file with a value
on several lines never is. -/
theorem setSource_right (f : ConfigFile) :
    (Clean .checked false f.pieces → (Right f ↔ Consistent f)) ∧ (OnSeveralLines f → ¬ Right f) :=
  ⟨right_iff_consistent, not_right_of_onSeveralLines⟩

/-- Two settings, one with marks in its value and comments behind it. -/
def commented : ConfigFile where
  pieces := [.opening ['A'], .blank ' ', .setting ['b'] [' '] [' '] ['#', '1'], .blank ' ',
    .slashes [' ', 'c'], .blank '\n', .star ['d', '\n'], .setting ['e'] [] ['\n'] ['2'], .closing,
    .blank ' ', .hash [], .blank '\n']
  grammar := by
    simp [Grammar, Piece.Valid, Name, isNameChar, isBlank, Piece.isSetting, cutStar]

theorem setSource_right_commented : Right commented ∧ ¬ Right severalLines := by
  have hclean : Clean .checked false commented.pieces := by
    simp [commented, Clean, Piece.text, restOfLine, Quiet]
  have hconsistent : Consistent commented := by
    unfold Consistent
    decide +kernel
  exact ⟨((setSource_right commented).1 hclean).2 hconsistent,
    (setSource_right severalLines).2 ⟨_, List.mem_cons_self, _, List.mem_cons_self, by decide⟩⟩

end HearthStone.Config
