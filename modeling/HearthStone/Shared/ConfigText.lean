/-
HearthStone.Shared.ConfigText — the texts that configuration files are.

A text is a list of pieces: blanks, comments of three kinds, and what opens,
fills and closes a block (`Grammar`). `Clean` are the pieces whose layout the
parser goes along with. It depends on where a piece stands (`Place`): the
parser looks for a comment at the start of a line and behind a setting, not
behind another comment; and what stands behind a block on its last line it
does not look at.
-/
import HearthStone.Shared.Config

namespace HearthStone.Config

inductive Piece
  | blank (c : Char)
  | slashes (t : Text)
  | hash (t : Text)
  | star (t : Text)
  | opening (name : Text)
  | setting (name before after value : Text)
  | closing

def Piece.text : Piece → Text
  | .blank c => [c]
  | .slashes t => '/' :: '/' :: t
  | .hash t => '#' :: t
  | .star t => '/' :: '*' :: (t ++ ['*', '/'])
  | .opening name => '<' :: name
  | .setting name before after value =>
    name ++ (before ++ '=' :: (after ++ '"' :: (value ++ ['"'])))
  | .closing => ['>']

def text (ps : List Piece) : Text := ps.flatMap Piece.text

@[simp] theorem text_nil : text [] = [] := rfl

@[simp] theorem text_cons (p : Piece) (ps : List Piece) : text (p :: ps) = p.text ++ text ps :=
  List.flatMap_cons

/-! ## The grammar -/

def isBlank (c : Char) : Bool := c == ' ' || c == '\t' || c == '\n'

def isNameChar (c : Char) : Bool := !isBlank c && !"<>=\"/#".toList.contains c

/-- A name has no blanks and no marks. -/
def Name (t : Text) : Prop := t ≠ [] ∧ ∀ c ∈ t, isNameChar c = true

/-- Comments end where they end, and values have no quotes in them. -/
def Piece.Valid : Piece → Prop
  | .blank c => isBlank c = true
  | .slashes t | .hash t => '\n' ∉ t
  | .star t => cutStar (t ++ ['*', '/']) = some []
  | .opening name => Name name
  | .setting name before after value =>
    Name name ∧ (∀ c ∈ before, isBlank c = true) ∧ (∀ c ∈ after, isBlank c = true) ∧ '"' ∉ value
  | .closing => True

def Piece.isSetting : Piece → Bool
  | .setting .. => true
  | _ => false

/-- Blocks of settings, with blanks and comments. -/
def Grammar : Bool → List Piece → Prop
  | inBlock, [] => inBlock = false
  | inBlock, p :: ps =>
    p.Valid ∧
      match p with
      | .blank _ | .star _ => Grammar inBlock ps
      | .slashes _ | .hash _ => (∀ q ∈ ps.head?, q = .blank '\n') ∧ Grammar inBlock ps
      | .opening _ => inBlock = false ∧ (∀ q ∈ ps.head?, q.isSetting = false) ∧ Grammar true ps
      | .setting .. => inBlock = true ∧ Grammar true ps
      | .closing => inBlock = true ∧ Grammar false ps

/-- The blocks with their settings, the one that is open first. -/
def blocksOf (name : Text) (settings : List (Text × Text)) :
    List Piece → List (Text × List (Text × Text))
  | [] => []
  | .opening name :: ps => blocksOf name [] ps
  | .setting n _ _ value :: ps => blocksOf name (settings ++ [(n, value)]) ps
  | .closing :: ps => (name, settings) :: blocksOf [] [] ps
  | .blank _ :: ps | .slashes _ :: ps | .hash _ :: ps | .star _ :: ps =>
    blocksOf name settings ps

/-- A configuration file. -/
structure ConfigFile where
  pieces : List Piece
  grammar : Grammar false pieces

def ConfigFile.text (f : ConfigFile) : Text := Config.text f.pieces

def ConfigFile.blocks (f : ConfigFile) : List (Text × List (Text × Text)) :=
  blocksOf [] [] f.pieces

/-! ## The layout -/

inductive Place
  | checked
  | unchecked
  | dropped

def restOfLine (t : Text) : Text := t.takeWhile fun c => c != '\n'

/-- A text with nothing in it that the parser looks for. -/
def Quiet (inBlock : Bool) (t : Text) : Prop :=
  if inBlock then '=' ∉ t ∧ '"' ∉ t ∧ '>' ∉ t else '<' ∉ t

/-- Blanks and comments. -/
def Piece.isIdle : Piece → Bool
  | .blank _ | .slashes _ | .hash _ | .star _ => true
  | _ => false

def Clean : Place → Bool → List Piece → Prop
  | _, _, [] => True
  | place, inBlock, p :: ps =>
    if '\n' ∈ text (p :: ps) then
      match p, place with
      | .blank c, _ => Clean (if c = '\n' then .checked else place) inBlock ps
      | .slashes t, .checked =>
        (t.head? = some '/' ∨ Quiet inBlock t) ∧ Clean .checked inBlock ps
      | .hash _, .checked => Clean .checked inBlock ps
      | .slashes t, .unchecked | .hash t, .unchecked =>
        Quiet inBlock t ∧ Clean .unchecked inBlock ps
      | .slashes _, .dropped | .hash _, .dropped => Clean .dropped inBlock ps
      | .star t, .checked =>
        t.head? ≠ some '/' ∧ ('\n' ∈ t → '\n' ∈ text ps) ∧ Clean .unchecked inBlock ps
      | .star t, .unchecked =>
        '\n' ∉ t ∧ Quiet inBlock t ∧
          (inBlock = true → '=' ∉ restOfLine (text ps) ∧ '"' ∉ restOfLine (text ps)) ∧
            Clean .unchecked inBlock ps
      | .star t, .dropped => '\n' ∉ t ∧ Clean .dropped inBlock ps
      | .opening _, .dropped | .setting .., .dropped | .closing, .dropped => False
      | .opening _, _ => (∃ c ∈ ps.head?, c = .blank ' ') ∧ Clean .checked true ps
      | .setting _ before after value, _ =>
        (∀ c ∈ before, c = ' ') ∧ '\n' ∉ value ∧
          ('\n' ∈ after → '=' ∉ value ∧ '=' ∉ restOfLine (text ps)) ∧ Clean .checked true ps
      | .closing, _ =>
        '=' ∉ restOfLine (text ps) ∧ '"' ∉ restOfLine (text ps) ∧ Clean .dropped false ps
    else ∀ q ∈ p :: ps, q.isIdle = true

end HearthStone.Config
