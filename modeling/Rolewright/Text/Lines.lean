/-
# Physical lines

A text is cut at its line feeds; a carriage return directly before a line feed belongs to the
break, one that stands alone does not. A break at the very end opens no further line.
-/

import Rolewright.Text.Blank

namespace Rolewright.Text

/-- The lines of a text, without their breaks. -/
def lines : List Char → List (List Char)
  | [] => []
  | '\n' :: cs => [] :: lines cs
  | '\r' :: '\n' :: cs => [] :: lines cs
  | c :: cs =>
    match lines cs with
    | [] => [[c]]
    | line :: rest => (c :: line) :: rest

theorem lines_ne_nil {cs : List Char} (some : cs ≠ []) : lines cs ≠ [] := by
  fun_cases lines cs with
  | case1 => exact absurd rfl some
  | case2 | case3 => exact List.cons_ne_nil _ _
  | case4 | case5 => simp

/-- Lines put together again, with a line feed between each two. -/
def unlines (rows : List (List Char)) : List Char :=
  List.intercalate ['\n'] rows

/-- The rows between line feeds, of which there is one more than there are line feeds. -/
def rows : List Char → List (List Char)
  | [] => [[]]
  | c :: cs =>
    if c = '\n' then [] :: rows cs
    else
      match rows cs with
      | [] => [[c]]
      | row :: rest => (c :: row) :: rest

/-- The lines `first` to `last` of a text, counted from one, joined by line feeds. Numbers beyond
the text are cut back to it. -/
def excerpt (physical : List (List Char)) (first last : Nat) : List Char :=
  unlines ((physical.take last).drop (first - 1))

end Rolewright.Text
