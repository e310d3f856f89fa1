/-
# Scanning one physical line

A statement may run over several physical lines, so the scan that finds its comments, quotes and
brackets carries its state from line to line. It also finds the heredocs that a line opens.
-/

import Rolewright.Text.Blank
import Rolewright.Text.Word

namespace Rolewright.Recipe

open Text

/-- What is open between two physical lines: brackets, a quote, and interpolations inside it. The
counts have no bound. Counts of 32 bits are the same up to `2 ^ 31` brackets open at once. -/
structure Scan where
  depth : Nat
  quote : Option Char
  interpolations : Nat
deriving DecidableEq, Repr

namespace Scan

/-- Nothing is open. -/
def start : Scan := ⟨0, none, 0⟩

/-- Opening brackets. -/
def opens (c : Char) : Bool := c == '(' || c == '[' || c == '\x7b'

/-- Closing brackets. -/
def closes (c : Char) : Bool := c == ')' || c == ']' || c == '\x7d'

/-- The three quotes of a recipe. -/
def quotes (c : Char) : Bool := c == '\'' || c == '"' || c == '\x60'

/-- A character of code outside quotes. Stray closing brackets count for nothing. -/
def stepCode (s : Scan) (c : Char) : Scan :=
  if quotes c then { s with quote := some c }
  else if opens c then { s with depth := s.depth + 1 }
  else if closes c then { s with depth := s.depth - 1 }
  else s

/-- A character inside a quote, escapes and openings of interpolations apart. -/
def stepQuoted (s : Scan) (q c : Char) : Scan :=
  if c == '\x7d' && 0 < s.interpolations then { s with interpolations := s.interpolations - 1 }
  else if c == q && s.interpolations == 0 then { s with quote := none }
  else s

/-- Reads a physical line, of which the character `before` was read last: the state at its end,
and its code, which a comment cuts short. A `literal` character is kept without a look at it: it
follows a backslash in a quote, opens an interpolation, or is a character literal. -/
def readFrom (s : Scan) (literal : Bool) (before : Option Char) : List Char → Scan × List Char
  | [] => (s, [])
  | c :: cs =>
    let continued (s : Scan) (literal : Bool) : Scan × List Char :=
      let (t, code) := readFrom s literal (some c) cs
      (t, c :: code)
    if literal then continued s false
    else
      match s.quote with
      | some q =>
        if c == '\\' then continued s true
        else if c == '#' && q == '"' && cs.head? == some '\x7b' then
          continued { s with interpolations := s.interpolations + 1 } true
        else continued (s.stepQuoted q c) false
      | none =>
        if c == '#' then (s, [])
        else if c == '?' && before.any isBlank && cs.head?.any fun d => !isBlank d then
          continued s true
        else continued (s.stepCode c) false

/-- Reads a physical line from its start. -/
def read (s : Scan) (line : List Char) : Scan × List Char :=
  s.readFrom false none line

end Scan

/-! ## Heredocs -/

/-- The terminator of a heredoc, and whether the indentation of its body is taken off. -/
structure Heredoc where
  tag : List Char
  squiggly : Bool
deriving DecidableEq, Repr

namespace Heredoc

/-- Characters that open a tag. -/
def tagStart (c : Char) : Bool := c.isUpper || c == '_'

/-- Characters inside a tag. -/
def tagInner (c : Char) : Bool := c.isUpper || c.isDigit || c == '_'

/-- Whether a text starts with a character that satisfies `p`, and what follows it then. -/
def optional (p : Char → Bool) : List Char → Option Char × List Char
  | [] => (none, [])
  | c :: cs => if p c then (some c, cs) else (none, c :: cs)

/-- A heredoc opener at the start of a text, whatever its spelling: its flag, its opening quote,
its tag, and how many characters it takes. -/
def opener? : List Char → Option (Option Char × Option Char × List Char × Nat)
  | '<' :: '<' :: cs =>
    let (flag, unflagged) := optional (fun c => c == '~' || c == '-') cs
    let (quote, unquoted) := optional (fun c => c == '\'' || c == '"') unflagged
    match takeIdent tagStart tagInner unquoted with
    | some (tag, rest) =>
      let after := (optional (fun c => c == '\'' || c == '"') rest).2
      some (flag, quote, tag, cs.length + 2 - after.length)
    | none => none
  | _ => none

/-- The heredocs that a line of code opens, in order, once `skip` characters have passed. A bare
`<<TAG` without a flag or a quote appends to an array and opens none. -/
def openedAfter : Nat → List Char → List Heredoc
  | _, [] => []
  | skip + 1, _ :: cs => openedAfter skip cs
  | 0, c :: cs =>
    match opener? (c :: cs) with
    | some (flag, quote, tag, size) =>
      let others := openedAfter (size - 1) cs
      if flag.isSome || quote.isSome then ⟨tag, flag == some '~'⟩ :: others else others
    | none => openedAfter 0 cs

/-- The heredocs that a line of code opens, in order. -/
def opened (code : List Char) : List Heredoc :=
  openedAfter 0 code

end Heredoc

end Rolewright.Recipe
