/-
# Quotes and brackets

Expressions are taken apart only where neither a quote nor a bracket is open. The scan that
decides this knows both kinds of quotes, a backslash inside them, and the three kinds of brackets;
it does not check that brackets match in kind.
-/

import Rolewright.Text.Blank
import Rolewright.Text.Search

namespace Rolewright.Value

/-- Where a scan stands: how many brackets are open, which quote is, and whether a backslash was
just read inside it. The depth of a text with stray closing brackets is negative. It has no bound
either way. A depth of 32 bits is the same up to `2 ^ 31` brackets, open or stray. -/
structure Nesting where
  depth : Int
  quote : Option Char
  escaped : Bool
deriving DecidableEq, Repr

namespace Nesting

/-- Nothing is open. -/
def start : Nesting := ⟨0, none, false⟩

/-- Opening brackets. -/
def opens (c : Char) : Bool := c == '(' || c == '[' || c == '\x7b'

/-- Closing brackets. -/
def closes (c : Char) : Bool := c == ')' || c == ']' || c == '\x7d'

/-- The two quotes of an expression. -/
def quotes (c : Char) : Bool := c == '\'' || c == '"'

/-- Reads one character. -/
def step (s : Nesting) (c : Char) : Nesting :=
  match s.quote with
  | some q =>
    if s.escaped then { s with escaped := false }
    else if c == '\\' then { s with escaped := true }
    else if c == q then { s with quote := none }
    else s
  | none =>
    if quotes c then { s with quote := some c }
    else if opens c then { s with depth := s.depth + 1 }
    else if closes c then { s with depth := s.depth - 1 }
    else s

/-- Whether a separator read now counts: no quote and no bracket is open. -/
def atTop (s : Nesting) : Bool :=
  s.quote.isNone && s.depth == 0

/-- Characters that the scan reads as structure and never as a separator. -/
def isStructural (c : Char) : Bool :=
  quotes c || opens c || closes c

end Nesting

/-- The pieces of a text between the separators that stand at the top. -/
def pieces (sep : Char) : Nesting → List Char → List (List Char)
  | _, [] => [[]]
  | s, c :: cs =>
    if s.atTop && c == sep && !Nesting.isStructural c then [] :: pieces sep s cs
    else
      match pieces sep (s.step c) cs with
      | [] => [[c]]
      | piece :: rest => (c :: piece) :: rest

/-- The parts of a text between the separators at the top, trimmed, empty ones left out. -/
def split (sep : Char) (cs : List Char) : List (List Char) :=
  ((pieces sep .start cs).map Text.trim).filter fun part => !part.isEmpty

/-- What stands before and after the first `mark` at the top. -/
def splitAtMark? (mark : List Char) : Nesting → List Char → Option (List Char × List Char)
  | _, [] => none
  | s, c :: cs =>
    match if s.atTop && !Nesting.isStructural c then Text.afterPrefix? mark (c :: cs) else none with
    | some rest => some ([], rest)
    | none => (splitAtMark? mark (s.step c) cs).map fun (before, rest) => (c :: before, rest)

/-- Reads a group whose opening bracket has been read: what it holds up to the bracket that closes
it, and the rest. Only brackets of its own kind are counted. -/
def closing? (left right : Char) : Nat → Option Char → Bool → List Char →
    Option (List Char × List Char)
  | _, _, _, [] => none
  | depth, some q, escaped, c :: cs =>
    let (quote, escaped) : Option Char × Bool :=
      if escaped then (some q, false)
      else if c == '\\' then (some q, true)
      else if c == q then (none, false)
      else (some q, false)
    (closing? left right depth quote escaped cs).map fun (inside, rest) => (c :: inside, rest)
  | depth, none, _, c :: cs =>
    let continued (depth : Nat) (quote : Option Char) :=
      (closing? left right depth quote false cs).map fun (inside, rest) => (c :: inside, rest)
    if Nesting.quotes c then continued depth (some c)
    else if c == left then continued (depth + 1) none
    else if c == right then
      match depth with
      | 0 => some ([], cs)
      | depth + 1 => continued depth none
    else continued depth none

/-- What a text holds that is one bracketed group and nothing else. -/
def enclosed? (left right : Char) : List Char → Option (List Char)
  | [] => none
  | c :: cs =>
    if c == left then
      match closing? left right 0 none false cs with
      | some (inside, []) => some inside
      | _ => none
    else none

end Rolewright.Value
