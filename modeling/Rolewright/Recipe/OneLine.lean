/-
# One-line forms

A condition behind a statement, and a whole block written on one line. Both are found at a gap: a
blank or a tab outside quotes and brackets.
-/

import Rolewright.Text.Blank
import Rolewright.Text.Search
import Rolewright.Text.Word

namespace Rolewright.Recipe

open Text

/-- A place where a text may be cut, with the text on either side of the gap character. -/
structure Gap where
  before : List Char
  after : List Char
deriving DecidableEq, Repr

/-- What a search for gaps has seen: open brackets, an open quote, a backslash inside it. Stray
closing brackets count for nothing. The depth has no bound. One of 32 bits is the same up to
`2 ^ 31` brackets open at once. -/
structure GapScan where
  depth : Nat
  quote : Option Char
  escaped : Bool
deriving DecidableEq, Repr

namespace GapScan

/-- Nothing is open. -/
def start : GapScan := ⟨0, none, false⟩

/-- Whether a gap character read now is a gap. -/
def atTop (s : GapScan) : Bool :=
  s.quote.isNone && s.depth == 0

/-- Reads one character. -/
def step (s : GapScan) (c : Char) : GapScan :=
  match s.quote with
  | some q =>
    if s.escaped then { s with escaped := false }
    else if c == '\\' then { s with escaped := true }
    else if c == q then { s with quote := none }
    else s
  | none =>
    if c == '\'' || c == '"' || c == '\x60' then { s with quote := some c }
    else if c == '(' || c == '[' || c == '\x7b' then { s with depth := s.depth + 1 }
    else if c == ')' || c == ']' || c == '\x7d' then { s with depth := s.depth - 1 }
    else s

end GapScan

/-- Blanks that separate words on a line. -/
def isGapChar (c : Char) : Bool := c == ' ' || c == '\t'

theorem isBlank_of_isGapChar {c : Char} (gap : isGapChar c = true) : isBlank c = true := by
  rcases (Bool.or_eq_true _ _).mp gap with same | same <;> rw [beq_iff_eq.mp same] <;> rfl

theorem isGapChar_of_solid {c : Char} (solid : isBlank c = false) : isGapChar c = false :=
  Bool.eq_false_iff.mpr fun gap => ne_true_of_eq_false solid (isBlank_of_isGapChar gap)

/-- The gaps in what is left of a text whose read part is given backwards. -/
def gapsFrom (s : GapScan) (read : List Char) : List Char → List Gap
  | [] => []
  | c :: cs =>
    let others := gapsFrom (s.step c) (c :: read) cs
    if s.atTop && isGapChar c then ⟨read.reverse, cs⟩ :: others else others

/-- The gaps of a text, from left to right. -/
def gaps (text : List Char) : List Gap :=
  gapsFrom .start [] text

/-! ## Conditions behind a statement -/

/-- A condition behind a statement or behind an `end`; `unless` negates it. -/
structure Modifier where
  negated : Bool
  condition : List Char
deriving DecidableEq, Repr

/-- Characters that cannot end a complete expression. -/
def operatorTails : List Char := "=([\x7b,|&!?:+-*/<>%".toList

/-- Words that cannot end a complete expression. -/
def operatorWords : List (List Char) :=
  ["and", "or", "not", "return", "then", "else", "do"].map String.toList

/-- Whether an expression is still waiting for an operand. -/
def endsWithOperator (head : List Char) : Bool :=
  head.getLast?.any operatorTails.contains || operatorWords.contains (lastWord head)

/-- What follows a keyword and at least one gap character. -/
def afterKeyword? (keyword text : List Char) : Option (List Char) :=
  match afterPrefix? keyword text with
  | some rest => if rest.head?.any isGapChar then some rest else none
  | none => none

/-- The statement and the condition that a gap separates, for one keyword. -/
def Gap.modifier? (gap : Gap) (negated : Bool) : Option (List Char × Modifier) :=
  let keyword := if negated then "unless".toList else "if".toList
  (afterKeyword? keyword gap.after).bind fun rest =>
    let head := trimEnd gap.before
    let condition := trim rest
    if head.isEmpty || condition.isEmpty || endsWithOperator head then none
    else some (head, ⟨negated, condition⟩)

/-- A statement and the condition behind it, if it has one. The condition begins at the first gap
that has a complete expression before it and a keyword after it. -/
def splitModifier (text : List Char) : List Char × Option Modifier :=
  match (gaps text).findSome? fun gap => (gap.modifier? false).or (gap.modifier? true) with
  | some (head, modifier) => (head, some modifier)
  | none => (text, none)

/-! ## Blocks on one line -/

/-- A block on one line: what stands before `do`, its parameters, and its statements. -/
structure InlineBlock where
  head : List Char
  params : Option (List Char)
  body : List Char
deriving DecidableEq, Repr

/-- The head before a gap and the text after its `do`, if a block can begin there. -/
def Gap.blockStart? (gap : Gap) : Option (List Char × List Char) :=
  match afterPrefix? "do".toList gap.after with
  | some rest =>
    let head := trimEnd gap.before
    if rest.head?.any (fun c => isGapChar c || c == ';' || c == '|') && !head.isEmpty then
      some (head, rest)
    else none
  | none => none

/-- Parameters between bars at the start of a text, and what follows them. Bars that do not close
are an error, which the outer `none` stands for. -/
def blockParams? (rest : List Char) : Option (Option (List Char) × List Char) :=
  match rest with
  | '|' :: after => (splitAtFirst? ['|'] after).map fun (params, rest) => (some (trim params), rest)
  | _ => some (none, rest)

/-- A complete block on one line. -/
def splitInlineBlock? (text : List Char) : Option InlineBlock := do
  let inside ← beforeSuffix? "end".toList text
  if !inside.getLast?.any (fun c => isGapChar c || c == ';') then none
  else
    let (head, rest) ← (gaps text).findSome? Gap.blockStart?
    let (params, rest) ← blockParams? (trimStart rest)
    let body ← beforeSuffix? "end".toList (trim rest)
    return ⟨head, params, trim (trimBoth (· == ';') (trim body))⟩

end Rolewright.Recipe
