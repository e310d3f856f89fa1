/-
# Logical lines

A recipe as a list of statements: comments and blank lines are gone, continued statements are one
line, and the bodies of heredocs are kept beside the statement that opens them. Line numbers count
the physical lines of the source from one.
-/

import Rolewright.Recipe.Scan
import Rolewright.Text.Lines
import Rolewright.Text.Search
import Rolewright.Text.Utf8

namespace Rolewright.Recipe

open Text

/-- One statement of a recipe. -/
structure Line where
  /-- Its code, trimmed. -/
  text : List Char
  first : Nat
  /-- Its last physical line, heredoc bodies included. -/
  last : Nat
  /-- The bodies of the heredocs it opens, in order. -/
  heredocs : List (List Char)
deriving DecidableEq, Repr

/-- How many bytes of indentation a line has. -/
def indentation (line : List Char) : Nat :=
  byteLength line - byteLength (trimStart line)

/-- The least of some numbers, zero when there are none. -/
def least : List Nat → Nat
  | [] => 0
  | n :: ns => ns.foldl min n

/-- The body of a heredoc without the indentation that its lines share. A line too short for it
loses all it has. -/
def dedent (body : List (List Char)) : List Char :=
  let shared := least ((body.filter fun line => !isBlankText line).map indentation)
  unlines (body.map fun line => (dropBytes? shared line).getD (trimStart line))

/-- Whether a statement visibly goes on in the next line. -/
def continues (code : List Char) : Bool :=
  let code := trimEnd code
  let endsWith (mark : String) : Bool := mark.toList.isSuffixOf code
  endsWith "," || endsWith "\\" || endsWith "&&" || endsWith "||" || endsWith " +" ||
    endsWith " and" || endsWith " or" || (endsWith "." && !endsWith "..")

/-- The body of a heredoc and the lines after its terminator. Without a terminator the body runs to
the end. -/
def takeBody (tag : List Char) : List (List Char) → List (List Char) × List (List Char)
  | [] => ([], [])
  | row :: rows =>
    if trim row = tag then ([], rows)
    else
      let (body, rest) := takeBody tag rows
      (row :: body, rest)

/-- The bodies of several heredocs, one after the other, and the lines after them. -/
def takeBodies : List Heredoc → List (List Char) → List (List Char) × List (List Char)
  | [], rows => ([], rows)
  | heredoc :: others, rows =>
    let (body, rest) := takeBody heredoc.tag rows
    let (bodies, rest) := takeBodies others rest
    ((if heredoc.squiggly then dedent body else unlines body) :: bodies, rest)

/-- Taking a body takes no lines that are not there. -/
theorem takeBody_length (tag : List Char) (rows : List (List Char)) :
    (takeBody tag rows).2.length ≤ rows.length := by
  induction rows with
  | nil => simp [takeBody]
  | cons row rows ih =>
    simp only [takeBody]
    split
    · simp
    · simpa using Nat.le_succ_of_le ih

/-- Taking bodies takes no lines that are not there. -/
theorem takeBodies_length (heredocs : List Heredoc) (rows : List (List Char)) :
    (takeBodies heredocs rows).2.length ≤ rows.length := by
  induction heredocs generalizing rows with
  | nil => simp [takeBodies]
  | cons heredoc others ih =>
    simpa [takeBodies] using Nat.le_trans (ih _) (takeBody_length _ _)

/-- A statement being read: what is open, its code so far, and its heredoc bodies. -/
structure Draft where
  scan : Scan
  text : List Char
  heredocs : List (List Char)

namespace Draft

/-- A statement of which nothing has been read. -/
def empty : Draft := ⟨.start, [], []⟩

/-- Adds a physical line, of whose code the comment is gone already. Inside a quote the line break
is part of the text; elsewhere a blank takes its place. -/
def add (d : Draft) (row : List Char) : Draft × List Heredoc :=
  let (scan, code) := d.scan.read row
  let inQuote := d.scan.quote.isSome
  let code' := if inQuote then code else trim code
  let gap :=
    if inQuote then ['\n'] else if !d.text.isEmpty && !code'.isEmpty then [' '] else []
  (⟨scan, d.text ++ gap ++ code', d.heredocs⟩, Heredoc.opened code)

/-- Whether the statement goes on in the physical line `next`. An `end` by itself closes brackets
that were never closed. -/
def goesOn (d : Draft) (next : List Char) : Bool :=
  if d.scan.quote.isSome then true
  else if 0 < d.scan.depth then trim next != "end".toList
  else continues d.text

end Draft

/-- Reads a statement from a physical line on: the statement, and the lines after it. -/
def takeStatement (d : Draft) (row : List Char) (rows : List (List Char)) :
    Draft × List (List Char) :=
  let added := d.add row
  let taken := takeBodies added.2 rows
  let draft := { added.1 with heredocs := added.1.heredocs ++ taken.1 }
  match found : taken.2 with
  | [] => (draft, [])
  | next :: rest =>
    if draft.goesOn next then
      have : rest.length < rows.length := by
        have := takeBodies_length added.2 rows
        rw [show (takeBodies added.2 rows).2 = next :: rest from found] at this
        exact this
      takeStatement draft next rest
    else (draft, next :: rest)
termination_by rows.length

/-- Reading a statement takes no lines that are not there. -/
theorem takeStatement_length (d : Draft) (row : List Char) (rows : List (List Char)) :
    (takeStatement d row rows).2.length ≤ rows.length := by
  fun_induction takeStatement d row rows with
  | case1 => simp
  | case2 d row rows added taken draft next rest found goes smaller ih =>
    exact Nat.le_trans ih (Nat.le_of_lt smaller)
  | case3 d row rows added taken draft next rest found stops =>
    have := takeBodies_length added.2 rows
    rwa [show (takeBodies added.2 rows).2 = next :: rest from found] at this

/-- The lines after a region of documentation, whose last line starts with `=end`. -/
def afterDocumentation : List (List Char) → List (List Char)
  | [] => []
  | row :: rows => if "=end".toList.isPrefixOf row then rows else afterDocumentation rows

/-- Documentation is no longer than what is there. -/
theorem afterDocumentation_length (rows : List (List Char)) :
    (afterDocumentation rows).length ≤ rows.length := by
  induction rows with
  | nil => simp [afterDocumentation]
  | cons row rows ih =>
    simp only [afterDocumentation]
    split
    · simp
    · simpa using Nat.le_succ_of_le ih

/-- The statements in physical lines of which the first has the number `number`. -/
def statements (number : Nat) (rows : List (List Char)) : List Line :=
  match rows with
  | [] => []
  | row :: rows =>
    if "=begin".toList.isPrefixOf row then
      have := afterDocumentation_length rows
      statements (number + 1 + (rows.length - (afterDocumentation rows).length))
        (afterDocumentation rows)
    else
      have := takeStatement_length .empty row rows
      let taken := takeStatement .empty row rows
      let next := number + 1 + (rows.length - taken.2.length)
      let text := trim taken.1.text
      let others := statements next taken.2
      if text.isEmpty && taken.1.heredocs.isEmpty then others
      else ⟨text, number, next - 1, taken.1.heredocs⟩ :: others
termination_by rows.length

/-- The statements of a recipe. -/
def Line.ofSource (source : List Char) : List Line :=
  statements 1 (lines source)

end Rolewright.Recipe
