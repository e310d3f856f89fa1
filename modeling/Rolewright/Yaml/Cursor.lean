/-
# Reading positions

A place in a text with its line and column. Everything that reads YAML moves a cursor, and what
goes wrong is reported as the line on which the cursor stands.
-/

import Rolewright.Yaml.Characters

namespace Rolewright.Yaml

/-- A place in a text: what is still to read, and where that starts. Lines and columns count from
zero. -/
structure Cursor where
  rest : List Char
  index : Nat
  line : Nat
  column : Nat
deriving Repr

/-- A fault on a line, counted from zero. -/
abbrev Faulty (α : Type) := Except Nat α

namespace Cursor

/-- The start of a text. -/
def start (text : List Char) : Cursor := ⟨text, 0, 0, 0⟩

/-- The next character. -/
def peek? (c : Cursor) : Option Char :=
  c.rest.head?

/-- The character after the next `n`. -/
def peekAt? (c : Cursor) (n : Nat) : Option Char :=
  (c.rest.drop n).head?

/-- Whether a fixed character comes next. -/
def sees (c : Cursor) (ch : Char) : Bool :=
  c.peek? == some ch

/-- Whether the next character satisfies `p`. -/
def seesAny (c : Cursor) (p : Char → Bool) : Bool :=
  c.peek?.any p

/-- Moves over `n` characters of one line. -/
def skip (c : Cursor) (n : Nat) : Cursor :=
  { c with rest := c.rest.drop n, index := c.index + n, column := c.column + n }

/-- The leading characters that satisfy `p`, and the place after them. -/
def takeWhile (c : Cursor) (p : Char → Bool) : List Char × Cursor :=
  let taken := c.rest.takeWhile p
  (taken, c.skip taken.length)

/-- Moves over the characters that satisfy `p`. -/
def skipWhile (c : Cursor) (p : Char → Bool) : Cursor :=
  (c.takeWhile p).2

/-- A line break: how a scalar keeps it, and the place after it. -/
def break? (c : Cursor) : Option (Char × Cursor) :=
  let next (rest : List Char) (n : Nat) : Cursor := ⟨rest, c.index + n, c.line + 1, 0⟩
  match c.rest with
  | '\r' :: '\n' :: rest => some ('\n', next rest 2)
  | ch :: rest =>
    if !isBreak ch then none
    else if ch.toNat < 0x2000 then some ('\n', next rest 1)
    else some (ch, next rest 1)
  | [] => none

/-- Whether a mark that separates documents stands here. -/
def atDocumentMark (c : Cursor) (mark : Char) : Bool :=
  c.column == 0 && c.rest.take 3 == [mark, mark, mark] && isGap (c.peekAt? 3)

/-- Whether a document ends here. -/
def atDocumentEdge (c : Cursor) : Bool :=
  c.atDocumentMark '-' || c.atDocumentMark '.'

/-- Moves over blanks, over a comment after them, and over the end of the line, which must follow.
-/
def finishLine (c : Cursor) : Faulty Cursor :=
  let c := c.skipWhile isSpace
  let c := if c.sees '#' then c.skipWhile fun ch => !isGap (some ch) || isSpace ch else c
  match c.break? with
  | some (_, next) => .ok next
  | none => if c.rest.isEmpty then .ok c else .error c.line

end Cursor

end Rolewright.Yaml
