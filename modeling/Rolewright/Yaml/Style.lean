/-
# Styles of scalars

How a text is written as a YAML scalar: bare where nothing in it would be misread, between single
quotes, between double quotes with escapes, or as a literal block when it has several lines. A
literal block says with a digit that its first line is indented further, and with a sign what
becomes of its last line breaks.
-/

import Rolewright.Yaml.Plain

namespace Rolewright.Yaml

open Text

/-- How a scalar is written. -/
inductive Style where
  | plain
  | single
  | double
  | literal
deriving DecidableEq, Repr

namespace Style

/-- Characters that mean something else at the start of a plain scalar. -/
def isIndicator (c : Char) : Bool :=
  "#,[]\x7b\x7d&*!|>'\"%@\x60".toList.contains c

/-- Whether a text opens like a document mark, a collection or a comment. -/
def opensBadly : List Char → Bool
  | '-' :: '-' :: '-' :: _ => true
  | '.' :: '.' :: '.' :: _ => true
  | c :: cs => isIndicator c || ((c == '?' || c == ':' || c == '-') && isGap cs.head?)
  | [] => false

/-- Whether a colon before a gap or a number sign after one stands inside the text. -/
def breaksOff : List Char → Bool
  | c :: d :: cs => (d == ':' && isGap cs.head?) || (d == '#' && isGap (some c)) ||
      breaksOff (d :: cs)
  | _ => false

/-- Whether two neighbouring characters satisfy `p` and `q`. -/
def adjacent (p q : Char → Bool) : List Char → Bool
  | c :: d :: cs => (p c && q d) || adjacent p q (d :: cs)
  | _ => false

/-- Whether the character at an end of the text is a space or a line break. -/
def isEdge : Option Char → Bool
  | none => false
  | some c => c == ' ' || isBreak c

/-- Whether only escapes can write the text. -/
def isSpecial (cs : List Char) : Bool :=
  !cs.all isPrintable || adjacent (· == ' ') isBreak cs

/-- Whether single quotes can write the text. -/
def allowsSingle (cs : List Char) : Bool :=
  !isSpecial cs && !adjacent isBreak (· == ' ') cs

/-- Whether the text can stand bare. -/
def allowsPlain (cs : List Char) : Bool :=
  allowsSingle cs && !cs.any isBreak && !isEdge cs.head? && !isEdge cs.getLast? &&
    !opensBadly cs && !breaksOff cs

/-- Whether a literal block can write the text. -/
def allowsLiteral (cs : List Char) : Bool :=
  !isSpecial cs && cs.getLast? != some ' '

/-- The style of a text. -/
def ofText (cs : List Char) : Style :=
  if cs.contains '\n' then
    if allowsLiteral cs then .literal else .double
  else if !Plain.isTaken cs && allowsPlain cs then .plain
  else if allowsSingle cs then .single
  else .double

end Style

/-! ## Writing -/

/-- A hexadecimal number of fixed width, in upper case. -/
def hexadecimal : Nat → Nat → List Char
  | 0, _ => []
  | width + 1, n => hexadecimal width (n / 16) ++ [(Nat.digitChar (n % 16)).toUpper]

/-- A character as it stands between double quotes. -/
def escaped (c : Char) : List Char :=
  let n := c.toNat
  if n == 0x22 then ['\\', '"']
  else if n == 0x5C then ['\\', '\\']
  else if isPrintable c && !isBreak c then [c]
  else
    match [(0x00, '0'), (0x07, 'a'), (0x08, 'b'), (0x09, 't'), (0x0A, 'n'), (0x0B, 'v'),
        (0x0C, 'f'), (0x0D, 'r'), (0x1B, 'e'), (0x85, 'N'), (0x2028, 'L'), (0x2029, 'P')].lookup n
      with
    | some letter => ['\\', letter]
    | none =>
      if n ≤ 0xFF then '\\' :: 'x' :: hexadecimal 2 n
      else if n ≤ 0xFFFF then '\\' :: 'u' :: hexadecimal 4 n
      else '\\' :: 'U' :: hexadecimal 8 n

/-- The text with `hang` blanks at the start of every line that is not empty. `write` is how a
character stands, and `fresh` tells whether the text begins at the start of a line. -/
def hung (hang : Nat) (write : Char → List Char) : Bool → List Char → List Char
  | _, [] => []
  | fresh, c :: cs =>
    if isBreak c then c :: hung hang write true cs
    else (if fresh then List.replicate hang ' ' else []) ++ write c ++ hung hang write false cs

/-- What follows the bar of a literal block: the digit and the sign. -/
def blockHints (cs : List Char) : List Char :=
  let indented := if Style.isEdge cs.head? then ['2'] else []
  let ending :=
    match cs.reverse with
    | [] => ['-']
    | [c] => if isBreak c then ['+'] else ['-']
    | c :: d :: _ => if !isBreak c then ['-'] else if isBreak d then ['+'] else []
  indented ++ ending

/-- A text as a scalar, up to the end of its last line. Lines but the first are indented by
`hang`. -/
def scalarText (hang : Nat) (cs : List Char) : List Char :=
  match Style.ofText cs with
  | .plain => cs ++ ['\n']
  | .double => '"' :: cs.flatMap escaped ++ ['"', '\n']
  | .single =>
    let doubled (c : Char) : List Char := if c == '\'' then ['\'', '\''] else [c]
    let closing := if cs.getLast?.any isBreak then List.replicate hang ' ' else []
    '\'' :: hung hang doubled false cs ++ closing ++ ['\'', '\n']
  | .literal =>
    let ending := if cs.getLast?.any isBreak then [] else ['\n']
    '|' :: blockHints cs ++ '\n' :: hung hang (fun c => [c]) true cs ++ ending

end Rolewright.Yaml
