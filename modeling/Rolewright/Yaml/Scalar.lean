/-
# Reading scalars

The text of a scalar in its four written forms. A line break inside a quoted or plain scalar folds
into a blank, or into the line breaks after it; a literal block keeps its lines, a folded one joins
those that are not indented further.
-/

import Rolewright.Yaml.Cursor

namespace Rolewright.Yaml

/-- Blanks and line breaks between two parts of a scalar. -/
structure Gap where
  /-- The blanks before the first line break. -/
  blanks : List Char
  broken : Bool
  /-- The first line break, as it is kept. -/
  first : Option Char
  /-- The further line breaks. -/
  more : List Char

namespace Gap

/-- No gap at all. -/
def none : Gap := ⟨[], false, Option.none, []⟩

/-- What stands for the gap inside the scalar. -/
def text (g : Gap) : List Char :=
  if !g.broken then g.blanks
  else if g.first == some '\n' then if g.more.isEmpty then [' '] else g.more
  else g.first.toList ++ g.more

/-- Reads a gap. After a line break, a tab before the column `indent` is a fault. -/
def read (indent : Nat) : Nat → Gap → Cursor → Faulty (Gap × Cursor)
  | 0, g, c => .ok (g, c)
  | fuel + 1, g, c =>
    match c.break? with
    | some (ch, next) =>
      if g.broken then read indent fuel { g with more := g.more ++ [ch] } next
      else read indent fuel { g with broken := true, blanks := [], first := some ch } next
    | Option.none =>
      match c.peek? with
      | some ch =>
        if !isSpace ch then .ok (g, c)
        else if g.broken && c.column < indent && ch == '\t' then .error c.line
        else if g.broken then read indent fuel g (c.skip 1)
        else read indent fuel { g with blanks := g.blanks ++ [ch] } (c.skip 1)
      | Option.none => .ok (g, c)

end Gap

/-! ## Plain scalars -/

/-- How many characters of a plain scalar follow without a gap. In a flow collection a colon before
an indicator is a fault. -/
def plainRun (flow : Bool) : List Char → Option Nat
  | [] => some 0
  | ch :: rest =>
    let next := rest.head?
    if isGap (some ch) then some 0
    else if flow && ch == ':' && next.any (",?[]\x7b\x7d".toList.contains ·) then none
    else if ch == ':' && isGap next then some 0
    else if flow && ",[]\x7b\x7d".toList.contains ch then some 0
    else (plainRun flow rest).map (· + 1)

/-- The rest of a plain scalar after a gap. The result tells whether the scalar was left on a new
line. -/
def plainFrom (flow : Bool) (indent : Nat) :
    Nat → List Char → Gap → Cursor → Faulty (List Char × Bool × Cursor)
  | 0, text, gap, c => .ok (text, gap.broken, c)
  | fuel + 1, text, gap, c =>
    if c.atDocumentEdge || c.sees '#' then .ok (text, gap.broken, c)
    else
      match plainRun flow c.rest with
      | none =>
        -- The fault stands where the run is cut off, and a run never leaves its line.
        .error c.line
      | some 0 => .ok (text, gap.broken, c)
      | some n => do
        let text := text ++ gap.text ++ c.rest.take n
        let c := c.skip n
        if !c.seesAny fun ch => isGap (some ch) then return (text, false, c)
        let (gap, c) ← Gap.read indent (c.rest.length + 1) Gap.none c
        if !flow && c.column < indent then return (text, gap.broken, c)
        plainFrom flow indent fuel text gap c

/-- A plain scalar. Its further lines stand at `indent` or beyond. -/
def plainScalar (flow : Bool) (indent : Nat) (c : Cursor) : Faulty (List Char × Bool × Cursor) :=
  plainFrom flow indent (c.rest.length + 1) [] Gap.none c

/-! ## Quoted scalars -/

/-- The character that an escape of one letter stands for. -/
def shortEscapes : List (Char × Nat) :=
  [('0', 0x00), ('a', 0x07), ('b', 0x08), ('t', 0x09), ('\t', 0x09), ('n', 0x0A), ('v', 0x0B),
    ('f', 0x0C), ('r', 0x0D), ('e', 0x1B), (' ', 0x20), ('"', 0x22), ('/', 0x2F), ('\\', 0x5C),
    ('N', 0x85), ('_', 0xA0), ('L', 0x2028), ('P', 0x2029)]

/-- How many hexadecimal digits an escape has. -/
def escapeWidths : List (Char × Nat) :=
  [('x', 2), ('u', 4), ('U', 8)]

/-- An escape after its backslash: the character and how much it takes. -/
def escapeAt? (cs : List Char) : Option (Char × Nat) :=
  match cs with
  | [] => none
  | letter :: rest =>
    match shortEscapes.lookup letter with
    | some n => some (Char.ofNat n, 1)
    | none => do
      let width ← escapeWidths.lookup letter
      let digits := rest.take width
      if digits.length < width then none
      else
        let n ← digits.foldlM (fun n c => (hexValue? c).map fun d => n * 16 + d) 0
        if (0xD800 ≤ n && n ≤ 0xDFFF) || 0x10FFFF < n then none
        else some (Char.ofNat n, width + 1)

/-- The rest of a quoted scalar up to its closing quote, after the characters `reversed`. -/
def quotedFrom (single : Bool) : Nat → List Char → Cursor → Faulty (List Char × Cursor)
  | 0, _, c => .error c.line
  | fuel + 1, reversed, c =>
    if c.atDocumentEdge then .error c.line
    else
      match c.rest with
      | [] => .error c.line
      | ch :: rest =>
        if isGap (some ch) then do
          let (gap, c) ← Gap.read 0 (c.rest.length + 1) Gap.none c
          quotedFrom single fuel (gap.text.reverse ++ reversed) c
        else if single then
          if ch != '\'' then quotedFrom single fuel (ch :: reversed) (c.skip 1)
          else if rest.head? == some '\'' then
            quotedFrom single fuel ('\'' :: reversed) (c.skip 2)
          else .ok (reversed.reverse, c.skip 1)
        else if ch == '"' then .ok (reversed.reverse, c.skip 1)
        else if ch != '\\' then quotedFrom single fuel (ch :: reversed) (c.skip 1)
        else
          match (c.skip 1).break? with
          | some (_, next) => do
            let (gap, c) ← Gap.read 0 (next.rest.length + 1) { Gap.none with broken := true } next
            quotedFrom single fuel (gap.text.reverse ++ reversed) c
          | none =>
            match escapeAt? rest with
            | some (meant, taken) => quotedFrom single fuel (meant :: reversed) (c.skip (taken + 1))
            | none => .error c.line

/-- A quoted scalar, its opening quote included. -/
def quotedScalar (single : Bool) (c : Cursor) : Faulty (List Char × Cursor) :=
  quotedFrom single (c.rest.length + 1) [] (c.skip 1)

/-! ## Block scalars -/

/-- What becomes of the line breaks at the end of a block scalar. -/
inductive Chomping where
  | strip
  | clip
  | keep
deriving DecidableEq

/-- The signs after the mark of a block scalar: the chomping and the indentation digit, in either
order. -/
def blockHeader (c : Cursor) : Faulty (Chomping × Nat × Cursor) := do
  let chomping (c : Cursor) : Chomping × Cursor :=
    if c.sees '+' then (.keep, c.skip 1)
    else if c.sees '-' then (.strip, c.skip 1)
    else (.clip, c)
  let digit (c : Cursor) : Faulty (Nat × Cursor) :=
    match c.peek? with
    | some ch =>
      if ch == '0' then .error c.line
      else if ch.isDigit then .ok (ch.toNat - 48, c.skip 1)
      else .ok (0, c)
    | none => .ok (0, c)
  let (kind, c) := chomping c
  let (n, c) ← digit c
  if kind == .clip && 0 < n then
    let (kind, c) := chomping c
    return (kind, n, ← c.finishLine)
  else return (kind, n, ← c.finishLine)

/-- The empty lines before a line of a block scalar: their breaks, the widest indentation met, and
the place where the line starts. Indentation is eaten up to `indent`, or wholly while it is not
known. -/
def blockBreaks (indent : Option Nat) :
    Nat → List Char → Nat → Cursor → Faulty (List Char × Nat × Cursor)
  | 0, breaks, widest, c => .ok (breaks, widest, c)
  | fuel + 1, breaks, widest, c =>
    let inside (column : Nat) : Bool := indent.all (column < ·)
    let spaces := (c.rest.takeWhile (· == ' ')).length
    let c := c.skip (match indent with
      | some n => min spaces (n - c.column)
      | none => spaces)
    let widest := max widest c.column
    if inside c.column && c.sees '\t' then .error c.line
    else
      match c.break? with
      | some (ch, next) => blockBreaks indent fuel (breaks ++ [ch]) widest next
      | none => .ok (breaks, widest, c)

/-- The lines of a block scalar at column `indent`. `leading` is the break before the line, `breaks`
are those of empty lines after it, and `blank` tells whether the line before began with a blank. -/
def blockLines (literal : Bool) (indent : Nat) :
    Nat → List Char → Option Char → List Char → Bool → Cursor →
      Faulty (List Char × Option Char × List Char × Cursor)
  | 0, text, leading, breaks, _, c => .ok (text, leading, breaks, c)
  | fuel + 1, text, leading, breaks, blank, c =>
    if c.column != indent || c.rest.isEmpty then .ok (text, leading, breaks, c)
    else do
      let blankNow := c.seesAny isSpace
      let joint :=
        if !literal && leading == some '\n' && !blank && !blankNow then
          if breaks.isEmpty then [' '] else []
        else leading.toList
      let (line, c) := c.takeWhile fun ch => !isGap (some ch) || isSpace ch
      let text := text ++ joint ++ breaks ++ line
      let (leading, c) :=
        match c.break? with
        | some (ch, next) => (some ch, next)
        | none => (none, c)
      let (breaks, _, c) ← blockBreaks (some indent) (c.rest.length + 1) [] 0 c
      blockLines literal indent fuel text leading breaks blankNow c

/-- A block scalar, its mark included, inside a collection at the column `parent`. -/
def blockScalar (literal : Bool) (parent : Option Nat) (c : Cursor) :
    Faulty (List Char × Cursor) := do
  let (chomping, digit, c) ← blockHeader (c.skip 1)
  let given := if digit == 0 then none else some (parent.getD 0 + digit)
  let (breaks, widest, c) ← blockBreaks given (c.rest.length + 1) [] 0 c
  let least := match parent with
    | some n => n + 1
    | none => 1
  let indent := given.getD (max widest least)
  let (text, leading, breaks, c) ←
    blockLines literal indent (c.rest.length + 1) [] none breaks false c
  let ending :=
    match chomping with
    | .strip => []
    | .clip => leading.toList
    | .keep => leading.toList ++ breaks
  return (text ++ ending, c)

end Rolewright.Yaml
