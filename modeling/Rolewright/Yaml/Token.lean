/-
# Tokens of YAML

A document as a sequence of tokens. Indentation opens and closes block collections; a scalar that
turns out to stand before a colon gets its key mark afterwards, for which the last place where a
key may have begun is remembered on each level of nesting. A fault ends the sequence. Tokens that
could still have become keys at that point are withheld, since their meaning was not yet settled.
-/

import Rolewright.Text.Utf8
import Rolewright.Yaml.Scalar

namespace Rolewright.Yaml

/-- What a token is. -/
inductive TokenKind where
  | documentStart
  | documentEnd
  | version (major minor : Nat)
  | tagHandle (handle lead : List Char)
  | blockSequence
  | blockMapping
  | blockEnd
  | flowSequence
  | flowSequenceEnd
  | flowMapping
  | flowMappingEnd
  | blockEntry
  | flowEntry
  | key
  | value
  | alias (name : List Char)
  | anchor (name : List Char)
  | tag (handle suffix : List Char)
  | scalar (isPlain : Bool) (text : List Char)
  | streamEnd
  /-- Reading stopped here. -/
  | fault
deriving DecidableEq, Repr

/-- A token and the line on which it starts. -/
structure Token where
  kind : TokenKind
  line : Nat
deriving Repr

/-- A place where a key may have begun. -/
structure KeyStart where
  /-- The number of the token that would be the key. -/
  number : Nat
  /-- Whether nothing but a key can stand there. -/
  required : Bool
  place : Cursor

/-- Tokens while they are read. -/
structure Scanner where
  cursor : Cursor
  /-- The tokens read so far, the last one first. -/
  reversed : List Token
  count : Nat
  /-- How many of them have a settled meaning. -/
  settled : Nat
  /-- The columns of the open block collections, the innermost first. -/
  columns : List Nat
  /-- Where a key may have begun on the current level. -/
  current : Option KeyStart
  /-- Where keys may have begun around the open flow collections, the innermost first. -/
  outer : List (Option KeyStart)
  /-- Whether a key may begin here. -/
  keyAllowed : Bool

namespace Scanner

/-- The start of a text. -/
def start (text : List Char) : Scanner :=
  ⟨Cursor.start text, [], 0, 0, [], none, [], true⟩

/-- Whether a flow collection is open. -/
def inFlow (s : Scanner) : Bool :=
  !s.outer.isEmpty

/-- A fault at the current place. -/
def fault {α : Type} (s : Scanner) : Faulty α :=
  .error s.cursor.line

/-- Adds a token. -/
def push (s : Scanner) (kind : TokenKind) (line : Nat) : Scanner :=
  { s with reversed := ⟨kind, line⟩ :: s.reversed, count := s.count + 1 }

/-- Adds a token before the token of a number. -/
def insert (s : Scanner) (number : Nat) (kind : TokenKind) (line : Nat) : Scanner :=
  let later := s.count - number
  { s with
    reversed := s.reversed.take later ++ ⟨kind, line⟩ :: s.reversed.drop later
    count := s.count + 1 }

/-- Adds a token for the next `n` characters and moves over them. -/
def mark (s : Scanner) (kind : TokenKind) (n : Nat) : Scanner :=
  { s.push kind s.cursor.line with cursor := s.cursor.skip n }

/-! ## Keys -/

/-- Forgets a key start that can no longer be one: keys stand on one line and are short. -/
def expire (s : Scanner) (key : Option KeyStart) : Faulty (Option KeyStart) :=
  match key with
  | none => .ok none
  | some k =>
    if k.place.line < s.cursor.line || k.place.index + 1024 < s.cursor.index then
      if k.required then s.fault else .ok none
    else .ok key

/-- Forgets all key starts that can no longer be ones. -/
def expireAll (s : Scanner) : Faulty Scanner := do
  return { s with current := ← s.expire s.current, outer := ← s.outer.mapM s.expire }

/-- Forgets the key start of the current level. -/
def dropKey (s : Scanner) : Faulty Scanner :=
  if s.current.any (·.required) then s.fault else .ok { s with current := none }

/-- Remembers that a key may begin here, where that is allowed. -/
def saveKey (s : Scanner) : Faulty Scanner := do
  if !s.keyAllowed then return s
  let required := !s.inFlow && s.columns.head? == some s.cursor.column
  return { ← s.dropKey with current := some ⟨s.count, required, s.cursor⟩ }

/-- Counts the tokens whose meaning no key start leaves open. -/
def settle (s : Scanner) : Faulty Scanner := do
  let s ← s.expireAll
  let pending := (s.current :: s.outer).filterMap fun key => key.map (·.number)
  return { s with settled := max s.settled (pending.foldl min s.count) }

/-! ## Indentation -/

/-- Whether a column lies beyond the innermost block collection. -/
def isDeeper (s : Scanner) (column : Nat) : Bool :=
  s.columns.head?.all (· < column)

/-- Opens a block collection at a column beyond the innermost one, before the token of a number. -/
def indent (s : Scanner) (place : Cursor) (number : Nat) (kind : TokenKind) : Scanner :=
  if s.inFlow || !s.isDeeper place.column then s
  else { s.insert number kind place.line with columns := place.column :: s.columns }

/-- Closes the block collections beyond a column, or all of them. -/
def dedent (s : Scanner) (column : Option Nat) : Scanner :=
  if s.inFlow then s
  else
    let closed := s.columns.takeWhile fun c => column.all (· < c)
    let s := closed.foldl (fun s _ => s.push .blockEnd s.cursor.line) s
    { s with columns := s.columns.drop closed.length }

/-! ## Between tokens -/

/-- Moves over blanks, comments and line breaks. Tabs count as blanks where they cannot be
indentation, and after a line break outside flow collections a key may begin. -/
def skipGap : Nat → Scanner → Scanner
  | 0, s => s
  | fuel + 1, s =>
    let c := s.cursor
    let c := if c.index == 0 && c.seesAny (·.toNat == 0xFEFF) then c.skip 1 else c
    let c := c.skipWhile fun ch => ch == ' ' || (ch == '\t' && (s.inFlow || !s.keyAllowed))
    let c := if c.sees '#' then c.skipWhile fun ch => !isBreak ch else c
    match c.break? with
    | some (_, next) =>
      skipGap fuel { s with cursor := next, keyAllowed := s.keyAllowed || !s.inFlow }
    | none => { s with cursor := c }

/-! ## Marks -/

/-- A mark or a directive that stands between documents. -/
def betweenDocuments (s : Scanner) : Faulty Scanner := do
  return { ← (s.dedent none).dropKey with keyAllowed := false }

/-- The end of the text. It counts as the start of a line. -/
def finish (s : Scanner) : Faulty Scanner := do
  let c := s.cursor
  let c := if c.column == 0 then c else { c with line := c.line + 1, column := 0 }
  let s ← betweenDocuments { s with cursor := c }
  return s.push .streamEnd c.line

/-- The bracket that opens a flow collection. -/
def openFlow (s : Scanner) (kind : TokenKind) : Faulty Scanner := do
  let s ← s.saveKey
  return { s.mark kind 1 with current := none, outer := s.current :: s.outer, keyAllowed := true }

/-- The bracket that closes a flow collection. -/
def closeFlow (s : Scanner) (kind : TokenKind) : Faulty Scanner := do
  let s ← s.dropKey
  let s :=
    match s.outer with
    | key :: outer => { s with current := key, outer }
    | [] => s
  return { s.mark kind 1 with keyAllowed := false }

/-- The comma between the parts of a flow collection. -/
def flowEntry (s : Scanner) : Faulty Scanner := do
  return { (← s.dropKey).mark .flowEntry 1 with keyAllowed := true }

/-- The dash of a list. -/
def blockEntry (s : Scanner) : Faulty Scanner := do
  if !s.inFlow && !s.keyAllowed then s.fault
  let s ← (s.indent s.cursor s.count .blockSequence).dropKey
  return { s.mark .blockEntry 1 with keyAllowed := true }

/-- The question mark before a key. -/
def explicitKey (s : Scanner) : Faulty Scanner := do
  if !s.inFlow && !s.keyAllowed then s.fault
  let s ← (s.indent s.cursor s.count .blockMapping).dropKey
  return { s.mark .key 1 with keyAllowed := !s.inFlow }

/-- The colon before a value. Where a key may have begun, it has. -/
def value (s : Scanner) : Faulty Scanner := do
  match s.current with
  | some key =>
    let s := (s.insert key.number .key key.place.line).indent key.place key.number .blockMapping
    return { s.mark .value 1 with current := none, keyAllowed := false }
  | none =>
    if !s.inFlow && !s.keyAllowed then s.fault
    let s := s.indent s.cursor s.count .blockMapping
    return { s.mark .value 1 with keyAllowed := !s.inFlow }

/-! ## Names and tags -/

/-- An alias or an anchor. -/
def name (s : Scanner) (kind : List Char → TokenKind) : Faulty Scanner := do
  let s ← s.saveKey
  let line := s.cursor.line
  let (name, c) := (s.cursor.skip 1).takeWhile isNameChar
  let ended := isGap c.peek? || c.seesAny ("?:,]\x7d%@\x60".toList.contains ·)
  if name.isEmpty || !ended then .error c.line
  return { s.push (kind name) line with cursor := c, keyAllowed := false }

/-- Percent-encoded bytes of one character. -/
def encodedByte? : List Char → Option Nat
  | '%' :: a :: b :: _ => do return (← hexValue? a) * 16 + (← hexValue? b)
  | _ => none

/-- How many bytes a character has that starts with the byte `n`. -/
def byteCount? (n : Nat) : Option Nat :=
  if n < 0x80 then some 1
  else if 0xC0 ≤ n && n < 0xE0 then some 2
  else if 0xE0 ≤ n && n < 0xF0 then some 3
  else if 0xF0 ≤ n && n < 0xF8 then some 4
  else none

/-- One percent-encoded character: its text, and how much of the tag it takes. -/
def encodedChar? (cs : List Char) : Option (List Char × Nat) := do
  let first ← encodedByte? cs
  let count ← byteCount? first
  let more ← (List.range (count - 1)).mapM fun i => encodedByte? (cs.drop (3 * (i + 1)))
  if more.all fun n => 0x80 ≤ n && n < 0xC0 then
    return (Text.decodeLenient ((first :: more).map fun n => n.toUInt8), 3 * count)
  else none

/-- The characters of a tag from here on. -/
def tagText (bracketed : Bool) : Nat → List Char → Cursor → Faulty (List Char × Cursor)
  | 0, text, c => .ok (text, c)
  | fuel + 1, text, c =>
    match c.peek? with
    | some ch =>
      if !isTagChar bracketed ch then .ok (text, c)
      else if ch == '%' then
        match encodedChar? c.rest with
        | some (decoded, n) => tagText bracketed fuel (text ++ decoded) (c.skip n)
        | none => .error c.line
      else tagText bracketed fuel (text ++ [ch]) (c.skip 1)
    | none => .ok (text, c)

/-- The characters of a tag, at least one of them. -/
def properTagText (bracketed : Bool) (c : Cursor) : Faulty (List Char × Cursor) := do
  let (text, next) ← tagText bracketed (c.rest.length + 1) [] c
  if next.index == c.index then .error next.line else return (text, next)

/-- The handle of a tag: an exclamation mark, or a name between two of them. -/
def handle (c : Cursor) : Faulty (List Char × Cursor) :=
  if !c.sees '!' then .error c.line
  else
    let (name, next) := (c.skip 1).takeWhile isNameChar
    if next.sees '!' then .ok ('!' :: name ++ ['!'], next.skip 1) else .ok ('!' :: name, next)

/-- The handle and the suffix of a tag. What stands between angle brackets has no handle, and a
lone exclamation mark is all suffix. -/
def tagParts (c : Cursor) : Faulty (List Char × List Char × Cursor) := do
  if c.peekAt? 1 == some '<' then
    let (suffix, c) ← properTagText true (c.skip 2)
    if !c.sees '>' then .error c.line
    return ([], suffix, c.skip 1)
  else
    let (head, c) ← handle c
    if 1 < head.length && head.getLast? == some '!' then
      let (suffix, c) ← properTagText false c
      return (head, suffix, c)
    else
      let (suffix, c) ← tagText false (c.rest.length + 1) (head.drop 1) c
      return if suffix.isEmpty then ([], ['!'], c) else (['!'], suffix, c)

/-- A tag. -/
def tag (s : Scanner) : Faulty Scanner := do
  let s ← s.saveKey
  let (handle, suffix, c) ← tagParts s.cursor
  if !(isGap c.peek? || (s.inFlow && c.sees ',')) then .error c.line
  return { s.push (.tag handle suffix) s.cursor.line with cursor := c, keyAllowed := false }

/-! ## Directives -/

/-- A number of a version. -/
def versionNumber (c : Cursor) : Faulty (Nat × Cursor) :=
  let (digits, next) := c.takeWhile Char.isDigit
  if digits.isEmpty || 9 < digits.length then .error next.line
  else .ok (Nat.ofDigitChars 10 digits 0, next)

/-- What a directive says, after its name. -/
def directiveBody (name : List Char) (c : Cursor) : Faulty (TokenKind × Cursor) := do
  let c := c.skipWhile isSpace
  if name == "YAML".toList then
    let (major, c) ← versionNumber c
    if !c.sees '.' then .error c.line
    let (minor, c) ← versionNumber (c.skip 1)
    return (.version major minor, c)
  else if name == "TAG".toList then
    let (head, c) ← handle c
    if head.getLast? != some '!' then .error c.line
    if !c.seesAny isSpace then .error c.line
    let (lead, c) ← properTagText true (c.skipWhile isSpace)
    if !isGap c.peek? then .error c.line
    return (.tagHandle head lead, c)
  else .error c.line

/-- A directive. -/
def directive (s : Scanner) : Faulty Scanner := do
  let s ← s.betweenDocuments
  let (name, c) := (s.cursor.skip 1).takeWhile isNameChar
  if name.isEmpty || !isGap c.peek? then .error c.line
  let (kind, c) ← directiveBody name c
  return { s.push kind s.cursor.line with cursor := ← c.finishLine }

/-! ## Scalars -/

/-- A block scalar. -/
def block (s : Scanner) (literal : Bool) : Faulty Scanner := do
  let s ← s.dropKey
  let (text, c) ← blockScalar literal s.columns.head? s.cursor
  return { s.push (.scalar false text) s.cursor.line with cursor := c, keyAllowed := true }

/-- A quoted scalar. -/
def quoted (s : Scanner) (single : Bool) : Faulty Scanner := do
  let s ← s.saveKey
  let (text, c) ← quotedScalar single s.cursor
  return { s.push (.scalar false text) s.cursor.line with cursor := c, keyAllowed := false }

/-- A plain scalar. When it was left on a new line, a key may begin there. -/
def plain (s : Scanner) : Faulty Scanner := do
  let s ← s.saveKey
  let indent := match s.columns.head? with
    | some n => n + 1
    | none => 0
  let (text, onNewLine, c) ← plainScalar s.inFlow indent s.cursor
  return { s.push (.scalar true text) s.cursor.line with cursor := c, keyAllowed := onNewLine }

/-- Whether a plain scalar may start with `ch`, given the character after it. -/
def startsPlain (flow : Bool) (ch : Char) (next : Option Char) : Bool :=
  !("-?:,[]\x7b\x7d#&*!|>'\"%@\x60".toList.contains ch) ||
    (ch == '-' && !next.any isSpace) ||
    (!flow && (ch == '?' || ch == ':') && !isGap next)

/-! ## The next token -/

/-- Reads the next token, and the marks that its indentation implies. -/
def next (s : Scanner) : Faulty Scanner := do
  let s ← (skipGap (s.cursor.rest.length + 1) s).expireAll
  let s := s.dedent (some s.cursor.column)
  let c := s.cursor
  match c.rest with
  | [] => s.finish
  | ch :: rest =>
    let after := rest.head?
    if c.column == 0 && ch == '%' then s.directive
    else if c.atDocumentMark '-' then return (← s.betweenDocuments).mark .documentStart 3
    else if c.atDocumentMark '.' then return (← s.betweenDocuments).mark .documentEnd 3
    else if ch == '[' then s.openFlow .flowSequence
    else if ch == '\x7b' then s.openFlow .flowMapping
    else if ch == ']' then s.closeFlow .flowSequenceEnd
    else if ch == '\x7d' then s.closeFlow .flowMappingEnd
    else if ch == ',' then s.flowEntry
    else if ch == '-' && isGap after then s.blockEntry
    else if ch == '?' && (s.inFlow || isGap after) then s.explicitKey
    else if ch == ':' && (s.inFlow || isGap after) then s.value
    else if ch == '*' then s.name .alias
    else if ch == '&' then s.name .anchor
    else if ch == '!' then s.tag
    else if ch == '|' && !s.inFlow then s.block true
    else if ch == '>' && !s.inFlow then s.block false
    else if ch == '\'' then s.quoted true
    else if ch == '"' then s.quoted false
    else if !isGap (some ch) && startsPlain s.inFlow ch after then s.plain
    else s.fault

/-- The settled tokens, then a fault. -/
def broken (s : Scanner) (line : Nat) : List Token :=
  s.reversed.reverse.take s.settled ++ [⟨.fault, line⟩]

/-- All tokens from here on, after those that were read. -/
def run : Nat → Scanner → List Token
  | 0, s => s.broken s.cursor.line
  | fuel + 1, s =>
    match s.next.bind settle with
    | .error line => s.broken line
    | .ok s =>
      match s.reversed with
      | ⟨.streamEnd, _⟩ :: _ => s.reversed.reverse
      | _ => run fuel s

end Scanner

/-- The tokens of a text, the last one being its end or a fault. A character that no document may
hold is a fault before everything else. -/
def Token.ofText (text : List Char) : List Token :=
  if text.all isReadable then (Scanner.start text).run (text.length + 2)
  else [⟨.fault, 0⟩]

end Rolewright.Yaml
