/-
# Reading expressions

The literals among the expressions of a recipe, and what they denote. Every rule that looks inside
an expression looks at a strictly shorter text, so the reader is built in layers: one layer turns
a reader of shorter texts into a reader of this one.
-/

import Rolewright.Value.Basic
import Rolewright.Value.Nesting

namespace Rolewright.Value

open Text

/-! ## Leaves -/

/-- The name of a symbol written with a colon. -/
def symbol? : List Char → Option (List Char)
  | ':' :: cs =>
    match takeIdent isIdentStart isAsciiWord cs with
    | some (name, []) => some name
    | some (name, [c]) => if c == '?' || c == '!' then some (name ++ [c]) else none
    | _ => none
  | _ => none

/-- The text of a literal whose opening quote has been read; nothing may follow the closing one.
Double quotes know line feeds and tabs, single quotes only escape a quote and a backslash. -/
def unquote? (quote : Char) : List Char → Option (List Char)
  | [] => none
  | '\\' :: c :: cs =>
    let meant :=
      if quote == '"' then
        if c == 'n' then ['\n'] else if c == 't' then ['\t'] else [c]
      else if c == '\'' || c == '\\' then [c]
      else ['\\', c]
    (unquote? quote cs).map (meant ++ ·)
  | c :: cs =>
    if c == '\\' then none
    else if c == quote then if cs.isEmpty then some [] else none
    else (unquote? quote cs).map (c :: ·)

/-- The text of a quoted literal. -/
def quotedLiteral? (quote : Char) : List Char → Option (List Char)
  | [] => none
  | c :: cs => if c == quote then unquote? quote cs else none

/-- The bracket that closes a list of words. -/
def wordsEnd? : Char → Option Char
  | '(' => some ')'
  | '[' => some ']'
  | '\x7b' => some '\x7d'
  | '<' => some '>'
  | '|' => some '|'
  | _ => none

/-- A list of bare words, as strings or as symbols. -/
def wordList? : List Char → Option Value
  | '%' :: flavor :: opening :: cs =>
    if flavor != 'w' && flavor != 'W' && flavor != 'i' && flavor != 'I' then none
    else do
      let ending ← wordsEnd? opening
      let body ← beforeSuffix? [ending] cs
      if body.contains ending then none
      else
        let item (word : List Char) : Value :=
          if flavor == 'i' || flavor == 'I' then .sym (String.ofList word)
          else .str (String.ofList word)
        some (.list ((words body).map item))
  | _ => none

/-- A number: an integer of 64 bits, a decimal fraction, or digits that keep a leading zero and so
are a string. A number that does not fit stays as it was written. -/
def number? (cs : List Char) : Option Value :=
  let (negative, body) :=
    match cs with
    | '-' :: body => (true, body)
    | _ => (false, cs)
  match body with
  | [] => none
  | first :: _ =>
    if !first.isDigit then none
    else if body.all fun c => c.isDigit || c == '_' then
      if first == '0' && body.length > 1 then some (.str (String.ofList cs))
      else
        let size := Nat.ofDigitChars 10 (body.filter Char.isDigit) 0
        let n : Int := if negative then -size else size
        if -(Int.pow 2 63) ≤ n && n < Int.pow 2 63 then some (.int n)
        else some (.raw (String.ofList cs))
    else
      match body.dropWhile Char.isDigit with
      | '.' :: fraction =>
        if fraction.isEmpty || !fraction.all Char.isDigit then none
        else (Binary.ofNumeral? .double cs).map .float
      | _ => none

/-- Words with a fixed meaning. -/
def keyword? (cs : List Char) : Option Value :=
  if cs = "true".toList then some (.bool true)
  else if cs = "false".toList then some (.bool false)
  else if cs = "nil".toList then some .nil
  else none

/-- A symbol, bare or with a quoted name. -/
def symbolLiteral? (cs : List Char) : Option Value :=
  match symbol? cs with
  | some name => some (.sym (String.ofList name))
  | none =>
    match cs with
    | ':' :: rest =>
      ((quotedLiteral? '"' rest).or (quotedLiteral? '\'' rest)).map fun name =>
        .sym (String.ofList name)
    | _ => none

/-- A string in single quotes, or in double quotes without interpolation. -/
def stringLiteral? (cs : List Char) : Option Value :=
  let text :=
    (quotedLiteral? '\'' cs).or
      (if containsText ['#', '\x7b'] cs then none else quotedLiteral? '"' cs)
  text.map fun text => .str (String.ofList text)

/-- Literals that hold no other expression. -/
def leaf? (cs : List Char) : Option Value :=
  ((((stringLiteral? cs).or (wordList? cs)).or (symbolLiteral? cs)).or (keyword? cs)).or
    (number? cs)

/-! ## Pairs -/

/-- A key before a colon: an identifier or a quoted text, the quotes being part of neither. -/
def colonKey? (part : List Char) : Option (List Char × List Char) :=
  match part with
  | '\'' :: cs =>
    match cs.dropWhile (· != '\'') with
    | _ :: ':' :: rest => some (cs.takeWhile (· != '\''), rest)
    | _ => none
  | '"' :: cs =>
    match cs.dropWhile (· != '"') with
    | _ :: ':' :: rest => some (cs.takeWhile (· != '"'), rest)
    | _ => none
  | _ =>
    match takeIdent isIdentStart isAsciiWord part with
    | some (key, ':' :: rest) => some (key, rest)
    | _ => none

/-- A `key: value` pair. The colon is followed by a blank, and the value is on one line. -/
def colonPair? (part : List Char) : Option (List Char × List Char) := do
  let (key, rest) ← colonKey? part
  let value := trimStart rest
  if value.length == rest.length || value.isEmpty || value.contains '\n' then none
  else some (key, value)

section Layer

variable (shorter : List Char → Value)

/-- The key that an expression before an arrow names. -/
def arrowKeyWith? (key : List Char) : Option String :=
  match symbol? key with
  | some name => some (String.ofList name)
  | none =>
    match shorter key with
    | .str text => some text
    | .int n => some (toString n)
    | .ref path => if path.toList.contains '.' then none else some path
    | _ => none

/-- The halves of a `key => value` or `key: value` pair. -/
def pairWith? (part : List Char) : Option (String × List Char) :=
  match splitAtMark? ['=', '>'] .start part with
  | some (key, value) => (arrowKeyWith? shorter (trim key)).map fun key => (key, trim value)
  | none => (colonPair? part).map fun (key, value) => (String.ofList key, value)

/-- The map that parts denote which are pairs without exception. -/
def pairsWith? (parts : List (List Char)) : Option Value :=
  if parts.isEmpty then none
  else
    (parts.mapM (pairWith? shorter)).map fun pairs =>
      .map (Entries.ofPairs (pairs.map fun (key, value) => (key, shorter (trim value))))

/-- A whole expression: several arguments are a map when all are pairs and a list otherwise. -/
def expressionWith (s : List Char) : Value :=
  match split ',' s with
  | parts@(_ :: _ :: _) =>
    (pairsWith? shorter parts).getD (.list (parts.map fun part => shorter (trim part)))
  | parts => (pairsWith? shorter parts).getD (shorter s)

/-- The key between the brackets of an index. -/
def indexKeyWith? (key : List Char) : Option String :=
  match shorter (trim key) with
  | .str text | .sym text => some text
  | .int n => some (toString n)
  | _ => none

/-- The bracketed keys that occur in a text, innermost brackets only. -/
def bracketed : List Char → List (List Char)
  | [] => []
  | c :: cs =>
    if c == '[' then
      let key := cs.takeWhile fun c => c != '[' && c != ']'
      if !key.isEmpty && (cs.drop key.length).head? == some ']' then key :: bracketed cs
      else bracketed cs
    else bracketed cs

/-- The keys of a chain of indices. -/
def indexPathWith? (chain : List Char) : Option (List String) :=
  (bracketed chain).mapM (indexKeyWith? shorter)

/-- Whether a text is a chain of one or more indices without blanks between them. -/
def isIndexChain : Nat → List Char → Bool
  | 0, _ => false
  | fuel + 1, '[' :: cs =>
    let key := cs.takeWhile fun c => c != '[' && c != ']'
    match cs.drop key.length with
    | ']' :: rest => !key.isEmpty && (rest.isEmpty || isIndexChain fuel rest)
    | _ => false
  | _, _ => false

/-- Whether a text is one or more names, each after a dot. -/
def isDottedPath : Nat → List Char → Bool
  | 0, _ => false
  | fuel + 1, '.' :: cs =>
    match takeIdent isNameStart isAsciiWord cs with
    | some (_, rest) => rest.isEmpty || isDottedPath fuel rest
    | none => false
  | _, _ => false

/-- The names under which node attributes are indexed. -/
def attributeRoots : List (List Char) :=
  ["node".toList, "default".toList, "override".toList, "normal".toList]

/-- The dotted path of a node attribute, written with dots or with indices. The precedence levels
of attribute files lead to the same path. -/
def nodeReferenceWith? (cs : List Char) : Option String :=
  let dotted := (afterPrefix? "node".toList cs).any fun rest => isDottedPath rest.length rest
  if dotted then some (String.ofList cs)
  else
    attributeRoots.findSome? fun root =>
      match afterPrefix? root cs with
      | some chain =>
        if isIndexChain chain.length chain then
          (indexPathWith? shorter chain).map fun keys => "node." ++ String.intercalate "." keys
        else none
      | none => none

/-- A literal that holds expressions: a group, a list or a map. -/
def compoundWith? (s : List Char) : Option Value :=
  match enclosed? '[' ']' s with
  | some inside => some (.list ((split ',' inside).map fun part => shorter (trim part)))
  | none =>
    match enclosed? '\x7b' '\x7d' s with
    | some inside =>
      match split ',' inside with
      | [] => some (.map [])
      | parts => some ((pairsWith? shorter parts).getD (.raw (String.ofList s)))
    | none => none

/-- One expression without a separator at the top, given a reader for the texts inside it. -/
def singleWith (s : List Char) : Value :=
  match enclosed? '(' ')' s with
  | some inside => expressionWith shorter (trim inside)
  | none =>
    match (leaf? s).or (compoundWith? shorter s) with
    | some value => value
    | none =>
      match nodeReferenceWith? shorter s with
      | some path => .ref path
      | none => if isName s then .ref (String.ofList s) else .raw (String.ofList s)

end Layer

/-- Reads one expression through at most so many layers. -/
def singleWithin : Nat → List Char → Value
  | 0, s => .raw (String.ofList s)
  | layers + 1, s => singleWith (singleWithin layers) s

/-- The value of one trimmed expression without a separator at the top. -/
def single (s : List Char) : Value :=
  singleWithin (s.length + 1) s

/-- The value of an expression. -/
def parse (expr : List Char) : Value :=
  expressionWith single (trim expr)

/-- The halves of a pair. -/
def pair? (part : List Char) : Option (String × List Char) :=
  pairWith? single part

/-- The dotted path that an expression names, if it is a node attribute. -/
def nodeReference? (s : List Char) : Option String :=
  nodeReferenceWith? single s

/-- The keys of a chain of indices, if each is a literal key. -/
def indexPath? (chain : List Char) : Option (List String) :=
  indexPathWith? single chain

/-- The key that the text inside an index names. -/
def indexKey? (key : List Char) : Option String :=
  indexKeyWith? single key

end Rolewright.Value
