/-
# Reading JSON

A strict reader: one value, blanks around it, nothing else. Objects come out sorted by key, the
last of several equal keys winning. Whole numbers beyond 64 bits become fractions, and a fraction
too large for the number format is refused.
-/

import Rolewright.Json.Basic
import Rolewright.Text.Utf8

namespace Rolewright.Json

/-- Drops the blanks that JSON allows between tokens. -/
def skip (cs : List Char) : List Char :=
  cs.dropWhile fun c => c == ' ' || c == '\n' || c == '\t' || c == '\r'

/-- The value of four hexadecimal digits. -/
def hex4? : List Char → Option (Nat × List Char)
  | a :: b :: c :: d :: cs => do
    let digit (c : Char) : Option Nat :=
      if c.isDigit then some (c.toNat - 48)
      else if 'a' ≤ c && c ≤ 'f' then some (c.toNat - 87)
      else if 'A' ≤ c && c ≤ 'F' then some (c.toNat - 55)
      else none
    let a ← digit a
    let b ← digit b
    let c ← digit c
    let d ← digit d
    return (((a * 16 + b) * 16 + c) * 16 + d, cs)
  | _ => none

/-- The character of an escape whose backslash has been read. Characters beyond the first plane
are written as two escapes, neither of which may stand alone. -/
def escape? : List Char → Option (Char × List Char)
  | 'n' :: cs => some ('\n', cs)
  | 't' :: cs => some ('\t', cs)
  | 'r' :: cs => some ('\r', cs)
  | 'b' :: cs => some ('\x08', cs)
  | 'f' :: cs => some ('\x0c', cs)
  | 'u' :: cs => do
    let (n, cs) ← hex4? cs
    if 0xD800 ≤ n && n < 0xDC00 then
      match cs with
      | '\\' :: 'u' :: more =>
        let (m, more) ← hex4? more
        if 0xDC00 ≤ m && m < 0xE000 then
          some (Char.ofNat (0x10000 + (n - 0xD800) * 0x400 + (m - 0xDC00)), more)
        else none
      | _ => none
    else if 0xDC00 ≤ n && n < 0xE000 then none
    else some (Char.ofNat n, cs)
  | c :: cs => if c == '"' || c == '\\' || c == '/' then some (c, cs) else none
  | [] => none

/-- The rest of a string whose opening quote has been read. -/
def string? : Nat → List Char → List Char → Option (String × List Char)
  | 0, _, _ => none
  | _ + 1, _, [] => none
  | fuel + 1, reversed, c :: cs =>
    if c == '"' then some (String.ofList reversed.reverse, cs)
    else if c == '\\' then
      match escape? cs with
      | some (c, cs) => string? fuel (c :: reversed) cs
      | none => none
    else if c.toNat < 32 then none
    else string? fuel (c :: reversed) cs

/-- A number and what follows it. -/
def number? (cs : List Char) : Option (Json × List Char) :=
  let (negative, body) :=
    match cs with
    | '-' :: body => (true, body)
    | _ => (false, cs)
  let whole := body.takeWhile Char.isDigit
  let rest := body.dropWhile Char.isDigit
  let bad := whole.isEmpty || (whole.head? == some '0' && whole.length > 1)
  let (fraction, rest, broken) :=
    match rest with
    | '.' :: more =>
      let digits := more.takeWhile Char.isDigit
      ('.' :: digits, more.dropWhile Char.isDigit, digits.isEmpty)
    | _ => ([], rest, false)
  let (power, rest, broken) :=
    match rest with
    | e :: more =>
      if e == 'e' || e == 'E' then
        let (sign, more) :=
          match more with
          | '+' :: more => ([], more)
          | '-' :: more => (['-'], more)
          | _ => ([], more)
        let digits := more.takeWhile Char.isDigit
        ('e' :: sign ++ digits, more.dropWhile Char.isDigit, broken || digits.isEmpty)
      else ([], rest, broken)
    | [] => ([], rest, broken)
  if bad || broken then none
  else
    let size := Nat.ofDigitChars 10 whole 0
    let fits := if negative then 0 < size && size ≤ Nat.pow 2 63 else size < Nat.pow 2 64
    if fraction.isEmpty && power.isEmpty && fits then
      some (.int (if negative then -size else size), rest)
    else do
      let text := (if negative then ['-'] else []) ++ whole ++ fraction ++ power
      let x ← Binary.ofNumeral? .double text
      if x.isFinite then some (.float x, rest) else none

/-- A fixed word and the value it stands for. -/
def word? (cs : List Char) : Option (Json × List Char) :=
  let read (word : String) (json : Json) :=
    (word.toList.isPrefixOf? cs).map fun rest => (json, rest)
  ((read "null" .null).or (read "true" (.bool true))).or (read "false" (.bool false))

mutual

/-- A value at a depth of nesting of which so much is left. -/
def value? : Nat → Nat → List Char → Option (Json × List Char)
  | 0, _, _ => none
  | fuel + 1, depth, cs =>
    match skip cs with
    | [] => none
    | c :: cs =>
      if c == '"' then (string? (cs.length + 1) [] cs).map fun (text, rest) => (.str text, rest)
      else if c == '[' then
        if depth == 0 then none
        else
          match skip cs with
          | ']' :: rest => some (.arr [], rest)
          | cs => (items? fuel (depth - 1) [] cs).map fun (items, rest) => (.arr items, rest)
      else if c == '\x7b' then
        if depth == 0 then none
        else
          match skip cs with
          | '\x7d' :: rest => some (.obj [], rest)
          | cs =>
            (fields? fuel (depth - 1) [] cs).map fun (fields, rest) =>
              (.obj (Entries.sorted fields), rest)
      else if c == '-' || c.isDigit then number? (c :: cs)
      else word? (c :: cs)

/-- The items of an array up to its end. -/
def items? : Nat → Nat → List Json → List Char → Option (List Json × List Char)
  | 0, _, _, _ => none
  | fuel + 1, depth, reversed, cs =>
    match value? fuel depth cs with
    | none => none
    | some (item, rest) =>
      match skip rest with
      | ',' :: rest => items? fuel depth (item :: reversed) rest
      | ']' :: rest => some ((item :: reversed).reverse, rest)
      | _ => none

/-- The fields of an object up to its end. -/
def fields? : Nat → Nat → Entries Json → List Char → Option (Entries Json × List Char)
  | 0, _, _, _ => none
  | fuel + 1, depth, fields, cs =>
    match skip cs with
    | '"' :: cs =>
      match string? (cs.length + 1) [] cs with
      | none => none
      | some (key, rest) =>
        match skip rest with
        | ':' :: rest =>
          match value? fuel depth rest with
          | none => none
          | some (value, rest) =>
            let fields := Entries.put fields key value
            match skip rest with
            | ',' :: rest => fields? fuel depth fields rest
            | '\x7d' :: rest => some (fields, rest)
            | _ => none
        | _ => none
    | _ => none

end

/-- How deep arrays and objects may nest in a document that is read from a file. -/
def documentDepth : Nat := 127

/-- The value a text spells, if it spells one and nests no deeper than allowed. -/
def read? (depth : Nat) (cs : List Char) : Option Json :=
  match value? (2 * cs.length + 2) depth cs with
  | some (json, rest) => if (skip rest).isEmpty then some json else none
  | none => none

end Rolewright.Json
