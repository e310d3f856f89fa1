/-
# TOML scalars

Texts between quotes, numbers, and points in time. Each reader takes a value from the front of a
text and gives back what follows it.
-/

import Rolewright.Text.Search
import Rolewright.Toml.Basic

namespace Rolewright.Toml

open Text

/-- Blanks inside a line. -/
def isBlank (c : Char) : Bool :=
  c == ' ' || c == '\t'

/-- Drops blanks. -/
def skipBlanks (cs : List Char) : List Char :=
  cs.dropWhile isBlank

/-- Characters that may stand in a comment or a text: no control characters but the tab. -/
def isPlain (c : Char) : Bool :=
  c == '\t' || (' ' ≤ c && c.toNat != 0x7F)

/-- What follows a line break. -/
def afterBreak? : List Char → Option (List Char)
  | '\n' :: cs => some cs
  | '\r' :: '\n' :: cs => some cs
  | _ => none

/-! ## Texts -/

/-- The value of hexadecimal digits. -/
def hexadecimal? (digits : List Char) : Option Nat :=
  digits.foldlM (fun n c =>
    if c.isDigit then some (n * 16 + (c.toNat - 48))
    else if 'a' ≤ c && c ≤ 'f' then some (n * 16 + (c.toNat - 87))
    else if 'A' ≤ c && c ≤ 'F' then some (n * 16 + (c.toNat - 55))
    else none) 0

/-- The character with a number that is written in so many digits. -/
def numbered? (count : Nat) (cs : List Char) : Option (Char × List Char) := do
  let digits := cs.take count
  if digits.length < count then none
  else
    let n ← hexadecimal? digits
    if n.isValidChar then some (Char.ofNat n, cs.drop count) else none

/-- The character of an escape whose backslash has been read. -/
def escape? : List Char → Option (Char × List Char)
  | 'b' :: cs => some ('\x08', cs)
  | 't' :: cs => some ('\t', cs)
  | 'n' :: cs => some ('\n', cs)
  | 'f' :: cs => some ('\x0c', cs)
  | 'r' :: cs => some ('\r', cs)
  | '"' :: cs => some ('"', cs)
  | '\\' :: cs => some ('\\', cs)
  | 'u' :: cs => numbered? 4 cs
  | 'U' :: cs => numbered? 8 cs
  | _ => none

/-- The rest of a text on one line. Only double quotes know escapes. -/
def line? (quote : Char) : Nat → List Char → List Char → Option (String × List Char)
  | 0, _, _ => none
  | _ + 1, _, [] => none
  | fuel + 1, reversed, c :: cs =>
    if c == quote then some (String.ofList reversed.reverse, cs)
    else if c == '\\' && quote == '"' then
      match escape? cs with
      | some (c, cs) => line? quote fuel (c :: reversed) cs
      | none => none
    else if isPlain c then line? quote fuel (c :: reversed) cs
    else none

/-- What follows a backslash that hides a line break: the blanks and breaks after it. -/
def afterHiddenBreak? (cs : List Char) : Option (List Char) :=
  (afterBreak? (skipBlanks cs)).map skipAll
where
  /-- Drops blanks and line breaks. -/
  skipAll : List Char → List Char
    | '\r' :: '\n' :: cs => skipAll cs
    | c :: cs => if c == '\n' || isBlank c then skipAll cs else c :: cs
    | [] => []

/-- The rest of a text over several lines. It ends at three quotes; up to two more directly before
them belong to it. Every line break becomes a line feed. -/
def lines? (quote : Char) : Nat → List Char → List Char → Option (String × List Char)
  | 0, _, _ => none
  | _ + 1, _, [] => none
  | fuel + 1, reversed, c :: cs =>
    if c == quote then
      let run := (c :: cs).takeWhile (· == quote)
      if run.length < 3 then lines? quote fuel (run ++ reversed) (cs.drop (run.length - 1))
      else
        let extra := Nat.min (run.length - 3) 2
        some (String.ofList ((run.take extra ++ reversed).reverse), cs.drop (extra + 2))
    else if c == '\\' && quote == '"' then
      match afterHiddenBreak? cs with
      | some cs => lines? quote fuel reversed cs
      | none =>
        match escape? cs with
        | some (c, cs) => lines? quote fuel (c :: reversed) cs
        | none => none
    else
      match afterBreak? (c :: cs) with
      | some cs => lines? quote fuel ('\n' :: reversed) cs
      | none => if isPlain c then lines? quote fuel (c :: reversed) cs else none

/-- A text between quotes. A line break directly after three quotes does not count. -/
def text? (cs : List Char) : Option (String × List Char) :=
  match cs with
  | quote :: rest =>
    if quote != '"' && quote != '\'' then none
    else
      match afterPrefix? [quote, quote, quote] cs with
      | some body => lines? quote (body.length + 1) [] ((afterBreak? body).getD body)
      | none => line? quote (rest.length + 1) [] rest
  | [] => none

/-! ## Numbers -/

/-- Digits of a kind, with single underscores between them; the underscores are dropped. -/
def digits? (isDigit : Char → Bool) (cs : List Char) : Option (List Char × List Char) :=
  let run := cs.takeWhile fun c => isDigit c || c == '_'
  let spaced := run.zip (run.drop 1)
  let sound := run.head?.any isDigit && run.getLast?.any isDigit &&
    spaced.all fun (a, b) => a != '_' || b != '_'
  if sound then some (run.filter (· != '_'), cs.drop run.length) else none

/-- A sign and what follows it. -/
def sign (cs : List Char) : List Char × List Char :=
  match cs with
  | '+' :: cs => ([], cs)
  | '-' :: cs => (['-'], cs)
  | _ => ([], cs)

/-- The digits of a decimal number before its point. A zero in front stands alone. -/
def whole? (cs : List Char) : Option (List Char × List Char) :=
  match cs with
  | '0' :: rest => if rest.head? == some '_' then none else some (['0'], rest)
  | _ => digits? Char.isDigit cs

/-- An exponent. -/
def exponent? (cs : List Char) : Option (List Char × List Char) :=
  match cs with
  | e :: cs =>
    if e == 'e' || e == 'E' then
      let (mark, cs) := sign cs
      (digits? Char.isDigit cs).map fun (digits, rest) => ('e' :: mark ++ digits, rest)
    else none
  | [] => none

/-- The part of a decimal number from its point or exponent on; `none` when there is no such part,
and no result at all when there is one that is broken. -/
def fraction? (cs : List Char) : Option (Option (List Char) × List Char) :=
  match cs with
  | '.' :: more => do
    let (digits, rest) ← digits? Char.isDigit more
    match rest.head? with
    | some 'e' | some 'E' =>
      let (power, rest) ← exponent? rest
      return (some ('.' :: digits ++ power), rest)
    | _ => return (some ('.' :: digits), rest)
  | 'e' :: _ | 'E' :: _ => (exponent? cs).map fun (power, rest) => (some power, rest)
  | _ => some (none, cs)

/-- A whole number in a base that its first two characters name. -/
def based? (base : Nat) (isDigit : Char → Bool) (cs : List Char) : Option (Toml × List Char) := do
  let (digits, rest) ← digits? isDigit cs
  let n ← digits.foldlM (fun n c => (hexadecimal? [c]).map fun d => n * base + d) 0
  if n < Nat.pow 2 63 then some (.integer n, rest) else none

/-- A number. -/
def number? (cs : List Char) : Option (Toml × List Char) :=
  match cs with
  | '0' :: 'x' :: rest => based? 16 (fun c => (hexadecimal? [c]).isSome) rest
  | '0' :: 'o' :: rest => based? 8 (fun c => '0' ≤ c && c ≤ '7') rest
  | '0' :: 'b' :: rest => based? 2 (fun c => c == '0' || c == '1') rest
  | _ =>
    let (mark, body) := sign cs
    match afterPrefix? "inf".toList body, afterPrefix? "nan".toList body with
    | some rest, _ => some (.float (.infinite (mark == ['-'])), rest)
    | _, some rest => some (.float .nan, rest)
    | none, none => do
      let (whole, rest) ← whole? body
      match ← fraction? rest with
      | (some tail, rest) =>
        let x ← Binary.ofNumeral? .double (mark ++ whole ++ tail)
        if x = .infinite false then none else some (.float x, rest)
      | (none, rest) =>
        let size : Int := Nat.ofDigitChars 10 whole 0
        let n := if mark == ['-'] then -size else size
        if -(Int.pow 2 63) ≤ n && n < Int.pow 2 63 then some (.integer n, rest) else none

/-! ## Dates and times -/

/-- A number of exactly so many digits. -/
def fixed? (count : Nat) (cs : List Char) : Option (Nat × List Char) :=
  let digits := cs.take count
  if digits.length = count && digits.all Char.isDigit then
    some (Nat.ofDigitChars 10 digits 0, cs.drop count)
  else none

/-- How many days a month has. -/
def daysIn (year month : Nat) : Nat :=
  if month == 2 then
    if year % 4 == 0 && (year % 100 != 0 || year % 400 == 0) then 29 else 28
  else if [4, 6, 9, 11].contains month then 30
  else 31

/-- What follows a date. -/
def afterDate? (cs : List Char) : Option (List Char) := do
  let (year, cs) ← fixed? 4 cs
  let (month, cs) ← fixed? 2 (← afterPrefix? ['-'] cs)
  let (day, cs) ← fixed? 2 (← afterPrefix? ['-'] cs)
  if 1 ≤ month && month ≤ 12 && 1 ≤ day && day ≤ daysIn year month then some cs else none

/-- What follows a time of day. -/
def afterTime? (cs : List Char) : Option (List Char) := do
  let (hour, cs) ← fixed? 2 cs
  let (minute, cs) ← fixed? 2 (← afterPrefix? [':'] cs)
  let (second, cs) ← fixed? 2 (← afterPrefix? [':'] cs)
  if 24 ≤ hour || 60 ≤ minute || 60 < second then none
  else
    match cs with
    | '.' :: more =>
      let rest := more.dropWhile Char.isDigit
      if rest.length < more.length then some rest else none
    | _ => some cs

/-- What follows the distance from universal time, if one is given. -/
def afterOffset? (cs : List Char) : Option (List Char) :=
  match cs with
  | c :: rest =>
    if c == 'Z' || c == 'z' then some rest
    else if c == '+' || c == '-' then do
      let (hour, rest) ← fixed? 2 rest
      let (minute, rest) ← fixed? 2 (← afterPrefix? [':'] rest)
      if hour < 24 && minute < 60 then some rest else none
    else some cs
  | [] => some []

/-- What follows a date, a time, or both. -/
def afterMoment? (cs : List Char) : Option (List Char) :=
  match afterDate? cs with
  | some rest =>
    match rest with
    | mark :: clock =>
      if mark == 'T' || mark == 't' then (afterTime? clock).bind afterOffset?
      else if mark == ' ' && (fixed? 2 clock).isSome then (afterTime? clock).bind afterOffset?
      else some rest
    | [] => some []
  | none => afterTime? cs

/-- A date, a time, or both. -/
def moment? (cs : List Char) : Option (Toml × List Char) :=
  (afterMoment? cs).map fun rest =>
    (.time (String.ofList (cs.take (cs.length - rest.length))), rest)

end Rolewright.Toml
