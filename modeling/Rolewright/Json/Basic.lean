/-
# JSON documents

The values of a JSON document and their two written forms: compact, and indented by two spaces.
An object is a list of entries, so a writer decides the order of its fields.
-/

import Rolewright.Entries
import Rolewright.Number.Shortest

namespace Rolewright

/-- A JSON value. Whole numbers are kept apart from fractions, as documents tell them apart. -/
inductive Json where
  | null
  | bool (b : Bool)
  | int (n : Int)
  | float (x : Binary)
  | str (text : String)
  | arr (items : List Json)
  | obj (fields : List (String × Json))
deriving Repr, BEq, Inhabited

namespace Json

/-- The field of an object. -/
def field? (json : Json) (name : String) : Option Json :=
  match json with
  | .obj fields => Entries.get? fields name
  | _ => none

/-- The text of a string. -/
def asString? : Json → Option String
  | .str text => some text
  | _ => none

/-- A whole number that fits 64 bits with a sign. -/
def asInt64? : Json → Option Int
  | .int n => if -(Int.pow 2 63) ≤ n && n < Int.pow 2 63 then some n else none
  | _ => none

/-- A field that is left out when there is nothing to say. -/
def fieldOf {α : Type} (name : String) (f : α → Json) (value : Option α) :
    List (String × Json) :=
  value.toList.map fun x => (name, f x)

/-- A text, or null where there is none. -/
def ofText? (text : Option String) : Json :=
  (text.map .str).getD .null

/-- A list of texts. -/
def ofTexts (texts : List String) : Json :=
  .arr (texts.map .str)

/-- A digit of a hexadecimal escape, in lower case. -/
def hexDigit (n : Nat) : Char :=
  Nat.digitChar (n % 16)

/-- A character as it stands inside a JSON string: quotes, backslashes and control characters are
escaped, all else stands for itself. -/
def escapeChar (c : Char) : List Char :=
  if c == '"' then ['\\', '"']
  else if c == '\\' then ['\\', '\\']
  else if c == '\n' then ['\\', 'n']
  else if c == '\r' then ['\\', 'r']
  else if c == '\t' then ['\\', 't']
  else if c.toNat == 8 then ['\\', 'b']
  else if c.toNat == 12 then ['\\', 'f']
  else if c.toNat < 32 then
    ['\\', 'u', '0', '0', hexDigit (c.toNat / 16), hexDigit c.toNat]
  else [c]

/-- A string between quotes. -/
def quote (text : String) : String :=
  "\"" ++ String.ofList (text.toList.flatMap escapeChar) ++ "\""

/-- The text of a number that is not whole. -/
def floatText (x : Binary) : String :=
  Number.render .json .double x

mutual

/-- The document on one line without blanks. -/
def compact : Json → String
  | .null => "null"
  | .bool b => if b then "true" else "false"
  | .int n => toString n
  | .float x => floatText x
  | .str text => quote text
  | .arr items => "[" ++ String.intercalate "," (compactItems items) ++ "]"
  | .obj fields => "\x7b" ++ String.intercalate "," (compactFields fields) ++ "\x7d"

/-- The items of an array on one line each by itself. -/
def compactItems : List Json → List String
  | [] => []
  | item :: items => compact item :: compactItems items

/-- The fields of an object, each by itself. -/
def compactFields : List (String × Json) → List String
  | [] => []
  | (key, value) :: rest => (quote key ++ ":" ++ compact value) :: compactFields rest

end

/-- Parts of an array or object, one to a line. -/
def block (opening closing : String) (depth : Nat) (parts : List String) : String :=
  if parts.isEmpty then opening ++ closing
  else
    let indent := "".pushn ' ' (2 * depth)
    opening ++ "\n" ++
      String.intercalate ",\n" (parts.map fun part => indent ++ "  " ++ part) ++
      "\n" ++ indent ++ closing

mutual

/-- The document with one item to a line, at a given depth. -/
def prettyAt (depth : Nat) : Json → String
  | .arr items => block "[" "]" depth (prettyItems (depth + 1) items)
  | .obj fields => block "\x7b" "\x7d" depth (prettyFields (depth + 1) fields)
  | .null => "null"
  | .bool b => if b then "true" else "false"
  | .int n => toString n
  | .float x => floatText x
  | .str text => quote text

/-- The items of an array at a given depth. -/
def prettyItems (depth : Nat) : List Json → List String
  | [] => []
  | item :: items => prettyAt depth item :: prettyItems depth items

/-- The fields of an object at a given depth. -/
def prettyFields (depth : Nat) : List (String × Json) → List String
  | [] => []
  | (key, value) :: rest => (quote key ++ ": " ++ prettyAt depth value) :: prettyFields depth rest

end

/-- The document with one item to a line. -/
def pretty (json : Json) : String :=
  prettyAt 0 json

end Json

end Rolewright
