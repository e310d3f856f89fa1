/-
# Writing YAML

Plain data as a YAML document in block style. The items of a list stand under its key without
further indentation, the first item of a nested collection stands on the line of its dash, and a
key that is long or has several lines is marked by a question mark.
-/

import Rolewright.Json.Basic
import Rolewright.Text.Utf8
import Rolewright.Yaml.Style

namespace Rolewright.Yaml

open Text

/-- Blanks in front of a line. -/
def margin (column : Nat) : String :=
  "".pushn ' ' column

/-- A text as a scalar. -/
def textLine (hang : Nat) (text : String) : String :=
  String.ofList (scalarText hang text.toList)

/-- Whether a key stands before its colon on one line. -/
def isSimpleKey (key : String) : Bool :=
  !key.toList.any isBreak && key.utf8ByteSize ≤ 128

/-- A key with the mark that its value follows. -/
def keyText (column : Nat) (key : String) : String :=
  if isSimpleKey key then String.ofList ((scalarText (column + 2) key.toList).dropLast) ++ ":"
  else "? " ++ textLine (column + 2) key ++ margin column ++ ":"

/-- What is not broken over lines: a scalar or an empty collection. -/
def leaf (hang : Nat) : Json → String
  | .null => "null\n"
  | .bool b => if b then "true\n" else "false\n"
  | .int n => toString n ++ "\n"
  | .float x => Number.render .yaml .double x ++ "\n"
  | .str text => textLine hang text
  | .arr _ => "[]\n"
  | .obj _ => "\x7b\x7d\n"

mutual

/-- A value on the line of its mark. Its items stand at `column`, further lines of a scalar at
`hang`. -/
def nested (column hang : Nat) : Json → String
  | .arr (item :: items) => sequence column (item :: items)
  | .obj (field :: fields) => mapping column (field :: fields)
  | other => leaf hang other

/-- The value of a simple key at `column`, after its colon. -/
def under (column : Nat) : Json → String
  | .arr (item :: items) => "\n" ++ margin column ++ sequence column (item :: items)
  | .obj (field :: fields) => "\n" ++ margin (column + 2) ++ mapping (column + 2) (field :: fields)
  | other => " " ++ leaf (column + 2) other

/-- The items of a list at `column`, the first on the current line. -/
def sequence (column : Nat) : List Json → String
  | [] => ""
  | item :: items =>
    "- " ++ nested (column + 2) (column + 2) item ++
      if items.isEmpty then "" else margin column ++ sequence column items

/-- The fields of a map at `column`, the first on the current line. -/
def mapping (column : Nat) : List (String × Json) → String
  | [] => ""
  | (key, value) :: fields =>
    keyText column key ++
      (if isSimpleKey key then under column value
        else " " ++ nested (column + 2) (column + 2) value) ++
      if fields.isEmpty then "" else margin column ++ mapping column fields

end

/-- A document. -/
def render (json : Json) : String :=
  nested 0 2 json

end Rolewright.Yaml
