/-
# Values

What the properties, attributes and variables of a recipe hold. A literal becomes the value it
denotes; an expression that is no literal stays as it was written. `Value.source` writes a value
as a literal again.
-/

import Rolewright.Entries
import Rolewright.Number.Shortest
import Rolewright.Text.Letter
import Rolewright.Text.Search

namespace Rolewright

/-- A value of a recipe. -/
inductive Value where
  | str (text : String)
  | sym (text : String)
  | int (n : Int)
  | float (x : Binary)
  | bool (b : Bool)
  | nil
  /-- A local variable, or a node attribute by its dotted path. -/
  | ref (path : String)
  | list (items : List Value)
  | map (entries : List (String × Value))
  /-- An expression that is not evaluated, verbatim. -/
  | raw (source : String)
deriving Repr, BEq, Inhabited

namespace Value

/-- The text of a string or a symbol. -/
def asText? : Value → Option String
  | .str text | .sym text => some text
  | _ => none

/-- The plain text of a literal that is neither a list nor a map. -/
def plainText? : Value → Option String
  | .str text | .sym text => some text
  | .int n => some (toString n)
  | .float x => some (Number.render .plain .double x)
  | .bool b => some (if b then "true" else "false")
  | .nil => some "nil"
  | _ => none

/-- The key under which a table of value transforms lists this value. -/
def lookupKey? (value : Value) : Option String :=
  match value with
  | .nil => none
  | other => (plainText? other).map Text.lowerString

/-- Whether the value is an expression that was not understood. -/
def isRaw : Value → Bool
  | .raw _ => true
  | _ => false

/-- A string literal in single quotes, each of its own quotes escaped. -/
def quoted (text : String) : String :=
  "'" ++ String.ofList (Text.replaceChar '\'' ['\\', '\''] text.toList) ++ "'"

mutual

/-- The value as a literal. -/
def source : Value → String
  | .str text => quoted text
  | .sym text => ":" ++ text
  | .int n => toString n
  | .float x => Number.render .plain .double x
  | .bool b => if b then "true" else "false"
  | .nil => "nil"
  | .ref path => path
  | .list items => "[" ++ String.intercalate ", " (sources items) ++ "]"
  | .map entries => "\x7b " ++ String.intercalate ", " (entrySources entries) ++ " \x7d"
  | .raw text => text

/-- The literals of several values. -/
def sources : List Value → List String
  | [] => []
  | item :: items => item.source :: sources items

/-- The entries of a map as they stand between its braces. -/
def entrySources : List (String × Value) → List String
  | [] => []
  | (key, value) :: rest => (key ++ ": " ++ value.source) :: entrySources rest

end

end Value

end Rolewright
