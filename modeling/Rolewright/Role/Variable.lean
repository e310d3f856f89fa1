/-
# Variables of a role

Attributes of a cookbook become variables of a role: under a name of letters, digits and
underscores, and with a value in which references to attributes are templates. The name of an
attribute and the name in a reference to it come from the same rule.
-/

import Rolewright.Json.Basic
import Rolewright.Value.Basic

namespace Rolewright.Role

open Text

/-- No letter and no digit becomes a character that is neither and comes no later than the
underscore. -/
theorem toLower_ne {c d : Char} (letter : c.isAlphanum = true) (other : d.isAlphanum = false)
    (low : d.toNat ≤ '_'.toNat) : c.toLower ≠ d := by
  unfold Char.toLower
  split
  · rename_i upper
    rintro rfl
    have bound : (c.val + ('a'.val - 'A'.val)).toNat ≤ 95 := low
    have least : 65 ≤ c.val.toNat := UInt32.le_iff_toNat_le.mp upper.1
    have most : c.val.toNat ≤ 90 := UInt32.le_iff_toNat_le.mp upper.2
    rw [UInt32.toNat_add, show ('a'.val - 'A'.val).toNat = 32 from rfl] at bound
    omega
  · rintro rfl
    exact ne_true_of_eq_false other letter

/-- A character of a variable name: ASCII letters in lower case, digits, and underscores for all
else. -/
def variableChar (c : Char) : Char :=
  if c.isAlphanum then c.toLower else '_'

/-- The variable that stands for an attribute or a local name. -/
def variableName (dotted : String) : String :=
  String.ofList (dotted.toList.map variableChar)

/-- The template that a reference becomes. -/
def reference (path : String) : String :=
  let name := String.ofList (withoutPrefix "node.".toList path.toList)
  "\x7b\x7b " ++ variableName name ++ " \x7d\x7d"

mutual

/-- A value as data of a role. Expressions that were not understood stay as they were written. -/
def data : Value → Json
  | .str text | .sym text | .raw text => .str text
  | .int n => .int n
  | .float x => .float x
  | .bool b => .bool b
  | .nil => .null
  | .ref path => .str (reference path)
  | .list items => .arr (dataItems items)
  | .map entries => .obj (dataFields entries)

/-- Several values as data. -/
def dataItems : List Value → List Json
  | [] => []
  | item :: items => data item :: dataItems items

/-- The entries of a map as data. -/
def dataFields : List (String × Value) → List (String × Json)
  | [] => []
  | (key, value) :: rest => (key, data value) :: dataFields rest

end

end Rolewright.Role
