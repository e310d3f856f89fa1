/-
# Plain scalars

What a scalar without quotes denotes: nothing, a truth value, a number, or the text itself.
Numbers are decimal or, after `0x`, `0o` and `0b`, of another base; digits behind a leading zero
are a text. The reader and the writer share these rules, so that the writer knows which texts need
quotes.
-/

import Rolewright.Number.Binary
import Rolewright.Text.Search
import Rolewright.Yaml.Characters

namespace Rolewright.Yaml

open Text

/-- What a plain scalar denotes. -/
inductive Plain where
  | null
  | bool (b : Bool)
  | int (n : Int)
  | float (x : Binary)
  | text
deriving Repr

namespace Plain

/-- The value of a digit in bases up to sixteen. -/
def digit? (base : Nat) (c : Char) : Option Nat :=
  (hexValue? c).filter (· < base)

/-- The number that digits of a base write. -/
def natural? (base : Nat) (cs : List Char) : Option Nat :=
  if cs.isEmpty then none
  else cs.foldlM (fun n c => (digit? base c).map fun d => n * base + d) 0

/-- A digit sequence whose leading zero keeps it from being a number. -/
def keepsZero (cs : List Char) : Bool :=
  let body :=
    match cs with
    | c :: rest => if c == '+' || c == '-' then rest else cs
    | [] => []
  1 < body.length && body.head? == some '0' && body.all Char.isDigit

/-- The size of a whole number that has no sign. -/
def size? (cs : List Char) : Option Nat :=
  let based (mark : String) (base : Nat) : Option Nat :=
    (afterPrefix? mark.toList cs).bind (natural? base)
  (((based "0x" 16).or (based "0o" 8)).or (based "0b" 2)).or (natural? 10 cs)

/-- A whole number of up to 128 bits. -/
def whole? (cs : List Char) : Option Int :=
  if keepsZero cs then none
  else
    match cs with
    | '-' :: rest => (size? rest).bind fun n => if n ≤ Nat.pow 2 127 then some (-n) else none
    | '+' :: rest =>
      (size? rest).bind fun n => if n < Nat.pow 2 128 then some (Int.ofNat n) else none
    | _ => (size? cs).bind fun n => if n < Nat.pow 2 128 then some (Int.ofNat n) else none

/-- A decimal number, or one of the words for what is not finite. -/
def float? (cs : List Char) : Option Binary :=
  let text := String.ofList cs
  if [".inf", ".Inf", ".INF", "+.inf", "+.Inf", "+.INF"].contains text then
    some (.infinite false)
  else if ["-.inf", "-.Inf", "-.INF"].contains text then some (.infinite true)
  else if [".nan", ".NaN", ".NAN"].contains text then some .nan
  else (Binary.ofNumeral? .double cs).filter Binary.isFinite

/-- What a plain scalar denotes. -/
def ofText (cs : List Char) : Plain :=
  let text := String.ofList cs
  if ["", "~", "null", "Null", "NULL"].contains text then .null
  else if ["true", "True", "TRUE"].contains text then .bool true
  else if ["false", "False", "FALSE"].contains text then .bool false
  else
    match whole? cs with
    | some n => .int n
    | none =>
      match if keepsZero cs then none else float? cs with
      | some x => .float x
      | none => .text

/-- Whether a text without quotes would not read back as itself. -/
def isTaken (cs : List Char) : Bool :=
  match ofText cs with
  | .text => keepsZero cs
  | _ => true

end Plain

end Rolewright.Yaml
