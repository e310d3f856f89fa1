/-
# Shortest decimal digits

The fewest decimal digits that read back as a given binary number, and of those the nearest to
it. Counts of digits are tried in turn; for each, only the two neighbours of the number on that
decimal grid can do.
-/

import Rolewright.Number.Binary

namespace Rolewright.Number

/-- The decimals that round to one binary number: those between the ends, doubled and shifted so
that all three are naturals over one power of two. -/
structure Neighbourhood where
  lower : Nat
  value : Nat
  upper : Nat
  denominator : Nat
  closed : Bool

/-- The decimals that round to `mantissa * 2 ^ exponent`. Below a power of two the numbers lie
twice as dense, except at the bottom of the range. -/
def neighbourhood (format : BinaryFormat) (mantissa : Nat) (exponent : Int) : Neighbourhood :=
  let dense := mantissa == Nat.pow 2 (format.precision - 1) && exponent > format.minExponent
  let lower := if dense then 4 * mantissa - 1 else 4 * mantissa - 2
  let up := Nat.pow 2 exponent.toNat
  { lower := lower * up
    value := 4 * mantissa * up
    upper := (4 * mantissa + 2) * up
    denominator := 4 * Nat.pow 2 (-exponent).toNat
    closed := mantissa % 2 == 0 }

/-- Whether `digits * 10 ^ exponent` rounds to the number. -/
def Neighbourhood.holds (n : Neighbourhood) (digits : Nat) (exponent : Int) : Bool :=
  let scaled := digits * Nat.pow 10 exponent.toNat * n.denominator
  let unit := Nat.pow 10 (-exponent).toNat
  if n.closed then n.lower * unit ≤ scaled && scaled ≤ n.upper * unit
  else n.lower * unit < scaled && scaled < n.upper * unit

/-- The position of the decimal point: the least `k` with the number below `10 ^ k`. -/
def Neighbourhood.magnitude (n : Neighbourhood) : Int :=
  let whole := n.value / n.denominator
  if whole > 0 then (Nat.toDigits 10 whole).length
  else
    let inverse := (n.denominator + n.value - 1) / n.value
    1 - Int.ofNat (Nat.toDigits 10 (inverse - 1)).length

/-- The nearer of the two neighbours of the number with `count` digits, if it rounds to it. -/
def Neighbourhood.onGrid? (n : Neighbourhood) (magnitude : Int) (count : Nat) :
    Option (Nat × Int) :=
  let exponent := magnitude - count
  let num := n.value * Nat.pow 10 (-exponent).toNat
  let den := n.denominator * Nat.pow 10 exponent.toNat
  let low := num / den
  let high := low + 1
  let lowHolds := low > 0 && n.holds low exponent
  let highHolds := n.holds high exponent
  let twice := 2 * (num % den)
  if lowHolds && highHolds then
    if twice < den || (twice == den && low % 2 == 0) then some (low, exponent)
    else some (high, exponent)
  else if lowHolds then some (low, exponent)
  else if highHolds then some (high, exponent)
  else none

/-- Digits without trailing zeros, the power of ten making up for them. -/
def stripZeros : Nat → Nat → Int → Nat × Int
  | 0, digits, exponent => (digits, exponent)
  | fuel + 1, digits, exponent =>
    if digits != 0 && digits % 10 == 0 then stripZeros fuel (digits / 10) (exponent + 1)
    else (digits, exponent)

/-- The shortest digits of a positive number and the power of ten that goes with them. -/
def shortest (format : BinaryFormat) (mantissa : Nat) (exponent : Int) : Nat × Int :=
  let n := neighbourhood format mantissa exponent
  let magnitude := n.magnitude
  let (digits, power) :=
    ((List.range 17).findSome? fun i => n.onGrid? magnitude (i + 1)).getD (0, 0)
  stripZeros 20 digits power

/-- How the text of a number is laid out: between which positions of the point it is written
without an exponent, what stands before an exponent that is not negative, what follows a whole
number, and the words for what is not finite. -/
structure Layout where
  lowest : Option Int
  highest : Option Int
  plus : String
  whole : String
  infinity : String
  undefined : String

/-- Plain text never takes an exponent and writes whole numbers bare. -/
def Layout.plain : Layout := ⟨none, none, "", "", "inf", "NaN"⟩

/-- Data formats take an exponent outside sixteen places and mark whole numbers. -/
def Layout.yaml : Layout := ⟨some (-5), some 16, "", ".0", ".inf", ".nan"⟩

/-- Documents in JSON give every exponent a sign and have no word for what is not finite. -/
def Layout.json : Layout := ⟨some (-5), some 16, "+", ".0", "null", "null"⟩

/-- Digits with the point after `point` of them, or before zeros and all of them. -/
def positional (layout : Layout) (digits : String) (point : Int) : String :=
  let count : Int := digits.length
  if point ≤ 0 then "0." ++ "".pushn '0' point.natAbs ++ digits
  else if count ≤ point then digits ++ "".pushn '0' (point - count).toNat ++ layout.whole
  else
    let cs := digits.toList
    String.ofList (cs.take point.toNat) ++ "." ++ String.ofList (cs.drop point.toNat)

/-- Digits with the point after the first and an exponent. -/
def scientific (layout : Layout) (digits : String) (point : Int) : String :=
  let power := (if point < 1 then "" else layout.plus) ++ toString (point - 1)
  match digits.toList with
  | d :: rest@(_ :: _) => String.ofList (d :: '.' :: rest) ++ "e" ++ power
  | _ => digits ++ "e" ++ power

/-- The text of a number. -/
def render (layout : Layout) (format : BinaryFormat) (x : Binary) : String :=
  let sign (negative : Bool) := if negative then "-" else ""
  match x with
  | .nan => layout.undefined
  | .infinite negative =>
    if layout.infinity == "null" then "null" else sign negative ++ layout.infinity
  | .finite negative mantissa exponent =>
    if mantissa == 0 then sign negative ++ "0" ++ layout.whole
    else
      let (digits, power) := shortest format mantissa exponent
      let text := toString digits
      let point := power + text.length
      let inside := layout.lowest.all (· < point) && layout.highest.all (point ≤ ·)
      sign negative ++ if inside then positional layout text point else scientific layout text point

end Rolewright.Number
