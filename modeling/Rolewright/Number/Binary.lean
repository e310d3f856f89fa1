/-
# Binary floating point

The numbers of the IEEE binary formats, held as exact values: a sign, a mantissa and a power of
two. A ratio becomes such a number by rounding to the nearest, a tie going to the even mantissa.
-/

namespace Rolewright

/-- A binary format: the bits of a mantissa and the exponents its last bit may have. -/
structure BinaryFormat where
  precision : Nat
  minExponent : Int
  maxExponent : Int

namespace BinaryFormat

/-- The format of 64 bits. -/
def double : BinaryFormat := ⟨53, -1074, 971⟩

/-- The format of 32 bits. -/
def single : BinaryFormat := ⟨24, -149, 104⟩

end BinaryFormat

/-- A number of a binary format; a finite one is `mantissa * 2 ^ exponent`, signed. -/
inductive Binary where
  | finite (negative : Bool) (mantissa : Nat) (exponent : Int)
  | infinite (negative : Bool)
  | nan
deriving DecidableEq, Repr

namespace Binary

/-- `num / den` scaled by a power of two, as a ratio again. -/
def scaled (num den : Nat) (exponent : Int) : Nat × Nat :=
  if exponent ≤ 0 then (num * Nat.pow 2 exponent.natAbs, den)
  else (num, den * Nat.pow 2 exponent.natAbs)

/-- The natural number nearest to a ratio; a tie goes to the even one. -/
def nearest (num den : Nat) : Nat :=
  let low := num / den
  let twice := 2 * (num % den)
  if twice < den || (twice == den && low % 2 == 0) then low else low + 1

/-- The number of a format nearest to `num / den`. -/
def ofRatio (format : BinaryFormat) (negative : Bool) (num den : Nat) : Binary :=
  if num == 0 || den == 0 then .finite negative 0 format.minExponent
  else
    let guess : Int := Int.ofNat num.log2 - Int.ofNat den.log2 - Int.ofNat format.precision
    let (n, d) := scaled num den guess
    let exact := if n / d ≥ Nat.pow 2 format.precision then guess + 1 else guess
    let exponent := max exact format.minExponent
    let (n, d) := scaled num den exponent
    let mantissa := nearest n d
    let (mantissa, exponent) :=
      if mantissa == Nat.pow 2 format.precision then (mantissa / 2, exponent + 1)
      else (mantissa, exponent)
    if exponent > format.maxExponent then .infinite negative
    else .finite negative mantissa exponent

/-- The number of a format nearest to `digits * 10 ^ exponent`. Powers far outside the range of the
format are not computed. -/
def ofDecimal (format : BinaryFormat) (negative : Bool) (digits : Nat) (exponent : Int) : Binary :=
  let size := exponent + (Nat.toDigits 10 digits).length
  if digits == 0 || size < -400 then .finite negative 0 format.minExponent
  else if size > 400 then .infinite negative
  else if exponent ≥ 0 then ofRatio format negative (digits * Nat.pow 10 exponent.toNat) 1
  else ofRatio format negative digits (Nat.pow 10 exponent.natAbs)

/-- The same number in another format, rounded where that is narrower. -/
def toFormat (format : BinaryFormat) : Binary → Binary
  | .finite negative mantissa exponent =>
    if exponent ≥ 0 then ofRatio format negative (mantissa * Nat.pow 2 exponent.toNat) 1
    else ofRatio format negative mantissa (Nat.pow 2 exponent.natAbs)
  | other => other

/-- Whether the number is neither infinite nor undefined. -/
def isFinite : Binary → Bool
  | .finite .. => true
  | _ => false

/-- Whether the number lies between zero and one, both included. -/
def isWithinUnit : Binary → Bool
  | .finite negative mantissa exponent =>
    mantissa == 0 ||
      (!negative && mantissa * Nat.pow 2 exponent.toNat ≤ Nat.pow 2 (-exponent).toNat)
  | .infinite _ | .nan => false

/-- The digits before and after the point and the power of ten of a decimal numeral: a mantissa
with a digit on at least one side of its point, then possibly an exponent. -/
def numeral? (cs : List Char) : Option (List Char × List Char × Int) :=
  let whole := cs.takeWhile Char.isDigit
  let rest := cs.dropWhile Char.isDigit
  let (fraction, rest) :=
    match rest with
    | '.' :: more => (more.takeWhile Char.isDigit, more.dropWhile Char.isDigit)
    | _ => ([], rest)
  if whole.isEmpty && fraction.isEmpty then none
  else
    match rest with
    | [] => some (whole, fraction, 0)
    | e :: more =>
      if e != 'e' && e != 'E' then none
      else
        let (sign, digits) : Int × List Char :=
          match more with
          | '-' :: digits => (-1, digits)
          | '+' :: digits => (1, digits)
          | _ => (1, more)
        if digits.isEmpty || !digits.all Char.isDigit then none
        else some (whole, fraction, sign * Int.ofNat (Nat.ofDigitChars 10 digits 0))

/-- Reads a decimal numeral with an optional sign. -/
def ofNumeral? (format : BinaryFormat) (cs : List Char) : Option Binary :=
  let (negative, body) :=
    match cs with
    | '-' :: body => (true, body)
    | '+' :: body => (false, body)
    | _ => (false, cs)
  (numeral? body).map fun (whole, fraction, exponent) =>
    ofDecimal format negative (Nat.ofDigitChars 10 (whole ++ fraction) 0)
      (exponent - fraction.length)

end Binary

end Rolewright
