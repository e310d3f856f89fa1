/-
# Patterns of resource types

Patterns with wildcards: a question mark for one character, a star for any run of them, brackets
for one of a set, and a double star for whole components between slashes. A pattern is read once
into tokens; a text matches if it can be cut so that each token takes a piece of it.
-/

import Rolewright.Text.Search

namespace Rolewright.Mapping

/-- One character or an interval of characters in brackets. -/
inductive CharRange where
  | single (c : Char)
  | interval (lo hi : Char)
deriving DecidableEq, Repr

/-- Whether a character is meant. -/
def CharRange.holds (c : Char) : CharRange → Bool
  | .single d => c == d
  | .interval lo hi => lo ≤ c && c ≤ hi

/-- A part of a pattern. -/
inductive PatternToken where
  | char (c : Char)
  | anyChar
  | anyRun
  /-- Any number of components, each with the slash after it, or all that is left. -/
  | components
  | oneOf (ranges : List CharRange)
  | noneOf (ranges : List CharRange)
deriving DecidableEq, Repr

/-- A pattern that was read. -/
abbrev Pattern := List PatternToken

/-- Why a text is no pattern, and about where. -/
inductive PatternError where
  | manyStars (position : Nat)
  | brokenComponent (position : Nat)
  | openRange (position : Nat)
deriving DecidableEq, Repr

/-- The wording of such a fault. -/
def PatternError.message (e : PatternError) : String :=
  let (position, reason) :=
    match e with
    | .manyStars n => (n, "wildcards are either regular \x60*\x60 or recursive \x60**\x60")
    | .brokenComponent n => (n, "recursive wildcards must form a single path component")
    | .openRange n => (n, "invalid range pattern")
  "Pattern syntax error near position " ++ toString position ++ ": " ++ reason

/-- Whether a text has a wildcard in it. -/
def isWildcard (text : String) : Bool :=
  text.toList.any ("*?[".toList.contains ·)

/-- How many bytes of a text stand before its first wildcard. -/
def literalLength (text : String) : Nat :=
  (String.ofList (text.toList.takeWhile fun c => !"*?[".toList.contains c)).utf8ByteSize

/-! ## Reading -/

/-- The characters and intervals between brackets. -/
def charRanges : List Char → List CharRange
  | lo :: '-' :: hi :: cs => .interval lo hi :: charRanges cs
  | c :: cs => .single c :: charRanges cs
  | [] => []

/-- A set in brackets after its opening one: what it is, and how much it takes. A bracket directly
at the start is part of the set. -/
def bracket? (cs : List Char) : Option (PatternToken × Nat) :=
  let set (negated : Bool) (cs : List Char) : Option (PatternToken × Nat) :=
    match cs with
    | first :: rest =>
      let inner := rest.takeWhile (· != ']')
      if inner.length == rest.length then none
      else
        let ranges := charRanges (first :: inner)
        some (if negated then .noneOf ranges else .oneOf ranges, inner.length + 2)
    | [] => none
  match cs with
  | '!' :: cs => (set true cs).map fun (token, n) => (token, n + 1)
  | _ => set false cs

/-- The tokens of a text from a position on. `before` is the character in front of it, and
`reversed` are the tokens so far. -/
def readFrom (fuel position : Nat) (before : Option Char) (reversed : List PatternToken)
    (cs : List Char) : Except PatternError Pattern :=
  match fuel, cs with
  | 0, _ | _, [] => .ok reversed.reverse
  | fuel + 1, c :: rest =>
    if c == '?' then readFrom fuel (position + 1) (some c) (.anyChar :: reversed) rest
    else if c == '*' then
      let count := (cs.takeWhile (· == '*')).length
      let after := cs.drop count
      let next := position + count
      if count == 1 then readFrom fuel next (some c) (.anyRun :: reversed) after
      else if 2 < count then .error (.manyStars (position + 2))
      else if before.any (· != '/') then .error (.brokenComponent (position - 1))
      else
        let repeated := 1 < reversed.length && reversed.head? == some .components
        let reversed := if repeated then reversed else .components :: reversed
        match after with
        | [] => .ok reversed.reverse
        | '/' :: after => readFrom fuel (next + 1) (some '/') reversed after
        | _ => .error (.brokenComponent next)
    else if c == '[' then
      match bracket? rest with
      | some (token, n) =>
        readFrom fuel (position + 1 + n) (some ']') (token :: reversed) (rest.drop n)
      | none => .error (.openRange position)
    else readFrom fuel (position + 1) (some c) (.char c :: reversed) rest

/-- The pattern that a text spells. -/
def Pattern.read (text : String) : Except PatternError Pattern :=
  readFrom text.length 0 none [] text.toList

/-! ## Matching -/

/-- The ends of a text, from the whole of it to nothing. -/
def suffixes : List Char → List (List Char)
  | [] => [[]]
  | c :: cs => (c :: cs) :: suffixes cs

/-- The parts of a text after each of its slashes. -/
def afterSlashes : List Char → List (List Char)
  | [] => []
  | c :: cs => if c == '/' then cs :: afterSlashes cs else afterSlashes cs

/-- Whether a text can be cut so that each token takes a piece. -/
def Pattern.matches : Pattern → List Char → Bool
  | [], cs => cs.isEmpty
  | .anyRun :: tokens, cs => (suffixes cs).any (Pattern.matches tokens)
  | .components :: tokens, cs => (cs :: afterSlashes cs ++ [[]]).any (Pattern.matches tokens)
  | _ :: _, [] => false
  | .anyChar :: tokens, _ :: cs => Pattern.matches tokens cs
  | .char d :: tokens, c :: cs => c == d && Pattern.matches tokens cs
  | .oneOf ranges :: tokens, c :: cs => ranges.any (·.holds c) && Pattern.matches tokens cs
  | .noneOf ranges :: tokens, c :: cs => !ranges.any (·.holds c) && Pattern.matches tokens cs

end Rolewright.Mapping
