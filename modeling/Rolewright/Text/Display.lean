/-
# Texts on display

A text between double quotes in a message: quotes, backslashes and characters that would not show
are escaped.
-/

import Rolewright.Text.HiddenRanges
import Rolewright.Text.Word

namespace Rolewright.Text

/-- A character of a text on display. -/
def displayChar (c : Char) : List Char :=
  match [('\x00', '0'), ('\t', 't'), ('\r', 'r'), ('\n', 'n'), ('"', '"'), ('\\', '\\')].lookup c
    with
  | some letter => ['\\', letter]
  | none =>
    if c == ' ' || !inRanges hiddenRanges c.toNat then [c]
    else '\\' :: 'u' :: '\x7b' :: Nat.toDigits 16 c.toNat ++ ['\x7d']

/-- A text between quotes. -/
def display (s : String) : String :=
  "\"" ++ String.ofList (s.toList.flatMap displayChar) ++ "\""

end Rolewright.Text
