/-
# Characters of YAML

The classes of characters on which reading and writing YAML rest: what breaks a line, what
separates, what may stand in a document at all, and what names and tags are made of.
-/

namespace Rolewright.Yaml

/-- Characters that end a line. -/
def isBreak (c : Char) : Bool :=
  let n := c.toNat
  n == 0x0A || n == 0x0D || n == 0x85 || n == 0x2028 || n == 0x2029

/-- Blanks inside a line. -/
def isSpace (c : Char) : Bool :=
  c == ' ' || c == '\t'

/-- Whether a character separates, the end of the text doing so too. -/
def isGap : Option Char → Bool
  | none => true
  | some c => isSpace c || c.toNat == 0 || isBreak c

/-- Characters that may stand in a scalar as they are. -/
def isPrintable (c : Char) : Bool :=
  let n := c.toNat
  n == 0x0A || (0x20 ≤ n && n ≤ 0x7E) || (0xA0 ≤ n && n ≤ 0xD7FF) ||
    (0xE000 ≤ n && n ≤ 0xFFFD && n != 0xFEFF) || 0x10000 ≤ n

/-- Characters that a document may hold. -/
def isReadable (c : Char) : Bool :=
  isPrintable c || c.toNat == 0x09 || c.toNat == 0x0D || c.toNat == 0x85 || c.toNat == 0xFEFF

/-- Characters of the names of anchors and of tag handles. -/
def isNameChar (c : Char) : Bool :=
  c.isAlphanum || c == '_' || c == '-'

/-- Characters of a tag. The flow indicators among them are allowed inside angle brackets only. -/
def isTagChar (bracketed : Bool) (c : Char) : Bool :=
  isNameChar c || ";/?:@&=+$.%!~*'()".toList.contains c || (bracketed && ",[]".toList.contains c)

/-- The value of a hexadecimal digit. -/
def hexValue? (c : Char) : Option Nat :=
  if c.isDigit then some (c.toNat - 48)
  else if 'a' ≤ c && c ≤ 'f' then some (c.toNat - 87)
  else if 'A' ≤ c && c ≤ 'F' then some (c.toNat - 55)
  else none

end Rolewright.Yaml
