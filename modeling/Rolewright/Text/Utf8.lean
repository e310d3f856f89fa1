/-
# UTF-8

Sizes in bytes and the reading of bytes as text. Reading is strict or lenient: the lenient reader
puts one replacement character for every maximal run of bytes that opens a character without
completing it, and so never fails.
-/

namespace Rolewright.Text

/-- How many bytes a text takes. -/
def byteLength (cs : List Char) : Nat :=
  cs.foldl (fun n c => n + c.utf8Size) 0

/-- The text after its first `n` bytes, unless that cuts a character or exceeds the text. -/
def dropBytes? : Nat → List Char → Option (List Char)
  | 0, cs => some cs
  | _ + 1, [] => none
  | n + 1, c :: cs => if c.utf8Size ≤ n + 1 then dropBytes? (n + 1 - c.utf8Size) cs else none

/-- The bytes of a text. -/
def encode (cs : List Char) : List UInt8 :=
  (String.ofList cs).toUTF8.toList

/-- A character being read: its bits so far, how many bytes are due, and where the next one must
lie. -/
structure Pending where
  bits : Nat
  due : Nat
  lo : UInt8
  hi : UInt8

/-- What a byte can open. -/
inductive Opening where
  | whole (c : Char)
  | pending (p : Pending)
  | broken

/-- Reads a byte at the start of a character. The narrower intervals keep out surrogates, code
points beyond the last, and spellings longer than needed. -/
def opening (b : UInt8) : Opening :=
  if b < 0x80 then .whole (Char.ofNat b.toNat)
  else if 0xC2 ≤ b && b ≤ 0xDF then .pending ⟨b.toNat % 32, 1, 0x80, 0xBF⟩
  else if b == 0xE0 then .pending ⟨0, 2, 0xA0, 0xBF⟩
  else if b == 0xED then .pending ⟨0xD, 2, 0x80, 0x9F⟩
  else if 0xE1 ≤ b && b ≤ 0xEF then .pending ⟨b.toNat % 16, 2, 0x80, 0xBF⟩
  else if b == 0xF0 then .pending ⟨0, 3, 0x90, 0xBF⟩
  else if 0xF1 ≤ b && b ≤ 0xF3 then .pending ⟨b.toNat % 8, 3, 0x80, 0xBF⟩
  else if b == 0xF4 then .pending ⟨4, 3, 0x80, 0x8F⟩
  else .broken

/-- A character being read, continued by one byte, if that byte may continue it. -/
def Pending.extend? (p : Pending) (b : UInt8) : Option Opening :=
  if p.lo ≤ b && b ≤ p.hi then
    let bits := p.bits * 64 + b.toNat % 64
    some (if p.due ≤ 1 then .whole (Char.ofNat bits) else .pending ⟨bits, p.due - 1, 0x80, 0xBF⟩)
  else none

/-- Reads bytes one by one. `bad` is written for a broken character; when it is absent a broken
character makes the whole reading fail. -/
def decodeWith (bad : Option Char) : Option Pending → List UInt8 → Option (List Char)
  | none, [] => some []
  | some _, [] => bad.map fun c => [c]
  | state, b :: bs =>
    let continued := state.bind fun p => p.extend? b
    let cut := if state.isSome && continued.isNone then bad.map fun c => [c] else some []
    cut.bind fun lead =>
      match continued.getD (opening b) with
      | .whole c => (decodeWith bad none bs).map fun rest => lead ++ c :: rest
      | .pending p => (decodeWith bad (some p) bs).map fun rest => lead ++ rest
      | .broken => bad.bind fun c => (decodeWith bad none bs).map fun rest => lead ++ c :: rest

/-- The text the bytes spell, if they are well formed. -/
def decode? (bytes : List UInt8) : Option (List Char) :=
  decodeWith none none bytes

/-- The text the bytes spell, with a replacement character wherever they spell none. -/
def decodeLenient (bytes : List UInt8) : List Char :=
  (decodeWith (some '\uFFFD') none bytes).getD []

end Rolewright.Text
