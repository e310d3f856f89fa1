/-
# Word characters, digits and identifiers

Word boundaries are decided by the Unicode class of letters, marks, digits and connectors.
Identifiers of the languages that are read here are ASCII, so their classes are given directly.
-/

import Rolewright.Text.WordRanges

namespace Rolewright.Text

/-- Whether a code point lies in one of the intervals. -/
def inRanges (table : List (Nat × Nat)) (n : Nat) : Bool :=
  table.any fun (lo, hi) => lo ≤ n && n ≤ hi

/-- ASCII letters, digits and the underscore. -/
def isAsciiWord (c : Char) : Bool :=
  c.isAlphanum || c == '_'

/-- Characters that may stand inside a word, so that no boundary falls between two of them. -/
def isWord (c : Char) : Bool :=
  if c.toNat < 128 then isAsciiWord c else inRanges wordRanges c.toNat

/-- Decimal digits of any script. -/
def isDecimalDigit (c : Char) : Bool :=
  if c.toNat < 128 then c.isDigit else inRanges digitRanges c.toNat

/-- Whether a word that has just ended is not continued by the text that follows. -/
def atBoundary : List Char → Bool
  | [] => true
  | c :: _ => !isWord c

/-- Lower-case ASCII letters and the underscore, which open a local name. -/
def isNameStart (c : Char) : Bool :=
  c.isLower || c == '_'

/-- ASCII letters and the underscore, which open a constant or a symbol. -/
def isIdentStart (c : Char) : Bool :=
  c.isAlpha || c == '_'

/-- The leading run of ASCII word characters. -/
def leadingWord (cs : List Char) : List Char :=
  cs.takeWhile isAsciiWord

/-- The trailing run of ASCII word characters. -/
def lastWord (cs : List Char) : List Char :=
  (cs.reverse.takeWhile isAsciiWord).reverse

/-- Whether the whole text is one local name. -/
def isName : List Char → Bool
  | [] => false
  | c :: cs => isNameStart c && cs.all isAsciiWord

/-- A leading identifier whose first character satisfies `start`, and what follows it. -/
def takeIdent (start : Char → Bool) (inner : Char → Bool) :
    List Char → Option (List Char × List Char)
  | [] => none
  | c :: cs =>
    if start c then some (c :: cs.takeWhile inner, cs.dropWhile inner) else none

/-! ## Kinds of characters -/

section Kind

variable {p : Char → Bool} {c d : Char} {text : List Char}

/-- A character of a kind is none that is not of it. -/
theorem ne_of_kind (kind : p c = true) (other : p d = false) : c ≠ d := by
  rintro rfl
  exact Bool.false_ne_true (other.symm.trans kind)

theorem beq_of_kind (kind : p c = true) (other : p d = false) : (c == d) = false :=
  beq_false_of_ne (ne_of_kind kind other)

/-- A text of one kind holds no character that is not of it. -/
theorem not_mem_of_all (all : text.all p = true) (other : p c = false) : c ∉ text :=
  fun member => ne_of_kind (List.all_eq_true.mp all c member) other rfl

end Kind

/-! ## Identifiers -/

/-- What is taken as an identifier begins with one and goes on as far as it may. -/
theorem exists_of_takeIdent {start inner : Char → Bool} {text word rest : List Char}
    (taken : takeIdent start inner text = some (word, rest)) :
    ∃ c cs, text = c :: cs ∧ start c = true ∧ word = c :: cs.takeWhile inner ∧
      rest = cs.dropWhile inner := by
  cases text with
  | nil => cases taken
  | cons c cs =>
      rw [takeIdent] at taken
      split at taken
      · rename_i starts
        cases taken
        exact ⟨c, cs, rfl, starts, rfl, rfl⟩
      · cases taken

theorem takeIdent_whole {start inner : Char → Bool} {word : List Char}
    (starts : word.head?.any start = true) (chars : word.all inner = true) :
    takeIdent start inner word = some (word, []) := by
  cases word with
  | nil => cases starts
  | cons c cs =>
      have first : start c = true := starts
      have later : ∀ d ∈ cs, inner d = true := fun d member =>
        List.all_eq_true.mp chars d (.tail _ member)
      have taken : (cs ++ []).takeWhile inner = cs ++ [].takeWhile inner :=
        List.takeWhile_append_of_pos later
      have left : (cs ++ []).dropWhile inner = [].dropWhile inner :=
        List.dropWhile_append_of_pos later
      rw [List.append_nil] at taken left
      rw [takeIdent, if_pos first, taken, left]
      simp

/-- A word ends where it would end by itself, if what follows does not go on with it. -/
theorem takeIdent_append_of_stops {start inner : Char → Bool} {text word rest more : List Char}
    (taken : takeIdent start inner text = some (word, rest))
    (stops : ∀ c ∈ more.head?, inner c = false) :
    takeIdent start inner (text ++ more) = some (word, rest ++ more) := by
  have stop : more.takeWhile inner = [] ∧ more.dropWhile inner = more := by
    cases more with
    | nil => exact ⟨rfl, rfl⟩
    | cons c cs =>
        have stop := ne_true_of_eq_false (stops c rfl)
        exact ⟨List.takeWhile_cons_of_neg stop, List.dropWhile_cons_of_neg stop⟩
  obtain ⟨c, cs, rfl, first, rfl, rfl⟩ := exists_of_takeIdent taken
  have inside : (cs ++ more).takeWhile inner = cs.takeWhile inner := by
    rw [List.takeWhile_append]
    split
    · rename_i all
      rw [stop.1, List.append_nil, (List.takeWhile_prefix inner).eq_of_length all]
    · rfl
  have left : (cs ++ more).dropWhile inner = cs.dropWhile inner ++ more := by
    rw [List.dropWhile_append]
    split
    · rename_i none
      rw [List.isEmpty_iff.mp none, stop.2, List.nil_append]
    · rfl
  rw [List.cons_append, takeIdent, if_pos first, inside, left]

theorem takeIdent_append {start inner : Char → Bool} {word rest : List Char}
    (starts : word.head?.any start = true) (chars : word.all inner = true) {c : Char}
    (stops : inner c = false) :
    takeIdent start inner (word ++ c :: rest) = some (word, c :: rest) :=
  takeIdent_append_of_stops (takeIdent_whole starts chars) fun _ first =>
    Option.some.inj first ▸ stops

/-! ## Names -/

/-- What opens a name opens an identifier. -/
theorem isIdentStart_of_isNameStart {c : Char} (starts : isNameStart c = true) :
    isIdentStart c = true :=
  (Bool.or_eq_true _ _).mpr
    (((Bool.or_eq_true _ _).mp starts).imp_left fun lower => (Bool.or_eq_true _ _).mpr (.inr lower))

/-- What opens a name may stand in it. -/
theorem isAsciiWord_of_isNameStart {c : Char} (starts : isNameStart c = true) :
    isAsciiWord c = true := by
  have ident := (Bool.or_eq_true _ _).mp (isIdentStart_of_isNameStart starts)
  exact (Bool.or_eq_true _ _).mpr
    (ident.imp_left fun letter => (Bool.or_eq_true _ _).mpr (.inl letter))

section Name

variable {word : List Char} (name : isName word = true)

include name

theorem all_of_isName : word.all isAsciiWord = true := by
  cases word with
  | nil => cases name
  | cons c cs =>
      obtain ⟨starts, inner⟩ := (Bool.and_eq_true _ _).mp name
      rw [List.all_cons, isAsciiWord_of_isNameStart starts, inner]
      rfl

theorem head?_isNameStart_of_isName : word.head?.any isNameStart = true := by
  cases word with
  | nil => cases name
  | cons c cs => exact ((Bool.and_eq_true _ _).mp name).1

theorem head?_of_isName : word.head?.any isIdentStart = true := by
  cases word with
  | nil => cases name
  | cons c cs => exact isIdentStart_of_isNameStart ((Bool.and_eq_true _ _).mp name).1

end Name

end Rolewright.Text
