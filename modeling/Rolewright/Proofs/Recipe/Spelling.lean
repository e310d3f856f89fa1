/-
# How literals are written

A text in quotes, a symbol, a number, and a list of such in brackets. Three scans take code apart:
one looks for comments and open quotes, one for gaps between words, and one for separators. Each of
them passes over a literal and is afterwards where it was before, at any depth of brackets
(`IsTransparent.of_literal`); what has to be known of a scan is how it takes the parts.
-/

import Rolewright.Proofs.Value.Literals

namespace Rolewright.Recipe

open Text

/-! ## Literals -/

/-- Characters of a text that is written in single quotes. -/
def isTextChar (c : Char) : Bool :=
  isAsciiWord c || c == ' ' || c == '-' || c == '/' || c == '.' || c == ':'

/-- Characters of symbols and numbers. -/
def isAtomChar (c : Char) : Bool :=
  isAsciiWord c || c == ':' || c == '?' || c == '!'

/-- Letters, digits and underscores are characters of an atom. -/
theorem all_isAtomChar {word : List Char} (inner : word.all isAsciiWord = true) :
    word.all isAtomChar = true := by
  refine List.all_eq_true.mpr fun c member => ?_
  simp [isAtomChar, List.all_eq_true.mp inner c member]

/-- Characters that separate the items of a list. -/
def isListGap (c : Char) : Bool :=
  c == ',' || c == ' '

/-- The code of a literal. -/
inductive IsLiteral : List Char → Prop
  | quoted {text : List Char} (plain : text.all isTextChar = true) :
      IsLiteral ('\'' :: (text ++ ['\'']))
  /-- A symbol may end in a question mark or an exclamation mark. -/
  | symbol {word mark : List Char} (starts : word.head?.any isIdentStart = true)
      (inner : word.all isAsciiWord = true) (marked : mark ∈ [[], ['?'], ['!']])
      (other : word ++ mark ≠ "do".toList) : IsLiteral (':' :: (word ++ mark))
  | number {digits : List Char} (some : digits ≠ []) (all : digits.all Char.isDigit = true) :
      IsLiteral digits
  /-- Each item of a list stands with the commas and blanks that follow it. -/
  | list {start : List Char} {items : List (List Char × List Char)}
      (opening : start.all isListGap = true)
      (between : ∀ item ∈ items, item.2.all isListGap = true)
      (each : ∀ item ∈ items, IsLiteral item.1) :
      IsLiteral ('[' :: (start ++ items.flatMap (fun item => item.1 ++ item.2) ++ [']']))

/-- Code that is read without a change to what is open, at each depth of brackets. -/
structure IsTransparent (P : Nat → List Char → Prop) : Prop where
  append {n : Nat} {code more : List Char} : P n code → P n more → P n (code ++ more)
  /-- A question mark may follow a word, but not stand by itself. -/
  atom {n : Nat} {code : List Char} : code.head? ≠ some '?' → code.all isAtomChar = true → P n code
  gap {n : Nat} {c : Char} : isListGap c = true → P (n + 1) [c]
  quoted {n : Nat} {text : List Char} : text.all isTextChar = true → P n ('\'' :: (text ++ ['\'']))
  group {n : Nat} {code : List Char} : P (n + 1) code → P n ('[' :: (code ++ [']']))

/-- A text of plain characters stands in quotes as it is. -/
theorem isQuotable_of_all {text : List Char} (plain : text.all isTextChar = true) :
    IsQuotable text :=
  ⟨not_mem_of_all plain (by decide), not_mem_of_all plain (by decide),
    not_mem_of_all plain (by decide)⟩

namespace IsTransparent

variable {P : Nat → List Char → Prop} (transparent : IsTransparent P) {n : Nat}
  {code : List Char}

include transparent

/-- A transparent property holds of the empty code, -/
theorem nil : P n [] :=
  transparent.atom nofun rfl

/-- of blanks and line ends within a list -/
theorem gaps (all : code.all isListGap = true) : P (n + 1) code := by
  induction code with
  | nil => exact transparent.nil
  | cons c cs ih =>
      obtain ⟨here, later⟩ := (Bool.and_eq_true _ _).mp (List.all_cons.symm.trans all)
      exact transparent.append (transparent.gap here) (ih later)

/-- and of items with such gaps behind each, if it holds of the items. -/
theorem items {items : List (List Char × List Char)}
    (between : ∀ item ∈ items, item.2.all isListGap = true)
    (each : ∀ item ∈ items, P (n + 1) item.1) :
    P (n + 1) (items.flatMap fun item => item.1 ++ item.2) := by
  induction items with
  | nil => exact transparent.nil
  | cons item items ih =>
      obtain ⟨gap, between⟩ := List.forall_mem_cons.mp between
      obtain ⟨here, each⟩ := List.forall_mem_cons.mp each
      rw [List.flatMap_cons]
      exact transparent.append (transparent.append here (transparent.gaps gap)) (ih between each)

/-- A literal is read without a change to what is open. -/
theorem of_literal (literal : IsLiteral code) (n : Nat) : P n code := by
  induction literal generalizing n with
  | quoted plain => exact transparent.quoted plain
  | @symbol word mark starts inner marked other =>
      refine transparent.atom nofun ?_
      have atoms : word.all isAtomChar = true := by
        refine List.all_eq_true.mpr fun c member => ?_
        simp [isAtomChar, List.all_eq_true.mp inner c member]
      have ends : mark.all isAtomChar = true :=
        (by decide : ∀ mark ∈ [[], ['?'], ['!']], mark.all isAtomChar = true) mark marked
      rw [List.all_cons, List.all_append, atoms, ends]
      rfl
  | @number digits some all =>
      have atom {c : Char} (digit : c.isDigit = true) : isAtomChar c = true := by
        simp [isAtomChar, isAsciiWord, Char.isAlphanum, digit]
      refine transparent.atom (fun question => ?_) ?_
      · have member := List.mem_of_mem_head? question
        exact absurd (List.all_eq_true.mp all _ member) (by decide)
      · exact List.all_eq_true.mpr fun c member => atom (List.all_eq_true.mp all c member)
  | list opening between each ih =>
      refine transparent.group (transparent.append (transparent.gaps opening) ?_)
      exact transparent.items between fun item member => ih item member (n + 1)

end IsTransparent

/-! ## Characters -/

/-- Characters that may stand in a literal. -/
def isLiteralChar (c : Char) : Bool :=
  isTextChar c || isAtomChar c || isListGap c || c == '\'' || c == '[' || c == ']'

/-- Consisting of the characters of literals is such a property. -/
theorem isTransparent_isLiteralChar :
    IsTransparent fun _ code => code.all isLiteralChar = true where
  append first second := by rw [List.all_append, first, second]; rfl
  atom {n code} _ all := by
    have inside : _ := List.all_eq_true.mp all
    simp +contextual [isLiteralChar, inside]
  gap gap := by simp [isLiteralChar, gap]
  quoted {n text} plain := by
    have inside : _ := List.all_eq_true.mp plain
    simp +contextual [isLiteralChar, inside]
  group inside := by
    rw [List.all_cons, List.all_append, inside]
    rfl

/-- Characters that may stand first in a literal. -/
def opensLiteral (c : Char) : Bool :=
  c == '\'' || c == ':' || c == '[' || c.isDigit

/-- Characters that may stand last in a literal, but for the last ones of a word. -/
def endsLiteral (c : Char) : Bool :=
  c == '\'' || c == ']' || c == '?' || c == '!' || c.isDigit

theorem isAsciiWord_of_isDigit {c : Char} (digit : c.isDigit = true) : isAsciiWord c = true := by
  simp [isAsciiWord, Char.isAlphanum, digit]

theorem isBlank_of_endsLiteral {c : Char} (ends : endsLiteral c = true) : isBlank c = false := by
  simp only [endsLiteral, Bool.or_eq_true, beq_iff_eq] at ends
  rcases ends with (((rfl | rfl) | rfl) | rfl) | digit
  case inr => exact isBlank_of_isAsciiWord (isAsciiWord_of_isDigit digit)
  all_goals decide

theorem isWord_of_isAsciiWord {c : Char} (word : isAsciiWord c = true) : isWord c = true := by
  have low : c.toNat < 128 := by
    have ranges : (decide ('A'.val ≤ c.val ∧ c.val ≤ 'Z'.val) ||
        (decide ('a'.val ≤ c.val) && decide (c.val ≤ 'z'.val)) ||
        (decide ('0'.val ≤ c.val) && decide (c.val ≤ '9'.val)) || c == '_') = true := word
    simp only [Bool.or_eq_true, Bool.and_eq_true, decide_eq_true_eq, beq_iff_eq,
      UInt32.le_iff_toNat_le] at ranges
    rcases ranges with ((⟨-, upper⟩ | ⟨-, lower⟩) | ⟨-, digit⟩) | rfl
    · exact Nat.lt_of_le_of_lt upper (by decide)
    · exact Nat.lt_of_le_of_lt lower (by decide)
    · exact Nat.lt_of_le_of_lt digit (by decide)
    · decide
  rw [isWord, if_pos low, word]

/-- A word at the end of a text makes an end of the word before it, but if it is `do`. -/
theorem atBoundary_of_append_word {before word text : List Char} {stop : Char}
    (named : word ≠ []) (inner : word.all isAsciiWord = true) (other : word ≠ "do".toList)
    (stops : stop ≠ 'd') (ends : before ++ stop :: word = text ++ "do".toList) :
    atBoundary text.reverse = false := by
  have here : word <:+ text ++ "do".toList := ends ▸ ⟨before ++ [stop], by simp⟩
  rcases List.suffix_or_suffix_of_suffix (List.suffix_append text "do".toList) here with
    ⟨front, rfl⟩ | short
  · have front_ne : front ≠ [] := fun none => other (by rw [none]; rfl)
    have split : text = before ++ stop :: front := by
      have same : text ++ "do".toList = before ++ stop :: front ++ "do".toList := by
        simpa using ends.symm
      exact List.append_cancel_right same
    cases front using List.reverseRecOn with
    | nil => exact absurd rfl front_ne
    | append_singleton front c =>
        have last : isAsciiWord c = true := List.all_eq_true.mp inner c (by simp)
        rw [split]
        simp [atBoundary, isWord_of_isAsciiWord last]
  · have known : word = "o".toList := by
      obtain ⟨front, split⟩ := short
      match front, split with
      | [], split => exact absurd split other
      | [_], split => exact (List.cons.inj split).2
      | [_, _], split => exact absurd (List.cons.inj (List.cons.inj split).2).2 named
    subst known
    have split : before ++ [stop] = text ++ ['d'] := by
      have same : before ++ [stop] ++ ['o'] = text ++ ['d'] ++ ['o'] := by simpa using ends
      exact List.append_cancel_right same
    exact absurd (List.cons.inj (List.append_inj' split rfl).2).1 stops

namespace IsLiteral

variable {code : List Char}

/-- A literal holds no other character, -/
theorem not_mem (literal : IsLiteral code) {c : Char} (other : isLiteralChar c = false) :
    c ∉ code :=
  not_mem_of_all (isTransparent_isLiteralChar.of_literal literal 0) other

/-- and begins with one that opens a literal. -/
theorem exists_eq_cons (literal : IsLiteral code) :
    ∃ c cs, code = c :: cs ∧ opensLiteral c = true := by
  cases literal with
  | quoted => exact ⟨_, _, rfl, rfl⟩
  | symbol => exact ⟨_, _, rfl, rfl⟩
  | list => exact ⟨_, _, rfl, rfl⟩
  | number some all =>
      cases code with
      | nil => exact absurd rfl some
      | cons c cs =>
          have digit : c.isDigit = true := List.all_eq_true.mp all c (.head _)
          exact ⟨c, cs, rfl, by simp [opensLiteral, digit]⟩

/-- A literal ends in a character that ends no word, or it is a symbol of one word. -/
theorem ends_or_eq_symbol (literal : IsLiteral code) :
    (∃ c, code.getLast? = some c ∧ endsLiteral c = true) ∨
      ∃ word, code = ':' :: word ∧ word ≠ [] ∧ word.all isAsciiWord = true ∧
        word ≠ "do".toList := by
  cases literal with
  | quoted =>
      refine .inl ⟨'\'', ?_, rfl⟩
      rw [← List.cons_append, List.getLast?_concat]
  | list =>
      refine .inl ⟨']', ?_, rfl⟩
      rw [← List.cons_append, List.getLast?_concat]
  | number some all =>
      have digit := List.all_eq_true.mp all _ (List.getLast_mem some)
      refine .inl ⟨_, List.getLast?_eq_some_getLast some, ?_⟩
      rw [endsLiteral, digit, Bool.or_true]
  | @symbol word mark starts inner marked other =>
      have named : word ≠ [] := by
        rintro rfl
        cases starts
      simp only [List.mem_cons, List.not_mem_nil, or_false] at marked
      rcases marked with rfl | rfl | rfl
      · rw [List.append_nil] at other ⊢
        exact .inr ⟨word, rfl, named, inner, other⟩
      · refine .inl ⟨'?', ?_, rfl⟩
        rw [← List.cons_append, List.getLast?_concat]
      · refine .inl ⟨'!', ?_, rfl⟩
        rw [← List.cons_append, List.getLast?_concat]

/-- What a literal ends in is no blank and separates nothing. -/
theorem exists_getLast?_eq (literal : IsLiteral code) :
    ∃ c, code.getLast? = some c ∧ isBlank c = false ∧ c ≠ '|' ∧ c ≠ ';' := by
  rcases literal.ends_or_eq_symbol with ⟨c, last, ends⟩ | ⟨word, symbol, named, inner, -⟩
  · exact ⟨c, last, isBlank_of_endsLiteral ends, ne_of_kind ends (by decide),
      ne_of_kind ends (by decide)⟩
  · have last : code.getLast? = some (word.getLast named) := by
      rw [symbol, ← List.singleton_append, List.getLast?_append_of_ne_nil _ named,
        List.getLast?_eq_some_getLast named]
    have atom : isAsciiWord (word.getLast named) = true :=
      List.all_eq_true.mp inner _ (List.getLast_mem named)
    refine ⟨_, last, isBlank_of_isAsciiWord atom, ?_, ?_⟩ <;>
    · intro same
      rw [same] at atom
      cases atom

/-- A literal is solid. -/
theorem isSolid (literal : IsLiteral code) : IsSolid code where
  first := by
    obtain ⟨c, cs, rfl, opens⟩ := literal.exists_eq_cons
    have solid : isBlank c = false := by
      simp only [opensLiteral, Bool.or_eq_true, beq_iff_eq] at opens
      rcases opens with ((rfl | rfl) | rfl) | digit
      case inr => exact isBlank_of_isAsciiWord (isAsciiWord_of_isDigit digit)
      all_goals decide
    simp [solid]
  last := by
    rcases literal.ends_or_eq_symbol with ⟨c, last, ends⟩ | ⟨word, rfl, named, inner, -⟩
    · simp [last, isBlank_of_endsLiteral ends]
    · exact (Value.isSolid_symbol inner).last

/-- A statement does not go on after a literal. -/
theorem isFinal (literal : IsLiteral code) : IsFinal code := by
  refine ⟨literal.isSolid.last, fun mark known => ?_⟩
  rcases literal.ends_or_eq_symbol with ⟨c, last, ends⟩ | ⟨word, rfl, -, inner, -⟩
  · have other : mark.getLast?.any (fun d => !endsLiteral d) = true :=
      (by decide : ∀ mark ∈ continuations, mark.getLast?.any (fun d => !endsLiteral d) = true)
        mark known
    have differ : code.getLast? ≠ mark.getLast? := by
      intro same
      rw [← same, last, Option.any_some, ends] at other
      cases other
    constructor
    · rintro ⟨before, rfl⟩
      exact differ (getLast?_append_of_any other)
    · rintro ⟨before, rfl⟩
      exact differ (getLast?_append_of_any (p := endsLiteral) (by rw [last]; exact ends)).symm
  · obtain ⟨colon, stops⟩ : ':' ∉ mark ∧ mark.all isAtomChar = false :=
      (by decide : ∀ mark ∈ continuations, ':' ∉ mark ∧ mark.all isAtomChar = false) mark known
    obtain ⟨d, member, other⟩ := List.all_eq_false.mp stops
    constructor
    · intro suffix
      rcases List.mem_cons.mp (suffix.subset member) with rfl | inside
      · exact other rfl
      · have word : isAsciiWord d = true := List.all_eq_true.mp inner d inside
        rw [isAtomChar, word] at other
        exact other rfl
    · exact fun suffix => colon (suffix.subset (.head _))

/-- Behind a literal no block is opened. -/
theorem atBoundary_of_append_do (literal : IsLiteral code) {before text : List Char}
    (ends : before ++ code = text ++ "do".toList) : atBoundary text.reverse = false := by
  rcases literal.ends_or_eq_symbol with ⟨c, last, known⟩ | ⟨word, rfl, named, inner, other⟩
  · have last' := congrArg List.getLast? ends
    rw [getLast?_append_of_any (p := endsLiteral) (by rw [last]; exact known), last,
      List.getLast?_append] at last'
    exact absurd (Option.some.inj last') (ne_of_kind known (by decide))
  · exact atBoundary_of_append_word named inner other (by decide) ends

end IsLiteral

/-! ## The scans -/

theorem isBlank_of_isAtomChar {c : Char} (atom : isAtomChar c = true) : isBlank c = false := by
  simp only [isAtomChar, Bool.or_eq_true, beq_iff_eq] at atom
  rcases atom with ((word | rfl) | rfl) | rfl
  · exact isBlank_of_isAsciiWord word
  all_goals decide

namespace Scan

/-- Only brackets are open. -/
def within (depth : Nat) : Scan := ⟨depth, none, 0⟩

/-- The scan keeps the code and leaves what is open as it is, if what follows is read so whatever
stands before it. -/
def Keeps (depth : Nat) (code : List Char) : Prop :=
  ∀ rest s kept, (∀ before, (within depth).readFrom false before rest = (s, kept)) →
    ∀ before, (within depth).readFrom false before (code ++ rest) = (s, code ++ kept)

variable {depth : Nat} {code rest kept : List Char} {s : Scan}

/-- Within brackets one character is read as code if it opens neither a comment nor a literal of one
character. -/
theorem readFrom_within_cons {c : Char} {before : Option Char} (comment : c ≠ '#')
    (literal : c = '?' → before.any isBlank = false) (cs : List Char) :
    (within depth).readFrom false before (c :: cs) =
      ((((within depth).stepCode c).readFrom false (some c) cs).1,
        c :: (((within depth).stepCode c).readFrom false (some c) cs).2) := by
  have plain : (c == '?' && before.any isBlank && cs.head?.any fun d => !isBlank d) = false := by
    by_cases same : c = '?'
    · rw [literal same, Bool.and_false, Bool.false_and]
    · rw [beq_false_of_ne same, Bool.false_and, Bool.false_and]
  rw [readFrom]
  simp only [within, beq_false_of_ne comment, plain, Bool.false_eq_true, if_false]

/-- Brackets and quotes are code. -/
theorem readFrom_within_bracket (c : Char) (bracket : c ∈ ['\'', '[', ']']) (before : Option Char)
    (cs : List Char) :
    (within depth).readFrom false before (c :: cs) =
      ((((within depth).stepCode c).readFrom false (some c) cs).1,
        c :: (((within depth).stepCode c).readFrom false (some c) cs).2) := by
  have other : ∀ c ∈ ['\'', '[', ']'], c ≠ '#' ∧ c ≠ '?' := by simp
  exact readFrom_within_cons (other c bracket).1 (fun same => absurd same (other c bracket).2) cs

theorem keeps_nil : Keeps depth [] :=
  fun _ _ _ later => later

/-- A character that changes nothing may stand before what is read whole. -/
theorem keeps_cons {c : Char} (comment : c ≠ '#') (literal : c ≠ '?')
    (step : (within depth).stepCode c = within depth) (keeps : Keeps depth code) :
    Keeps depth (c :: code) := by
  intro rest s kept later before
  rw [List.cons_append, readFrom_within_cons comment (absurd · literal), step,
    keeps rest s kept later]
  rfl

/-- A character of an atom opens and closes nothing, -/
theorem stepCode_of_isAtomChar {c : Char} (atom : isAtomChar c = true) :
    (within depth).stepCode c = within depth := by
  obtain ⟨quotes, opens, closes⟩ := Scan.unmarked_of_kind atom (by decide)
  simp [stepCode, quotes, opens, closes]

/-- so that an atom leaves the scanner as it was, -/
theorem keeps_atom (solid : code.head? ≠ some '?') (all : code.all isAtomChar = true) :
    Keeps depth code := by
  intro rest s kept later
  -- a question mark is read as code where the character before it is known
  have inside (code : List Char) (all : code.all isAtomChar = true) (before : Option Char)
      (known : before.any isBlank = false) :
      (within depth).readFrom false before (code ++ rest) = (s, code ++ kept) := by
    induction code generalizing before with
    | nil => exact later before
    | cons c cs ih =>
        obtain ⟨here, others⟩ := (Bool.and_eq_true _ _).mp (List.all_cons.symm.trans all)
        rw [List.cons_append,
          readFrom_within_cons (ne_of_kind here (by decide)) fun _ => known,
          stepCode_of_isAtomChar here, ih others (some c) (isBlank_of_isAtomChar here)]
        rfl
  intro before
  cases code with
  | nil => exact later before
  | cons c cs =>
      obtain ⟨here, others⟩ := (Bool.and_eq_true _ _).mp (List.all_cons.symm.trans all)
      have first : c = '?' → before.any isBlank = false :=
        fun same => absurd (congrArg some same) solid
      rw [List.cons_append, readFrom_within_cons (ne_of_kind here (by decide)) first,
        stepCode_of_isAtomChar here, inside cs others (some c) (isBlank_of_isAtomChar here)]
      rfl

/-- and so does a flat value, -/
theorem keeps_flat (flat : IsFlat code) : Keeps depth code := by
  induction code with
  | nil => exact keeps_nil
  | cons c cs ih =>
      obtain ⟨here, others⟩ := List.forall_mem_cons.mp flat
      exact keeps_cons (ne_of_kind here (by decide)) (ne_of_kind here (by decide))
        (stepCode_of_isFlatChar here _) (ih others)

/-- A text between quotes is read whole. -/
theorem keeps_between {quote : Char} {text : List Char} (plain : IsPlainWithin quote text) :
    Keeps depth (quote :: (text ++ [quote])) := by
  intro rest s kept later before
  obtain ⟨comment, literal, step⟩ : quote ≠ '#' ∧ quote ≠ '?' ∧
      (within depth).stepCode quote = ⟨depth, some quote, 0⟩ := by
    rcases plain.known with rfl | rfl <;> exact ⟨by decide, by decide, rfl⟩
  have inside (before : Option Char) :
      readFrom ⟨depth, some quote, 0⟩ false before (text ++ quote :: rest) =
        (s, text ++ quote :: kept) := by
    clear step
    induction text generalizing before with
    | nil =>
        have after := later (some quote)
        rw [within] at after
        rw [List.nil_append, readFrom]
        simp [stepQuoted, after, plain.ne_backslash, comment]
    | cons c cs ih =>
        obtain ⟨⟨here, backslash, interpolation⟩, others⟩ := plain.cons
        have quiet : (c == '#' && quote == '"') = false := by
          rw [Bool.and_eq_false_iff, beq_eq_false_iff_ne, beq_eq_false_iff_ne]
          exact (em (quote = '"')).imp interpolation id
        rw [List.cons_append, readFrom]
        simp only [quiet, Bool.false_and]
        simp [stepQuoted, here, backslash, ih others]
  rw [List.cons_append, List.append_assoc, readFrom_within_cons comment (absurd · literal), step,
    List.singleton_append, inside]
  simp

/-- a text in quotes, -/
theorem keeps_quoted {text : List Char} (quotable : IsQuotable text) :
    Keeps depth ('\'' :: (text ++ ['\''])) :=
  keeps_between quotable.isPlainWithin

/-- and with them every literal. -/
theorem isTransparent_keeps : IsTransparent Keeps where
  append first second rest s kept later before := by
    rw [List.append_assoc, List.append_assoc]
    exact first _ s _ (second rest s kept later) before
  atom := keeps_atom
  gap gap := by
    refine keeps_flat (List.forall_mem_singleton.mpr ?_)
    rcases (Bool.or_eq_true _ _).mp gap with same | same <;> rw [beq_iff_eq.mp same] <;> decide
  quoted plain := keeps_quoted (isQuotable_of_all plain)
  group {n code} inside rest s kept later before := by
    have closing (before : Option Char) :
        (within (n + 1)).readFrom false before (']' :: rest) = (s, ']' :: kept) := by
      rw [readFrom_within_bracket ']' (by decide)]
      change (((within n).readFrom false (some ']') rest).1,
        _ :: ((within n).readFrom false _ rest).2) = _
      rw [later]
    rw [List.cons_append, List.append_assoc, readFrom_within_bracket '[' (by decide)]
    change (((within (n + 1)).readFrom false (some '[') _).1,
      _ :: ((within (n + 1)).readFrom false _ _).2) = _
    rw [List.singleton_append, inside _ _ _ closing]
    simp

end Scan

namespace GapScan

/-- Only brackets are open. -/
def within (depth : Nat) : GapScan := ⟨depth, none, false⟩

/-- There is no gap in the code, and what is open stays as it is. -/
def Passes (depth : Nat) (code : List Char) : Prop :=
  ∀ read rest, gapsFrom (within depth) read (code ++ rest) =
    gapsFrom (within depth) (code.reverse ++ read) rest

variable {depth : Nat} {code : List Char}

/-- A character that is no gap at the top is read on. -/
theorem gapsFrom_cons {s : GapScan} {c : Char} (plain : (s.atTop && isGapChar c) = false)
    (read cs : List Char) : gapsFrom s read (c :: cs) = gapsFrom (s.step c) (c :: read) cs := by
  rw [gapsFrom, plain]
  rfl

/-- A character that is neither a quote nor a bracket changes no depth. -/
theorem step_within {c : Char} (quotes : Scan.quotes c = false) (opens : Scan.opens c = false)
    (closes : Scan.closes c = false) : (within depth).step c = within depth := by
  simp only [Scan.quotes, Scan.opens, Scan.closes] at quotes opens closes
  simp [step, within, quotes, opens, closes]

/-- Code without a gap may have such a character in front. -/
theorem passes_cons {c : Char} (plain : ((within depth).atTop && isGapChar c) = false)
    (step : (within depth).step c = within depth) (later : Passes depth code) :
    Passes depth (c :: code) := by
  intro read rest
  rw [List.cons_append, gapsFrom_cons plain, step, later, List.reverse_cons, List.append_assoc,
    List.singleton_append]

theorem passes_nil : Passes depth [] :=
  fun _ _ => rfl

/-- An atom has no gap within brackets, -/
theorem passes_atom (all : code.all isAtomChar = true) : Passes depth code := by
  induction code with
  | nil => exact passes_nil
  | cons c cs ih =>
      obtain ⟨here, later⟩ := (Bool.and_eq_true _ _).mp (List.all_cons.symm.trans all)
      obtain ⟨quotes, opens, closes⟩ := Scan.unmarked_of_kind here (by decide)
      refine passes_cons ?_ (step_within quotes opens closes) (ih later)
      rw [isGapChar_of_solid (isBlank_of_isAtomChar here), Bool.and_false]

/-- There is no gap between quotes. -/
theorem passes_between {quote : Char} {text : List Char} (plain : IsPlainWithin quote text) :
    Passes depth (quote :: (text ++ [quote])) := by
  intro read rest
  obtain ⟨solid, step⟩ : isBlank quote = false ∧
      (within depth).step quote = ⟨depth, some quote, false⟩ := by
    rcases plain.known with rfl | rfl <;> exact ⟨by decide, rfl⟩
  have inside (read : List Char) :
      gapsFrom ⟨depth, some quote, false⟩ read (text ++ quote :: rest) =
        gapsFrom (within depth) (quote :: (text.reverse ++ read)) rest := by
    clear step
    induction text generalizing read with
    | nil =>
        have closes : GapScan.step ⟨depth, some quote, false⟩ quote = within depth := by
          simp [GapScan.step, within, plain.ne_backslash]
        rw [List.nil_append, gapsFrom_cons rfl, closes]
        rfl
    | cons c cs ih =>
        obtain ⟨⟨here, backslash, -⟩, others⟩ := plain.cons
        have step : GapScan.step ⟨depth, some quote, false⟩ c = ⟨depth, some quote, false⟩ := by
          simp [GapScan.step, here, backslash]
        rw [List.cons_append, gapsFrom_cons rfl, step, ih others, List.reverse_cons,
          List.append_assoc, List.singleton_append]
  rw [List.cons_append, List.append_assoc,
    gapsFrom_cons (by rw [isGapChar_of_solid solid, Bool.and_false]), step]
  exact (inside _).trans (by simp)

/-- a text in quotes has none, -/
theorem passes_quoted {text : List Char} (quotable : IsQuotable text) :
    Passes depth ('\'' :: (text ++ ['\''])) :=
  passes_between quotable.isPlainWithin

/-- and with them no literal has one. -/
theorem isTransparent_passes : IsTransparent Passes where
  append first second read rest := by
    rw [List.append_assoc, first, second, List.reverse_append, List.append_assoc]
  atom _ all := passes_atom all
  gap {n c} gap := by
    refine passes_cons rfl ?_ passes_nil
    rcases (Bool.or_eq_true _ _).mp gap with same | same <;> rw [beq_iff_eq.mp same] <;> rfl
  quoted plain := passes_quoted (isQuotable_of_all plain)
  group {n code} inside read rest := by
    rw [List.cons_append, List.append_assoc,
      gapsFrom_cons (by rw [isGapChar_of_solid (by decide), Bool.and_false])]
    change gapsFrom (within (n + 1)) _ _ = _
    rw [inside, List.singleton_append, gapsFrom_cons rfl]
    change gapsFrom (within n) _ _ = _
    simp

end GapScan

end Rolewright.Recipe

namespace Rolewright.Value

open Recipe Text

/-- Code that belongs to one piece at some depth of brackets and leaves what is open as it is. -/
def IsPieceWithin (sep : Char) (depth : Nat) (code : List Char) : Prop :=
  ∀ rest, pieces sep ⟨depth, none, false⟩ (code ++ rest) =
    prepend code (pieces sep ⟨depth, none, false⟩ rest)

variable {sep : Char} {depth : Nat} {code : List Char}

/-- Code that is nowhere cut and leaves all open is one piece. -/
theorem isPieceWithin_of_uncut (uncut : Uncut sep ⟨depth, none, false⟩ code ⟨depth, none, false⟩) :
    IsPieceWithin sep depth code :=
  fun rest => uncut.pieces_append rest

/-- Two such stretches one behind the other are one piece, -/
theorem isPieceWithin_append {more : List Char} (first : IsPieceWithin sep depth code)
    (second : IsPieceWithin sep depth more) : IsPieceWithin sep depth (code ++ more) := by
  intro rest
  rw [List.append_assoc, first, second, ← prepend_append _ _ (pieces_ne_nil _ _ _)]

/-- A character that the scan takes no notice of is part of any piece. -/
theorem isPieceWithin_singleton {c : Char} (plain : Nesting.isStructural c = false)
    (other : Nesting.atTop ⟨depth, none, false⟩ = true → c ≠ sep) :
    IsPieceWithin sep depth [c] :=
  isPieceWithin_of_uncut (.of_all rfl (by simpa using ⟨plain, other⟩))

/-- and an atom is one, unless the separator is a character of it. -/
theorem isPieceWithin_atom (other : isAtomChar sep = false) (all : code.all isAtomChar = true) :
    IsPieceWithin sep depth code :=
  isPieceWithin_of_uncut <| .of_all rfl fun c member =>
    have atom := List.all_eq_true.mp all c member
    ⟨isStructural_of_kind atom (by decide), fun _ => ne_of_kind atom other⟩

/-- A text between quotes belongs to one piece. -/
theorem isPieceWithin_between {quote : Char} {text : List Char}
    (plain : IsPlainWithin quote text) :
    IsPieceWithin sep depth (quote :: (text ++ [quote])) := by
  have known : Nesting.quotes quote = true := by
    rcases plain.known with rfl | rfl <;> rfl
  exact isPieceWithin_of_uncut ((IsEscaped.of_isPlainWithin plain).uncut_quoted known depth)

/-- A separator that is no part of a literal cuts none. -/
theorem isTransparent_isPieceWithin (other : isAtomChar sep = false)
    (plain : Nesting.isStructural sep = false) : IsTransparent (IsPieceWithin sep) where
  append := isPieceWithin_append
  atom _ all := isPieceWithin_atom other all
  gap {n c} gap := by
    refine isPieceWithin_singleton ?_ nofun
    rcases (Bool.or_eq_true _ _).mp gap with same | same <;> rw [beq_iff_eq.mp same] <;> rfl
  quoted all := isPieceWithin_between (isQuotable_of_all all).isPlainWithin
  group {n code} inside rest := by
    have opening : ('[' == sep) = false := by
      refine beq_false_of_ne ?_
      rintro rfl
      cases plain
    have closing : Nesting.step ⟨(n + 1 : Nat), none, false⟩ ']' = ⟨n, none, false⟩ := by
      simp [Nesting.step, Nesting.quotes, Nesting.opens, Nesting.closes]
    rw [List.cons_append, List.append_assoc, List.singleton_append,
      pieces_cons (by rw [opening, Bool.and_false])]
    change prepend _ (pieces sep ⟨(n + 1 : Nat), none, false⟩ _) = _
    rw [inside, pieces_cons rfl, closing, ← prepend_append _ _ (pieces_ne_nil _ _ _),
      ← prepend_append _ _ (pieces_ne_nil _ _ _)]
    simp

end Rolewright.Value
