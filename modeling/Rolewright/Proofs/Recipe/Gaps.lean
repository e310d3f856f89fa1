/-
# Conditions and blocks behind a gap

A condition behind a statement, and a block on one line, are looked for at every gap of a line.
Words, texts in quotes and literals with single blanks between them are quiet, in that no condition
begins in them (`IsQuiet.spaced`); so the condition found is the one behind them
(`splitModifier_quiet`), and the block is the one that begins behind the first two
(`splitInlineBlock?_quoting`).
-/

import Rolewright.Proofs.Recipe.Roles
import Rolewright.Proofs.Recipe.Spelling

namespace Rolewright.Recipe

open Text

/-! ## Quiet code -/

/-- The word before a condition. -/
def Modifier.keyword (negated : Bool) : List Char :=
  if negated then "unless".toList else "if".toList

/-- The end of a line, or a blank and more of it. -/
def IsSpaced (rest : List Char) : Prop :=
  rest = [] ∨ rest.head? = some ' '

/-- The statement and the condition that a gap separates. -/
def Gap.split? (gap : Gap) : Option (List Char × Modifier) :=
  (gap.modifier? false).or (gap.modifier? true)

/-- Code in which no condition begins, if nothing but a blank follows it. -/
structure IsQuiet (code : List Char) : Prop where
  hides : ∀ read rest, IsSpaced rest →
    (gapsFrom .start read (code ++ rest)).findSome? Gap.split? =
      (gapsFrom .start (code.reverse ++ read) rest).findSome? Gap.split?
  plain : ∀ negated rest, IsSpaced rest →
    afterKeyword? (Modifier.keyword negated) (code ++ rest) = none

section Quiet

variable {code more word rest : List Char}

theorem IsQuiet.of_passes (passes : GapScan.Passes 0 code)
    (plain : ∀ negated rest, IsSpaced rest →
      afterKeyword? (Modifier.keyword negated) (code ++ rest) = none) : IsQuiet code where
  hides read rest _ := congrArg _ (passes read rest)
  plain := plain

theorem gapsFrom_blank (read rest : List Char) :
    gapsFrom .start read (' ' :: rest) =
      ⟨read.reverse, rest⟩ :: gapsFrom .start (' ' :: read) rest :=
  rfl

theorem Gap.split?_eq_none {gap : Gap}
    (plain : ∀ negated, afterKeyword? (Modifier.keyword negated) gap.after = none) :
    gap.split? = none := by
  have one (negated : Bool) : gap.modifier? negated = none := by
    rw [Gap.modifier?, ← Modifier.keyword, plain negated]
    rfl
  rw [Gap.split?, one, one]
  rfl

/-- A blank between quiet code makes no condition. -/
theorem IsQuiet.spaced (first : IsQuiet code) (second : IsQuiet more) :
    IsQuiet (code ++ ' ' :: more) where
  hides read rest spaced := by
    have none : Gap.split? ⟨(code.reverse ++ read).reverse, more ++ rest⟩ = none :=
      Gap.split?_eq_none fun negated => second.plain negated rest spaced
    rw [List.append_assoc, List.cons_append, first.hides _ _ (.inr rfl), gapsFrom_blank,
      List.findSome?_cons_of_isNone (by rw [none]; rfl), second.hides _ _ spaced]
    simp
  plain negated rest _ := by
    rw [List.append_assoc]
    exact first.plain negated _ (.inr rfl)

theorem isQuiet_of_head {c : Char} {cs : List Char} (passes : GapScan.Passes 0 (c :: cs))
    (other : c ∉ ['i', 'u']) : IsQuiet (c :: cs) := by
  refine .of_passes passes fun negated rest _ => ?_
  have first : c ≠ 'i' ∧ c ≠ 'u' := by simpa using other
  have none : afterPrefix? (Modifier.keyword negated) (c :: cs ++ rest) = none := by
    cases negated <;>
      simp [Modifier.keyword, afterPrefix?, List.isPrefixOf?, first.1.symm, first.2.symm]
  rw [afterKeyword?, none]

/-- What follows a keyword at the start of a word is more of the word. -/
theorem afterKeyword?_word {keyword : List Char} (solid : ' ' ∉ keyword)
    (inner : word.all isAsciiWord = true) (other : word ≠ keyword) (spaced : IsSpaced rest) :
    afterKeyword? keyword (word ++ rest) = none := by
  rw [afterKeyword?]
  cases found : afterPrefix? keyword (word ++ rest) with
  | none => rfl
  | some tail =>
      have split : keyword ++ tail = word ++ rest :=
        List.isPrefixOf?_eq_some_iff_append_eq.mp found
      rcases List.append_eq_append_iff.mp split with ⟨others, longer, left⟩ | ⟨others, longer, left⟩
      · cases others with
        | nil => exact absurd (by simpa using longer) other
        | cons c cs =>
            have here : isAsciiWord c = true :=
              List.all_eq_true.mp inner c (longer ▸ List.mem_append_right _ (.head _))
            have gap := isGapChar_of_solid (isBlank_of_isAsciiWord here)
            simp [left, gap]
      · cases others with
        | nil => exact absurd (by simpa using longer.symm) other
        | cons c cs =>
            rcases spaced with rfl | blank
            · cases left
            · rw [left] at blank
              obtain rfl : c = ' ' := Option.some.inj blank
              exact absurd (longer ▸ List.mem_append_right _ (.head _)) solid

theorem isQuiet_word (inner : word.all isAsciiWord = true) (conditional : word ≠ "if".toList)
    (conditional' : word ≠ "unless".toList) : IsQuiet word := by
  refine .of_passes (GapScan.passes_atom (all_isAtomChar inner)) fun negated rest spaced => ?_
  cases negated
  · exact afterKeyword?_word (by decide) inner conditional spaced
  · exact afterKeyword?_word (by decide) inner conditional' spaced

theorem IsLiteral.isQuiet_append (literal : IsLiteral code) (passes : GapScan.Passes 0 more) :
    IsQuiet (code ++ more) := by
  have whole := GapScan.isTransparent_passes.append
    (GapScan.isTransparent_passes.of_literal literal 0) passes
  obtain ⟨c, cs, rfl, opens⟩ := literal.exists_eq_cons
  refine isQuiet_of_head whole ?_
  simp only [List.mem_cons, List.not_mem_nil, or_false, not_or]
  constructor <;>
    rintro rfl <;> cases opens

end Quiet

/-! ## The condition behind a statement -/

/-- A condition of one word behind an `end`. -/
structure WordModifier where
  negated : Bool
  word : List Char
  named : word ≠ []
  inner : word.all isAsciiWord = true

namespace WordModifier

/-- The condition as it is written, with a blank before it. -/
def text (m : WordModifier) : List Char :=
  ' ' :: (Modifier.keyword m.negated ++ ' ' :: m.word)

/-- The condition as it is read. -/
def modifier (m : WordModifier) : Modifier :=
  ⟨m.negated, m.word⟩

end WordModifier

/-- What stands behind an `end`. -/
def suffix (m : Option WordModifier) : List Char :=
  m.elim [] WordModifier.text

theorem isSolid_word {word : List Char} (named : word ≠ []) (inner : word.all isAsciiWord = true) :
    IsSolid word := by
  have solid {c : Char} (member : c ∈ word) : (!isBlank c) = true := by
    rw [isBlank_of_isAsciiWord (List.all_eq_true.mp inner c member)]
    rfl
  refine ⟨?_, ?_⟩
  · rw [List.head?_eq_some_head named]
    exact solid (List.head_mem named)
  · rw [List.getLast?_eq_some_getLast named]
    exact solid (List.getLast_mem named)

theorem lastWord_append {front word : List Char} {stop : Char}
    (inner : word.all isAsciiWord = true) (stops : isAsciiWord stop = false) :
    lastWord (front ++ stop :: word) = word := by
  have inner : ∀ c ∈ word.reverse, isAsciiWord c = true := fun c member =>
    List.all_eq_true.mp inner c (List.mem_reverse.mp member)
  rw [lastWord, List.reverse_append, List.reverse_cons, List.append_assoc, List.singleton_append,
    List.takeWhile_append_of_pos inner, List.takeWhile_cons_of_neg (ne_true_of_eq_false stops),
    List.append_nil, List.reverse_reverse]

/-- What ends in `end` is complete. -/
theorem endsWithOperator_eq_false {code : List Char} (last : lastWord code = "end".toList) :
    endsWithOperator code = false := by
  have chars : code.reverse.takeWhile isAsciiWord = "dne".toList := by
    rw [← List.reverse_reverse (List.takeWhile _ _), ← lastWord, last]
    rfl
  have ends : code.getLast? = some 'd' := by
    rw [← List.head?_reverse]
    cases reversed : code.reverse with
    | nil =>
        rw [reversed] at chars
        cases chars
    | cons c cs =>
        rw [reversed, List.takeWhile_cons] at chars
        split at chars
        · exact congrArg some (List.cons.inj chars).1
        · cases chars
  rw [endsWithOperator, ends, last]
  decide

theorem splitModifier_eq (text : List Char) :
    splitModifier text =
      ((gaps text).findSome? Gap.split?).elim (text, none)
        fun split => (split.1, some split.2) := by
  rw [splitModifier]
  change (match (gaps text).findSome? Gap.split? with
    | some (head, modifier) => (head, some modifier)
    | none => (text, none)) = _
  cases (gaps text).findSome? Gap.split? <;> rfl

/-- Behind a complete statement a gap, a keyword and a blank separate the condition. -/
theorem Gap.split?_keyword {code condition : List Char} (solid : IsSolid code)
    (complete : endsWithOperator code = false) (trimmed : IsSolid condition) (negated : Bool) :
    Gap.split? ⟨code, Modifier.keyword negated ++ ' ' :: condition⟩ =
      some (code, ⟨negated, condition⟩) := by
  have inner : trim (' ' :: condition) = condition := trimmed.trim_indented 1
  have after : afterKeyword? (Modifier.keyword negated)
      (Modifier.keyword negated ++ ' ' :: condition) = some (' ' :: condition) := by
    cases negated <;> rfl
  have found : Gap.modifier? ⟨code, Modifier.keyword negated ++ ' ' :: condition⟩ negated =
      some (code, ⟨negated, condition⟩) := by
    rw [Gap.modifier?, ← Modifier.keyword, after, Option.bind_some]
    simp only [inner, trimEnd_of_solid solid.last, solid.isEmpty_eq, trimmed.isEmpty_eq, complete,
      Bool.or_self, Bool.false_eq_true, if_false]
  rw [Gap.split?]
  cases negated with
  | false => rw [found, Option.some_or]
  | true =>
      have other : Gap.modifier? ⟨code, Modifier.keyword true ++ ' ' :: condition⟩ false = none :=
        rfl
      rw [other, Option.none_or, found]

section Modifiers

variable {code : List Char} (quiet : IsQuiet code) (solid : IsSolid code)
  (last : lastWord code = "end".toList)

include solid last in
theorem WordModifier.split?_gap (m : WordModifier) :
    Gap.split? ⟨code, Modifier.keyword m.negated ++ ' ' :: m.word⟩ = some (code, m.modifier) :=
  Gap.split?_keyword solid (endsWithOperator_eq_false last) (isSolid_word m.named m.inner) m.negated

include quiet solid last in
/-- Behind quiet code that ends in `end` the condition is found. -/
theorem splitModifier_quiet (m : Option WordModifier) :
    splitModifier (code ++ suffix m) = (code, m.map WordModifier.modifier) := by
  cases m with
  | none =>
      have absent : (gaps code).findSome? Gap.split? = none := by
        rw [gaps, ← List.append_nil code, quiet.hides _ _ (.inl rfl)]
        rfl
      rw [suffix, Option.elim_none, List.append_nil, splitModifier_eq, absent]
      rfl
  | some m =>
      have found : (gaps (code ++ m.text)).findSome? Gap.split? = some (code, m.modifier) := by
        rw [gaps, quiet.hides _ _ (.inr rfl), WordModifier.text, gapsFrom_blank, List.append_nil,
          List.reverse_reverse, List.findSome?_cons, m.split?_gap solid last]
      rw [suffix, Option.elim_some, splitModifier_eq, found]
      rfl

end Modifiers

/-! ## The block on a line -/

/-- A block on one line, with this head and this body. -/
def inlineText (head body : List Char) : List Char :=
  head ++ ' ' :: ("do".toList ++ ' ' :: (body ++ ' ' :: "end".toList))

/-- The body of a block on one line: solid, and without a bar or separators at its ends. -/
structure IsInlineBody (body : List Char) : Prop extends IsSolid body where
  bar : body.head? ≠ some '|'
  leading : body.head? ≠ some ';'
  trailing : body.getLast? ≠ some ';'

section Inline

variable {type name body : List Char}

theorem trimBoth_semicolon {text : List Char} (leading : text.head? ≠ some ';')
    (trailing : text.getLast? ≠ some ';') : trimBoth (· == ';') text = text := by
  have start {text : List Char} (other : text.head? ≠ some ';') :
      text.dropWhile (· == ';') = text := by
    cases text with
    | nil => rfl
    | cons c cs =>
        have here : c ≠ ';' := fun same => other (congrArg some same)
        exact List.dropWhile_cons_of_neg (by simpa using here)
  have ends : text.reverse.head? ≠ some ';' := by
    rw [List.head?_reverse]
    exact trailing
  rw [trimBoth, start leading, start ends, List.reverse_reverse]

/-- The block begins behind the first two gaps, after the head. -/
theorem findSome?_blockStart (head : IsHead type) (quotable : IsQuotable name)
    (rest : List Char) :
    (gaps (quoting (type ++ [' ']) name [] ++ ' ' :: ("do".toList ++ ' ' :: rest))).findSome?
        Gap.blockStart? =
      some (quoting (type ++ [' ']) name [], ' ' :: rest) := by
  have solid := (head.isStatement isFlat_nil isFlat_nil quotable (by decide)).solid
  have word : GapScan.Passes 0 type := GapScan.passes_atom (all_isAtomChar head.inner)
  have quoted : GapScan.Passes 0 ('\'' :: (name ++ ['\''])) := GapScan.passes_quoted quotable
  have found : Gap.blockStart? ⟨quoting (type ++ [' ']) name [], "do".toList ++ ' ' :: rest⟩ =
      some (quoting (type ++ [' ']) name [], ' ' :: rest) := by
    have some : quoting (type ++ [' ']) name [] ≠ [] :=
      List.isEmpty_eq_false_iff.mp solid.isEmpty_eq
    have after : afterPrefix? "do".toList ("do".toList ++ ' ' :: rest) = .some (' ' :: rest) := rfl
    rw [Gap.blockStart?, after]
    simp [trimEnd_of_solid solid.last, some, isGapChar]
  rw [quoting_word] at found ⊢
  rw [gaps, List.append_assoc]
  change (gapsFrom (GapScan.within 0) _ _).findSome? _ = _
  rw [word]
  change (⟨_, '\'' :: _⟩ :: gapsFrom (GapScan.within 0) _
    ('\'' :: (name ++ ['\'']) ++ ' ' :: _)).findSome? _ = _
  rw [List.findSome?_cons_of_isNone rfl, quoted]
  change (⟨_, _⟩ :: gapsFrom .start _ ("do".toList ++ ' ' :: rest)).findSome? _ = _
  have before : (('\'' :: (name ++ ['\''])).reverse ++ ' ' :: (type.reverse ++ [])).reverse =
      type ++ ' ' :: '\'' :: (name ++ ['\'']) := by
    simp
  rw [List.findSome?_cons, before, found]

/-- A block on one line is taken apart. -/
theorem splitInlineBlock?_inlineText (head : IsHead type) (quotable : IsQuotable name)
    (inline : IsInlineBody body) :
    splitInlineBlock? (inlineText (quoting (type ++ [' ']) name []) body) =
      some ⟨quoting (type ++ [' ']) name [], none, body⟩ := by
  have solid := inline.toIsSolid
  have front : inlineText (quoting (type ++ [' ']) name []) body =
      quoting (type ++ [' ']) name [] ++ ' ' :: ("do".toList ++ ' ' :: (body ++ [' '])) ++
        "end".toList := by
    simp [inlineText]
  have ends : beforeSuffix? "end".toList (inlineText (quoting (type ++ [' ']) name []) body) =
      some (quoting (type ++ [' ']) name [] ++ ' ' :: ("do".toList ++ ' ' :: (body ++ [' ']))) :=
    List.isSuffixOf?_eq_some_iff_append_eq.mpr front.symm
  obtain ⟨c, cs, rfl⟩ : ∃ c cs, body = c :: cs := by
    cases body with
    | nil => cases solid.first
    | cons c cs => exact ⟨c, cs, rfl⟩
  have first : isBlank c = false := by simpa using solid.first
  have bar : c ≠ '|' := fun same => inline.bar (congrArg some same)
  have tail : IsSolid (c :: cs ++ ' ' :: "end".toList) := by
    refine ⟨by simp [first], ?_⟩
    rw [List.getLast?_append]
    rfl
  have start : trimStart (' ' :: (c :: cs ++ ' ' :: "end".toList)) =
      c :: cs ++ ' ' :: "end".toList :=
    trimStart_cons_of_not_blank first
  have params : blockParams? (c :: cs ++ ' ' :: "end".toList) =
      some (none, c :: cs ++ ' ' :: "end".toList) := by
    rw [List.cons_append, blockParams?]
    exact fun _ same => bar (List.cons.inj same).1
  have inside : beforeSuffix? "end".toList (c :: cs ++ ' ' :: "end".toList) =
      some (c :: cs ++ [' ']) :=
    List.isSuffixOf?_eq_some_iff_append_eq.mpr (by simp)
  have gap : (quoting (type ++ [' ']) name [] ++ ' ' :: ("do".toList ++ ' ' :: (c :: cs ++ [' ']))
      ).getLast? = some ' ' := by
    have split : quoting (type ++ [' ']) name [] ++
        ' ' :: ("do".toList ++ ' ' :: (c :: cs ++ [' '])) =
        (quoting (type ++ [' ']) name [] ++ ' ' :: ("do".toList ++ ' ' :: c :: cs)) ++ [' '] := by
      simp
    rw [split, List.getLast?_concat]
  have begins := findSome?_blockStart head quotable (c :: cs ++ ' ' :: "end".toList)
  rw [splitInlineBlock?, ends]
  simp only [Option.bind_eq_bind, Option.bind_some, gap]
  rw [if_neg (by decide), inlineText, begins]
  simp only [Option.bind_some, start, params, tail.trim_eq, inside, solid.trim_concat,
    trimBoth_semicolon inline.leading inline.trailing, solid.trim_eq]
  rfl

end Inline

end Rolewright.Recipe
