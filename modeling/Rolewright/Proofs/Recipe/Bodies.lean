/-
# Statements that give literals

A statement `key value`, where the value is a literal, is understood from its text alone
(`LiteralStatement.addStatement_eq`). On a row of its own it is a statement by itself; on one line
with others, between semicolons, it is cut out whole (`split_joinedStatements`), and no condition
begins in it (`isQuiet_joinedStatements`).
-/

import Rolewright.Proofs.Recipe.Gaps
import Rolewright.Proofs.Recipe.Rendering

namespace Rolewright.Recipe

open Text

/-! ## What is written -/

/-- A statement of a body, a key and a literal. -/
structure LiteralStatement where
  key : String
  value : List Char
  isHead : IsHead key.toList
  ordinary : key ≠ "notifies" ∧ key ≠ "subscribes"
  isLiteral : IsLiteral value

/-- A statement as it is written. -/
def LiteralStatement.text (s : LiteralStatement) : List Char :=
  s.key.toList ++ ' ' :: s.value

/-- Statements on one line. -/
def joinedStatements (statements : List LiteralStatement) : List Char :=
  List.intercalate "; ".toList (statements.map (·.text))

/-! ## What it stands for -/

/-- The guard that a statement gives, if it is one of the two that do. -/
def LiteralStatement.guard? (s : LiteralStatement) : Option Guard :=
  if s.key = "only_if" then some ⟨.onlyIf, guardExpression s.value⟩
  else if s.key = "not_if" then some ⟨.notIf, guardExpression s.value⟩
  else none

/-- The statement added to a declaration. -/
def LiteralStatement.addTo (d : Declaration) (s : LiteralStatement) : Declaration :=
  match s.guard? with
  | some guard => { d with guards := d.guards ++ [guard] }
  | none => { d with properties := d.properties.put s.key (Value.parse s.value) }

section Statement

variable (s : LiteralStatement) (o : Origin) (d : Declaration)

theorem LiteralStatement.leadingWord_text : leadingWord s.text = s.key.toList :=
  leadingWord_append s.isHead.inner (by decide)

theorem LiteralStatement.trim_drop_text : trim (s.text.drop s.key.toList.length) = s.value := by
  rw [text, List.drop_left]
  exact s.isLiteral.isSolid.trim_indented 1

/-- A statement is read as a property with its key and its value. -/
theorem LiteralStatement.property?_text : property? s.text = some (s.key, s.value) := by
  have solid := s.isLiteral.isSolid
  have start : trimStart (' ' :: s.value) = s.value := trimStart_of_solid solid.first
  have whole : '\n' ∉ s.value := s.isLiteral.not_mem (by decide)
  obtain ⟨c, cs, value, opens⟩ := s.isLiteral.exists_eq_cons
  have bare : parenthesized? s.value = none := by
    rw [value, parenthesized?]
    rintro _ ⟨⟩
    cases opens
  have argument : argument? (' ' :: s.value) = some s.value := by
    rw [argument?, start, bare]
    simp [whole, List.isEmpty_eq_false_iff.mp solid.isEmpty_eq]
  have operator : s.value.head?.any "=+-*/<|&?.".toList.contains = false := by
    have none : "=+-*/<|&?.".toList.any opensLiteral = false := by decide
    rw [value]
    refine Bool.eq_false_iff.mpr fun member => ?_
    exact List.any_eq_false.mp none c (List.contains_iff_mem.mp member) opens
  rw [text, property?, takeIdent_append s.isHead.starts s.isHead.inner (by decide)]
  simp only [Option.bind_eq_bind, Option.bind_some, argument, solid.trim_eq, operator]
  simp

/-- A literal announces no heredoc, so its value is read off it alone. -/
theorem IsLiteral.argumentValue_eq {value : List Char} (literal : IsLiteral value) (line : Line) :
    argumentValue line value = Value.parse value := by
  have token : isHeredocToken value = false := by
    obtain ⟨c, cs, rfl, opens⟩ := literal.exists_eq_cons
    rw [isHeredocToken, Heredoc.opener?_cons_eq_none]
    rintro rfl
    cases opens
  rw [argumentValue, heredocValue?, literal.isSolid.trim_eq, token]
  rfl

/-- A statement is understood from its text alone. -/
theorem LiteralStatement.addStatement_eq {line : Line} (same : line.text = s.text) :
    o.addStatement d line = s.addTo d := by
  have rest := List.isEmpty_eq_false_iff.mp s.isLiteral.isSolid.isEmpty_eq
  have key (known : String) : s.key.toList = known.toList ↔ s.key = known := String.toList_inj
  unfold Origin.addStatement addTo guard?
  simp only [same, s.leadingWord_text, s.trim_drop_text, s.property?_text, key,
    s.isLiteral.argumentValue_eq, s.ordinary.1, s.ordinary.2, if_false]
  by_cases only : s.key = "only_if"
  · simp [only, rest]
  · by_cases not : s.key = "not_if"
    · simp [not, rest]
    · simp [only, not]

/-- The statements of a body are understood from their texts, whatever lines they stand on. -/
theorem foldl_addStatement (o : Origin) {statements : List LiteralStatement} {lines : List Line}
    (same : lines.map (·.text) = statements.map (·.text)) (d : Declaration) :
    lines.foldl o.addStatement d = statements.foldl LiteralStatement.addTo d := by
  induction lines generalizing statements d with
  | nil =>
      obtain rfl := List.map_eq_nil_iff.mp same.symm
      rfl
  | cons line lines ih =>
      obtain ⟨s, others, rfl, head, tail⟩ := List.map_eq_cons_iff.mp same.symm
      rw [List.foldl_cons, List.foldl_cons, s.addStatement_eq o d head.symm, ih tail.symm]

/-- Statements add their properties and their guards in order. -/
theorem foldl_addTo (statements : List LiteralStatement) (d : Declaration) :
    statements.foldl LiteralStatement.addTo d =
      { d with
        properties := (statements.filter (·.guard?.isNone)).foldl
          (fun properties s => properties.put s.key (Value.parse s.value)) d.properties
        guards := d.guards ++ statements.filterMap (·.guard?) } := by
  induction statements generalizing d with
  | nil => simp
  | cons s statements ih =>
      rw [List.foldl_cons, ih, LiteralStatement.addTo]
      cases guard : s.guard? <;> simp [guard]

end Statement

/-! ## Rows -/

/-- Characters of a block whose statements give literals. -/
def isRowChar (c : Char) : Bool :=
  isLiteralChar c || c == ';'

/-- Words that a line does not end in. -/
def openingWords : List String :=
  ["do", "and", "or"]

section Rows

variable {text code word : List Char}

theorem all_isRowChar (flat : IsFlat code) : code.all isRowChar = true := by
  refine List.all_eq_true.mpr fun c member => ?_
  have here := flat c member
  simp only [isFlatChar, Bool.or_eq_true] at here
  simp only [isRowChar, isLiteralChar, isTextChar, isListGap, Bool.or_eq_true]
  tauto

theorem solid_of_isNameStart (starts : text.head?.any isNameStart = true) :
    text.head?.any (fun c => !isBlank c) = true := by
  cases text with
  | nil => cases starts
  | cons c cs =>
      have first : isNameStart c = true := starts
      simp [isBlank_of_isAsciiWord (isAsciiWord_of_isNameStart first)]

/-- What follows the only blank of a text is the word behind it. -/
theorem eq_of_blank_suffix {others : List Char} (solid : ' ' ∉ word)
    (suffix : ' ' :: others <:+ ' ' :: word) : others = word := by
  rcases List.suffix_cons_iff.mp suffix with same | inside
  · exact (List.cons.inj same).2
  · exact absurd (inside.subset (.head _)) solid

/-- A line does not go on after a word, but after the ones that ask for more. -/
theorem isFinal_word (named : word ≠ []) (inner : word.all isAsciiWord = true)
    (complete : String.ofList word ∉ openingWords) : IsFinal (' ' :: word) := by
  have ends : (' ' :: word).getLast? = word.getLast? := by
    rw [← List.singleton_append, List.getLast?_append_of_ne_nil _ named]
  have last : word.getLast?.any isAsciiWord = true := by
    rw [List.getLast?_eq_some_getLast named]
    exact List.all_eq_true.mp inner _ (List.getLast_mem named)
  have solid : ' ' ∉ word := fun member =>
    absurd (List.all_eq_true.mp inner _ member) (by decide)
  have other (known : String) (member : known ∈ openingWords) : word ≠ known.toList := by
    rintro rfl
    rw [String.ofList_toList] at complete
    exact complete member
  refine ⟨by rw [ends]; exact (isSolid_word named inner).last, fun mark known => ?_⟩
  have kinds : ∀ mark ∈ continuations, mark.getLast?.any (fun c => !isAsciiWord c) = true ∨
      mark = ' ' :: "and".toList ∨ mark = ' ' :: "or".toList := by decide
  rcases kinds mark known with stop | rfl | rfl
  · have differ : (' ' :: word).getLast? ≠ mark.getLast? := by
      intro same
      rw [← same, ends] at stop
      cases found : word.getLast? with
      | none => simp [found] at stop
      | some c =>
          rw [found] at stop last
          simp_all
    constructor
    · rintro ⟨before, same⟩
      rw [← same] at differ
      exact differ (getLast?_append_of_any stop)
    · rintro ⟨before, rfl⟩
      exact differ (getLast?_append_of_any (p := isAsciiWord) (by rwa [ends])).symm
  · exact ⟨fun suffix => other "and" (by decide) (eq_of_blank_suffix solid suffix).symm,
      fun suffix => other "and" (by decide) (eq_of_blank_suffix (by decide) suffix)⟩
  · exact ⟨fun suffix => other "or" (by decide) (eq_of_blank_suffix solid suffix).symm,
      fun suffix => other "or" (by decide) (eq_of_blank_suffix (by decide) suffix)⟩

/-- A row that is read whole and ends finally is one line. -/
theorem isRow_of_not_mem {ending : List Char} (starts : text.head?.any isNameStart = true)
    (lineFeed : '\n' ∉ text) (heredoc : '<' ∉ text) (keeps : Scan.Keeps 0 text)
    (split : text = code ++ ending) (final : IsFinal ending) : IsRow text := by
  refine ⟨⟨⟨solid_of_isNameStart starts, ?_⟩, fun before => ?_, ?_, ?_, lineFeed⟩,
    Heredoc.openedAfter_of_not_mem heredoc 0⟩
  · rw [split, getLast?_append_of_any final.1]
    exact final.1
  · have whole := keeps [] .start [] (fun _ => rfl) before
    rwa [List.append_nil] at whole
  · rw [split]
    exact continues_append final _
  · intro same
    rw [same] at starts
    cases starts

/-- A text that leaves nothing open and ends in a final word is a row. -/
theorem isRow_of_keeps {ending : List Char} (starts : text.head?.any isNameStart = true)
    (chars : text.all isRowChar = true) (keeps : Scan.Keeps 0 text) (split : text = code ++ ending)
    (final : IsFinal ending) : IsRow text := by
  have absent {c : Char} (other : isRowChar c = false) : c ∉ text := not_mem_of_all chars other
  exact isRow_of_not_mem starts (absent (by decide)) (absent (by decide)) keeps split final

/-- A row is a statement unless a word of the language opens it, a `do` ends it, or a block gives
the value that it assigns. -/
theorem ofText_eq_statement (calm : assignsBlock text = false)
    (plain : ∀ control ∈ controlWords, leadingWord text ≠ control.toList) {c : Char}
    (last : text.getLast? = some c) (solid : isBlank c = false) (bar : c ≠ '|')
    (ends : ∀ before, text = before ++ "do".toList → atBoundary before.reverse = false) :
    LineRole.ofText text = .statement := by
  rw [LineRole.ofText, keywordRole?_eq_none plain, callBlock?,
    blockHeader?_eq_none_of_atBoundary last solid bar (by simpa using ends), calm]
  rfl

/-- It is a statement if it begins with no control word and ends neither in a bar nor in the word
that opens a block. -/
theorem ofText_eq_statement_of_chars (chars : text.all isRowChar = true)
    (plain : ∀ control ∈ controlWords, leadingWord text ≠ control.toList) {c : Char}
    (last : text.getLast? = some c) (solid : isBlank c = false) (bar : c ≠ '|')
    (ends : ∀ before, text = before ++ "do".toList → atBoundary before.reverse = false) :
    LineRole.ofText text = .statement := by
  have calm : '=' ∉ text := not_mem_of_all chars (by decide)
  exact ofText_eq_statement (assignsBlock_of_not_mem calm) plain last solid bar ends

end Rows

namespace LiteralStatement

variable (s : LiteralStatement)

theorem exists_key_eq_cons : ∃ c cs, s.key.toList = c :: cs ∧ isNameStart c = true := by
  have starts := s.isHead.starts
  cases key : s.key.toList with
  | nil =>
      rw [key] at starts
      cases starts
  | cons c cs =>
      rw [key] at starts
      exact ⟨c, cs, rfl, starts⟩

/-- A statement is its key, a blank and its value. -/
theorem text_eq_append : s.text = (s.key.toList ++ [' ']) ++ s.value := by
  simp [text]

theorem isFlat_lead : IsFlat (s.key.toList ++ [' ']) :=
  isFlat_append.mpr ⟨isFlat_of_all s.isHead.inner, by decide⟩

theorem all_text : s.text.all isRowChar = true := by
  have value : s.value.all isRowChar = true := by
    have inside := isTransparent_isLiteralChar.of_literal s.isLiteral 0
    refine List.all_eq_true.mpr fun c member => ?_
    rw [isRowChar, List.all_eq_true.mp inside c member, Bool.true_or]
  rw [text, List.all_append, List.all_cons, all_isRowChar (isFlat_of_all s.isHead.inner), value]
  rfl

/-- It leaves nothing open: -/
theorem keeps_text : Scan.Keeps 0 s.text := by
  rw [text_eq_append]
  exact Scan.isTransparent_keeps.append (Scan.keeps_flat s.isFlat_lead)
    (Scan.isTransparent_keeps.of_literal s.isLiteral 0)

theorem head?_text : s.text.head?.any isNameStart = true := by
  obtain ⟨c, cs, key, starts⟩ := s.exists_key_eq_cons
  rw [text, key]
  exact starts

/-- a statement is written on one row, -/
theorem isRow : IsRow s.text :=
  isRow_of_keeps s.head?_text s.all_text s.keeps_text s.text_eq_append s.isLiteral.isFinal

theorem exists_getLast?_text :
    ∃ c, s.text.getLast? = some c ∧ isBlank c = false ∧ c ≠ '|' ∧ c ≠ ';' := by
  obtain ⟨c, last, others⟩ := s.isLiteral.exists_getLast?_eq
  refine ⟨c, ?_, others⟩
  rw [text, List.getLast?_append_of_ne_nil _ (List.cons_ne_nil _ _), List.getLast?_cons, last]
  rfl

/-- which is read as one. -/
theorem role : LineRole.ofText s.text = .statement := by
  obtain ⟨c, last, solid, bar, -⟩ := s.exists_getLast?_text
  refine ofText_eq_statement_of_chars s.all_text ?_ last solid bar fun before split => ?_
  · rw [s.leadingWord_text]
    exact s.isHead.plain
  · exact s.isLiteral.atBoundary_of_append_do (s.text_eq_append.symm.trans split)

/-- No condition begins in it, whatever code follows that leaves nothing open. -/
theorem isQuiet_append {more : List Char} (passes : GapScan.Passes 0 more) :
    IsQuiet (s.text ++ more) := by
  have word : IsQuiet s.key.toList :=
    isQuiet_word s.isHead.inner (s.isHead.plain "if" (by decide))
      (s.isHead.plain "unless" (by decide))
  have split : s.text ++ more = s.key.toList ++ ' ' :: (s.value ++ more) := by
    simp [text]
  rw [split]
  exact word.spaced (s.isLiteral.isQuiet_append passes)

/-- It belongs to one piece between semicolons. -/
theorem isPiece : Value.IsPiece ';' s.text := by
  rw [text_eq_append]
  exact (Value.isPiece_of_isFlat s.isFlat_lead (s.isFlat_lead.not_mem (by decide))).append
    ((Value.isTransparent_isPieceWithin (by decide) (by decide)).of_literal s.isLiteral 0)

end LiteralStatement

/-! ## The statements on one line -/

section Joined

variable {statements : List LiteralStatement}

/-- Statements are joined one after the other, each with a semicolon behind it but the last. -/
theorem joinedStatements_cons (s : LiteralStatement) (some : statements ≠ []) :
    joinedStatements (s :: statements) =
      (s.text ++ [';']) ++ ' ' :: joinedStatements statements := by
  cases statements with
  | nil => exact absurd rfl some
  | cons t others =>
      simp [joinedStatements, List.intercalate_cons_cons]

/-- What holds of each statement, and of a statement before others, holds of all on one line. -/
theorem joinedStatements_induction {P : List Char → Prop} (one : ∀ s : LiteralStatement, P s.text)
    (more : ∀ (s : LiteralStatement) (rest : List Char), P rest →
      P ((s.text ++ [';']) ++ ' ' :: rest))
    (some : statements ≠ []) : P (joinedStatements statements) := by
  induction statements with
  | nil => exact absurd rfl some
  | cons s statements ih =>
      cases statements with
      | nil =>
          simpa [joinedStatements] using one s
      | cons t others =>
          rw [joinedStatements_cons s (List.cons_ne_nil _ _)]
          exact more s _ (ih (List.cons_ne_nil _ _))

variable (some : statements ≠ [])

include some

theorem all_joinedStatements : (joinedStatements statements).all isRowChar = true := by
  refine joinedStatements_induction (P := fun text => text.all isRowChar = true)
    LiteralStatement.all_text (fun s rest all => ?_) some
  rw [List.all_append, List.all_append, s.all_text, List.all_cons (a := ' '), all]
  rfl

/-- Joined statements leave nothing open, -/
theorem keeps_joinedStatements : Scan.Keeps 0 (joinedStatements statements) := by
  have separator : Scan.Keeps 0 "; ".toList := by
    intro rest s kept later before
    have flat : Scan.Keeps 0 [' '] := Scan.keeps_flat (by decide)
    have blank := flat rest s kept later
    have step : (Scan.within 0).stepCode ';' = Scan.within 0 := rfl
    change (Scan.within 0).readFrom false before (';' :: ([' '] ++ rest)) = _
    rw [Scan.readFrom_within_cons (by decide) (fun same => absurd same (by decide)), step, blank]
    rfl
  refine joinedStatements_induction LiteralStatement.keeps_text (fun s rest keeps => ?_) some
  have split : (s.text ++ [';']) ++ ' ' :: rest = s.text ++ ("; ".toList ++ rest) := by
    simp
  rw [split]
  exact Scan.isTransparent_keeps.append s.keeps_text
    (Scan.isTransparent_keeps.append separator keeps)

/-- hold no condition -/
theorem isQuiet_joinedStatements : IsQuiet (joinedStatements statements) := by
  have separator : GapScan.Passes 0 [';'] := GapScan.passes_cons rfl rfl GapScan.passes_nil
  refine joinedStatements_induction (fun s => ?_) (fun s rest quiet => ?_) some
  · have quiet := s.isQuiet_append GapScan.passes_nil
    rwa [List.append_nil] at quiet
  · exact (s.isQuiet_append separator).spaced quiet

/-- and may stand between `do` and `end`, -/
theorem isInlineBody_joinedStatements : IsInlineBody (joinedStatements statements) := by
  have opens {text : List Char} (starts : text.head?.any isNameStart = true) {c : Char}
      (other : isNameStart c = false) : text.head? ≠ .some c := by
    intro same
    rw [same, Option.any_some, other] at starts
    cases starts
  have inline (s : LiteralStatement) : IsInlineBody s.text := by
    obtain ⟨c, last, -, -, separator⟩ := s.exists_getLast?_text
    refine ⟨s.isRow.solid, opens s.head?_text (by decide), opens s.head?_text (by decide), ?_⟩
    rw [last]
    exact fun same => separator (Option.some.inj same)
  refine joinedStatements_induction inline (fun s rest inner => ?_) some
  have starts : ((s.text ++ [';']) ++ ' ' :: rest).head?.any isNameStart = true := by
    obtain ⟨c, cs, key, starts⟩ := s.exists_key_eq_cons
    rw [LiteralStatement.text, key]
    exact starts
  have last : ((s.text ++ [';']) ++ ' ' :: rest).getLast? = rest.getLast? := by
    have split : (s.text ++ [';']) ++ ' ' :: rest = (s.text ++ "; ".toList) ++ rest := by
      simp
    rw [split, getLast?_append_of_any inner.last]
  refine ⟨⟨solid_of_isNameStart starts, ?_⟩, opens starts (by decide), opens starts (by decide),
    ?_⟩
  · rw [last]
    exact inner.last
  · rw [last]
    exact inner.trailing

/-- and splitting at semicolons gives them back. -/
theorem split_joinedStatements :
    Value.split ';' (joinedStatements statements) = statements.map (·.text) := by
  induction statements with
  | nil => exact absurd rfl some
  | cons s statements ih =>
      cases statements with
      | nil =>
          simpa [joinedStatements] using Value.split_singleton s.isPiece s.isRow.solid
      | cons t others =>
          rw [joinedStatements_cons s (List.cons_ne_nil _ _), List.append_assoc,
            List.singleton_append,
            Value.split_append (by decide) (by decide) s.isPiece s.isRow.solid,
            ih (List.cons_ne_nil _ _)]
          rfl

end Joined

end Rolewright.Recipe
