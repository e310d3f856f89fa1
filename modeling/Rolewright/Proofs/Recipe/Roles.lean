/-
# The part that a row with a quoted text plays

A row `type 'name' do` opens a call and a row `key 'text'` is a statement, with two exceptions that
rest on the quoted text: an assignment from a block in it opens a block, and the name of a looping
method in it makes a loop of the call.
-/

import Rolewright.Proofs.Recipe.Excerpts
import Rolewright.Proofs.Recipe.Rows
import Rolewright.Recipe.Finding

namespace Rolewright.Recipe

open Text

/-! ## Words and boundaries -/

section Words

variable {mark cs before text after word rest : List Char}

/-- A closing quote is a boundary and part of no word. -/
theorem any_atBoundary_append (plain : '\'' ∉ mark) (cs after : List Char) :
    (afterPrefix? mark (cs ++ '\'' :: after)).any atBoundary =
      (afterPrefix? mark cs).any atBoundary := by
  induction mark generalizing cs with
  | nil => cases cs <;> rfl
  | cons m mark ih =>
      have later : '\'' ∉ mark := fun member => plain (.tail _ member)
      have other : (m == '\'') = false := beq_false_of_ne fun same => plain (same ▸ .head _)
      cases cs with
      | nil => simp [afterPrefix?, List.isPrefixOf?, other]
      | cons c cs =>
          simp only [afterPrefix?, List.cons_append, List.isPrefixOf?] at ih ⊢
          split
          · exact ih later cs
          · rfl

theorem any_any_atBoundary_append {α : Type} {f : α → List Char} {marks : List α}
    (plain : ∀ mark ∈ marks, '\'' ∉ f mark) (cs after : List Char) :
    (marks.any fun mark => (afterPrefix? (f mark) (cs ++ '\'' :: after)).any atBoundary) =
      marks.any fun mark => (afterPrefix? (f mark) cs).any atBoundary := by
  rw [Bool.eq_iff_iff, List.any_eq_true, List.any_eq_true]
  refine exists_congr fun mark => and_congr_right fun known => ?_
  rw [any_atBoundary_append (plain mark known)]

theorem trimStart_append_cons {c : Char} (solid : isBlank c = false) (cs after : List Char) :
    trimStart (cs ++ c :: after) = trimStart cs ++ c :: after := by
  rw [trimStart, trimStart, List.dropWhile_append]
  split
  · rename_i blank
    rw [List.isEmpty_iff.mp blank]
    exact trimStart_cons_of_not_blank solid
  · rfl

theorem leadingWord_append (word_chars : word.all isAsciiWord = true) {c : Char}
    (stops : isAsciiWord c = false) : leadingWord (word ++ c :: rest) = word := by
  rw [leadingWord, List.takeWhile_append_of_pos (List.all_eq_true.mp word_chars),
    List.takeWhile_cons_of_neg (ne_true_of_eq_false stops), List.append_nil]

end Words

/-! ## Loops and assignments in a quoted text -/

section Quoted

variable {before text after : List Char}

theorem callsLoop_of_not_mem (plain : '.' ∉ text) : callsLoop text = false := by
  induction text with
  | nil => rfl
  | cons c cs ih =>
      have other : (c == '.') = false := beq_false_of_ne fun same => plain (same ▸ .head _)
      rw [callsLoop, other, Bool.false_and, Bool.false_or]
      exact ih fun member => plain (.tail _ member)

theorem callsLoop_append (plain : '.' ∉ before) (rest : List Char) :
    callsLoop (before ++ rest) = callsLoop rest := by
  induction before with
  | nil => rfl
  | cons c cs ih =>
      have other : (c == '.') = false := beq_false_of_ne fun same => plain (same ▸ .head _)
      rw [List.cons_append, callsLoop, other, Bool.false_and, Bool.false_or]
      exact ih fun member => plain (.tail _ member)

theorem callsLoop_append_quote (plain : '.' ∉ after) (text : List Char) :
    callsLoop (text ++ '\'' :: after) = callsLoop text := by
  induction text with
  | nil =>
      refine callsLoop_of_not_mem fun member => plain ?_
      exact (List.mem_cons.mp member).resolve_left (by decide)
  | cons c cs ih =>
      have same : (loopMethods.any fun method =>
          (afterPrefix? method (cs ++ '\'' :: after)).any atBoundary) = _ :=
        any_any_atBoundary_append (f := fun method => method) (by decide) cs after
      rw [List.cons_append, callsLoop, callsLoop, ih, same]

theorem assignsBlock_of_not_mem (plain : '=' ∉ text) : assignsBlock text = false := by
  induction text with
  | nil => rfl
  | cons c cs ih =>
      have other : (c == '=') = false := beq_false_of_ne fun same => plain (same ▸ .head _)
      rw [assignsBlock, other, Bool.false_and, Bool.false_or]
      exact ih fun member => plain (.tail _ member)

theorem assignsBlock_append (plain : '=' ∉ before) (rest : List Char) :
    assignsBlock (before ++ rest) = assignsBlock rest := by
  induction before with
  | nil => rfl
  | cons c cs ih =>
      have other : (c == '=') = false := beq_false_of_ne fun same => plain (same ▸ .head _)
      rw [List.cons_append, assignsBlock, other, Bool.false_and, Bool.false_or]
      exact ih fun member => plain (.tail _ member)

theorem assignsBlock_append_quote (plain : '=' ∉ after) (text : List Char) :
    assignsBlock (text ++ '\'' :: after) = assignsBlock text := by
  induction text with
  | nil =>
      refine assignsBlock_of_not_mem fun member => plain ?_
      exact (List.mem_cons.mp member).resolve_left (by decide)
  | cons c cs ih =>
      rw [List.cons_append, assignsBlock, assignsBlock, ih, trimStart_append_cons (by decide),
        any_any_atBoundary_append (f := String.toList) (by decide)]

theorem quoting_eq (before text after : List Char) :
    quoting before text after = (before ++ ['\'']) ++ (text ++ '\'' :: after) := by
  simp [quoting]

theorem IsFlat.not_mem {code : List Char} (flat : IsFlat code) {c : Char}
    (other : isFlatChar c = false) : c ∉ code :=
  fun member => ne_of_kind (flat c member) other rfl

/-- A row calls a loop if the text that it quotes does. -/
theorem callsLoop_quoting (flat : IsFlat before) (flat' : IsFlat after) (text : List Char) :
    callsLoop (quoting before text after) = callsLoop text := by
  have prefixed : '.' ∉ before ++ ['\''] := by
    simpa using flat.not_mem (by decide)
  rw [quoting_eq, callsLoop_append prefixed, callsLoop_append_quote (flat'.not_mem (by decide))]

/-- A row assigns from a block if the text that it quotes does. -/
theorem assignsBlock_quoting (flat : IsFlat before) (flat' : IsFlat after) (text : List Char) :
    assignsBlock (quoting before text after) = assignsBlock text := by
  have prefixed : '=' ∉ before ++ ['\''] := by
    simpa using flat.not_mem (by decide)
  rw [quoting_eq, assignsBlock_append prefixed,
    assignsBlock_append_quote (flat'.not_mem (by decide))]

end Quoted

/-! ## Openers of calls -/

section Opener

variable {text read : List Char} {c : Char}

theorem eq_of_splitAtFirst? {mark cs before rest : List Char}
    (found : splitAtFirst? mark cs = some (before, rest)) : cs = before ++ mark ++ rest := by
  induction cs generalizing before with
  | nil =>
      unfold splitAtFirst? at found
      split at found
      · rename_i none
        cases found
        rw [List.isEmpty_iff.mp none]
        rfl
      · cases found
  | cons c cs ih =>
      unfold splitAtFirst? at found
      split at found
      · rename_i after here
        cases found
        exact (List.isPrefixOf?_eq_some_iff_append_eq.mp here).symm
      · obtain ⟨⟨before, rest⟩, later, same⟩ := Option.map_eq_some_iff.mp found
        cases same
        rw [ih later]
        rfl

/-- Where something solid follows a `do` there is no block, unless it ends in a bar. -/
theorem blockTail?_eq_none (last : text.getLast? = some c) (solid : isBlank c = false)
    (bar : c ≠ '|') : blockTail? text = none := by
  obtain ⟨start, rfl⟩ := List.getLast?_eq_some_iff.mp last
  unfold blockTail?
  rw [trimStart_append_cons solid]
  cases trimStart start with
  | nil =>
      have other : (c == '|') = false := beq_false_of_ne bar
      simp [other]
  | cons d ds =>
      simp only [List.cons_append]
      split
      · split
        · rename_i params rest found
          have split := eq_of_splitAtFirst? found
          cases rest using List.reverseRecOn with
          | nil =>
              rw [List.append_nil] at split
              have ends : [c] = ['|'] := (List.append_inj' split rfl).2
              exact absurd (List.cons.inj ends).1 bar
          | append_singleton rest e =>
              rw [← List.append_assoc] at split
              have ends : [c] = [e] := (List.append_inj' split rfl).2
              have text : isBlankText (rest ++ [e]) = false := by
                simp [isBlankText, ← (List.cons.inj ends).1, solid]
              simp [text]
        · rfl
      · rfl

/-- The `do` that opens a block is not here. -/
theorem blockHeader?_cons {cs : List Char}
    (later : ∀ rest, afterPrefix? "do".toList (c :: cs) = some rest → blockTail? rest = none) :
    blockHeader? read (c :: cs) = blockHeader? (c :: read) cs := by
  have none : (afterPrefix? "do".toList (c :: cs)).bind blockTail? = none := by
    cases found : afterPrefix? "do".toList (c :: cs) with
    | none => rfl
    | some rest => exact later rest found
  rw [blockHeader?, none]
  simp

/-- Where nothing opens a block behind a `do`, and no `do` stands at the end, there is no block. -/
theorem blockHeader?_eq_none_of_atBoundary (last : text.getLast? = some c)
    (solid : isBlank c = false) (bar : c ≠ '|')
    (ends : ∀ before, read.reverse ++ text = before ++ "do".toList →
      atBoundary before.reverse = false) : blockHeader? read text = none := by
  induction text generalizing read with
  | nil => rfl
  | cons d ds ih =>
      have later : blockHeader? (d :: read) ds = none := by
        cases ds with
        | nil => rfl
        | cons e es =>
            refine ih (by rwa [List.getLast?_cons_cons] at last) fun before split => ends before ?_
            rw [← split, List.reverse_cons, List.append_assoc, List.singleton_append]
      rw [blockHeader?]
      cases found : afterPrefix? "do".toList (d :: ds) with
      | none => simpa using later
      | some rest =>
          have split : "do".toList ++ rest = d :: ds :=
            List.isPrefixOf?_eq_some_iff_append_eq.mp found
          cases rest with
          | nil =>
              have inside : atBoundary read = false := by
                simpa using ends read.reverse (by rw [← split, List.append_nil])
              simpa [inside] using later
          | cons e es =>
              rw [← split] at last
              have tail : blockTail? (e :: es) = none :=
                blockTail?_eq_none (by simpa using last) solid bar
              simpa [tail] using later

theorem blockHeader?_eq_none (last : text.getLast? = some c) (solid : isBlank c = false)
    (bar : c ≠ '|') (other : c ≠ 'o') : blockHeader? read text = none := by
  refine blockHeader?_eq_none_of_atBoundary last solid bar fun before split => ?_
  have ends := congrArg List.getLast? split
  rw [List.getLast?_append, List.getLast?_append, last] at ends
  exact absurd (Option.some.inj ends) other

/-- A `do` at the very end that begins a word opens a block, whatever stands before it. -/
theorem blockHeader?_append_mark_do {mark : Char} (stops : isWord mark = false)
    (code : List Char) :
    blockHeader? read (code ++ mark :: "do".toList) =
      some (trim (read.reverse ++ code ++ [mark]), none) := by
  induction code generalizing read with
  | nil =>
      have boundary : atBoundary (mark :: read) = true := by simp [atBoundary, stops]
      have other : ('d' == mark) = false := by
        refine beq_false_of_ne ?_
        rintro rfl
        cases stops
      have before : afterPrefix? "do".toList [mark, 'd', 'o'] = none := by
        simp [afterPrefix?, List.isPrefixOf?, other]
      have here : (afterPrefix? "do".toList ['d', 'o']).bind blockTail? = some none := rfl
      change blockHeader? read [mark, 'd', 'o'] = _
      rw [blockHeader?_cons fun _ found => (Option.some_ne_none _ (found.symm.trans before)).elim,
        blockHeader?, boundary, if_pos rfl, here]
      simp
  | cons d ds ih =>
      rw [List.cons_append, blockHeader?_cons, ih]
      · simp
      · intro rest found
        have split : "do".toList ++ rest = d :: (ds ++ mark :: "do".toList) :=
          List.isPrefixOf?_eq_some_iff_append_eq.mp found
        have last : ("do".toList ++ rest).getLast? = some 'o' := by
          rw [split, ← List.cons_append, List.getLast?_append]
          rfl
        have length := congrArg List.length split
        cases rest with
        | nil => simp at length
        | cons e es => exact blockTail?_eq_none (by simpa using last) rfl (by decide)

theorem blockHeader?_append_do (code : List Char) :
    blockHeader? read (code ++ " do".toList) =
      some (trim (read.reverse ++ code ++ [' ']), none) :=
  blockHeader?_append_mark_do (by decide) code

end Opener

/-! ## Roles -/

/-- The words that open, divide or end a block. -/
def controlWords : List String :=
  ["end", "if", "unless", "elsif", "when", "rescue", "else", "ensure", "case", "begin", "while",
    "until", "for", "def", "class", "module"]

theorem keywordRole?_eq_none {text : List Char}
    (plain : ∀ word ∈ controlWords, leadingWord text ≠ word.toList) : keywordRole? text = none := by
  have other (word : String) (known : word ∈ controlWords) :
      (leadingWord text == word.toList) = false := beq_false_of_ne (plain word known)
  unfold keywordRole?
  simp only [other "end" (by decide), other "if" (by decide), other "unless" (by decide),
    other "elsif" (by decide), other "when" (by decide), other "rescue" (by decide),
    other "else" (by decide), other "ensure" (by decide), other "case" (by decide),
    other "begin" (by decide), other "while" (by decide), other "until" (by decide),
    other "for" (by decide), other "def" (by decide), other "class" (by decide),
    other "module" (by decide), Bool.or_self, Bool.false_eq_true, if_false]

section Roles

variable {word middle text after : List Char}

/-- A word that may stand first in a row, as it is a name and no word of the language itself. -/
structure IsHead (word : List Char) : Prop where
  starts : word.head?.any isNameStart = true
  inner : word.all isAsciiWord = true
  plain : ∀ control ∈ controlWords, word ≠ control.toList

theorem isFlat_append {code code' : List Char} :
    IsFlat (code ++ code') ↔ IsFlat code ∧ IsFlat code' :=
  List.forall_mem_append

theorem isFlat_word_append (inner : word.all isAsciiWord = true) (flat : IsFlat middle) :
    IsFlat (word ++ ' ' :: middle) := by
  refine isFlat_append.mpr ⟨isFlat_of_all inner, ?_⟩
  exact List.forall_mem_cons.mpr ⟨by decide, flat⟩

theorem IsHead.isFlat_append (head : IsHead word) (flat : IsFlat middle) :
    IsFlat (word ++ ' ' :: middle) :=
  isFlat_word_append head.inner flat

theorem IsHead.leadingWord_eq (head : IsHead word) (middle text after : List Char) :
    leadingWord (quoting (word ++ ' ' :: middle) text after) = word := by
  rw [quoting, List.append_assoc, List.cons_append]
  exact leadingWord_append head.inner (by decide)

/-- A row that quotes a text is a statement by itself, if it does not go on after the quote. -/
theorem isStatement_quoting (begins : word.head?.any isNameStart = true)
    (inner : word.all isAsciiWord = true) (flat : IsFlat middle) (flat' : IsFlat after)
    (quotable : IsQuotable text) (final : IsFinal ('\'' :: after)) :
    IsStatement (quoting (word ++ ' ' :: middle) text after) := by
  obtain ⟨c, cs, rfl⟩ : ∃ c cs, word = c :: cs := by
    cases word with
    | nil => exact absurd begins Bool.false_ne_true
    | cons c cs => exact ⟨c, cs, rfl⟩
  have starts : isNameStart c = true := begins
  have code := isFlat_word_append inner flat
  have ends : quoting ((c :: cs) ++ ' ' :: middle) text after =
      ((c :: cs) ++ ' ' :: middle ++ '\'' :: text) ++ '\'' :: after := by
    simp [quoting]
  refine ⟨⟨?_, ?_⟩, isClosed_quoting code quotable flat', ?_, ?_, ?_⟩
  · simp [quoting, isBlank_of_isAsciiWord (isAsciiWord_of_isNameStart starts)]
  · rw [ends, getLast?_append_of_any final.1]
    exact final.1
  · rw [ends]
    exact continues_append final _
  · rintro ⟨⟩
    cases starts
  · have before := code.not_mem (c := '\n') (by decide)
    have inside := quotable.lineFeed
    have behind := flat'.not_mem (c := '\n') (by decide)
    simp only [quoting, List.mem_append, List.mem_cons, before, inside, behind]
    decide

theorem IsHead.isStatement (head : IsHead word) (flat : IsFlat middle) (flat' : IsFlat after)
    (quotable : IsQuotable text) (final : IsFinal ('\'' :: after)) :
    IsStatement (quoting (word ++ ' ' :: middle) text after) :=
  isStatement_quoting head.starts head.inner flat flat' quotable final

theorem IsHead.isRow (head : IsHead word) (flat : IsFlat middle) (flat' : IsFlat after)
    (quotable : IsQuotable text) (final : IsFinal ('\'' :: after))
    (ends : after.head?.any Heredoc.tagStart = false) (plain : Heredoc.opened text = []) :
    IsRow (quoting (word ++ ' ' :: middle) text after) where
  toIsStatement := head.isStatement flat flat' quotable final
  plain := by
    rw [Heredoc.opened_quoting _ _ (head.isFlat_append flat) flat' ends, plain]

/-- The last character of a row decides that it opens no call. -/
theorem callBlock?_eq_none {c : Char} (last : text.getLast? = some c) (solid : isBlank c = false)
    (bar : c ≠ '|') (other : c ≠ 'o') : callBlock? text = none := by
  rw [callBlock?, blockHeader?_eq_none last solid bar other]

/-- A row `word 'text'` is a statement, if the text assigns nothing from a block. -/
theorem IsHead.ofText_eq_statement (head : IsHead word) (flat : IsFlat middle)
    (flat' : IsFlat after) (calm : assignsBlock text = false) {c : Char}
    (last : ('\'' :: after).getLast? = some c) (solid : isBlank c = false) (bar : c ≠ '|')
    (other : c ≠ 'o') :
    LineRole.ofText (quoting (word ++ ' ' :: middle) text after) = .statement := by
  have plain : keywordRole? (quoting (word ++ ' ' :: middle) text after) = none :=
    keywordRole?_eq_none (by rw [head.leadingWord_eq]; exact head.plain)
  have ends : (quoting (word ++ ' ' :: middle) text after).getLast? = some c := by
    have split : quoting (word ++ ' ' :: middle) text after =
        (word ++ ' ' :: middle ++ '\'' :: text) ++ '\'' :: after := by
      simp [quoting]
    rw [split, List.getLast?_append, last]
    rfl
  rw [LineRole.ofText, plain, callBlock?_eq_none ends solid bar other,
    assignsBlock_quoting (head.isFlat_append flat) flat', calm]
  rfl

theorem isOneLiner_of_getLast? (last : text.getLast? = some '\'') : isOneLiner text = false := by
  have ends {mark : List Char} (other : mark.getLast? = some 'd') :
      mark.isSuffixOf text = false := by
    rw [Bool.eq_false_iff, ne_eq, List.isSuffixOf_iff_suffix]
    rintro ⟨before, rfl⟩
    rw [List.getLast?_append, other] at last
    cases last
  have whole : (text == "end".toList) = false := by
    refine beq_false_of_ne ?_
    rintro rfl
    cases last
  rw [isOneLiner, ends rfl, ends rfl, whole]
  rfl

theorem getLast?_quoting (before text : List Char) :
    (quoting before text []).getLast? = some '\'' := by
  rw [quoting_eq, List.getLast?_append, List.getLast?_append]
  rfl

/-- A row `word 'text'` opens a block, if the text assigns something from one. -/
theorem IsHead.ofText_eq_sealed (head : IsHead word) (loud : assignsBlock text = true) :
    LineRole.ofText (quoting (word ++ [' ']) text []) =
      .opens .sealed (quoting (word ++ [' ']) text []) := by
  have plain : keywordRole? (quoting (word ++ [' ']) text []) = none :=
    keywordRole?_eq_none (by rw [head.leadingWord_eq]; exact head.plain)
  have ends := getLast?_quoting (word ++ [' ']) text
  rw [LineRole.ofText, plain, callBlock?_eq_none ends rfl (by decide) (by decide),
    assignsBlock_quoting (head.isFlat_append isFlat_nil) isFlat_nil, loud,
    isOneLiner_of_getLast? ends]
  rfl

/-- A row `type 'name' do` opens a call. -/
theorem IsHead.ofText_eq_opens (head : IsHead word) (quotable : IsQuotable text) :
    LineRole.ofText (quoting (word ++ [' ']) text " do".toList) =
      .opens (.call (quoting (word ++ [' ']) text []) none) [] := by
  have solid := (head.isStatement isFlat_nil isFlat_nil quotable (by decide)).solid
  have plain : keywordRole? (quoting (word ++ [' ']) text " do".toList) = none :=
    keywordRole?_eq_none (by rw [head.leadingWord_eq]; exact head.plain)
  have split : quoting (word ++ [' ']) text " do".toList =
      quoting (word ++ [' ']) text [] ++ " do".toList := by
    simp [quoting]
  have whole : (quoting (word ++ [' ']) text []).contains '\n' = false := by
    have before : '\n' ∉ word ++ [' '] := (head.isFlat_append isFlat_nil).not_mem (by decide)
    have inside := quotable.lineFeed
    simp [quoting, inside] at before ⊢
    exact before
  have opens : blockHeader? [] (quoting (word ++ [' ']) text " do".toList) =
      some (quoting (word ++ [' ']) text [], none) := by
    rw [split, blockHeader?_append_do, List.reverse_nil, List.nil_append, solid.trim_concat]
  have calls : callBlock? (quoting (word ++ [' ']) text " do".toList) =
      some (.call (quoting (word ++ [' ']) text []) none) := by
    rw [callBlock?, opens]
    exact if_neg (ne_true_of_eq_false whole)
  rw [LineRole.ofText, plain, calls]

end Roles

/-! ## Heads of resources -/

/-- The type of a resource is a name in lower case. -/
theorem type_of_resourceHeader? {type : String} {text argument : List Char}
    (found : resourceHeader? text = some (type, argument)) :
    type.toList.head?.any isNameStart = true ∧
      type.toList.all (fun c => c.isLower || c.isDigit || c == '_') = true := by
  obtain ⟨⟨word, rest⟩, ident, found⟩ := Option.bind_eq_some_iff.mp found
  obtain ⟨inner, -, found⟩ := Option.bind_eq_some_iff.mp found
  obtain ⟨-, same⟩ := Option.ite_none_left_eq_some.mp found
  cases same
  rw [String.toList_ofList]
  cases text with
  | nil => cases ident
  | cons c cs =>
      obtain ⟨starts, same⟩ := Option.ite_none_right_eq_some.mp ident
      cases same
      have first : (c.isLower || c.isDigit || c == '_') = true := by
        simp only [isNameStart, Bool.or_eq_true] at starts ⊢
        exact starts.imp_left .inl
      refine ⟨starts, ?_⟩
      rw [List.all_cons, first, Bool.true_and]
      exact List.all_takeWhile

/-- What is in lower case is made of word characters. -/
theorem all_isAsciiWord_of_lower {word : List Char}
    (lower : word.all (fun c => c.isLower || c.isDigit || c == '_') = true) :
    word.all isAsciiWord = true := by
  refine List.all_eq_true.mpr fun c member => ?_
  have here := List.all_eq_true.mp lower c member
  change (c.isUpper || c.isLower || c.isDigit || c == '_') = true
  simp only [Bool.or_eq_true] at here ⊢
  tauto

/-- The type of a resource: a name in lower case that calls nothing else. -/
structure IsType (type : String) : Prop extends IsHead type.toList where
  lower : type.toList.all (fun c => c.isLower || c.isDigit || c == '_') = true
  resource : nonResources.contains type = false

section Heads

variable {type : String} {name : List Char}

/-- A text in single quotes behind a word is its argument. -/
theorem argument?_quoted (quotable : IsQuotable name) :
    argument? (' ' :: '\'' :: (name ++ ['\''])) = some ('\'' :: (name ++ ['\''])) := by
  have inner : trimStart (' ' :: '\'' :: (name ++ ['\''])) = '\'' :: (name ++ ['\'']) := rfl
  have bare : parenthesized? ('\'' :: (name ++ ['\''])) = none := rfl
  have whole : ('\'' :: (name ++ ['\''])).contains '\n' = false := by
    simp [quotable.lineFeed]
  rw [argument?, inner, bare]
  simp only [whole]
  simp

theorem quoting_word (word name : List Char) :
    quoting (word ++ [' ']) name [] = word ++ ' ' :: '\'' :: (name ++ ['\'']) := by
  simp [quoting]

theorem resourceHeader?_quoting (starts : type.toList.head?.any isNameStart = true)
    (lower : type.toList.all (fun c => c.isLower || c.isDigit || c == '_') = true)
    (quotable : IsQuotable name) :
    resourceHeader? (quoting (type.toList ++ [' ']) name []) =
      some (type, '\'' :: (name ++ ['\''])) := by
  rw [quoting_word, resourceHeader?, takeIdent_append starts lower (by decide)]
  simp only [Option.bind_eq_bind, Option.bind_some, argument?_quoted quotable,
    (isSolid_quoted name).trim_eq]
  simp

/-- A row `type 'name' do` declares a resource, if the name calls no loop. -/
theorem CallRole.ofHead_quoting (named : IsType type) (quotable : IsQuotable name) :
    CallRole.ofHead (quoting (type.toList ++ [' ']) name []) =
      if callsLoop name then .loop else .resource type ('\'' :: (name ++ ['\''])) := by
  have other : quoting (type.toList ++ [' ']) name [] ≠ "loop".toList := by
    intro same
    have member : '\'' ∈ quoting (type.toList ++ [' ']) name [] := by
      simp [quoting]
    rw [same] at member
    exact absurd member (by decide)
  have resource : type ∉ nonResources := by
    simpa using named.resource
  rw [ofHead, callsLoop_quoting (named.isFlat_append isFlat_nil) isFlat_nil,
    resourceHeader?_quoting named.starts named.lower quotable, decide_eq_false other]
  simp [resource]

end Heads

end Rolewright.Recipe
