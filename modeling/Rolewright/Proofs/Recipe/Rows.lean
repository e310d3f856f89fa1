/-
# Rows that quote a text

A row that is code, a text in single quotes and code again is a statement by itself, whatever the
text: the scan leaves nothing open and no further row belongs to it (`statements_cons`). One thing
can come in between, a heredoc opener inside the quotes, as these are looked for without regard to
quotes (`opened_quoting`).
-/

import Rolewright.Recipe.Line

namespace Rolewright

/-! ## Texts and their lines -/

namespace Text

variable {row rest text : List Char}

/-- A text that neither begins nor ends with a blank. -/
structure IsSolid (text : List Char) : Prop where
  first : text.head?.any (fun c => !isBlank c) = true
  last : text.getLast?.any (fun c => !isBlank c) = true

theorem IsSolid.isEmpty_eq (solid : IsSolid text) : text.isEmpty = false := by
  have first := solid.first
  cases text with
  | nil => cases first
  | cons c cs => rfl

theorem trimStart_of_solid (solid : text.head?.any (fun c => !isBlank c) = true) :
    trimStart text = text := by
  cases text with
  | nil => rfl
  | cons c cs => exact trimStart_cons_of_not_blank (by simpa using solid)

theorem trimEnd_of_solid (solid : text.getLast?.any (fun c => !isBlank c) = true) :
    trimEnd text = text := by
  rw [← List.head?_reverse] at solid
  have same : text.reverse.dropWhile isBlank = text.reverse := trimStart_of_solid solid
  rw [trimEnd, same, List.reverse_reverse]

theorem IsSolid.trim_eq (solid : IsSolid text) : trim text = text := by
  rw [trim, trimStart_of_solid solid.first, trimEnd_of_solid solid.last]

/-- Indentation is trimmed off. -/
theorem IsSolid.trim_indented (solid : IsSolid text) (indent : Nat) :
    trim (List.replicate indent ' ' ++ text) = text := by
  have start : trimStart (List.replicate indent ' ' ++ text) = trimStart text := by
    induction indent with
    | zero => rfl
    | succ indent ih => exact ih
  rw [trim, start, ← trim, solid.trim_eq]

/-- A blank at the end is trimmed off. -/
theorem IsSolid.trim_concat (solid : IsSolid text) : trim (text ++ [' ']) = text := by
  have start : trimStart (text ++ [' ']) = text ++ [' '] := by
    have first := solid.first
    cases text with
    | nil => cases first
    | cons c cs => exact trimStart_cons_of_not_blank (by simpa using first)
  have ending : trimEnd (text ++ [' ']) = trimEnd text := by
    rw [trimEnd, List.reverse_append]
    rfl
  rw [trim, start, ending, trimEnd_of_solid solid.last]

theorem isBlank_of_isAsciiWord {c : Char} (inner : isAsciiWord c = true) : isBlank c = false := by
  have between {a b : Char} (first : a.val ≤ c.val) (last : c.val ≤ b.val) (low : 48 ≤ a.toNat)
      (high : b.toNat ≤ 122) : 48 ≤ c.toNat ∧ c.toNat ≤ 122 :=
    ⟨Nat.le_trans low (UInt32.le_iff_toNat_le.mp first),
      Nat.le_trans (UInt32.le_iff_toNat_le.mp last) high⟩
  have range : 48 ≤ c.toNat ∧ c.toNat ≤ 122 := by
    rcases (Bool.or_eq_true _ _).mp inner with alphanumeric | underscore
    · rcases (Bool.or_eq_true _ _).mp alphanumeric with letter | digit
      · rcases (Bool.or_eq_true _ _).mp letter with upper | lower
        · obtain ⟨first, last⟩ := of_decide_eq_true upper
          exact between first last (by decide) (by decide)
        · obtain ⟨first, last⟩ := (Bool.and_eq_true _ _).mp lower
          exact between (of_decide_eq_true first) (of_decide_eq_true last) (by decide) (by decide)
      · obtain ⟨first, last⟩ := (Bool.and_eq_true _ _).mp digit
        exact between (of_decide_eq_true first) (of_decide_eq_true last) (by decide) (by decide)
    · rw [beq_iff_eq.mp underscore]
      exact ⟨by decide, by decide⟩
  simp [isBlank]
  omega

/-- A text in quotes has no blanks at its ends. -/
theorem isSolid_quoted (name : List Char) : IsSolid ('\'' :: (name ++ ['\''])) where
  first := rfl
  last := by
    rw [← List.cons_append, List.getLast?_append]
    rfl

/-- A row that ends in a line feed is a line. -/
theorem lines_append_cons (whole : '\n' ∉ row) (ends : row.getLast? ≠ some '\r') :
    lines (row ++ '\n' :: rest) = row :: lines rest := by
  induction row with
  | nil => rfl
  | cons c cs ih =>
      have inside : '\n' ∉ cs := fun member => whole (.tail _ member)
      have other : c ≠ '\n' := fun same => whole (same ▸ .head _)
      cases cs with
      | nil =>
          have solid : c ≠ '\r' := fun same => ends (by rw [same]; rfl)
          rw [List.cons_append, lines, List.nil_append, lines]
          · exact other
          · exact fun _ same => absurd same solid
      | cons d ds =>
          have later : (d :: ds).getLast? ≠ some '\r' := by rwa [List.getLast?_cons_cons] at ends
          have next : d ≠ '\n' := fun same => inside (same ▸ .head _)
          rw [List.cons_append, List.cons_append, lines, ← List.cons_append, ih inside later]
          · exact other
          · exact fun _ _ same => next (List.cons.inj same).1

/-- Rows that hold no line feed and end in no carriage return are the lines of the text in which
each has a line feed behind it, -/
theorem lines_flatMap_append {rows : List (List Char)}
    (whole : ∀ row ∈ rows, '\n' ∉ row ∧ row.getLast? ≠ some '\r') (rest : List Char) :
    lines (rows.flatMap (· ++ ['\n']) ++ rest) = rows ++ lines rest := by
  induction rows with
  | nil => rfl
  | cons row rows ih =>
      obtain ⟨⟨inside, ends⟩, others⟩ := List.forall_mem_cons.mp whole
      rw [List.flatMap_cons, List.append_assoc, List.append_assoc, List.singleton_append,
        lines_append_cons inside ends, ih others, List.cons_append]

/-- also where nothing follows them. -/
theorem lines_flatMap {rows : List (List Char)}
    (whole : ∀ row ∈ rows, '\n' ∉ row ∧ row.getLast? ≠ some '\r') :
    lines (rows.flatMap (· ++ ['\n'])) = rows := by
  have all := lines_flatMap_append whole []
  rwa [List.append_nil, lines, List.append_nil] at all

end Text

namespace Recipe

open Text

/-! ## Rows that leave nothing open -/

/-- A text that may stand between single quotes as it is. -/
structure IsQuotable (text : List Char) : Prop where
  quote : '\'' ∉ text
  backslash : '\\' ∉ text
  lineFeed : '\n' ∉ text

theorem IsQuotable.cons {c : Char} {text : List Char} (quotable : IsQuotable (c :: text)) :
    (c ≠ '\'' ∧ c ≠ '\\') ∧ IsQuotable text where
  left := ⟨fun same => quotable.quote (same ▸ .head _),
    fun same => quotable.backslash (same ▸ .head _)⟩
  right := ⟨fun member => quotable.quote (.tail _ member),
    fun member => quotable.backslash (.tail _ member),
    fun member => quotable.lineFeed (.tail _ member)⟩

/-- A text that may stand as it is between two quotes of this kind. Between double quotes a number
sign may begin an interpolation. -/
structure IsPlainWithin (quote : Char) (text : List Char) : Prop where
  known : quote = '\'' ∨ quote = '"'
  quote_not_mem : quote ∉ text
  backslash : '\\' ∉ text
  interpolation : quote = '"' → '#' ∉ text

theorem IsPlainWithin.cons {quote c : Char} {text : List Char}
    (plain : IsPlainWithin quote (c :: text)) :
    (c ≠ quote ∧ c ≠ '\\' ∧ (quote = '"' → c ≠ '#')) ∧ IsPlainWithin quote text := by
  obtain ⟨known, inside, backslash, interpolation⟩ := plain
  simp only [List.mem_cons, not_or] at inside backslash interpolation
  exact ⟨⟨Ne.symm inside.1, Ne.symm backslash.1, fun double => Ne.symm (interpolation double).1⟩,
    known, inside.2, backslash.2, fun double => (interpolation double).2⟩

theorem IsPlainWithin.ne_backslash {quote : Char} {text : List Char}
    (plain : IsPlainWithin quote text) : quote ≠ '\\' := by
  rcases plain.known with rfl | rfl <;> decide

/-- What can be quoted is plain within single quotes. -/
theorem IsQuotable.isPlainWithin {text : List Char} (quotable : IsQuotable text) :
    IsPlainWithin '\'' text :=
  ⟨.inl rfl, quotable.quote, quotable.backslash, nofun⟩

/-- A word is plain within quotes of either kind. -/
theorem isPlainWithin_word {quote : Char} {text : List Char} (known : quote = '\'' ∨ quote = '"')
    (inner : text.all isAsciiWord = true) : IsPlainWithin quote text := by
  have absent {c : Char} (other : isAsciiWord c = false) : c ∉ text := not_mem_of_all inner other
  have mark : isAsciiWord quote = false := by
    rcases known with rfl | rfl <;> decide
  exact ⟨known, absent mark, absent (by decide), fun _ => absent (by decide)⟩

/-- Characters of code that open, close and assign nothing. -/
def isFlatChar (c : Char) : Bool :=
  isAsciiWord c || c == ' ' || c == ':' || c == ','

/-- Code that opens, closes and assigns nothing. -/
def IsFlat (code : List Char) : Prop :=
  ∀ c ∈ code, isFlatChar c = true

instance (code : List Char) : Decidable (IsFlat code) :=
  List.decidableBAll (fun c => isFlatChar c = true) code

theorem isFlat_nil : IsFlat [] :=
  fun _ member => nomatch member

theorem isFlat_of_all {code : List Char} (inner : code.all isAsciiWord = true) : IsFlat code := by
  intro c member
  have here : isAsciiWord c = true := List.all_eq_true.mp inner c member
  simp [isFlatChar, here]

/-- A text in single quotes, and code before and after it. -/
def quoting (before text after : List Char) : List Char :=
  before ++ '\'' :: (text ++ '\'' :: after)

/-- The scan reads the row whole and leaves nothing open. -/
def IsClosed (row : List Char) : Prop :=
  ∀ before, Scan.start.readFrom false before row = (.start, row)

namespace Scan

/-- The quotes and brackets, which change what is open. -/
def marks : List Char := ['\'', '"', '\x60', '(', '[', '\x7b', ')', ']', '\x7d']

/-- A character of a kind that has no marks is none. -/
theorem unmarked_of_kind {p : Char → Bool} {c : Char} (kind : p c = true)
    (others : marks.any p = false) :
    quotes c = false ∧ opens c = false ∧ closes c = false := by
  have differ : ∀ mark ∈ marks, (c == mark) = false := fun mark known =>
    beq_of_kind kind (Bool.eq_false_iff.mpr (List.any_eq_false.mp others mark known))
  simp only [marks, List.forall_mem_cons] at differ
  simp only [quotes, opens, closes, differ, Bool.or_self, and_self]

/-- A character of a kind without marks leaves a scan as it is. -/
theorem stepCode_of_kind {p : Char → Bool} {c : Char} (kind : p c = true)
    (others : marks.any p = false) (s : Scan) : s.stepCode c = s := by
  obtain ⟨quotes, opens, closes⟩ := unmarked_of_kind kind others
  simp [stepCode, quotes, opens, closes]

end Scan

theorem stepCode_of_isFlatChar {c : Char} (flat : isFlatChar c = true) (s : Scan) :
    s.stepCode c = s :=
  Scan.stepCode_of_kind flat (by decide) s

section Closed

variable {before text after row : List Char}

theorem isClosed_nil : IsClosed [] :=
  fun _ => rfl

theorem IsClosed.cons_flat {c : Char} (closed : IsClosed row) (flat : isFlatChar c = true) :
    IsClosed (c :: row) := by
  intro before
  have comment : (c == '#') = false := beq_of_kind flat (by decide)
  have literal : (c == '?') = false := beq_of_kind flat (by decide)
  have later := closed (some c)
  rw [Scan.readFrom]
  dsimp only [Scan.start] at later ⊢
  simp only [comment, literal, stepCode_of_isFlatChar flat, later, Bool.false_and,
    Bool.false_eq_true, if_false]

/-- Flat code in front of a closed row keeps it closed. -/
theorem IsClosed.append_flat (closed : IsClosed row) (flat : IsFlat before) :
    IsClosed (before ++ row) := by
  induction before with
  | nil => exact closed
  | cons c cs ih =>
      obtain ⟨here, later⟩ := List.forall_mem_cons.mp flat
      exact (ih later).cons_flat here

/-- Inside single quotes the scan looks for the closing one only. -/
theorem readFrom_quoted (closed : IsClosed after) (quotable : IsQuotable text)
    (before : Option Char) :
    Scan.readFrom ⟨0, some '\'', 0⟩ false before (text ++ '\'' :: after) =
      (.start, text ++ '\'' :: after) := by
  induction text generalizing before with
  | nil =>
      have later := closed (some '\'')
      rw [List.nil_append, Scan.readFrom]
      dsimp only [Scan.start] at later ⊢
      simp [Scan.stepQuoted, later]
  | cons c cs ih =>
      obtain ⟨⟨quote, backslash⟩, inside⟩ := quotable.cons
      have later := ih inside (some c)
      rw [List.cons_append, Scan.readFrom]
      simp [Scan.stepQuoted, quote, backslash, later]

/-- A row that quotes a text is closed. -/
theorem isClosed_quoting (flat : IsFlat before) (quotable : IsQuotable text) (ends : IsFlat after) :
    IsClosed (quoting before text after) := by
  have closed : IsClosed after := by
    simpa using isClosed_nil.append_flat ends
  refine IsClosed.append_flat (fun read => ?_) flat
  have inside := readFrom_quoted closed quotable (some '\'')
  rw [Scan.readFrom]
  dsimp only [Scan.start] at inside ⊢
  simp [Scan.stepCode, Scan.quotes, inside]

end Closed

/-! ## Statements on one row -/

/-- What a statement that goes on ends in. -/
def continuations : List (List Char) :=
  [",", "\\", "&&", "||", " +", " and", " or", "."].map String.toList

/-- An ending after which no statement goes on. -/
def IsFinal (ending : List Char) : Prop :=
  ending.getLast?.any (fun c => !isBlank c) = true ∧
    ∀ mark ∈ continuations, ¬ mark <:+ ending ∧ ¬ ending <:+ mark

instance (ending : List Char) : Decidable (IsFinal ending) :=
  inferInstanceAs (Decidable (_ ∧ _))

/-- A text ends as its last part does, if that is not empty. -/
theorem getLast?_append_of_any {α : Type} {p : α → Bool} {code ending : List α}
    (some : ending.getLast?.any p = true) : (code ++ ending).getLast? = ending.getLast? := by
  rw [List.getLast?_append]
  cases last : ending.getLast? with
  | none => simp [last] at some
  | some c => rfl

/-- A line that ends in a final word does not go on. -/
theorem continues_append {ending : List Char} (final : IsFinal ending) (code : List Char) :
    continues (code ++ ending) = false := by
  obtain ⟨solid, others⟩ := final
  have last : (code ++ ending).getLast?.any (fun c => !isBlank c) = true := by
    rwa [getLast?_append_of_any solid]
  have ends (mark : String) (known : mark.toList ∈ continuations) :
      mark.toList.isSuffixOf (code ++ ending) = false := by
    rw [Bool.eq_false_iff, ne_eq, List.isSuffixOf_iff_suffix]
    intro suffix
    obtain ⟨shorter, longer⟩ := others _ known
    have suffix' := List.suffix_append code ending
    rcases List.suffix_or_suffix_of_suffix suffix suffix' with other | other
    · exact shorter other
    · exact longer other
  unfold continues
  simp only [trimEnd_of_solid last, ends "," (by decide), ends "\\" (by decide),
    ends "&&" (by decide), ends "||" (by decide), ends " +" (by decide), ends " and" (by decide),
    ends " or" (by decide), ends "." (by decide), Bool.or_self, Bool.false_and]

/-- A row that is a statement by itself, with this text. -/
structure IsAlone (row text : List Char) : Prop where
  read_eq : Scan.start.read row = (.start, row)
  trim_eq : trim row = text
  solid : IsSolid text
  stops : continues text = false
  not_documentation : "=begin".toList.isPrefixOf row = false

namespace IsAlone

variable {row text : List Char} (alone : IsAlone row text)

include alone

/-- Such a row takes the bodies of the heredocs that it opens, and no other row. -/
theorem takeStatement_eq (rows : List (List Char)) : takeStatement .empty row rows =
    (⟨.start, text, (takeBodies (Heredoc.opened row) rows).1⟩,
      (takeBodies (Heredoc.opened row) rows).2) := by
  have added : Draft.empty.add row = (⟨.start, text, []⟩, Heredoc.opened row) := by
    simp only [Draft.add, Draft.empty, alone.read_eq]
    simp [Scan.start, alone.trim_eq]
  unfold takeStatement
  dsimp only
  rw [added]
  split
  · rename_i none
    rw [none]
    rfl
  · rename_i next rest found
    rw [if_neg]
    · rw [found]
      rfl
    · exact ne_true_of_eq_false alone.stops

/-- A row that stands alone is a logical line with the bodies of the heredocs it announces, and
reading goes on behind these. -/
theorem statements_eq (rows : List (List Char)) (number : Nat) :
    statements number (row :: rows) =
      ⟨text, number,
        number + (rows.length - (takeBodies (Heredoc.opened row) rows).2.length),
        (takeBodies (Heredoc.opened row) rows).1⟩ ::
      statements (number + 1 + (rows.length - (takeBodies (Heredoc.opened row) rows).2.length))
        (takeBodies (Heredoc.opened row) rows).2 := by
  have last (n : Nat) : number + 1 + n - 1 = number + n := by omega
  rw [statements, alone.not_documentation]
  simp [alone.takeStatement_eq, alone.solid.trim_eq, last,
    List.isEmpty_eq_false_iff.mp alone.solid.isEmpty_eq]

/-- If it opens no heredoc it is one line. -/
theorem statements_cons (plain : Heredoc.opened row = []) (rows : List (List Char))
    (number : Nat) : statements number (row :: rows) =
      ⟨text, number, number, []⟩ :: statements (number + 1) rows := by
  rw [alone.statements_eq, plain, takeBodies, Nat.sub_self]
  rfl

end IsAlone

/-- A text that is a statement by itself. -/
structure IsStatement (text : List Char) : Prop where
  solid : IsSolid text
  closed : IsClosed text
  stops : continues text = false
  code : text.head? ≠ some '='
  whole : '\n' ∉ text

section Statement

variable {text : List Char}

/-- A row with some indentation. -/
def indented (indent : Nat) (text : List Char) : List Char :=
  List.replicate indent ' ' ++ text

theorem isFlat_replicate (indent : Nat) : IsFlat (List.replicate indent ' ') := by
  intro c member
  rw [List.eq_of_mem_replicate member]
  decide

theorem IsStatement.not_documentation (statement : IsStatement text) (indent : Nat) :
    "=begin".toList.isPrefixOf (indented indent text) = false := by
  cases indent with
  | zero =>
      have code := statement.code
      cases text with
      | nil => rfl
      | cons c cs =>
          have other : '=' ≠ c := fun same => code (congrArg some same.symm)
          simp [indented, List.isPrefixOf, other]
  | succ indent => rfl

/-- A statement may be indented. -/
theorem IsStatement.isAlone (statement : IsStatement text) (indent : Nat) :
    IsAlone (indented indent text) text where
  read_eq := statement.closed.append_flat (isFlat_replicate indent) none
  trim_eq := statement.solid.trim_indented indent
  solid := statement.solid
  stops := statement.stops
  not_documentation := statement.not_documentation indent

/-- A blank row is passed over. -/
theorem statements_blank (rows : List (List Char)) (number : Nat) :
    statements number ([] :: rows) = statements (number + 1) rows := by
  have taken : takeStatement .empty [] rows = (⟨.start, [], []⟩, rows) := by
    unfold takeStatement
    cases rows <;> rfl
  rw [statements]
  simp [taken, trim, trimStart, trimEnd]

end Statement

/-- Lines of one row each, the first of them with this number. -/
def numbered : Nat → List (List Char) → List Line
  | _, [] => []
  | number, text :: texts => ⟨text, number, number, []⟩ :: numbered (number + 1) texts

/-- Numbers go on from one list of rows to the next. -/
theorem numbered_append (number : Nat) (texts others : List (List Char)) :
    numbered number (texts ++ others) =
      numbered number texts ++ numbered (number + texts.length) others := by
  induction texts generalizing number with
  | nil => rfl
  | cons text texts ih =>
      rw [List.cons_append, numbered, numbered, ih, List.length_cons, Nat.add_comm texts.length,
        ← Nat.add_assoc]
      rfl

/-! ## Heredocs in a quoted text -/

namespace Heredoc

variable {before text after : List Char}

theorem openedAfter_of_length_le {skip : Nat} (short : text.length ≤ skip) :
    openedAfter skip text = [] := by
  induction text generalizing skip with
  | nil => cases skip <;> rfl
  | cons c cs ih =>
      cases skip with
      | zero => exact absurd short (Nat.not_succ_le_zero _)
      | succ skip => exact ih (Nat.le_of_succ_le_succ short)

theorem opener?_eq_none (other : ∀ cs, text ≠ '<' :: '<' :: cs) : opener? text = none := by
  unfold opener?
  split
  · exact absurd rfl (other _)
  · rfl

theorem opener?_cons_eq_none {c : Char} (other : c ≠ '<') : opener? (c :: text) = none :=
  opener?_eq_none fun _ same => other (List.cons.inj same).1

/-- Without an angle bracket no heredoc is announced. -/
theorem openedAfter_of_not_mem (plain : '<' ∉ text) (skip : Nat) : openedAfter skip text = [] := by
  induction text generalizing skip with
  | nil => cases skip <;> rfl
  | cons c cs ih =>
      have later : '<' ∉ cs := fun member => plain (.tail _ member)
      have other : c ≠ '<' := fun same => plain (same ▸ .head _)
      cases skip with
      | succ skip => exact ih later skip
      | zero =>
          rw [openedAfter, opener?_cons_eq_none other]
          exact ih later 0

/-- Code without openers may be passed over. -/
theorem opened_append (plain : '<' ∉ before) (rest : List Char) :
    opened (before ++ rest) = opened rest := by
  induction before with
  | nil => rfl
  | cons c cs ih =>
      have later : '<' ∉ cs := fun member => plain (.tail _ member)
      have other : c ≠ '<' := fun same => plain (same ▸ .head _)
      rw [opened, List.cons_append, openedAfter, opener?_cons_eq_none other]
      exact ih later

theorem optional_append {p : Char → Bool} (some : text ≠ []) (rest : List Char) :
    optional p (text ++ rest) = ((optional p text).1, (optional p text).2 ++ rest) := by
  cases text with
  | nil => exact absurd rfl some
  | cons c cs =>
      rw [List.cons_append, optional, optional]
      split <;> rfl

/-- What follows the closing quote is no part of an opener, but for the quote itself. -/
inductive SameOpener (length : Nat) :
    Option (Option Char × Option Char × List Char × Nat) →
      Option (Option Char × Option Char × List Char × Nat) → Prop
  | none : SameOpener length none none
  | some (flag quote : Option Char) (tag : List Char) {size size' : Nat}
      (reach : size' = size ∨ length ≤ size ∧ length ≤ size') :
      SameOpener length (some (flag, quote, tag, size)) (some (flag, quote, tag, size'))

/-- A tag ends at a quote, so what stands behind the quote does not change it. -/
theorem takeIdent_append_quote {unquoted : List Char} :
    takeIdent tagStart tagInner (unquoted ++ '\'' :: after) =
      (takeIdent tagStart tagInner unquoted).map fun (tag, rest) =>
        (tag, rest ++ '\'' :: after) := by
  cases taken : takeIdent tagStart tagInner unquoted with
  | some found =>
      have stops : tagInner '\'' = false := by decide
      exact takeIdent_append_of_stops taken fun _ first => Option.some.inj first ▸ stops
  | none =>
      cases unquoted with
      | nil => rfl
      | cons c cs =>
          rw [takeIdent] at taken
          split at taken
          · cases taken
          · rename_i other
            exact if_neg other

/-- The closing quote makes no opener of a text that is none. -/
theorem opener?_append_quote_eq_none (other : ∀ cs, text ≠ '<' :: '<' :: cs) :
    opener? (text ++ '\'' :: after) = none := by
  refine opener?_eq_none fun cs same => ?_
  match text with
  | [] => cases same
  | [_] => cases same
  | _ :: _ :: _ =>
      cases same
      exact other _ rfl

theorem takeIdent_eq_none_of_head? (ends : after.head?.any tagStart = false) :
    takeIdent tagStart tagInner after = none := by
  cases after with
  | nil => rfl
  | cons c cs => exact if_neg (ne_true_of_eq_false ends)

/-- An announcement is read the same with a quote behind it, unless a tag begins behind the quote.
-/
theorem sameOpener (text : List Char) (ends : after.head?.any tagStart = false) :
    SameOpener text.length (opener? text) (opener? (text ++ '\'' :: after)) := by
  by_cases opens : ∃ cs, text = '<' :: '<' :: cs
  · obtain ⟨cs, rfl⟩ := opens
    have flagged : optional (fun c => c == '~' || c == '-') (cs ++ '\'' :: after) =
        ((optional (fun c => c == '~' || c == '-') cs).1,
          (optional (fun c => c == '~' || c == '-') cs).2 ++ '\'' :: after) := by
      cases cs with
      | nil => rfl
      | cons c cs => exact optional_append (List.cons_ne_nil c cs) _
    simp only [opener?, List.cons_append, flagged]
    generalize optional (fun c => c == '~' || c == '-') cs = unflagged
    obtain ⟨flag, unflagged⟩ := unflagged
    cases unflagged with
    | nil =>
        have quoted : optional (fun c => c == '\'' || c == '"') ([] ++ '\'' :: after) =
            (some '\'', after) := rfl
        rw [quoted]
        dsimp only
        rw [takeIdent_eq_none_of_head? ends]
        exact .none
    | cons c unflagged =>
        rw [optional_append (List.cons_ne_nil c unflagged)]
        generalize optional (fun c => c == '\'' || c == '"') (c :: unflagged) = unquoted
        obtain ⟨quote, unquoted⟩ := unquoted
        dsimp only
        rw [takeIdent_append_quote]
        cases takeIdent tagStart tagInner unquoted with
        | none => exact .none
        | some ident =>
            obtain ⟨tag, rest⟩ := ident
            refine .some flag quote tag ?_
            cases rest with
            | nil =>
                right
                simp [optional]
                omega
            | cons d rest =>
                left
                rw [optional_append (List.cons_ne_nil d rest)]
                simp only [List.length_append]
                omega
  · have other (cs : List Char) : text ≠ '<' :: '<' :: cs := fun same => opens ⟨cs, same⟩
    rw [opener?_eq_none other, opener?_append_quote_eq_none other]
    exact .none

/-- The heredocs that a quoted text opens, with the closing quote in sight or without. -/
theorem openedAfter_quoted (plain : '<' ∉ after) (ends : after.head?.any tagStart = false)
    (skip : Nat) (text : List Char) :
    openedAfter skip (text ++ '\'' :: after) = openedAfter skip text := by
  have closing : '<' ∉ '\'' :: after := fun member =>
    plain ((List.mem_cons.mp member).resolve_left (by decide))
  induction text generalizing skip with
  | nil =>
      rw [List.nil_append, openedAfter_of_not_mem closing,
        openedAfter_of_length_le (Nat.zero_le _)]
  | cons c cs ih =>
      cases skip with
      | succ skip => exact ih skip
      | zero =>
          have same := sameOpener (c :: cs) ends
          rw [List.cons_append] at same ⊢
          rw [openedAfter, openedAfter]
          generalize opener? (c :: cs) = opener at same
          generalize opener? (c :: (cs ++ '\'' :: after)) = other at same
          cases same with
          | none => exact ih 0
          | @some flag quote tag size size' reach =>
              have others : openedAfter (size' - 1) (cs ++ '\'' :: after) =
                  openedAfter (size - 1) cs := by
                rw [ih]
                rcases reach with rfl | ⟨reach, reach'⟩
                · rfl
                · rw [openedAfter_of_length_le (Nat.le_sub_one_of_lt reach),
                    openedAfter_of_length_le (Nat.le_sub_one_of_lt reach')]
              simp only [others]

/-- A row opens the heredocs that the text it quotes opens. -/
theorem opened_quoting (before text : List Char) (flat : IsFlat before) (flat' : IsFlat after)
    (ends : after.head?.any tagStart = false) :
    opened (quoting before text after) = opened text := by
  have plain {code : List Char} (flat : IsFlat code) : '<' ∉ code := fun member =>
    ne_of_kind (flat _ member) (by decide) rfl
  have quote : quoting before text after = (before ++ ['\'']) ++ (text ++ '\'' :: after) := by
    simp [quoting]
  have prefixed : '<' ∉ before ++ ['\''] := by
    simpa using plain flat
  rw [quote, opened_append prefixed]
  exact openedAfter_quoted (plain flat') ends 0 text

/-- Blanks in front of a row announce nothing. -/
theorem opened_indented (indent : Nat) (text : List Char) :
    opened (indented indent text) = opened text :=
  opened_append
    (fun member => ne_of_kind (isFlat_replicate indent _ member) (by decide) rfl) _

end Heredoc

/-- A text that is one line. -/
structure IsRow (text : List Char) : Prop extends IsStatement text where
  plain : Heredoc.opened text = []

/-- Rows that are lines of their own are read one by one. -/
theorem statements_append {texts : List (List Char)} (each : ∀ text ∈ texts, IsRow text)
    (indent number : Nat) (rows : List (List Char)) :
    statements number (texts.map (indented indent) ++ rows) =
      numbered number texts ++ statements (number + texts.length) rows := by
  induction texts generalizing number with
  | nil => rfl
  | cons text texts ih =>
      obtain ⟨here, later⟩ := List.forall_mem_cons.mp each
      have plain : Heredoc.opened (indented indent text) = [] := by
        rw [Heredoc.opened_indented, here.plain]
      rw [List.map_cons, List.cons_append, (here.isAlone indent).statements_cons plain, ih later,
        List.length_cons, Nat.add_comm texts.length, ← Nat.add_assoc]
      rfl

/-- An `end` is a row. -/
theorem isRow_end : IsRow "end".toList where
  solid := ⟨rfl, rfl⟩
  closed := by
    have flat : IsFlat "end".toList := by decide
    simpa using isClosed_nil.append_flat flat
  stops := by decide
  code := by decide
  whole := by decide
  plain := by decide

/-- An indented statement is one physical line. -/
theorem IsStatement.isLine_indented {text : List Char} (statement : IsStatement text)
    (indent : Nat) : '\n' ∉ indented indent text ∧ (indented indent text).getLast? ≠ some '\r' := by
  constructor
  · intro member
    rcases List.mem_append.mp member with before | inside
    · exact absurd (List.eq_of_mem_replicate before) (by decide)
    · exact statement.whole inside
  · intro last
    have solid := statement.solid.last
    rw [indented, getLast?_append_of_any solid] at last
    rw [last] at solid
    exact absurd solid (by decide)

theorem map_text_numbered (number : Nat) (texts : List (List Char)) :
    (numbered number texts).map (·.text) = texts := by
  induction texts generalizing number with
  | nil => rfl
  | cons text texts ih => rw [numbered, List.map_cons, ih]

theorem text_mem_of_mem_numbered {line : Line} {number : Nat} {texts : List (List Char)}
    (member : line ∈ numbered number texts) : line.text ∈ texts := by
  rw [← map_text_numbered number texts]
  exact List.mem_map_of_mem member

end Recipe

end Rolewright
