/-
# One line or several

A resource whose statements give literals may be written as a block on one line or with each
statement on a line of its own. The two are taken apart in different ways: one at gaps and
semicolons, the other by the part that each line plays. They declare the same, but for the lines
they stand on (`declarations_extract_forms`).
-/

import Rolewright.Proofs.Recipe.Bodies

namespace Rolewright.Recipe

open Text

/-! ## What is written -/

/-- A resource with statements, and a condition behind its `end` or none. -/
structure LiteralBlock where
  type : String
  name : String
  statements : List LiteralStatement
  condition : Option WordModifier
  isType : IsType type
  slug : IsSlug name
  nonempty : statements ≠ []
  complete : ∀ m ∈ condition, String.ofList m.word ∉ openingWords

namespace LiteralBlock

/-- What stands before `do`. -/
def head (b : LiteralBlock) : List Char :=
  quoting (b.type.toList ++ [' ']) b.name.toList []

/-- The statements on one line. -/
def body (b : LiteralBlock) : List Char :=
  joinedStatements b.statements

/-- The `end`, with the condition. -/
def ending (b : LiteralBlock) : List Char :=
  "end".toList ++ suffix b.condition

/-- The block on one line. -/
def row (b : LiteralBlock) : List Char :=
  inlineText b.head b.body ++ suffix b.condition

/-- The line that opens the block. -/
def header (b : LiteralBlock) : List Char :=
  quoting (b.type.toList ++ [' ']) b.name.toList " do".toList

/-- The block on several lines, with an indented body. -/
def rows (indent : Nat) (b : LiteralBlock) : List (List Char) :=
  b.header :: ((b.statements.map (·.text)).map (indented indent) ++ [b.ending])

/-- The recipe of one line. -/
def oneLine (b : LiteralBlock) : List Char :=
  b.row ++ ['\n']

/-- The recipe of several lines. -/
def spread (indent : Nat) (b : LiteralBlock) : List Char :=
  (b.rows indent).flatMap (· ++ ['\n'])

end LiteralBlock

/-- The declaration that a block stands for, if it begins on the first line of a file and ends on
this one. -/
def LiteralBlock.declaration (b : LiteralBlock) (file : String) (last : Nat) : Declaration where
  type := b.type
  name := if b.name = "" then b.type ++ "@1" else b.name
  properties := (b.statements.filter (·.guard?.isNone)).foldl
    (fun properties s => properties.put s.key (Value.parse s.value)) []
  guards := modifierGuards (b.condition.map WordModifier.modifier) ++
    b.statements.filterMap (·.guard?)
  notifies := []
  span := ⟨file, 1, last⟩
  unparsed := []
  unfinished := false

/-! ## The head -/

namespace LiteralBlock

variable (b : LiteralBlock)

theorem isQuotable_name : IsQuotable b.name.toList :=
  b.slug.isPlainText.isQuotable

/-- What stands behind the type. -/
def argument : List Char :=
  '\'' :: (b.name.toList ++ ['\''])

/-- The head is read as that of a resource of the type, with the name in quotes as its argument. -/
theorem ofHead_head : CallRole.ofHead b.head = .resource b.type b.argument := by
  rw [head, CallRole.ofHead_quoting b.isType b.isQuotable_name, b.slug.isPlainText.callsLoop_eq]
  rfl

/-- A resource without a name gets one from its type and its line. -/
theorem resourceName_argument :
    resourceName b.argument b.type 1 = if b.name = "" then b.type ++ "@1" else b.name := by
  split
  · rename_i empty
    have quotable : IsQuotable [] := ⟨List.not_mem_nil, List.not_mem_nil, List.not_mem_nil⟩
    have parts : Value.split ',' ('\'' :: ([] ++ ['\''])) = _ :=
      Value.split_quoted quotable
    have value := Value.parse_quoted quotable
    rw [List.nil_append] at parts value
    have number : toString 1 = "1" := by decide
    simp [resourceName, argument, empty, parts, value, Value.plainText?, isBlankText, number,
      String.append_assoc]
  · rename_i named
    exact resourceName_quoted b.slug.isPlainText named b.type 1

/-- Statements added to the head make the declaration. -/
theorem foldl_addTo_declaration (o : Origin) (last : Nat) (some : 1 ≤ last) :
    b.statements.foldl LiteralStatement.addTo (o.declaration b.type b.argument 1 last
      (modifierGuards (b.condition.map WordModifier.modifier))) = b.declaration o.file last := by
  have span : o.span 1 last = ⟨o.file, 1, last⟩ := by
    rw [Origin.span, Nat.max_eq_left some]
  rw [foldl_addTo, Origin.declaration, b.resourceName_argument, span]
  rfl

/-! ## The rows of a block -/

/-- A block ends in a word, and no line goes on behind it. -/
theorem exists_last_word (front : List Char) :
    ∃ before word, front ++ ' ' :: "end".toList ++ suffix b.condition = before ++ ' ' :: word ∧
      word ≠ [] ∧ word.all isAsciiWord = true ∧ String.ofList word ∉ openingWords := by
  cases condition : b.condition with
  | none =>
      refine ⟨front, "end".toList, ?_, by decide, by decide, by decide⟩
      simp [suffix]
  | some m =>
      refine ⟨front ++ ' ' :: "end".toList ++ ' ' :: Modifier.keyword m.negated, m.word, ?_,
        m.named, m.inner, b.complete m (by rw [condition]; rfl)⟩
      simp [suffix, WordModifier.text]

/-- The head leaves nothing open. -/
theorem keeps_head : Scan.Keeps 0 b.head := by
  have type : IsFlat (b.type.toList ++ [' ']) :=
    isFlat_append.mpr ⟨isFlat_of_all b.isType.inner, by decide⟩
  have split : b.head = (b.type.toList ++ [' ']) ++ b.argument := rfl
  rw [split]
  exact Scan.isTransparent_keeps.append (Scan.keeps_flat type)
    (Scan.keeps_quoted b.isQuotable_name)

/-- The condition has no quotes and no brackets. -/
theorem isFlat_suffix : IsFlat (suffix b.condition) := by
  cases b.condition with
  | none => exact isFlat_nil
  | some m =>
      have keyword : IsFlat (' ' :: Modifier.keyword m.negated) := by
        cases m.negated <;> decide
      have split : suffix (some m) = (' ' :: Modifier.keyword m.negated) ++ ([' '] ++ m.word) := by
        simp [suffix, WordModifier.text]
      rw [split]
      exact isFlat_append.mpr
        ⟨keyword, isFlat_append.mpr ⟨by decide, isFlat_of_all m.inner⟩⟩

/-- The block on one line by its parts. -/
theorem row_eq : b.row =
    b.head ++ (" do ".toList ++ (b.body ++ (" end".toList ++ suffix b.condition))) := by
  simp [row, inlineText]

theorem all_head : b.head.all isRowChar = true := by
  have name : b.name.toList.all isRowChar = true := by
    refine List.all_eq_true.mpr fun c member => ?_
    have here : isSlugChar c = true := List.all_eq_true.mp b.slug c member
    simp only [isSlugChar, Bool.or_eq_true] at here
    simp only [isRowChar, isLiteralChar, isTextChar, Bool.or_eq_true]
    tauto
  have split : b.head = b.type.toList ++ (" '".toList ++ (b.name.toList ++ ['\''])) := by
    simp [head, quoting]
  rw [split]
  simp only [List.all_append, all_isRowChar (isFlat_of_all b.isType.inner), name]
  decide

theorem head?_append_head (rest : List Char) : (b.head ++ rest).head?.any isNameStart = true := by
  have starts := b.isType.starts
  cases type : b.type.toList with
  | nil =>
      rw [type] at starts
      cases starts
  | cons c cs =>
      rw [type] at starts
      rw [head, quoting, type]
      exact starts

theorem all_row : b.row.all isRowChar = true := by
  rw [row_eq]
  simp only [List.all_append, b.all_head, body, all_joinedStatements b.nonempty,
    all_isRowChar b.isFlat_suffix]
  decide

/-- The word that a block on one line ends in. -/
theorem exists_row_eq :
    ∃ before word, b.row = before ++ ' ' :: word ∧
      word ≠ [] ∧ word.all isAsciiWord = true ∧ String.ofList word ∉ openingWords := by
  have split : b.row =
      b.head ++ " do ".toList ++ b.body ++ ' ' :: "end".toList ++ suffix b.condition := by
    simp [row, inlineText]
  rw [split]
  exact b.exists_last_word _

/-- The block on one line is a row, -/
theorem isRow_row : IsRow b.row := by
  obtain ⟨before, word, split, named, inner, complete⟩ := b.exists_row_eq
  have keeps : Scan.Keeps 0 b.row := by
    have append {code more : List Char} (first : Scan.Keeps 0 code) (second : Scan.Keeps 0 more) :=
      Scan.isTransparent_keeps.append first second
    rw [row_eq]
    exact append b.keeps_head (append (Scan.keeps_flat (by decide))
      (append (keeps_joinedStatements b.nonempty) (append (Scan.keeps_flat (by decide))
        (Scan.keeps_flat b.isFlat_suffix))))
  refine isRow_of_keeps ?_ b.all_row keeps split (isFinal_word named inner complete)
  rw [row_eq]
  exact b.head?_append_head _

/-- and so are the line that opens it -/
theorem isRow_header : IsRow b.header :=
  b.isType.isRow (by decide) (by decide) b.isQuotable_name (by decide) rfl
    b.slug.isPlainText.opened_eq_nil

/-- and the one that ends it where it stands on several. -/
theorem isRow_ending : IsRow b.ending := by
  have flat : IsFlat b.ending := isFlat_append.mpr ⟨by decide, b.isFlat_suffix⟩
  cases condition : b.condition with
  | none =>
      rw [ending, condition]
      exact isRow_end
  | some m =>
      have split : b.ending =
          ("end".toList ++ ' ' :: Modifier.keyword m.negated) ++ ' ' :: m.word := by
        simp [ending, condition, suffix, WordModifier.text]
      exact isRow_of_keeps rfl (all_isRowChar flat) (Scan.keeps_flat flat) split
        (isFinal_word m.named m.inner (b.complete m (by rw [condition]; rfl)))

/-- On one line it is a statement. -/
theorem role_row : LineRole.ofText b.row = .statement := by
  obtain ⟨before, word, split, named, inner, complete⟩ := b.exists_row_eq
  have other : word ≠ "do".toList := by
    rintro rfl
    exact complete (by decide)
  have atom : isAsciiWord (word.getLast named) = true :=
    List.all_eq_true.mp inner _ (List.getLast_mem named)
  have last : b.row.getLast? = some (word.getLast named) := by
    rw [split, List.getLast?_append_of_ne_nil _ (List.cons_ne_nil _ _), ← List.singleton_append,
      List.getLast?_append_of_ne_nil _ named, List.getLast?_eq_some_getLast named]
  refine ofText_eq_statement_of_chars b.all_row ?_ last (isBlank_of_isAsciiWord atom) ?_
    fun text ends => atBoundary_of_append_word named inner other (by decide) (split.symm.trans ends)
  · have word : leadingWord b.row = b.type.toList := by
      rw [row_eq, head, quoting, List.append_assoc, List.append_assoc]
      exact leadingWord_append b.isType.inner (by decide)
    rw [word]
    exact b.isType.plain
  · intro same
    rw [same] at atom
    cases atom

/-- On several the first opens a block -/
theorem role_header : LineRole.ofText b.header = .opens (.call b.head none) [] :=
  b.isType.ofText_eq_opens b.isQuotable_name

/-- and the last ends it, under the condition. -/
theorem role_ending :
    LineRole.ofText b.ending = .ends (b.condition.map WordModifier.modifier) := by
  cases condition : b.condition with
  | none =>
      rw [ending, condition]
      decide
  | some m =>
      have quiet : IsQuiet "end".toList := isQuiet_word (by decide) (by decide) (by decide)
      have solid : IsSolid "end".toList := ⟨rfl, rfl⟩
      have split := splitModifier_quiet quiet solid (by decide) (.some m)
      have word : leadingWord ("end".toList ++ suffix (.some m)) = "end".toList := rfl
      have inner : IsSolid (Modifier.keyword m.negated ++ ' ' :: m.word) := by
        refine ⟨by cases m.negated <;> rfl, ?_⟩
        have last := (isSolid_word m.named m.inner).last
        rw [← List.singleton_append, ← List.append_assoc, getLast?_append_of_any last]
        exact last
      have drop : trim (("end".toList ++ suffix (.some m)).drop "end".toList.length) =
          Modifier.keyword m.negated ++ ' ' :: m.word :=
        inner.trim_indented 1
      obtain ⟨c, cs, rest, dot, bracket⟩ : ∃ c cs,
          Modifier.keyword m.negated ++ ' ' :: m.word = c :: cs ∧ c ≠ '.' ∧ c ≠ ')' := by
        cases m.negated <;> exact ⟨_, _, rfl, by decide, by decide⟩
      have known : keywordRole? ("end".toList ++ suffix (.some m)) =
          .some (.ends (.some m.modifier)) := by
        unfold keywordRole?
        rw [word]
        simp only [drop, rest, split]
        simp [dot, bracket]
      rw [ending, condition, LineRole.ofText, known]
      rfl

/-! ## On one line -/

/-- No condition begins before the `end`, -/
theorem isQuiet_inlineText : IsQuiet (inlineText b.head b.body) := by
  have type : IsQuiet b.type.toList :=
    isQuiet_word b.isType.inner (b.isType.plain "if" (by decide))
      (b.isType.plain "unless" (by decide))
  have name : IsQuiet b.argument :=
    isQuiet_of_head (GapScan.passes_quoted b.isQuotable_name) (by decide)
  have head : IsQuiet b.head := by
    rw [LiteralBlock.head, quoting_word]
    exact type.spaced name
  have opening : IsQuiet "do".toList := isQuiet_word (by decide) (by decide) (by decide)
  have ending : IsQuiet "end".toList := isQuiet_word (by decide) (by decide) (by decide)
  exact head.spaced (opening.spaced ((isQuiet_joinedStatements b.nonempty).spaced ending))

/-- so the one behind it is split off, and nothing else. -/
theorem splitModifier_row :
    splitModifier b.row = (inlineText b.head b.body, b.condition.map WordModifier.modifier) := by
  have split : inlineText b.head b.body =
      (b.head ++ " do ".toList ++ b.body) ++ ' ' :: "end".toList := by
    simp [inlineText]
  have solid : IsSolid (inlineText b.head b.body) := by
    refine ⟨solid_of_isNameStart (b.head?_append_head _), ?_⟩
    rw [split, List.getLast?_append]
    rfl
  refine splitModifier_quiet b.isQuiet_inlineText solid ?_ b.condition
  rw [split]
  exact lastWord_append (by decide) (by decide)

/-- The statement declares the resource. -/
theorem lineFindings_row (o : Origin) :
    o.lineFindings [] ⟨b.row, 1, 1, []⟩ = [.declared (b.declaration o.file 1)] := by
  have inline := splitInlineBlock?_inlineText b.isType.toIsHead b.isQuotable_name
    (isInlineBody_joinedStatements b.nonempty)
  have parts : (Origin.inlineStatements ⟨b.row, 1, 1, []⟩ b.body).map (·.text) =
      b.statements.map (·.text) := by
    rw [Origin.inlineStatements, body, split_joinedStatements b.nonempty, List.map_map]
    exact List.map_id _
  rw [Origin.lineFindings, Origin.statementFindings, b.splitModifier_row]
  dsimp only
  rw [body, head, inline]
  dsimp only
  rw [← head, b.ofHead_head]
  dsimp only
  rw [← body, foldl_addStatement o parts, List.nil_append,
    b.foldl_addTo_declaration o 1 (Nat.le_refl 1)]

/-- The recipe of one line declares the resource on that line. -/
theorem declarations_oneLine (file : String) (types : List String) :
    (SourceFile.extract file types b.oneLine).declarations = [b.declaration file 1] := by
  have rows : b.oneLine = [b.row].flatMap (· ++ ['\n']) := by
    simp [oneLine]
  have lines : Text.lines b.oneLine = [b.row] := by
    rw [rows]
    exact lines_flatMap (List.forall_mem_singleton.mpr (b.isRow_row.isLine_indented 0))
  have logical : Line.ofSource b.oneLine = [⟨b.row, 1, 1, []⟩] := by
    have read := statements_append (List.forall_mem_singleton.mpr b.isRow_row) 0 1 []
    rw [Recipe.statements] at read
    rw [Line.ofSource, lines]
    exact read
  have nodes : Node.ofLines [⟨b.row, 1, 1, []⟩] = [.statement ⟨b.row, 1, 1, []⟩] :=
    Node.ofLines_statements (List.forall_mem_singleton.mpr
      (congrArg LineRole.standsAlone b.role_row))
  rw [declarations_extract, findingsOf, logical, nodes, Origin.nodesFindings, Origin.nodesFindings,
    Origin.nodeFindings, b.lineFindings_row]
  rfl

/-! ## On several lines -/

/-- The recipe of several lines declares it on all of them. -/
theorem declarations_spread (file : String) (types : List String) (indent : Nat) :
    (SourceFile.extract file types (b.spread indent)).declarations =
      [b.declaration file (b.statements.length + 2)] := by
  have inside : ∀ text ∈ b.statements.map (·.text), IsRow text :=
    List.forall_mem_map.mpr fun s _ => s.isRow
  have roles : ∀ text ∈ b.statements.map (·.text), LineRole.ofText text = .statement :=
    List.forall_mem_map.mpr fun s _ => s.role
  have lines : Text.lines (b.spread indent) = b.rows indent :=
    lines_flatMap (isLine_of_mem_rows b.isRow_header inside b.isRow_ending indent)
  have logical : Line.ofSource (b.spread indent) =
      rowLines b.header (b.statements.map (·.text)) b.ending 1 := by
    have read := statements_rowLines b.isRow_header inside b.isRow_ending indent 1 []
    rw [Recipe.statements, List.append_nil, List.append_nil] at read
    rw [Line.ofSource, lines]
    exact read
  have nodes : Node.ofLines (rowLines b.header (b.statements.map (·.text)) b.ending 1) =
      [.block (rowBlock b.head b.header (b.statements.map (·.text))
        (b.condition.map WordModifier.modifier) 1)] := by
    rw [Node.ofLines, foldl_read_rowLines b.role_header roles b.role_ending, Nesting.finish]
    rfl
  have texts := map_text_numbered (1 + 1) (b.statements.map (·.text))
  have last : 1 + (b.statements.map (·.text)).length + 1 = b.statements.length + 2 := by
    rw [List.length_map]
    omega
  rw [declarations_extract, findingsOf, logical, nodes, Origin.nodesFindings, Origin.nodesFindings,
    nodeFindings_rowBlock b.ofHead_head, foldl_addStatement _ texts, last, List.nil_append,
    b.foldl_addTo_declaration _ _ (by omega)]
  rfl

end LiteralBlock

/-- A block on one line and the same block on several lines declare the same resource, with all that
it says and nothing left over; only the lines differ on which it stands. -/
theorem declarations_extract_forms (file : String) (types : List String) (indent : Nat)
    (b : LiteralBlock) :
    (SourceFile.extract file types b.oneLine).declarations = [b.declaration file 1] ∧
      (SourceFile.extract file types (b.spread indent)).declarations =
        [{ b.declaration file 1 with span := ⟨file, 1, b.statements.length + 2⟩ }] :=
  ⟨b.declarations_oneLine file types, b.declarations_spread file types indent⟩

/-- A package with a version and a list of actions, under a condition. -/
def cachePackage : LiteralBlock where
  type := "package"
  name := "redis-6"
  statements :=
    [⟨"version", "'6.2: LTS'".toList, ⟨by decide, by decide, by decide⟩, by decide,
        @IsLiteral.quoted "6.2: LTS".toList (by decide)⟩,
      ⟨"action", "[:install, :lock]".toList, ⟨by decide, by decide, by decide⟩, by decide,
        @IsLiteral.list [] [(":install".toList, ", ".toList), (":lock".toList, [])] (by decide)
          (by decide) (List.forall_mem_cons.mpr
            ⟨@IsLiteral.symbol "install".toList [] (by decide) (by decide) (by decide) (by decide),
              List.forall_mem_singleton.mpr (@IsLiteral.symbol "lock".toList [] (by decide)
                (by decide) (by decide) (by decide))⟩)⟩]
  condition := some ⟨false, "caching".toList, by decide, by decide⟩
  isType := ⟨⟨rfl, rfl, by decide⟩, rfl, rfl⟩
  slug := rfl
  nonempty := by decide
  complete := by decide

/-- A package on one line and on several lines, with all that it declares. -/
theorem declarations_extract_forms_cachePackage :
    let declared (recipe : String) :=
      (SourceFile.extract "recipes/default.rb" [] recipe.toList).declarations
    let d : Declaration :=
      { type := "package", name := "redis-6"
        properties :=
          [("version", .str "6.2: LTS"), ("action", .list [.sym "install", .sym "lock"])]
        guards := [⟨.onlyWhen, "caching"⟩], notifies := []
        span := ⟨"recipes/default.rb", 1, 1⟩, unparsed := [], unfinished := false }
    declared "package 'redis-6' do version '6.2: LTS'; action [:install, :lock] end if caching\n" =
        [d] ∧
      declared ("package 'redis-6' do\n  version '6.2: LTS'\n  action [:install, :lock]\n" ++
          "end if caching\n") =
        [{ d with span := ⟨"recipes/default.rb", 1, 4⟩ }] :=
  declarations_extract_forms "recipes/default.rb" [] 2 cachePackage

/-- A type with a capital in it is read as none. On one line the block is not understood as a whole,
on several lines its statement is not understood by itself. -/
theorem not_declarations_extract_forms :
    let declared (recipe : String) :=
      ((SourceFile.extract "recipes/default.rb" [] recipe.toList).declarations.map fun d =>
        (d.type, d.name, d.guards))
    "nginxSite".toList.all isAsciiWord = true ∧ "nginxSite" ∉ controlWords ∧
      "nginxSite" ∉ nonResources ∧
      declared "nginxSite 'x' do foo 'y' end\n" = [(unparsedType, "recipes/default.rb:1", [])] ∧
      declared "nginxSite 'x' do\n  foo 'y'\nend\n" =
        [(unparsedType, "recipes/default.rb:2", [⟨.block, "nginxSite 'x'"⟩])] := by
  refine ⟨?_, ?_, ?_, ?_, ?_⟩ <;> decide +kernel

end Rolewright.Recipe
