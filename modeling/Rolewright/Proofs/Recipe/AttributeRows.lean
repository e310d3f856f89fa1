/-
# Files of assignments

A file of assignments of literals, each on a row of its own, has exactly the attributes that are
assigned, however they are written (`attributes_extract_assignmentRows`). Each row is a statement
because nothing in it begins a condition or a block: behind a gap there is a blank, a bracket, the
sign or the literal (`IsCalm`).

One symbol is the exception. It ends in the word that opens blocks, and the row of its assignment is
read as the head of a block that holds nothing (`attributes_extract_symbolDo`).
-/

import Rolewright.Proofs.Recipe.Attributes
import Rolewright.Proofs.Recipe.Bodies

namespace Rolewright.Recipe

open Text

/-! ## Code in which no condition and no block begins -/

/-- Text that starts neither with a condition nor with a block. -/
def StartsCalm (text : List Char) : Prop :=
  ∀ c ∈ text.head?, c ∉ ['d', 'i', 'u']

/-- Code behind whose gaps neither a condition nor a block begins, if none does in what follows. -/
structure IsCalm (code : List Char) : Prop where
  starts : ∀ rest, StartsCalm rest → StartsCalm (code ++ rest)
  gaps : ∀ read rest, StartsCalm rest →
    (∀ gap ∈ gapsFrom .start (code.reverse ++ read) rest, StartsCalm gap.after) →
    ∀ gap ∈ gapsFrom .start read (code ++ rest), StartsCalm gap.after

section Calm

variable {code more text : List Char}

theorem isCalm_nil : IsCalm [] :=
  ⟨fun _ => id, fun _ _ _ => id⟩

theorem isCalm_blank : IsCalm [' '] where
  starts _ _ := by
    rintro c ⟨⟩
    decide
  gaps read rest calm later := by
    intro gap member
    rw [List.singleton_append, gapsFrom_blank] at member
    rcases List.mem_cons.mp member with rfl | member
    · exact calm
    · exact later gap member

theorem isCalm_of_passes {c : Char} {cs : List Char} (passes : GapScan.Passes 0 (c :: cs))
    (other : c ∉ ['d', 'i', 'u']) : IsCalm (c :: cs) where
  starts _ _ := by
    rintro d ⟨⟩
    exact other
  gaps read rest _ later := by
    have whole : gapsFrom .start read (c :: cs ++ rest) =
        gapsFrom .start ((c :: cs).reverse ++ read) rest := passes read rest
    rwa [whole]

theorem IsCalm.append (first : IsCalm code) (second : IsCalm more) : IsCalm (code ++ more) where
  starts rest calm := by
    rw [List.append_assoc]
    exact first.starts _ (second.starts rest calm)
  gaps read rest calm later := by
    rw [List.append_assoc]
    refine first.gaps read _ (second.starts rest calm) (second.gaps _ rest calm ?_)
    rwa [List.reverse_append, List.append_assoc] at later

theorem isCalm_blanks {blanks : List Char} (between : blanks.all (· == ' ') = true) :
    IsCalm blanks := by
  induction blanks with
  | nil => exact isCalm_nil
  | cons c cs ih =>
      obtain ⟨here, later⟩ := (Bool.and_eq_true _ _).mp (List.all_cons.symm.trans between)
      rw [beq_iff_eq.mp here]
      exact isCalm_blank.append (ih later)

/-- What starts calmly is neither a condition nor a block. -/
theorem StartsCalm.afterPrefix?_eq_none (calm : StartsCalm text) {c : Char} {mark : List Char}
    (known : c ∈ ['d', 'i', 'u']) : afterPrefix? (c :: mark) text = none :=
  afterPrefix?_cons_eq_none (fun first => calm c first known) mark

/-- Where nothing begins behind a gap the text is a statement without a condition and without a
block. -/
theorem splits_of_calm (calm : ∀ gap ∈ gaps text, StartsCalm gap.after) :
    splitModifier text = (text, none) ∧ splitInlineBlock? text = none := by
  constructor
  · have absent : (gaps text).findSome? Gap.split? = none := by
      refine List.findSome?_eq_none_iff.mpr fun gap member => Gap.split?_eq_none fun negated => ?_
      have none : afterPrefix? (Modifier.keyword negated) gap.after = none := by
        cases negated <;> exact (calm gap member).afterPrefix?_eq_none (by decide)
      rw [afterKeyword?, none]
    rw [splitModifier_eq, absent]
    rfl
  · have absent : (gaps text).findSome? Gap.blockStart? = none := by
      refine List.findSome?_eq_none_iff.mpr fun gap member => ?_
      have none : afterPrefix? "do".toList gap.after = none :=
        (calm gap member).afterPrefix?_eq_none (by decide)
      rw [Gap.blockStart?, none]
    rw [splitInlineBlock?, absent]
    cases beforeSuffix? "end".toList text with
    | none => rfl
    | some inside =>
        simp only [Option.bind_eq_bind, Option.bind_some, Option.bind_none]
        split <;> rfl

end Calm

/-! ## Scans -/

theorem isTransparentToKeys_keeps : Value.IsTransparentToKeys Scan.Keeps where
  toIsTransparent := Scan.isTransparent_keeps
  double inner := Scan.keeps_between (isPlainWithin_word (.inr rfl) inner)

theorem isTransparentToKeys_passes : Value.IsTransparentToKeys GapScan.Passes where
  toIsTransparent := GapScan.isTransparent_passes
  double inner := GapScan.passes_between (isPlainWithin_word (.inr rfl) inner)

/-- The words in front of the indices are read without a change to what is open if a dot is. -/
theorem transparent_words {P : Nat → List Char → Prop} (transparent : Value.IsTransparentToKeys P)
    (dot : P 0 ['.']) {qualifier level : List Char} (qualified : qualifier ∈ [[], "node.".toList])
    (known : level ∈ precedenceLevels) : P 0 (qualifier ++ level) := by
  have front : P 0 qualifier := by
    simp only [List.mem_cons, List.not_mem_nil, or_false] at qualified
    rcases qualified with rfl | rfl
    · exact transparent.nil
    · have node : P 0 "node".toList := transparent.atom (by decide) (by decide)
      exact transparent.append node dot
  refine transparent.append front (transparent.atom ?_ ?_)
  · exact (by decide : ∀ level ∈ precedenceLevels, level.head? ≠ some '?') level known
  · exact all_isAtomChar (all_of_mem_precedenceLevels known)

/-! ## Targets -/

/-- An assignment of what a text denotes. -/
def assigning (target value : List Char) : List Char :=
  target ++ (" = ".toList ++ value)

theorem isBlank_of_beq {c : Char} (same : (c == ' ') = true) : isBlank c = true := by
  rw [beq_iff_eq.mp same]
  rfl

section Target

variable {keys : List String} {target value : List Char}

/-- A target is a word that is none of the language itself, and what ends it. -/
theorem SpellsTarget.exists_eq (spelled : SpellsTarget (· == ' ') keys target) (some : keys ≠ []) :
    ∃ word c cs, target = word ++ c :: cs ∧ word.head?.any isNameStart = true ∧
      word.all isAsciiWord = true ∧ isAsciiWord c = false ∧
      ∀ control ∈ controlWords, word ≠ control.toList := by
  obtain ⟨qualified, known, spelled⟩ := spelled
  rename_i qualifier level chain
  simp only [List.mem_cons, List.not_mem_nil, or_false] at qualified
  rcases qualified with rfl | rfl
  · obtain ⟨c, cs, rfl, stops⟩ := exists_chain_eq_cons spelled some fun _ => isBlank_of_beq
    have words : ∀ level ∈ precedenceLevels, level.head?.any isNameStart = true ∧
        ∀ control ∈ controlWords, level ≠ control.toList := by decide
    exact ⟨level, c, cs, rfl, (words level known).1, all_of_mem_precedenceLevels known, stops,
      (words level known).2⟩
  · exact ⟨"node".toList, '.', level ++ chain, rfl, by decide, by decide, by decide, by decide⟩

theorem SpellsTarget.not_mem (spelled : SpellsTarget (· == ' ') keys target)
    (named : ∀ key ∈ keys, Value.IsKey key) {c : Char} (other : isAsciiWord c = false)
    (plain : c ∉ ['\'', '"', ':', '[', ']', '.', ' ']) : c ∉ target := by
  obtain ⟨qualified, known, spelled⟩ := spelled
  rename_i qualifier level chain
  have apart : (c == ' ') = false := beq_false_of_ne fun same => plain (by simp [same])
  have marks : c ∉ ['\'', '"', ':', '[', ']'] := fun member =>
    plain (List.mem_append_left ['.', ' '] member)
  refine List.not_mem_append ?_ (List.not_mem_append ?_ (spelled.not_mem named other marks apart))
  · have words : ∀ qualifier ∈ [[], "node.".toList],
        qualifier.all (fun c => isAsciiWord c || c == '.') = true := by decide
    intro member
    have here := List.all_eq_true.mp (words qualifier qualified) c member
    rcases (Bool.or_eq_true _ _).mp here with word | dot
    · exact ne_true_of_eq_false other word
    · exact plain (by rw [beq_iff_eq.mp dot]; decide)
  · exact fun member => ne_true_of_eq_false other
      (List.all_eq_true.mp (all_of_mem_precedenceLevels known) c member)

theorem keeps_assigning (spelled : SpellsTarget (· == ' ') keys target)
    (named : ∀ key ∈ keys, Value.IsKey key) (keeps : Scan.Keeps 0 value) :
    Scan.Keeps 0 (assigning target value) := by
  obtain ⟨qualified, known, spelled⟩ := spelled
  have transparent := isTransparentToKeys_keeps
  have dot : Scan.Keeps 0 ['.'] := Scan.keeps_cons (by decide) (by decide) rfl Scan.keeps_nil
  have equals : Scan.Keeps 0 ['='] := Scan.keeps_cons (by decide) (by decide) rfl Scan.keeps_nil
  have blank : Scan.Keeps 0 [' '] := Scan.keeps_flat (by decide)
  have words := transparent_words transparent dot qualified known
  have indices := transparent.of_indices (fun c same => by rwa [beq_iff_eq.mp same]) spelled named
  have sign : Scan.Keeps 0 " = ".toList :=
    transparent.append blank (transparent.append equals blank)
  have whole := transparent.append (transparent.append words indices)
    (transparent.append sign keeps)
  simpa [assigning] using whole

/-- An assignment is a row if its value ends there. -/
theorem isRow_assigning (spelled : SpellsTarget (· == ' ') keys target)
    (named : ∀ key ∈ keys, Value.IsKey key) (some : keys ≠ []) (keeps : Scan.Keeps 0 value)
    (final : IsFinal value) (lineFeed : '\n' ∉ value) (heredoc : '<' ∉ value) :
    IsRow (assigning target value) := by
  have starts : (assigning target value).head?.any isNameStart = true := by
    obtain ⟨word, c, cs, split, starts, -⟩ := spelled.exists_eq some
    rw [assigning, split]
    cases word with
    | nil => cases starts
    | cons d ds => exact starts
  have absent {c : Char} (other : isAsciiWord c = false)
      (plain : c ∉ ['\'', '"', ':', '[', ']', '.', ' ']) (sign : c ∉ " = ".toList)
      (inside : c ∉ value) : c ∉ assigning target value :=
    List.not_mem_append (spelled.not_mem named other plain) (List.not_mem_append sign inside)
  have split : assigning target value = (target ++ " = ".toList) ++ value := by
    simp [assigning]
  exact isRow_of_not_mem starts (absent (by decide) (by decide) (by decide) lineFeed)
    (absent (by decide) (by decide) (by decide) heredoc) (keeps_assigning spelled named keeps) split
    final

theorem leadingWord_assigning (spelled : SpellsTarget (· == ' ') keys target) (some : keys ≠ [])
    (value : List Char) :
    ∀ control ∈ controlWords, leadingWord (assigning target value) ≠ control.toList := by
  obtain ⟨word, c, cs, rfl, -, inner, stops, plain⟩ := spelled.exists_eq some
  rw [assigning, List.append_assoc, List.cons_append, leadingWord_append inner stops]
  exact plain

/-- Indices are calm: behind a gap there is another blank or a bracket. -/
theorem isCalm_indices {keys : List String} {chain : List Char}
    (spelled : Value.SpellsIndices (· == ' ') keys chain)
    (named : ∀ key ∈ keys, Value.IsKey key) : IsCalm chain := by
  have transparent := isTransparentToKeys_passes
  induction spelled with
  | nil => exact isCalm_nil
  | @cons key keys blanks code chain between spelled later ih =>
      obtain ⟨here, named⟩ := List.forall_mem_cons.mp named
      have index : GapScan.Passes 0 ('[' :: (code ++ [']'])) :=
        transparent.group (transparent.of_key here spelled _)
      have whole := ((isCalm_blanks between).append (isCalm_of_passes index (by decide))).append
        (ih named)
      simpa using whole

theorem isCalm_sign : IsCalm " = ".toList := by
  have sign : GapScan.Passes 0 ['='] :=
    GapScan.passes_cons (by decide) (by decide) GapScan.passes_nil
  exact isCalm_blank.append ((isCalm_of_passes sign (by decide)).append isCalm_blank)

/-- An assignment has no condition and no block behind it if its value has none. -/
theorem splits_assigning (spelled : SpellsTarget (· == ' ') keys target)
    (named : ∀ key ∈ keys, Value.IsKey key) (literal : IsCalm value) :
    splitModifier (assigning target value) = (assigning target value, none) ∧
      splitInlineBlock? (assigning target value) = none := by
  obtain ⟨qualified, known, spelled⟩ := spelled
  rename_i qualifier level chain
  have dot : GapScan.Passes 0 ['.'] :=
    GapScan.passes_cons (by decide) (by decide) GapScan.passes_nil
  have words := transparent_words isTransparentToKeys_passes dot qualified known
  have calm := (isCalm_indices spelled named).append (isCalm_sign.append literal)
  refine splits_of_calm ?_
  have split : assigning (qualifier ++ (level ++ chain)) value =
      (qualifier ++ level) ++ (chain ++ (" = ".toList ++ value)) := by
    simp [assigning]
  have read : gaps (assigning (qualifier ++ (level ++ chain)) value) =
      gapsFrom .start ((qualifier ++ level).reverse ++ []) (chain ++ (" = ".toList ++ value)) := by
    rw [split]
    exact words [] _
  have after := calm.gaps ((qualifier ++ level).reverse ++ []) [] nofun nofun
  rw [List.append_nil (chain ++ _)] at after
  rwa [read]

end Target

/-! ## Literals -/

section Literal

variable {target value : List Char} (literal : IsLiteral value)

include literal

/-- No word begins a literal. -/
theorem IsLiteral.afterPrefix?_eq_none {c : Char} (closed : opensLiteral c = false)
    (mark : List Char) : afterPrefix? (c :: mark) value = none := by
  obtain ⟨d, ds, rfl, opens⟩ := literal.exists_eq_cons
  refine afterPrefix?_cons_eq_none ?_ mark
  rintro ⟨⟩
  exact Bool.false_ne_true (closed.symm.trans opens)

theorem IsLiteral.isCalm : IsCalm value := by
  have passes := GapScan.isTransparent_passes.of_literal literal 0
  obtain ⟨c, cs, rfl, opens⟩ := literal.exists_eq_cons
  refine isCalm_of_passes passes fun member => ?_
  have closed : ['d', 'i', 'u'].any opensLiteral = false := by decide
  exact List.any_eq_false.mp closed c member opens

theorem IsLiteral.assigned?_sign : assigned? (" = ".toList ++ value) = some value := by
  have solid := literal.isSolid
  have start : trimStart (' ' :: value) = value := trimStart_of_solid solid.first
  have whole : '\n' ∉ value := literal.not_mem (by decide)
  have sign : afterAssign? (" = ".toList ++ value) = some value := congrArg some start
  have operator : value.head?.any "=~>".toList.contains = false := by
    have none : "=~>".toList.any opensLiteral = false := by decide
    obtain ⟨c, cs, rfl, opens⟩ := literal.exists_eq_cons
    refine Bool.eq_false_iff.mpr fun member => ?_
    exact List.any_eq_false.mp none c (List.contains_iff_mem.mp member) opens
  rw [assigned?, sign]
  simp only [Option.bind_eq_bind, Option.bind_some, solid.trim_eq, operator, solid.isEmpty_eq]
  simp [whole]

/-- The value of a literal comes from no block. -/
theorem IsLiteral.assignsBlock_assigning (plain : '=' ∉ target) :
    assignsBlock (assigning target value) = false := by
  have before : '=' ∉ target ++ [' '] := by
    simpa using plain
  have after : '=' ∉ ' ' :: value := by
    simpa using literal.not_mem (c := '=') (by decide)
  have start : trimStart (' ' :: value) = value := trimStart_of_solid literal.isSolid.first
  have none : ∀ keyword ∈ ["if", "unless", "case", "begin"],
      afterPrefix? keyword.toList value = none := by
    simp only [List.forall_mem_cons]
    exact ⟨literal.afterPrefix?_eq_none (by decide) _, literal.afterPrefix?_eq_none (by decide) _,
      literal.afterPrefix?_eq_none (by decide) _, literal.afterPrefix?_eq_none (by decide) _, nofun⟩
  have unopened : (["if", "unless", "case", "begin"].any fun keyword =>
      (afterPrefix? keyword.toList value).any atBoundary) = false := by
    refine List.any_eq_false.mpr fun keyword known => ?_
    rw [none keyword known]
    decide
  have split : assigning target value = (target ++ [' ']) ++ '=' :: ' ' :: value := by
    simp [assigning]
  rw [split, assignsBlock_append before, assignsBlock, start, unopened, Bool.and_false,
    Bool.false_or, assignsBlock_of_not_mem after]

end Literal

/-! ## Rows -/

/-- An assignment of a literal to the attribute with these keys. -/
structure Assignment where
  keys : List String
  target : List Char
  value : List Char
  nonempty : keys ≠ []
  named : ∀ key ∈ keys, Value.IsKey key
  spelled : SpellsTarget (· == ' ') keys target
  isLiteral : IsLiteral value

namespace Assignment

variable (a : Assignment)

/-- The row of an assignment. -/
def row : List Char :=
  assigning a.target a.value

/-- The finding of a row. -/
def finding : Finding :=
  .attribute (attributePath a.keys) (Value.parse a.value)

theorem isRow : IsRow a.row :=
  isRow_assigning a.spelled a.named a.nonempty
    (Scan.isTransparent_keeps.of_literal a.isLiteral 0) a.isLiteral.isFinal
    (a.isLiteral.not_mem (by decide)) (a.isLiteral.not_mem (by decide))

theorem role : LineRole.ofText a.row = .statement := by
  obtain ⟨c, last, solid, bar, -⟩ := a.isLiteral.exists_getLast?_eq
  have split : a.row = (a.target ++ " = ".toList) ++ a.value := by
    simp [row, assigning]
  have ends : a.row.getLast? = some c := by
    rw [split, List.getLast?_append, last]
    rfl
  have plain : '=' ∉ a.target := a.spelled.not_mem a.named (by decide) (by decide)
  have calm := a.isLiteral.assignsBlock_assigning plain
  refine ofText_eq_statement calm (leadingWord_assigning a.spelled a.nonempty _) ends solid bar
    fun before same => ?_
  exact a.isLiteral.atBoundary_of_append_do (split.symm.trans same)

theorem lineFindings_eq (o : Origin) (guards : List Guard) {line : Line}
    (same : line.text = a.row) : o.lineFindings guards line = [a.finding] := by
  have spelled := a.spelled.mono fun _ => isBlank_of_beq
  rw [Origin.lineFindings, Origin.statementFindings, same]
  simp only [row, splits_assigning a.spelled a.named a.isLiteral.isCalm]
  rw [assigning, plainFindings_of_spellsTarget spelled a.named a.nonempty o _ line
    a.isLiteral.assigned?_sign, a.isLiteral.argumentValue_eq]
  rfl

end Assignment

/-! ## A file of assignments -/

/-- Texts one after the other, each on a row with some indentation. -/
def indentedRows (indent : Nat) (texts : List (List Char)) : List Char :=
  (texts.map (indented indent)).flatMap (· ++ ['\n'])

/-- Texts that are rows are the lines. -/
theorem ofSource_indentedRows {texts : List (List Char)} (each : ∀ text ∈ texts, IsRow text)
    (indent : Nat) : Line.ofSource (indentedRows indent texts) = numbered 1 texts := by
  have whole : ∀ row ∈ texts.map (indented indent), '\n' ∉ row ∧ row.getLast? ≠ some '\r' :=
    List.forall_mem_map.mpr fun text member => (each text member).isLine_indented indent
  have read := statements_append each indent 1 []
  rw [List.append_nil, Recipe.statements, List.append_nil] at read
  rw [Line.ofSource, indentedRows, lines_flatMap whole, read]

/-- Assignments one after the other. -/
def assignmentRows (indent : Nat) (assignments : List Assignment) : List Char :=
  indentedRows indent (assignments.map Assignment.row)

section Rows

variable (file : String) (types : List String) (indent : Nat) (assignments : List Assignment)

theorem findingsOf_assignmentRows :
    findingsOf file types (assignmentRows indent assignments) =
      assignments.map Assignment.finding := by
  have each : ∀ text ∈ assignments.map Assignment.row, IsRow text :=
    List.forall_mem_map.mpr fun a _ => a.isRow
  have alone : ∀ line ∈ numbered 1 (assignments.map Assignment.row),
      (LineRole.ofText line.text).standsAlone = true := by
    intro line member
    obtain ⟨a, -, same⟩ := List.mem_map.mp (text_mem_of_mem_numbered member)
    rw [← same, a.role]
    rfl
  have gives (o : Origin) (number : Nat) (assignments : List Assignment) :
      o.nodesFindings [] ((numbered number (assignments.map Assignment.row)).map .statement) =
        assignments.map Assignment.finding := by
    induction assignments generalizing number with
    | nil => rfl
    | cons a assignments ih =>
        simp only [List.map_cons, numbered, Origin.nodesFindings, Origin.nodeFindings]
        rw [a.lineFindings_eq o [] rfl, ih]
        rfl
  rw [findingsOf, assignmentRows, ofSource_indentedRows each, Node.ofLines_statements alone]
  exact gives _ 1 assignments

/-- A file of assignments has the attributes that are assigned, under the paths of their keys and
with the values of their literals, however they are written. -/
theorem attributes_extract_assignmentRows :
    (SourceFile.extract file types (assignmentRows indent assignments)).attributes =
      Entries.ofPairs (assignments.map fun a => (attributePath a.keys, Value.parse a.value)) := by
  have pairs : (assignments.map Assignment.finding).filterMap Finding.assignment? =
      assignments.map fun a => (attributePath a.keys, Value.parse a.value) := by
    rw [List.filterMap_map]
    exact congrFun List.filterMap_eq_map' assignments
  rw [attributes_extract, findingsOf_assignmentRows, pairs]

end Rows

/-! ## The symbol that opens a block -/

/-- The symbol of the word that opens blocks. -/
def symbolDo : List Char :=
  ":do".toList

/-- A block that holds nothing assigns nothing. -/
theorem filterMap_assignment?_empty (o : Origin) (guards : List Guard) (block : Block)
    (empty : ∃ arm condition line, block.branches = [⟨arm, condition, line, []⟩]) :
    (o.nodeFindings guards (.block block)).filterMap Finding.assignment? = [] := by
  obtain ⟨kind, header, branches, last, closed, modifier⟩ := block
  obtain ⟨arm, condition, line, rfl⟩ := empty
  rw [Origin.nodeFindings]
  split
  · simp [Origin.innerBranches, Origin.innerNodes, Finding.assignment?]
  · split
    · rfl
    · cases Origin.scopes _ with
      | nil => rfl
      | cons extra extras =>
          simp [Origin.branchFindings, Origin.nodesFindings]

section SymbolDo

variable {keys : List String} {target : List Char}
  (spelled : SpellsTarget (· == ' ') keys target) (named : ∀ key ∈ keys, Value.IsKey key)
  (some : keys ≠ [])

include spelled named some

theorem role_symbolDo : LineRole.ofText (assigning target symbolDo) =
    .opens (.call (trim (target ++ " = :".toList)) none) [] := by
  have split : assigning target symbolDo = (target ++ " = ".toList) ++ ':' :: "do".toList := by
    simp [assigning, symbolDo]
  have whole : (trim (target ++ " = :".toList)).contains '\n' = false := by
    refine Bool.eq_false_iff.mpr fun member => ?_
    refine absurd ((infix_trim _).subset (List.contains_iff_mem.mp member)) ?_
    exact List.not_mem_append (spelled.not_mem named (by decide) (by decide)) (by decide)
  have found : blockHeader? [] (assigning target symbolDo) =
      .some (trim (target ++ " = :".toList), none) := by
    rw [split, blockHeader?_append_mark_do (by decide)]
    simp
  rw [LineRole.ofText, keywordRole?_eq_none (leadingWord_assigning spelled some _), callBlock?,
    found]
  simp only [whole, Bool.false_eq_true, if_false]

/-- An assignment of this symbol is lost, however its target is written. -/
theorem attributes_extract_symbolDo (file : String) (types : List String) (indent : Nat) :
    (SourceFile.extract file types (indentedRows indent [assigning target symbolDo])).attributes =
      [] := by
  have keeps : Scan.Keeps 0 symbolDo := Scan.keeps_atom (by decide) (by decide)
  have isRow := isRow_assigning spelled named some keeps (by decide) (by decide) (by decide)
  have nodes : ∃ block : Block,
      Node.ofLines (numbered 1 [assigning target symbolDo]) = [.block block] ∧
        ∃ arm condition line, block.branches = [⟨arm, condition, line, []⟩] := by
    rw [numbered, numbered, Node.ofLines, List.foldl_cons, List.foldl_nil, Nesting.read,
      role_symbolDo spelled named some]
    dsimp only
    rw [Nesting.finish]
    exact ⟨_, rfl, _, _, _, rfl⟩
  obtain ⟨block, nodes, empty⟩ := nodes
  rw [attributes_extract, findingsOf, ofSource_indentedRows (List.forall_mem_singleton.mpr isRow),
    nodes, Origin.nodesFindings, Origin.nodesFindings, List.append_nil,
    filterMap_assignment?_empty _ _ block empty]
  rfl

end SymbolDo

/-- What is written as an assignment of this symbol leaves no attribute. -/
theorem not_stores_symbolDo :
    SpellsTarget (· == ' ') ["a"] "default['a']".toList ∧
      (SourceFile.extract "attributes/default.rb" [] "default['a'] = :do\n".toList).attributes.get?
        (attributePath ["a"]) = none := by
  constructor
  · have indices : Value.SpellsIndices (· == ' ') ["a"] "['a']".toList :=
      @Value.SpellsIndices.cons _ _ _ [] _ _ rfl .single .nil
    exact @SpellsTarget.intro _ _ [] _ _ (.head _) (.head _) indices
  · decide +kernel

end Rolewright.Recipe
