/-
# Extraction undoes rendering

Resources that are written one after the other, each with its properties and its notifications, are
declared just as they were (`declarations_extract_render`). What is written carries the conditions
under which it can be read back: names and texts of letters, digits and a few further characters,
and words that mean nothing else in a body.
-/

import Rolewright.Proofs.Recipe.Findings
import Rolewright.Proofs.Recipe.Roles
import Rolewright.Proofs.Recipe.Stretches
import Rolewright.Proofs.Value.Literals

namespace Rolewright.Recipe

open Text

/-! ## What is written -/

/-- Letters, digits, underscores, slashes and dashes. -/
def isSlugChar (c : Char) : Bool :=
  isAsciiWord c || c == '/' || c == '-'

/-- A text of such characters. -/
def IsSlug (text : String) : Prop :=
  text.toList.all isSlugChar = true

/-- The words that mean something of their own in the body of a resource. -/
def bodyWords : List String :=
  ["notifies", "subscribes", "only_if", "not_if"]

/-- The word that a notification is written with. -/
def EdgeKind.keyword : EdgeKind → List Char
  | .notifies => "notifies".toList
  | .subscribes => "subscribes".toList

/-- When a notification acts, as it is written. -/
def Timing.symbol : Timing → List Char
  | .immediate => "immediately".toList
  | .delayed => "delayed".toList

/-- A property and its text. -/
structure WrittenProperty where
  key : String
  value : String
  isHead : IsHead key.toList
  ordinary : key ∉ bodyWords
  slug : IsSlug value

/-- A notification of another resource. -/
structure WrittenEdge where
  kind : EdgeKind
  action : String
  type : String
  name : String
  timing : Timing
  isName_action : isName action.toList = true
  isName_type : isName type.toList = true
  slug : IsSlug name

/-- A resource, its properties and its notifications. -/
structure WrittenResource where
  type : String
  name : String
  properties : List WrittenProperty
  edges : List WrittenEdge
  isType : IsType type
  named : name ≠ ""
  slug : IsSlug name
  distinct : (properties.map (·.key)).Nodup

/-- The row of a property. -/
def WrittenProperty.row (p : WrittenProperty) : List Char :=
  quoting (p.key.toList ++ [' ']) p.value.toList []

namespace WrittenEdge

/-- The other resource, as notifications name it. -/
def target (e : WrittenEdge) : String :=
  e.type ++ "[" ++ e.name ++ "]"

/-- What stands before the quotes in its row, after the keyword. -/
def before (e : WrittenEdge) : List Char :=
  ':' :: (e.action.toList ++ ", ".toList)

/-- What stands after the quotes in its row. -/
def after (e : WrittenEdge) : List Char :=
  ", :".toList ++ e.timing.symbol

/-- The row of a notification. -/
def row (e : WrittenEdge) : List Char :=
  quoting (e.kind.keyword ++ ' ' :: e.before) e.target.toList e.after

/-- The notification that it declares. -/
def edge (e : WrittenEdge) : Edge :=
  ⟨e.target, e.action, e.timing, e.kind⟩

end WrittenEdge

namespace WrittenResource

/-- The row that opens its block. -/
def header (r : WrittenResource) : List Char :=
  quoting (r.type.toList ++ [' ']) r.name.toList " do".toList

/-- The rows of its body. -/
def body (r : WrittenResource) : List (List Char) :=
  r.properties.map (·.row) ++ r.edges.map (·.row)

/-- All its rows, with an indented body. -/
def rows (indent : Nat) (r : WrittenResource) : List (List Char) :=
  r.header :: (r.body.map (indented indent) ++ ["end".toList])

/-- The declaration that it stands for, if it begins on a line of a file. -/
def declaration (r : WrittenResource) (file : String) (first : Nat) : Declaration where
  type := r.type
  name := r.name
  properties := r.properties.map fun p => (p.key, .str p.value)
  guards := []
  notifies := r.edges.map (·.edge)
  span := ⟨file, first, first + r.body.length + 1⟩
  unparsed := []
  unfinished := false

/-- Resources one after the other, each row with a line feed. -/
def render (indent : Nat) (resources : List WrittenResource) : List Char :=
  (resources.flatMap (rows indent)).flatMap (· ++ ['\n'])

/-- The declarations that resources stand for, if the first one begins on a line of a file. -/
def declarations (file : String) : Nat → List WrittenResource → List Declaration
  | _, [] => []
  | first, r :: others =>
    r.declaration file first :: declarations file (first + r.body.length + 2) others

end WrittenResource

/-! ## Plain texts -/

/-- A text that can be quoted and is never taken for code: a slug, or what notifications name. -/
def IsPlainText (text : List Char) : Prop :=
  text.all (fun c => isSlugChar c || c == '[' || c == ']') = true

section Plain

variable {text : List Char}

theorem IsPlainText.not_mem (plain : IsPlainText text) {c : Char}
    (other : (isSlugChar c || c == '[' || c == ']') = false) : c ∉ text :=
  not_mem_of_all plain other

/-- Nothing in a plain text ends the quotes around it or means something else within them. -/
theorem IsPlainText.isQuotable (plain : IsPlainText text) : IsQuotable text :=
  ⟨plain.not_mem (by decide), plain.not_mem (by decide), plain.not_mem (by decide)⟩

/-- It announces no heredoc, -/
theorem IsPlainText.opened_eq_nil (plain : IsPlainText text) : Heredoc.opened text = [] :=
  Heredoc.openedAfter_of_not_mem (plain.not_mem (by decide)) 0

/-- opens no block by an assignment -/
theorem IsPlainText.assignsBlock_eq (plain : IsPlainText text) : assignsBlock text = false :=
  assignsBlock_of_not_mem (plain.not_mem (by decide))

/-- and names no loop. -/
theorem IsPlainText.callsLoop_eq (plain : IsPlainText text) : callsLoop text = false :=
  callsLoop_of_not_mem (plain.not_mem (by decide))

theorem IsPlainText.isBlankText_eq (plain : IsPlainText text) (some : text ≠ []) :
    isBlankText text = false := by
  cases text with
  | nil => exact absurd rfl some
  | cons c cs =>
      have here := List.all_eq_true.mp plain c (.head _)
      have solid : isBlank c = false := by
        simp only [isSlugChar, Bool.or_eq_true, beq_iff_eq] at here
        rcases here with (((word | rfl) | rfl) | rfl) | rfl
        case inl.inl.inl.inl => exact isBlank_of_isAsciiWord word
        all_goals decide
      rw [isBlankText, List.all_cons, solid, Bool.false_and]

/-- A name of letters, digits, underscores, slashes and dashes is plain. -/
theorem IsSlug.isPlainText {text : String} (slug : IsSlug text) : IsPlainText text.toList := by
  refine List.all_eq_true.mpr fun c member => ?_
  have here : isSlugChar c = true := List.all_eq_true.mp slug c member
  rw [here]
  rfl

end Plain

/-! ## The rows and their parts -/

/-- The word that a notification begins with may stand first in a row. -/
theorem EdgeKind.isHead_keyword (kind : EdgeKind) : IsHead kind.keyword := by
  cases kind <;> exact ⟨by decide, by decide, by decide⟩

namespace WrittenEdge

variable (e : WrittenEdge)

theorem isFlat_before : IsFlat e.before := by
  refine List.forall_mem_cons.mpr ⟨by decide, isFlat_append.mpr ⟨?_, by decide⟩⟩
  exact isFlat_of_all (all_of_isName e.isName_action)

theorem isFlat_after : IsFlat e.after := by
  unfold after
  cases e.timing <;> decide

/-- The other resource is named by a plain text, with brackets around its name. -/
theorem isPlainText_target : IsPlainText e.target.toList := by
  have type : IsPlainText e.type.toList :=
    IsSlug.isPlainText (List.all_eq_true.mpr fun c member => by
      have here := List.all_eq_true.mp (all_of_isName e.isName_type) c member
      simp [isSlugChar, here])
  have name := e.slug.isPlainText
  unfold IsPlainText target at *
  simp only [String.toList_append, List.all_append, type, name]
  decide

/-- A notification is written on one row, which leaves nothing open -/
theorem isRow : IsRow e.row := by
  have plain := e.isPlainText_target
  refine e.kind.isHead_keyword.isRow e.isFlat_before e.isFlat_after plain.isQuotable ?_ ?_
    plain.opened_eq_nil
  all_goals
    unfold after
    cases e.timing <;> decide

/-- and is read as a statement. -/
theorem role : LineRole.ofText e.row = .statement := by
  have last : ∃ c, ('\'' :: e.after).getLast? = some c ∧ isBlank c = false ∧ c ≠ '|' ∧ c ≠ 'o' := by
    unfold after
    cases e.timing
    · exact ⟨'y', by decide⟩
    · exact ⟨'d', by decide⟩
  obtain ⟨c, last, solid, bar, other⟩ := last
  exact e.kind.isHead_keyword.ofText_eq_statement e.isFlat_before e.isFlat_after
    e.isPlainText_target.assignsBlock_eq last solid bar other

end WrittenEdge

/-- So it is with a property. -/
theorem WrittenProperty.isRow (p : WrittenProperty) : IsRow p.row :=
  p.isHead.isRow (by decide) (by decide) p.slug.isPlainText.isQuotable (by decide) rfl
    p.slug.isPlainText.opened_eq_nil

theorem WrittenProperty.role (p : WrittenProperty) : LineRole.ofText p.row = .statement :=
  p.isHead.ofText_eq_statement (by decide) (by decide) p.slug.isPlainText.assignsBlock_eq rfl rfl
    (by decide) (by decide)

namespace WrittenResource

variable (r : WrittenResource)

/-- The code before `do`. -/
def head : List Char :=
  quoting (r.type.toList ++ [' ']) r.name.toList []

/-- Its argument. -/
def argument : List Char :=
  '\'' :: (r.name.toList ++ ['\''])

/-- The row of the head leaves nothing open -/
theorem isRow_header : IsRow r.header :=
  r.isType.isRow (by decide) (by decide) r.slug.isPlainText.isQuotable (by decide) rfl
    r.slug.isPlainText.opened_eq_nil

/-- and opens the block of the resource. -/
theorem role_header : LineRole.ofText r.header = .opens (.call r.head none) [] :=
  r.isType.ofText_eq_opens r.slug.isPlainText.isQuotable

/-- All rows of the body leave nothing open -/
theorem isRow_of_mem_body : ∀ text ∈ r.body, IsRow text := by
  refine List.forall_mem_append.mpr ⟨?_, ?_⟩
  · rintro text member
    obtain ⟨p, -, rfl⟩ := List.mem_map.mp member
    exact p.isRow
  · rintro text member
    obtain ⟨e, -, rfl⟩ := List.mem_map.mp member
    exact e.isRow

/-- and are statements. -/
theorem role_of_mem_body : ∀ text ∈ r.body, LineRole.ofText text = .statement := by
  refine List.forall_mem_append.mpr ⟨?_, ?_⟩
  · rintro text member
    obtain ⟨p, -, rfl⟩ := List.mem_map.mp member
    exact p.role
  · rintro text member
    obtain ⟨e, -, rfl⟩ := List.mem_map.mp member
    exact e.role

end WrittenResource

/-! ## Lines and blocks -/

/-- Statements in an open block are added to the arm that is being filled. -/
theorem Nesting.foldl_read_statements {lines : List Line} (top : OpenBlock)
    (below : List OpenBlock) (root : List Node)
    (roles : ∀ line ∈ lines, LineRole.ofText line.text = .statement) :
    lines.foldl Nesting.read ⟨top :: below, root⟩ =
      ⟨{ top with current := { top.current with
          children := top.current.children ++ lines.map .statement } } :: below, root⟩ := by
  induction lines generalizing top with
  | nil => simp
  | cons line lines ih =>
      obtain ⟨role, roles⟩ := List.forall_mem_cons.mp roles
      have read : Nesting.read ⟨top :: below, root⟩ line =
          ⟨top.add (.statement line) :: below, root⟩ := by
        rw [Nesting.read, role]
        rfl
      rw [List.foldl_cons, read, ih _ roles]
      simp [OpenBlock.add]

/-! ## Blocks of rows -/

/-- The lines of a block, each of one row, of which the first has this number. -/
def rowLines (header : List Char) (body : List (List Char)) (ending : List Char) (first : Nat) :
    List Line :=
  ⟨header, first, first, []⟩ :: (numbered (first + 1) body ++
    [⟨ending, first + body.length + 1, first + body.length + 1, []⟩])

/-- The block of those lines. -/
def rowBlock (head header : List Char) (body : List (List Char)) (modifier : Option Modifier)
    (first : Nat) : Block where
  kind := .call head none
  header := ⟨header, first, first, []⟩
  branches := [⟨.body, [], first, (numbered (first + 1) body).map .statement⟩]
  last := first + body.length + 1
  closed := true
  modifier

section Blocks

variable {head header ending : List Char} {body : List (List Char)} {modifier : Option Modifier}

/-- No row of a block ends a physical line by itself. -/
theorem isLine_of_mem_rows (opens : IsRow header) (inside : ∀ text ∈ body, IsRow text)
    (ends : IsRow ending) (indent : Nat) :
    ∀ row ∈ header :: (body.map (indented indent) ++ [ending]),
      '\n' ∉ row ∧ row.getLast? ≠ some '\r' := by
  refine List.forall_mem_cons.mpr ⟨opens.isLine_indented 0, List.forall_mem_append.mpr ⟨?_, ?_⟩⟩
  · exact List.forall_mem_map.mpr fun text member => (inside text member).isLine_indented indent
  · exact List.forall_mem_singleton.mpr (ends.isLine_indented 0)

/-- The rows of a block are read one by one, each as a logical line by itself, and what stands
behind them is read from the line after its `end`. -/
theorem statements_rowLines (opens : IsRow header) (inside : ∀ text ∈ body, IsRow text)
    (ends : IsRow ending) (indent first : Nat) (rest : List (List Char)) :
    statements first (header :: (body.map (indented indent) ++ [ending]) ++ rest) =
      rowLines header body ending first ++ statements (first + body.length + 2) rest := by
  have parts : header :: (body.map (indented indent) ++ [ending]) ++ rest =
      [header].map (indented 0) ++
        (body.map (indented indent) ++ ([ending].map (indented 0) ++ rest)) := by
    simp [indented]
  have last : first + 1 + body.length = first + body.length + 1 := by omega
  rw [parts, statements_append (List.forall_mem_singleton.mpr opens), statements_append inside,
    statements_append (List.forall_mem_singleton.mpr ends)]
  simp [rowLines, numbered, last]

/-- The lines of a block make one block behind what was read before. -/
theorem foldl_read_rowLines (opens : LineRole.ofText header = .opens (.call head none) [])
    (inside : ∀ text ∈ body, LineRole.ofText text = .statement)
    (ends : LineRole.ofText ending = .ends modifier) (first : Nat) (root : List Node) :
    (rowLines header body ending first).foldl Nesting.read ⟨[], root⟩ =
      ⟨[], root ++ [.block (rowBlock head header body modifier first)]⟩ := by
  have roles : ∀ line ∈ numbered (first + 1) body, LineRole.ofText line.text = .statement :=
    fun line member => inside _ (text_mem_of_mem_numbered member)
  have opened : Nesting.read ⟨[], root⟩ ⟨header, first, first, []⟩ =
      ⟨[⟨.call head none, ⟨header, first, first, []⟩, [], ⟨.body, [], first, []⟩⟩], root⟩ := by
    rw [Nesting.read, opens]
  rw [rowLines, List.foldl_cons, List.foldl_append, opened,
    Nesting.foldl_read_statements _ _ _ roles]
  simp only [List.foldl_cons, List.foldl_nil, Nesting.read, ends]
  rfl

/-- A resource whose body has statements only gives one declaration. -/
theorem nodeFindings_rowBlock {type : String} {argument : List Char}
    (role : CallRole.ofHead head = .resource type argument) (o : Origin) (guards : List Guard)
    (first : Nat) :
    o.nodeFindings guards (.block (rowBlock head header body modifier first)) =
      [.declared ((numbered (first + 1) body).foldl o.addStatement
        (o.declaration type argument first (first + body.length + 1)
          (guards ++ modifierGuards modifier)))] := by
  have top : Origin.topResource? (rowBlock head header body modifier first) =
      some (type, argument) := by
    rw [Origin.topResource?, rowBlock]
    dsimp only
    rw [role]
  have inner (guards : List Guard) :
      o.innerBranches guards (rowBlock head header body modifier first).branches = [] := by
    refine List.eq_nil_iff_forall_not_mem.mpr fun finding member => ?_
    obtain ⟨branch, among, node, held, member⟩ := Origin.mem_innerBranches.mp member
    rw [List.mem_singleton.mp among] at held
    obtain ⟨line, -, rfl⟩ := List.mem_map.mp held
    cases member
  rw [Origin.nodeFindings_of_resource top, inner, Origin.blockDeclaration]
  simp only [BlockOf.children, rowBlock, List.flatMap_cons, List.flatMap_nil, List.append_nil,
    List.foldl_map, Origin.addNode, Origin.declaration, Bool.not_true]

end Blocks

namespace WrittenResource

variable (r : WrittenResource)

/-- The lines of its rows. -/
def logicalLines (first : Nat) : List Line :=
  ⟨r.header, first, first, []⟩ :: (numbered (first + 1) r.body ++
    [⟨"end".toList, first + r.body.length + 1, first + r.body.length + 1, []⟩])

/-- The block of its lines. -/
def block (first : Nat) : Block where
  kind := .call r.head none
  header := ⟨r.header, first, first, []⟩
  branches := [⟨.body, [], first, (numbered (first + 1) r.body).map .statement⟩]
  last := first + r.body.length + 1
  closed := true
  modifier := none

theorem statements_rows (indent first : Nat) (rest : List (List Char)) :
    statements first (r.rows indent ++ rest) =
      r.logicalLines first ++ statements (first + r.body.length + 2) rest :=
  statements_rowLines r.isRow_header r.isRow_of_mem_body isRow_end indent first rest

theorem foldl_read_logicalLines (first : Nat) (root : List Node) :
    (r.logicalLines first).foldl Nesting.read ⟨[], root⟩ =
      ⟨[], root ++ [.block (r.block first)]⟩ :=
  foldl_read_rowLines r.role_header r.role_of_mem_body (by decide) first root

/-- The logical lines of resources one after the other. -/
def allLines : Nat → List WrittenResource → List Line
  | _, [] => []
  | first, r :: others => r.logicalLines first ++ allLines (first + r.body.length + 2) others

/-- Their blocks. -/
def blocks : Nat → List WrittenResource → List Node
  | _, [] => []
  | first, r :: others => .block (r.block first) :: blocks (first + r.body.length + 2) others

/-- The rows of all resources are read one by one, -/
theorem statements_flatMap_rows (indent first : Nat) (resources : List WrittenResource) :
    statements first (resources.flatMap (rows indent)) = allLines first resources := by
  induction resources generalizing first with
  | nil => rw [List.flatMap_nil, statements, allLines]
  | cons r others ih => rw [List.flatMap_cons, statements_rows, ih, allLines]

/-- and their lines make one block for each resource, -/
theorem foldl_read_allLines (first : Nat) (resources : List WrittenResource) (root : List Node) :
    (allLines first resources).foldl Nesting.read ⟨[], root⟩ =
      ⟨[], root ++ blocks first resources⟩ := by
  induction resources generalizing first root with
  | nil => simp [allLines, blocks]
  | cons r others ih =>
      rw [allLines, List.foldl_append, foldl_read_logicalLines, ih, blocks, List.append_assoc,
        List.singleton_append]

/-- for the rows are the physical lines of what is written. -/
theorem lines_render (indent : Nat) (resources : List WrittenResource) :
    lines (render indent resources) = resources.flatMap (rows indent) := by
  refine lines_flatMap fun row member => ?_
  obtain ⟨r, -, member⟩ := List.mem_flatMap.mp member
  exact isLine_of_mem_rows r.isRow_header r.isRow_of_mem_body isRow_end indent row member

/-- The nesting of what is written has one block for each resource. -/
theorem ofLines_render (indent : Nat) (resources : List WrittenResource) :
    Node.ofLines (Line.ofSource (render indent resources)) = blocks 1 resources := by
  rw [Line.ofSource, lines_render, statements_flatMap_rows, Node.ofLines, foldl_read_allLines,
    Nesting.finish]
  rfl

end WrittenResource

/-! ## Statements of a body -/

/-- A resource is named by the text that it quotes. -/
theorem resourceName_quoted {name : String} (plain : IsPlainText name.toList) (named : name ≠ "")
    (type : String) (line : Nat) :
    resourceName ('\'' :: (name.toList ++ ['\''])) type line = name := by
  have parts : Value.split ',' ('\'' :: (name.toList ++ ['\''])) = _ :=
    Value.split_quoted plain.isQuotable
  have solid : isBlankText name.toList = false :=
    plain.isBlankText_eq fun empty => named (String.toList_eq_nil_iff.mp empty)
  simp [resourceName, parts, Value.parse_quoted plain.isQuotable, Value.plainText?, solid]

/-- A text in single quotes is the value of an argument, as it stands there. -/
theorem argumentValue_quoted {text : List Char} (quotable : IsQuotable text) (line : Line) :
    argumentValue line ('\'' :: (text ++ ['\''])) = .str (String.ofList text) := by
  have token : isHeredocToken ('\'' :: (text ++ ['\''])) = false := by
    rw [isHeredocToken, Heredoc.opener?_cons_eq_none (by decide)]
  rw [argumentValue, heredocValue?, (isSolid_quoted text).trim_eq, token,
    Value.parse_quoted quotable]
  rfl

section Body

variable (o : Origin) (d : Declaration) (first last : Nat)

/-- A row of the body that gives a property adds it to the declaration. -/
theorem Origin.addStatement_property (p : WrittenProperty) :
    o.addStatement d ⟨p.row, first, last, []⟩ =
      { d with properties := d.properties.put p.key (.str p.value) } := by
  have word : leadingWord p.row = p.key.toList := p.isHead.leadingWord_eq [] _ _
  have other (known : String) (member : known ∈ bodyWords) : p.key.toList ≠ known.toList :=
    fun same => p.ordinary (String.toList_inj.mp same ▸ member)
  have quotable := p.slug.isPlainText.isQuotable
  have property : property? p.row = some (p.key, '\'' :: (p.value.toList ++ ['\''])) := by
    rw [WrittenProperty.row, quoting_word, property?,
      takeIdent_append p.isHead.starts p.isHead.inner (by decide)]
    simp only [Option.bind_eq_bind, Option.bind_some, argument?_quoted quotable,
      (isSolid_quoted _).trim_eq]
    simp
  have value := argumentValue_quoted quotable ⟨p.row, first, last, []⟩
  unfold addStatement
  simp only [word, other "notifies" (by decide), other "subscribes" (by decide),
    other "only_if" (by decide), other "not_if" (by decide), property, value]
  simp

/-- The arguments of a notification. -/
def WrittenEdge.arguments (e : WrittenEdge) : List Char :=
  (':' :: e.action.toList) ++ ',' :: ' ' ::
    ('\'' :: (e.target.toList ++ ['\'']) ++ ',' :: ' ' :: (':' :: e.timing.symbol))

theorem Timing.all_symbol (timing : Timing) : timing.symbol.all isAsciiWord = true := by
  cases timing <;> decide

/-- What stands behind the keyword of a notification is read as it was written. -/
theorem WrittenEdge.edge?_arguments (e : WrittenEdge) :
    edge? e.kind e.arguments = some e.edge := by
  have action := all_of_isName e.isName_action
  have timing := e.timing.all_symbol
  have quotable := e.isPlainText_target.isQuotable
  have parts : Value.split ',' e.arguments =
      [':' :: e.action.toList, '\'' :: (e.target.toList ++ ['\'']), ':' :: e.timing.symbol] := by
    rw [arguments, Value.split_append (by decide) (by decide) (Value.isPiece_symbol action)
        (Value.isSolid_symbol action),
      Value.split_append (by decide) (by decide) (Value.isPiece_quoted quotable)
        (isSolid_quoted _),
      Value.split_singleton (Value.isPiece_symbol timing) (Value.isSolid_symbol timing)]
  have bare : afterPrefix? ['('] e.arguments = none := rfl
  have acts : edgeTiming (some (':' :: e.timing.symbol)) = e.timing := by
    cases e.timing <;>
      rw [edgeTiming, Option.bind_some, Value.parse_symbol (by decide) (by decide)] <;> decide
  rw [edge?, bare]
  simp only [Option.bind_none, Option.getD_none, parts, List.head?_cons, acts, edgeTarget,
    Value.parse_quoted quotable, Value.parse_symbol action (head?_of_isName e.isName_action)]
  simp [Value.plainText?, edge]

/-- That is what is left of its row without the keyword. -/
theorem WrittenEdge.trim_drop_row (e : WrittenEdge) :
    trim (e.row.drop e.kind.keyword.length) = e.arguments := by
  have timing := Value.isSolid_symbol e.timing.all_symbol
  have solid : IsSolid e.arguments := by
    refine ⟨rfl, ?_⟩
    have split : e.arguments = ((':' :: e.action.toList) ++ ',' :: ' ' ::
        ('\'' :: (e.target.toList ++ ['\'']) ++ [',', ' '])) ++ (':' :: e.timing.symbol) := by
      simp [arguments]
    rw [split, getLast?_append_of_any timing.last]
    exact timing.last
  have rest : e.row.drop e.kind.keyword.length = List.replicate 1 ' ' ++ e.arguments := by
    simp [row, quoting, before, after, arguments]
  rw [rest, solid.trim_indented]

/-- A row of the body that gives a notification adds it to the declaration. -/
theorem Origin.addStatement_edge (e : WrittenEdge) :
    o.addStatement d ⟨e.row, first, last, []⟩ =
      { d with notifies := d.notifies ++ [e.edge] } := by
  have word : leadingWord e.row = e.kind.keyword := e.kind.isHead_keyword.leadingWord_eq _ _ _
  have declares := e.edge?_arguments
  unfold addStatement
  simp only [word, e.trim_drop_row]
  cases kind : e.kind with
  | notifies =>
      have first : EdgeKind.notifies.keyword = "notifies".toList := rfl
      rw [kind] at declares
      rw [if_pos first, declares]
  | subscribes =>
      have other : EdgeKind.subscribes.keyword ≠ "notifies".toList := by decide
      have second : EdgeKind.subscribes.keyword = "subscribes".toList := rfl
      rw [kind] at declares
      rw [if_neg other, if_pos second, declares]

end Body

/-! ## Declarations -/

namespace WrittenResource

variable (r : WrittenResource)

/-- Properties of different keys are all added, in the order in which they are written. -/
theorem foldl_addStatement_properties (o : Origin) (properties : List WrittenProperty)
    (distinct : (properties.map (·.key)).Nodup) (d : Declaration)
    (fresh : ∀ p ∈ properties, p.key ∉ d.properties.keys) (first : Nat) :
    (numbered first (properties.map (·.row))).foldl o.addStatement d =
      { d with properties := d.properties ++ properties.map fun p => (p.key, .str p.value) } := by
  induction properties generalizing d first with
  | nil => simp [numbered]
  | cons p properties ih =>
      obtain ⟨other, distinct⟩ := List.nodup_cons.mp distinct
      obtain ⟨here, fresh⟩ := List.forall_mem_cons.mp fresh
      have added : o.addStatement d ⟨p.row, first, first, []⟩ =
          { d with properties := d.properties ++ [(p.key, .str p.value)] } := by
        rw [Origin.addStatement_property, Entries.put_of_not_mem here]
      rw [List.map_cons, numbered, List.foldl_cons, added, ih distinct]
      · simp
      · intro q member
        have differs : q.key ≠ p.key := fun same =>
          other (List.mem_map.mpr ⟨q, member, same⟩)
        have absent := fresh q member
        simp only [Entries.keys, List.map_append, List.mem_append] at absent ⊢
        simpa [differs] using absent

/-- So are the notifications. -/
theorem foldl_addStatement_edges (o : Origin) (edges : List WrittenEdge) (d : Declaration)
    (first : Nat) :
    (numbered first (edges.map (·.row))).foldl o.addStatement d =
      { d with notifies := d.notifies ++ edges.map (·.edge) } := by
  induction edges generalizing d first with
  | nil => simp [numbered]
  | cons e edges ih =>
      rw [List.map_cons, numbered, List.foldl_cons, ih, Origin.addStatement_edge]
      simp

/-- The statements of its body make the declaration. -/
theorem foldl_addStatement_body (o : Origin) (first : Nat) :
    (numbered (first + 1) r.body).foldl o.addStatement
        (o.declaration r.type r.argument first (first + r.body.length + 1) []) =
      r.declaration o.file first := by
  have name := resourceName_quoted r.slug.isPlainText r.named r.type first
  have last : max (first + r.body.length + 1) first = first + r.body.length + 1 := by omega
  have split : numbered (first + 1) r.body = numbered (first + 1) (r.properties.map (·.row)) ++
      numbered (first + 1 + r.properties.length) (r.edges.map (·.row)) := by
    simp [body, numbered_append]
  rw [split, List.foldl_append,
    foldl_addStatement_properties o r.properties r.distinct _ (fun _ _ => List.not_mem_nil),
    foldl_addStatement_edges]
  simp only [Origin.declaration, Origin.span, argument, name, last, declaration]
  rfl

/-- The head is read as that of a resource of the type, with the name in quotes as its argument. -/
theorem ofHead_head : CallRole.ofHead r.head = .resource r.type r.argument := by
  rw [head, CallRole.ofHead_quoting r.isType r.slug.isPlainText.isQuotable,
    r.slug.isPlainText.callsLoop_eq]
  rfl

/-- The block of a resource declares it and nothing else, -/
theorem nodeFindings_block (o : Origin) (first : Nat) :
    o.nodeFindings [] (.block (r.block first)) = [.declared (r.declaration o.file first)] := by
  have declares := r.foldl_addStatement_body o first
  exact (nodeFindings_rowBlock r.ofHead_head o [] first).trans (by
    rw [← declares]
    rfl)

/-- and several blocks declare one resource each. -/
theorem nodesFindings_blocks (o : Origin) (first : Nat) (resources : List WrittenResource) :
    o.nodesFindings [] (blocks first resources) =
      (declarations o.file first resources).map .declared := by
  induction resources generalizing first with
  | nil => rfl
  | cons r others ih =>
      rw [blocks, Origin.nodesFindings, nodeFindings_block, ih]
      rfl

end WrittenResource

/-- Extraction undoes rendering: resources that are written one after the other are declared as they
are, with their properties and notifications in order, on the lines they stand on, without guards
and with nothing left over. -/
theorem declarations_extract_render (file : String) (types : List String) (indent : Nat)
    (resources : List WrittenResource) :
    (SourceFile.extract file types (WrittenResource.render indent resources)).declarations =
      WrittenResource.declarations file 1 resources := by
  rw [declarations_extract, findingsOf, WrittenResource.ofLines_render,
    WrittenResource.nodesFindings_blocks, joined_map_declared, List.flatMap_map]
  exact List.flatMap_singleton' _

/-- A template with two properties, of which a service is notified that listens to it as well. -/
def siteResources : List WrittenResource :=
  [{  type := "template"
      name := "/etc/site"
      properties := [⟨"source", "site-conf", ⟨rfl, rfl, by decide⟩, by decide, rfl⟩,
        ⟨"mode", "0644", ⟨rfl, rfl, by decide⟩, by decide, rfl⟩]
      edges := [⟨.notifies, "reload", "service", "nginx", .delayed, rfl, rfl, rfl⟩]
      isType := ⟨⟨rfl, rfl, by decide⟩, rfl, rfl⟩
      named := by decide
      slug := rfl
      distinct := by decide },
    { type := "service"
      name := "nginx"
      properties := []
      edges := [⟨.subscribes, "restart", "template", "/etc/site", .immediate, rfl, rfl, rfl⟩]
      isType := ⟨⟨rfl, rfl, by decide⟩, rfl, rfl⟩
      named := by decide
      slug := rfl
      distinct := by decide }]

/-- The recipe in which they are written. -/
def siteRecipe : List Char :=
  [ "template '/etc/site' do",
    "  source 'site-conf'",
    "  mode '0644'",
    "  notifies :reload, 'service[nginx]', :delayed",
    "end",
    "service 'nginx' do",
    "  subscribes :restart, 'template[/etc/site]', :immediately",
    "end" ].flatMap (·.toList ++ ['\n'])

/-- Each declaration holds what was written, on the lines that it takes. -/
theorem declarations_extract_render_siteResources :
    (SourceFile.extract "recipes/default.rb" [] siteRecipe).declarations =
      [{  type := "template", name := "/etc/site"
          properties := [("source", .str "site-conf"), ("mode", .str "0644")], guards := []
          notifies := [⟨"service[nginx]", "reload", .delayed, .notifies⟩]
          span := ⟨"recipes/default.rb", 1, 5⟩, unparsed := [], unfinished := false },
        { type := "service", name := "nginx", properties := [], guards := []
          notifies := [⟨"template[/etc/site]", "restart", .immediate, .subscribes⟩]
          span := ⟨"recipes/default.rb", 6, 8⟩, unparsed := [], unfinished := false }] := by
  have written : siteRecipe = WrittenResource.render 2 siteResources := by decide +kernel
  rw [written, declarations_extract_render]
  simp [siteResources, WrittenResource.declarations, WrittenResource.declaration,
    WrittenResource.body, WrittenEdge.edge, WrittenEdge.target]

end Rolewright.Recipe
