/-
# Recipes row by row

A recipe written in rows, each the head of a resource, an entry of its body, an `end`, or blank.
Whatever the quoted texts are, its logical lines are known (`statements_rows`), and so are the part
that each of them plays and what an entry stands for that is in no body
(`map_bare_lineFindings`). A text that opens a heredoc takes all the rows that follow it, as none
of them can end a heredoc.
-/

import Mathlib.Data.List.TakeWhile
import Rolewright.Proofs.Recipe.Findings
import Rolewright.Proofs.Recipe.Outline
import Rolewright.Proofs.Recipe.Roles
import Rolewright.Proofs.Recipe.Spelling
import Rolewright.Proofs.Text.Parts

namespace Rolewright.Recipe

open Text

/-! ## Rows -/

/-- A text that may stand in single quotes: it holds no quotes, backslashes, comment signs or line
feeds. -/
structure Quoted where
  text : List Char
  some : text ≠ []
  isQuotable : IsQuotable text
  doubleQuote : '"' ∉ text
  comment : '#' ∉ text

/-- A word and a text in quotes behind it. -/
def sentence (word : String) (s : Quoted) : List Char :=
  quoting (word.toList ++ [' ']) s.text []

/-- A row of a recipe. -/
inductive Row where
  | blank
  /-- The head of a resource, `type 'name' do`. -/
  | head (type : String) (isType : IsType type) (name : Quoted)
  /-- An entry of a body, `key 'text'`. -/
  | entry (key : String) (isHead : IsHead key.toList) (text : Quoted)
  /-- An `end`. -/
  | close

namespace Row

/-- The code of a row. -/
def text : Row → List Char
  | blank => []
  | head type _ name => quoting (type.toList ++ [' ']) name.text " do".toList
  | entry key _ text => sentence key text
  | close => "end".toList

/-- The heredocs that the quoted text of a row opens. -/
def heredocs : Row → List Heredoc
  | head _ _ s | entry _ _ s => Heredoc.opened s.text
  | blank | close => []

/-- A row as it is written. Entries are indented. -/
def written (indent : Nat) : Row → List Char
  | entry key isHead text => indented indent (Row.entry key isHead text).text
  | row => row.text

/-- The text of a recipe. -/
def source (indent : Nat) (rows : List Row) : List Char :=
  (rows.map (written indent)).flatMap (· ++ ['\n'])

/-- The logical lines of a recipe, if its first row has this number. -/
def lines (indent : Nat) : Nat → List Row → List Line
  | _, [] => []
  | number, blank :: rows => lines indent (number + 1) rows
  | number, row :: rows =>
    if row.heredocs = [] then ⟨row.text, number, number, []⟩ :: lines indent (number + 1) rows
    else
      [⟨row.text, number, number + rows.length,
        (takeBodies row.heredocs (rows.map (written indent))).1⟩]

end Row

theorem Row.lines_cons {row : Row} (calm : row.heredocs = []) (solid : row ≠ .blank)
    (indent number : Nat) (rows : List Row) :
    Row.lines indent number (row :: rows) =
      ⟨row.text, number, number, []⟩ :: Row.lines indent (number + 1) rows := by
  rw [Row.lines, if_pos calm]
  exact solid

/-- A row that opens a heredoc is the last line. -/
theorem Row.lines_of_opens {row : Row} (opens : row.heredocs ≠ []) (indent number : Nat)
    (rows : List Row) :
    Row.lines indent number (row :: rows) =
      [⟨row.text, number, number + rows.length,
        (takeBodies row.heredocs (rows.map (Row.written indent))).1⟩] := by
  rw [Row.lines, if_neg opens]
  rintro rfl
  exact opens rfl

/-! ## Rows are statements -/

section Statements

variable {row : Row}

theorem IsHead.isStatement_sentence {word : String} (head : IsHead word.toList) (s : Quoted) :
    IsStatement (sentence word s) :=
  head.isStatement isFlat_nil isFlat_nil s.isQuotable (by decide)

theorem Row.isStatement (solid : row ≠ .blank) : IsStatement row.text := by
  cases row with
  | blank => exact absurd rfl solid
  | head type isType name =>
      exact isType.isStatement isFlat_nil (by decide) name.isQuotable (by decide)
  | entry key isHead text => exact isHead.isStatement_sentence text
  | close => exact isRow_end.toIsStatement

theorem Row.opened_text (row : Row) : Heredoc.opened row.text = row.heredocs := by
  cases row with
  | blank => rfl
  | head type isType name =>
      exact Heredoc.opened_quoting _ _ (isType.isFlat_append isFlat_nil) (by decide) rfl
  | entry key isHead text =>
      exact Heredoc.opened_quoting _ _ (isHead.isFlat_append isFlat_nil) isFlat_nil rfl
  | close => exact isRow_end.plain

/-- A row is written with some indentation. -/
theorem Row.exists_indented (row : Row) (indent : Nat) :
    ∃ n, row.written indent = indented n row.text := by
  cases row with
  | entry key isHead text => exact ⟨indent, rfl⟩
  | blank | head | close => exact ⟨0, rfl⟩

theorem Row.trim_written (row : Row) (indent : Nat) : trim (row.written indent) = row.text := by
  by_cases solid : row = .blank
  · rw [solid]
    rfl
  · obtain ⟨n, same⟩ := row.exists_indented indent
    rw [same, indented, (Row.isStatement solid).solid.trim_indented]

theorem Row.isLine_written (row : Row) (indent : Nat) :
    '\n' ∉ row.written indent ∧ (row.written indent).getLast? ≠ some '\r' := by
  by_cases solid : row = .blank
  · rw [solid]
    exact ⟨List.not_mem_nil, nofun⟩
  · obtain ⟨n, same⟩ := row.exists_indented indent
    rw [same]
    exact (Row.isStatement solid).isLine_indented n

theorem Row.lines_source (indent : Nat) (rows : List Row) :
    Text.lines (source indent rows) = rows.map (written indent) := by
  refine lines_flatMap fun line member => ?_
  obtain ⟨row, -, rfl⟩ := List.mem_map.mp member
  exact row.isLine_written indent

end Statements

/-! ## Heredocs take all -/

namespace Heredoc

variable {code tag : List Char} {heredoc : Heredoc}

/-- The tag of a heredoc: capitals, digits and underscores. -/
def IsTag (tag : List Char) : Prop :=
  tag ≠ [] ∧ ∀ c ∈ tag, tagInner c = true

theorem isTag_of_opener? {flag quote : Option Char} {size : Nat}
    (found : opener? code = some (flag, quote, tag, size)) : IsTag tag := by
  unfold opener? at found
  split at found
  · dsimp only at found
    split at found
    · rename_i taken
      cases found
      obtain ⟨c, cs, -, starts, rfl, -⟩ := exists_of_takeIdent taken
      refine ⟨List.cons_ne_nil _ _, List.forall_mem_cons.mpr ⟨?_, ?_⟩⟩
      · simp only [tagStart, tagInner, Bool.or_eq_true] at starts ⊢
        exact starts.imp_left .inl
      · exact fun d member => List.mem_takeWhile_imp member
    · cases found
  · cases found

theorem isTag_of_mem_openedAfter {skip : Nat} (member : heredoc ∈ openedAfter skip code) :
    IsTag heredoc.tag := by
  induction code generalizing skip with
  | nil => cases skip <;> cases member
  | cons c cs ih =>
      cases skip with
      | succ skip => exact ih member
      | zero =>
          rw [openedAfter] at member
          split at member
          · rename_i flag quote tag size found
            dsimp only at member
            split at member
            · rcases List.mem_cons.mp member with rfl | later
              · exact isTag_of_opener? found
              · exact ih later
            · exact ih member
          · exact ih member

end Heredoc

theorem Row.isTag_of_mem_heredocs {row : Row} {heredoc : Heredoc}
    (member : heredoc ∈ row.heredocs) : Heredoc.IsTag heredoc.tag := by
  rw [← row.opened_text] at member
  exact Heredoc.isTag_of_mem_openedAfter member

/-- No row ends a heredoc. -/
theorem Row.not_isTag_text (row : Row) : ¬ Heredoc.IsTag row.text := by
  rintro ⟨some, tag⟩
  cases row with
  | blank => exact some rfl
  | head type isType name =>
      have member : '\'' ∈ (Row.head type isType name).text := by
        simp [Row.text, quoting]
      exact absurd (tag _ member) (by decide)
  | entry key isHead text =>
      have member : '\'' ∈ (Row.entry key isHead text).text := by
        simp [Row.text, sentence, quoting]
      exact absurd (tag _ member) (by decide)
  | close =>
      have member : 'e' ∈ Row.close.text := by decide
      exact absurd (tag _ member) (by decide)

theorem takeBody_snd {tag : List Char} {rows : List (List Char)}
    (none : ∀ row ∈ rows, trim row ≠ tag) : (takeBody tag rows).2 = [] := by
  induction rows with
  | nil => rfl
  | cons row rows ih =>
      obtain ⟨here, later⟩ := List.forall_mem_cons.mp none
      rw [takeBody, if_neg here]
      exact ih later

theorem takeBodies_nil_snd (heredocs : List Heredoc) : (takeBodies heredocs []).2 = [] :=
  List.eq_nil_of_length_eq_zero (Nat.le_zero.mp (takeBodies_length heredocs []))

/-- A heredoc that is never ended takes all the rows. -/
theorem takeBodies_snd {heredocs : List Heredoc} {rows : List (List Char)}
    (some : heredocs ≠ []) (none : ∀ heredoc ∈ heredocs, ∀ row ∈ rows, trim row ≠ heredoc.tag) :
    (takeBodies heredocs rows).2 = [] := by
  cases heredocs with
  | nil => exact absurd rfl some
  | cons heredoc others =>
      rw [takeBodies]
      dsimp only
      rw [takeBody_snd (none heredoc (.head _))]
      exact takeBodies_nil_snd others

/-- A statement whose heredocs take all the rows is the last one. -/
theorem IsStatement.statements_eq_singleton {text : List Char} (statement : IsStatement text)
    (indent : Nat) {rows : List (List Char)}
    (all : (takeBodies (Heredoc.opened (indented indent text)) rows).2 = []) (number : Nat) :
    statements number (indented indent text :: rows) =
      [⟨text, number, number + rows.length,
        (takeBodies (Heredoc.opened (indented indent text)) rows).1⟩] := by
  rw [(statement.isAlone indent).statements_eq, all, List.length_nil, Nat.sub_zero, statements]

/-- The logical lines of a recipe. -/
theorem statements_rows (indent number : Nat) (rows : List Row) :
    statements number (rows.map (Row.written indent)) = Row.lines indent number rows := by
  induction rows generalizing number with
  | nil => rw [List.map_nil, statements, Row.lines]
  | cons row rows ih =>
      by_cases solid : row = .blank
      · rw [solid, Row.lines]
        exact (statements_blank _ _).trans (ih _)
      · obtain ⟨n, same⟩ := row.exists_indented indent
        have opens : Heredoc.opened (indented n row.text) = row.heredocs := by
          rw [Heredoc.opened_indented, row.opened_text]
        have statement := Row.isStatement solid
        rw [List.map_cons, same]
        by_cases calm : row.heredocs = []
        · rw [(statement.isAlone n).statements_cons (opens.trans calm), ih,
            Row.lines_cons calm solid]
        · have all : (takeBodies (Heredoc.opened (indented n row.text))
              (rows.map (Row.written indent))).2 = [] := by
            rw [opens]
            refine takeBodies_snd calm fun heredoc among line member => ?_
            obtain ⟨other, -, rfl⟩ := List.mem_map.mp member
            rw [other.trim_written]
            intro ends
            exact other.not_isTag_text (ends ▸ Row.isTag_of_mem_heredocs among)
          rw [statement.statements_eq_singleton n all, opens, List.length_map,
            Row.lines_of_opens calm]

theorem Line.ofSource_rows (indent : Nat) (rows : List Row) :
    Line.ofSource (Row.source indent rows) = Row.lines indent 1 rows := by
  rw [Line.ofSource, Row.lines_source, statements_rows]

/-! ## The part that a row plays -/

section Parts

variable {type key word : String} {name : Quoted}

theorem ofText_head (isType : IsType type) (name : Quoted) :
    LineRole.ofText (Row.head type isType name).text =
      .opens (.call (sentence type name) none) [] :=
  isType.ofText_eq_opens name.isQuotable

theorem ofText_entry (isHead : IsHead key.toList) (s : Quoted) :
    LineRole.ofText (sentence key s) =
      if assignsBlock s.text then .opens .sealed (sentence key s) else .statement := by
  split
  · rename_i loud
    exact isHead.ofText_eq_sealed loud
  · rename_i calm
    exact isHead.ofText_eq_statement isFlat_nil isFlat_nil (Bool.eq_false_iff.mpr calm) rfl rfl
      (by decide) (by decide)

theorem ofText_close : LineRole.ofText Row.close.text = .ends none := by
  decide

/-- The argument of a head. -/
def Quoted.argument (s : Quoted) : List Char :=
  '\'' :: (s.text ++ ['\''])

theorem sentence_eq (word : String) (s : Quoted) :
    sentence word s = word.toList ++ ' ' :: s.argument :=
  quoting_word _ _

/-- A block that a head opens. -/
def headBlock (type : String) (name : Quoted) (header : Line) (children : List Node) (last : Nat)
    (closed : Bool) : Block :=
  ⟨.call (sentence type name) none, header, [⟨.body, [], header.first, children⟩], last, closed,
    none⟩

theorem callRole_sentence (isType : IsType type) (name : Quoted) :
    CallRole.ofHead (sentence type name) =
      if callsLoop name.text then .loop else .resource type name.argument :=
  CallRole.ofHead_quoting isType name.isQuotable

variable (o : Origin) (guards : List Guard) (header : Line) (children : List Node) (last : Nat)
  (closed : Bool)

theorem topResource?_headBlock (isType : IsType type) (name : Quoted) :
    Origin.topResource? (headBlock type name header children last closed) =
      if callsLoop name.text then none else some (type, name.argument) := by
  rw [Origin.topResource?, headBlock]
  dsimp only
  rw [callRole_sentence isType]
  split_ifs <;> rfl

/-- In the body of a resource a head is a resource, whatever its name is. -/
theorem nestedResource?_headBlock (isType : IsType type) (name : Quoted) :
    o.nestedResource? (headBlock type name header children last closed) =
      some (type, name.argument) := by
  have word : leadingWord (sentence type name) = type.toList :=
    isType.leadingWord_eq [] name.text []
  have resource : type ∉ nonResources := by
    simpa using isType.resource
  have other (known : String) (member : known ∈ nonResources) : type.toList ≠ known.toList :=
    fun same => resource (String.toList_inj.mp same ▸ member)
  have parts : Value.split ',' name.argument = [name.argument] :=
    Value.split_quoted name.isQuotable
  have value : Value.parse name.argument = .str (String.ofList name.text) :=
    Value.parse_quoted name.isQuotable
  have header : resourceHeader? (sentence type name) = some (type, name.argument) :=
    resourceHeader?_quoting isType.starts isType.lower name.isQuotable
  unfold Origin.nestedResource?
  simp only [headBlock, word, other "only_if" (by decide), other "not_if" (by decide), header,
    parts, List.head?_cons, Option.getD_some, value]
  simp [resource]

/-- What a head gives by itself: a resource, or the conditions of a loop. -/
theorem map_bare_nodeFindings_headBlock (isType : IsType type) (name : Quoted) :
    (o.nodeFindings guards (.block (headBlock type name header children last closed))).map
        Finding.bare =
      if callsLoop name.text then
        (o.nodesFindings (guards ++ [⟨.loop, String.ofList (sentence type name)⟩]) children).map
          Finding.bare
      else
        Finding.ofHead type (o.span header.first last) ::
          (o.innerNodes guards children).map Finding.bare := by
  have top := topResource?_headBlock header children last closed isType name
  have none : modifierGuards none = [] := rfl
  split_ifs at top ⊢ with loud
  · have role := callRole_sentence isType name
    rw [if_pos loud] at role
    have plain : BlockOf.IsPlain (headBlock type name header children last closed) :=
      ⟨top, by simp [headBlock]⟩
    have scopes : Origin.scopes (headBlock type name header children last closed) =
        [[⟨.loop, String.ofList (sentence type name)⟩]] := by
      rw [Origin.scopes, headBlock]
      dsimp only
      rw [role]
      rfl
    rw [Origin.nodeFindings_of_isPlain plain, scopes]
    simp [headBlock, none, Origin.branchFindings]
  · rw [Origin.nodeFindings_of_resource top, List.map_cons, Origin.bare_blockDeclaration]
    simp [headBlock, none, Origin.innerBranches]

theorem map_bare_innerFindings_headBlock (isType : IsType type) (name : Quoted) :
    (o.innerFindings guards (.block (headBlock type name header children last closed))).map
        Finding.bare =
      Finding.ofHead type (o.span header.first last) ::
        (o.innerNodes guards children).map Finding.bare := by
  rw [Origin.innerFindings_block, nestedResource?_headBlock o header children last closed isType]
  dsimp only
  rw [List.map_cons, Origin.bare_blockDeclaration]
  simp [headBlock, Origin.innerBranches]

end Parts

/-! ## Entries in no body -/

section Entries

variable {word mark others after rest : List Char} {key : String}

/-- What follows a mark that stands at the start of a row, if the mark has no blanks. -/
theorem exists_of_afterPrefix?_append (solid : ' ' ∉ mark)
    (found : afterPrefix? mark (word ++ ' ' :: after) = some rest) :
    ∃ others, word = mark ++ others ∧ rest = others ++ ' ' :: after := by
  have split : mark ++ rest = word ++ ' ' :: after :=
    List.isPrefixOf?_eq_some_iff_append_eq.mp found
  exact exists_append_of_not_mem split solid

/-- Behind a word stands a quoted text, or more of the word. -/
theorem trimStart_word (inner : others.all isAsciiWord = true) (s : Quoted) :
    others = [] ∧ trimStart (others ++ ' ' :: s.argument) = s.argument ∨
      ∃ c cs, isAsciiWord c = true ∧ trimStart (others ++ ' ' :: s.argument) = c :: cs := by
  cases others with
  | nil => exact .inl ⟨rfl, rfl⟩
  | cons c cs =>
      have here : isAsciiWord c = true := List.all_eq_true.mp inner c (.head _)
      exact .inr ⟨c, _, here, trimStart_cons_of_not_blank (isBlank_of_isAsciiWord here)⟩

/-- A word and a quoted text have one gap, between them. -/
theorem gaps_sentence (inner : key.toList.all isAsciiWord = true) (s : Quoted) :
    gaps (sentence key s) = [⟨key.toList, s.argument⟩] := by
  have word : GapScan.Passes 0 key.toList := GapScan.passes_atom (all_isAtomChar inner)
  have quoted : GapScan.Passes 0 s.argument := GapScan.passes_quoted s.isQuotable
  have none (read : List Char) : gapsFrom .start read s.argument = [] := by
    have passed := quoted read []
    rwa [List.append_nil] at passed
  rw [sentence_eq, gaps]
  refine (word [] _).trans ?_
  rw [gapsFrom]
  change ⟨(key.toList.reverse ++ []).reverse, s.argument⟩ :: gapsFrom .start _ _ = _
  rw [none]
  simp

variable (s : Quoted)

theorem splitModifier_sentence (inner : key.toList.all isAsciiWord = true) :
    splitModifier (sentence key s) = (sentence key s, none) := by
  rw [splitModifier, gaps_sentence inner, List.findSome?_cons]
  rfl

theorem splitInlineBlock?_sentence : splitInlineBlock? (sentence key s) = none := by
  have last : (sentence key s).getLast? = some '\'' := getLast?_quoting _ _
  have ends : beforeSuffix? "end".toList (sentence key s) = none := by
    cases found : beforeSuffix? "end".toList (sentence key s) with
    | none => rfl
    | some before =>
        rw [← List.isSuffixOf?_eq_some_iff_append_eq.mp found, List.getLast?_append] at last
        cases last
  rw [splitInlineBlock?, ends]
  rfl

/-- Behind a word, and behind more of it, there is no index. -/
theorem indexKeys?_word (inner : others.all isAsciiWord = true) (fuel : Nat) :
    indexKeys? fuel (others ++ ' ' :: s.argument) = none := by
  cases fuel with
  | zero => rfl
  | succ fuel =>
      rcases trimStart_word inner s with ⟨-, start⟩ | ⟨c, cs, here, start⟩
      · rw [indexKeys?, start]
        rfl
      · have other : c ≠ '[' := by
          rintro rfl
          cases here
        rw [indexKeys?, start]
        split
        · rename_i same
          exact absurd (List.cons.inj same).1 other
        · rfl

theorem withoutPrefix_node_sentence (inner : key.toList.all isAsciiWord = true) :
    withoutPrefix "node.".toList (sentence key s) = sentence key s := by
  rw [withoutPrefix, sentence_eq]
  cases found : afterPrefix? "node.".toList (key.toList ++ ' ' :: s.argument) with
  | none => rfl
  | some rest =>
      obtain ⟨others, same, -⟩ := exists_of_afterPrefix?_append (by decide) found
      have member : '.' ∈ key.toList := same ▸ List.mem_append_left _ (by decide)
      exact absurd (List.all_eq_true.mp inner _ member) (by decide)

theorem attributeAssignment?_sentence (inner : key.toList.all isAsciiWord = true) :
    attributeAssignment? (sentence key s) = none := by
  rw [attributeAssignment?]
  dsimp only
  rw [withoutPrefix_node_sentence s inner, List.findSome?_eq_none_iff]
  intro level known
  cases found : afterPrefix? level (sentence key s) with
  | none => rfl
  | some rest =>
      have solid : ∀ level ∈ precedenceLevels, ' ' ∉ level := by decide
      rw [sentence_eq] at found
      obtain ⟨others, same, rfl⟩ := exists_of_afterPrefix?_append (solid level known) found
      rw [same, List.all_append] at inner
      simp [indexKeys?_word s ((Bool.and_eq_true _ _).mp inner).2]

theorem looselyQuoted?_argument : looselyQuoted? s.argument = some (s.text, []) := by
  have inside : ∀ c ∈ s.text, (c != '\'' && c != '"') = true := by
    intro c member
    have quote : c ≠ '\'' := fun same => s.isQuotable.quote (same ▸ member)
    have double : c ≠ '"' := fun same => s.doubleQuote (same ▸ member)
    simp [quote, double]
  have text : (s.text ++ ['\'']).takeWhile (fun c => c != '\'' && c != '"') = s.text := by
    rw [List.takeWhile_append_of_pos inside]
    exact List.append_nil _
  rw [Quoted.argument, looselyQuoted?]
  simp [text]

/-- More of a word is no quoted text. -/
theorem looselyQuoted?_word {c : Char} {cs : List Char} (word : isAsciiWord c = true) :
    looselyQuoted? (trimStart (withoutPrefix ['('] (c :: cs))) = none := by
  have other {d : Char} (none : isAsciiWord d = false) : c ≠ d := ne_of_kind word none
  have bracket : c ≠ '(' := other (by decide)
  have bare : withoutPrefix ['('] (c :: cs) = c :: cs :=
    withoutPrefix_cons_eq_self (by simpa using bracket) []
  have quote : c ≠ '\'' := other (by decide)
  have double : c ≠ '"' := other (by decide)
  rw [bare, trimStart_cons_of_not_blank (isBlank_of_isAsciiWord word)]
  simp [looselyQuoted?, quote, double]

/-- An entry with this one key includes a recipe. -/
theorem includedRecipe?_sentence (inner : key.toList.all isAsciiWord = true) :
    includedRecipe? (sentence key s) =
      if key = "include_recipe" then some (String.ofList s.text) else none := by
  rw [sentence_eq, includedRecipe?]
  cases found : afterPrefix? "include_recipe".toList (key.toList ++ ' ' :: s.argument) with
  | none =>
      have other : key ≠ "include_recipe" := by
        rintro rfl
        cases found
      simp [other]
  | some rest =>
      obtain ⟨others, same, rfl⟩ := exists_of_afterPrefix?_append (by decide) found
      rw [same, List.all_append] at inner
      have start := trimStart_word ((Bool.and_eq_true _ _).mp inner).2 s
      simp only [Option.bind_eq_bind, Option.bind_some]
      rcases start with ⟨rfl, start⟩ | ⟨c, cs, here, start⟩
      · have whole : key = "include_recipe" :=
          String.toList_inj.mp (same.trans (List.append_nil _))
        have bare : trimStart (withoutPrefix ['('] s.argument) = s.argument := rfl
        rw [start, bare, looselyQuoted?_argument]
        simp [whole, s.some]
      · have longer : key ≠ "include_recipe" := by
          rintro rfl
          have none : others = [] := List.self_eq_append_right.mp same
          rw [none] at start
          cases start
          cases here
        rw [start, looselyQuoted?_word here]
        simp [longer]

theorem variableAssignment?_sentence (starts : key.toList.head?.any isNameStart = true)
    (inner : key.toList.all isAsciiWord = true) :
    variableAssignment? (sentence key s) = none := by
  rw [sentence_eq, variableAssignment?, takeIdent_append starts inner (by decide)]
  rfl

/-- A word that goes on has no argument. -/
theorem argument?_word {c : Char} {cs : List Char} (word : isAsciiWord c = true) :
    argument? (c :: cs) = none := by
  have bracket : c ≠ '(' := by
    rintro rfl
    cases word
  rw [argument?, trimStart_cons_of_not_blank (isBlank_of_isAsciiWord word)]
  simp [parenthesized?, bracket]

theorem exists_dropWhile_append {α : Type} {p : α → Bool} {xs : List α}
    (other : ¬xs.all p = true) (ys : List α) :
    ∃ z zs, z ∈ xs ∧ (xs ++ ys).dropWhile p = z :: zs := by
  rw [List.dropWhile_append]
  cases left : xs.dropWhile p with
  | nil => exact absurd (List.all_eq_true.mpr (List.dropWhile_eq_nil_iff.mp left)) other
  | cons z zs =>
      have member : z ∈ xs := (List.dropWhile_suffix p).subset (left ▸ List.mem_cons_self)
      exact ⟨z, zs ++ ys, member, rfl⟩

/-- An entry is the head of a resource if its key may be a type. -/
theorem resourceHeader?_sentence (starts : key.toList.head?.any isNameStart = true)
    (inner : key.toList.all isAsciiWord = true) :
    resourceHeader? (sentence key s) =
      if key.toList.all (fun c => c.isLower || c.isDigit || c == '_') then some (key, s.argument)
      else none := by
  split
  · rename_i lower
    exact resourceHeader?_quoting starts lower s.isQuotable
  · rename_i upper
    rw [sentence_eq, resourceHeader?]
    cases word : key.toList with
    | nil =>
        rw [word] at starts
        cases starts
    | cons c cs =>
        rw [word] at upper starts inner
        have first : isNameStart c = true := starts
        have other : ¬cs.all (fun c => c.isLower || c.isDigit || c == '_') = true := by
          intro lower
          refine upper (List.all_cons.trans ((Bool.and_eq_true _ _).mpr ⟨?_, lower⟩))
          simp only [isNameStart, Bool.or_eq_true] at first ⊢
          exact first.imp_left .inl
        -- the first character that no type has ends the word, and no blank follows it
        obtain ⟨d, ds, member, rest⟩ := exists_dropWhile_append other (' ' :: s.argument)
        have goesOn : isAsciiWord d = true := List.all_eq_true.mp inner d (.tail _ member)
        rw [List.cons_append, takeIdent, if_pos first, rest]
        simp only [Option.bind_eq_bind, Option.bind_some, argument?_word goesOn,
          Option.bind_none]

/-- What an entry stands for where it is in no body: a recipe that is included, a resource, or
nothing that is understood. Its text has no say in it. -/
def entryFinding (o : Origin) (key : String) (guards : List Guard) (first last : Nat) : Finding :=
  if key = "include_recipe" then .included ""
  else if key.toList.all (fun c => c.isLower || c.isDigit || c == '_') && o.knows key then
    .ofHead key (o.span first last)
  else .unknown first last guards

/-- The finding of an entry that is in no body. -/
theorem lineFindings_sentence (o : Origin) (guards : List Guard) (first last : Nat)
    (heredocs : List (List Char)) (starts : key.toList.head?.any isNameStart = true)
    (inner : key.toList.all isAsciiWord = true) :
    let line : Line := ⟨sentence key s, first, last, heredocs⟩
    o.lineFindings guards line =
      [if key = "include_recipe" then .included (String.ofList s.text)
        else if key.toList.all (fun c => c.isLower || c.isDigit || c == '_') && o.knows key then
          .declared (o.shortDeclaration line key s.argument guards)
        else .unknown first last guards] := by
  intro line
  have outer : guards ++ modifierGuards none = guards := List.append_nil _
  rw [Origin.lineFindings, Origin.statementFindings, splitModifier_sentence s inner]
  dsimp only
  rw [splitInlineBlock?_sentence]
  dsimp only
  rw [Origin.plainFindings, attributeAssignment?_sentence s inner,
    variableAssignment?_sentence s starts inner, resourceHeader?_sentence s starts inner,
    includedRecipe?_sentence s inner, outer]
  by_cases includes : key = "include_recipe"
  · simp only [if_pos includes]
  · simp only [if_neg includes]
    by_cases lower : key.toList.all (fun c => c.isLower || c.isDigit || c == '_') = true
    · rw [if_pos lower, lower, Bool.true_and]
      dsimp only
      split <;> rfl
    · rw [if_neg lower, Bool.eq_false_iff.mpr lower]
      rfl

theorem map_bare_lineFindings (isHead : IsHead key.toList) (s : Quoted) (o : Origin)
    (guards : List Guard) (first last : Nat) (heredocs : List (List Char)) :
    (o.lineFindings guards ⟨sentence key s, first, last, heredocs⟩).map .bare =
      [entryFinding o key guards first last] := by
  rw [lineFindings_sentence s o guards first last heredocs isHead.starts isHead.inner,
    List.map_singleton, entryFinding]
  split_ifs
  · rfl
  · exact congrArg (fun finding => [finding]) (Origin.bare_shortDeclaration ..)
  · rfl

end Entries

end Rolewright.Recipe
