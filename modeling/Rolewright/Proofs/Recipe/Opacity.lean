/-
# The bodies of heredocs are opaque

A block of a resource that holds one heredoc declares that resource, and whatever follows the block
is extracted as if the heredoc had another body: of what is declared nothing but the value of the
property and line numbers depends on the body (`declarations_opaque`). So no row of a body ends the
block, opens one, or is taken for a comment, a quote or a bracket.

The block is given by its rows (`Script`); the body is any rows between them but the tag.
-/

import Rolewright.Proofs.Recipe.Displacement
import Rolewright.Proofs.Recipe.Heredocs
import Rolewright.Proofs.Recipe.Indentation

namespace Rolewright

namespace Text

/-! ## Rows put together -/

variable {row : List Char}

theorem lines_eq_singleton (solid : row ≠ []) (whole : '\n' ∉ row) : lines row = [row] := by
  induction row with
  | nil => exact absurd rfl solid
  | cons c cs ih =>
      have inside : '\n' ∉ cs := fun member => whole (.tail _ member)
      have other : c ≠ '\n' := fun same => whole (same ▸ .head _)
      cases cs with
      | nil =>
          rw [lines, lines]
          · exact other
          · exact fun _ _ same => List.cons_ne_nil _ _ same.symm
      | cons d ds =>
          have next : d ≠ '\n' := fun same => inside (same ▸ .head _)
          rw [lines, ih (List.cons_ne_nil d ds) inside]
          · exact other
          · exact fun _ _ same => next (List.cons.inj same).1

/-- A row ends with its text or with a line feed. -/
theorem lines_append_of_follows {after : List Char} (solid : row ≠ []) (whole : '\n' ∉ row)
    (ends : row.getLast? ≠ some '\r') (follows : after = [] ∨ after.head? = some '\n') :
    lines (row ++ after) = row :: lines (after.drop 1) := by
  rcases follows with rfl | next
  · rw [List.append_nil, lines_eq_singleton solid whole]
    rfl
  · obtain ⟨rest, rfl⟩ := List.head?_eq_some_iff.mp next
    exact lines_append_cons whole ends

end Text

namespace Recipe

open Text

/-! ## Blocks that hold a heredoc -/

/-- Rows that may be the body of a heredoc with this tag. -/
def IsBody (tag : List Char) (body : List (List Char)) : Prop :=
  ∀ row ∈ body, '\n' ∉ row ∧ '\r' ∉ row ∧ trim row ≠ tag

instance (tag : List Char) (body : List (List Char)) : Decidable (IsBody tag body) :=
  List.decidableBAll (fun row => '\n' ∉ row ∧ '\r' ∉ row ∧ trim row ≠ tag) body

/-- A block of a resource that holds one property with a heredoc, without the body of the heredoc.
Its header is a text that leaves nothing open and is read as one line; of its other rows any may
stand between blanks. -/
structure Script where
  property : HeredocProperty
  header : List Char
  line : Line
  head : List Char
  params : Option (List Char)
  type : String
  argument : List Char
  opening : List Char
  closing : List Char
  ending : List Char
  broken : header.getLast? = some '\n'
  settled : isSettled (lines header) = true
  reads : Line.ofSource header = [line]
  opens : LineRole.ofText line.text = .opens (.call head params) []
  resource : CallRole.ofHead head = .resource type argument
  trim_opening : trim opening = property.text
  trim_closing : trim closing = property.opener.tag
  trim_ending : trim ending = "end".toList
  whole : ∀ row ∈ [opening, closing, ending], '\n' ∉ row ∧ row.getLast? ≠ some '\r'

namespace Script

variable (s : Script)

/-- The block with a body, and what follows its `end`. -/
def source (body : List (List Char)) (after : List Char) : List Char :=
  s.header ++ ((s.opening :: (body ++ [s.closing])).flatMap (· ++ ['\n']) ++ (s.ending ++ after))

/-- How many rows the block has with a body. -/
def height (body : List (List Char)) : Nat :=
  (lines s.header).length + body.length + 3

/-- The statement of its heredoc. -/
def entry (body : List (List Char)) : Line :=
  ⟨s.property.text, (lines s.header).length + 1, (lines s.header).length + body.length + 2,
    [s.property.opener.held body]⟩

def block (body : List (List Char)) : Block :=
  ⟨.call s.head s.params, s.line, [⟨.body, [], s.line.first, [.statement (s.entry body)]⟩],
    s.height body, true, none⟩

/-- What the block declares, if the heredoc stands for a value. -/
def declaration (file : String) (body : List (List Char)) (value : List Char) : Declaration where
  type := s.type
  name := resourceName s.argument s.type s.line.first
  properties := [(s.property.key, .str (String.ofList value))]
  guards := []
  notifies := []
  span := ⟨file, s.line.first, s.height body⟩
  unparsed := []
  unfinished := false

variable {body : List (List Char)} {after : List Char}

theorem lines_source (isBody : IsBody s.property.opener.tag body)
    (follows : after = [] ∨ after.head? = some '\n') :
    lines (s.source body after) =
      (lines s.header ++ s.opening :: (body ++ [s.closing, s.ending])) ++ lines (after.drop 1) := by
  have solid : s.ending ≠ [] := by
    intro none
    have trimmed := s.trim_ending
    rw [none] at trimmed
    cases trimmed
  have rows : ∀ row ∈ s.opening :: (body ++ [s.closing]),
      '\n' ∉ row ∧ row.getLast? ≠ some '\r' := by
    refine List.forall_mem_cons.mpr ⟨s.whole _ (by simp), List.forall_mem_append.mpr ⟨?_, ?_⟩⟩
    · exact fun row member => ⟨(isBody row member).1, fun last =>
        (isBody row member).2.1 (List.mem_of_getLast? last)⟩
    · exact List.forall_mem_singleton.mpr (s.whole _ (by simp))
  have ending := s.whole s.ending (by simp)
  rw [source, lines_append s.broken, lines_flatMap_append rows,
    lines_append_of_follows solid ending.1 ending.2 follows]
  simp

theorem isCode_ending : IsCode (trim s.ending) := by
  rw [s.trim_ending]
  exact ⟨⟨rfl, rfl⟩, Scan.keeps_flat (by decide), by decide, by decide⟩

theorem opened_ending : Heredoc.opened s.ending = [] := by
  refine Heredoc.opened_eq_nil ?_
  rw [s.trim_ending]
  decide

/-- The block is read by itself, and so is what follows it. -/
theorem ofSource_source (isBody : IsBody s.property.opener.tag body)
    (follows : after = [] ∨ after.head? = some '\n') :
    Line.ofSource (s.source body after) =
      [s.line, s.entry body, ⟨"end".toList, s.height body, s.height body, []⟩] ++
        (Line.ofSource (after.drop 1)).map (Line.renumber (· + s.height body)) := by
  have header : statements 1 (lines s.header) = [s.line] := s.reads
  have code : IsCode (trim s.opening) := by
    rw [s.trim_opening]
    exact s.property.isCode
  have entry (rest : List (List Char)) := statements_opener code s.property.not_mem_before
    s.trim_opening (fun row member => (isBody row member).2.2) s.trim_closing
    (1 + (lines s.header).length) rest
  have rows : lines s.header ++ s.opening :: (body ++ [s.closing, s.ending]) ++
      lines (after.drop 1) = lines s.header ++
        s.opening :: (body ++ s.closing :: (s.ending :: lines (after.drop 1))) := by simp
  have last : 1 + (lines s.header).length + body.length + 1 =
      (lines s.header).length + body.length + 2 := by omega
  have next : 1 + (lines s.header).length + body.length + 2 = s.height body := by
    rw [height]
    omega
  rw [Line.ofSource, s.lines_source isBody follows, rows, statements_of_isSettled s.settled, header,
    entry, last, next, s.isCode_ending.isAlone.statements_cons s.opened_ending,
    Nat.add_comm (s.height body), statements_add, s.trim_opening, s.trim_ending, Nat.add_comm 1]
  rfl

theorem ofLines_block (body : List (List Char)) :
    Node.ofLines [s.line, s.entry body, ⟨"end".toList, s.height body, s.height body, []⟩] =
      [.block (s.block body)] := by
  have role : LineRole.ofText (s.entry body).text = .statement := s.property.role
  have ends : LineRole.ofText "end".toList = .ends none := by decide +kernel
  simp only [Node.ofLines, List.foldl_cons, List.foldl_nil, Nesting.read, s.opens, role, ends]
  simp [Nesting.add, OpenBlock.add, OpenBlock.close, Nesting.finish, block]

theorem ofLines_source (isBody : IsBody s.property.opener.tag body)
    (follows : after = [] ∨ after.head? = some '\n') :
    Node.ofLines (Line.ofSource (s.source body after)) = .block (s.block body) ::
      (Node.ofLines (Line.ofSource (after.drop 1))).map (Node.renumber (· + s.height body)) := by
  have closed : Throughout (·.closed = true) (Node.ofLines
      [s.line, s.entry body, ⟨"end".toList, s.height body, s.height body, []⟩]) := by
    rw [ofLines_block]
    exact Throughout.block_iff.mpr ⟨rfl, .statement _ _⟩
  have shift : Monotone (· + s.height body) := fun m n le => Nat.add_le_add_right le _
  rw [s.ofSource_source isBody follows, ofLines_append closed, ofLines_renumber shift,
    ofLines_block]
  rfl

/-! ## What is declared -/

section Findings

variable (file : String) (types : List String) (body : List (List Char)) (after : List Char)

/-- The block declares one resource, with the value of its heredoc. -/
theorem nodeFindings_block (physical : List (List Char)) :
    Origin.nodeFindings ⟨file, types, physical⟩ [] (.block (s.block body)) =
      [.declared (s.declaration file body (s.property.opener.held body))] := by
  have top : Origin.topResource? (s.block body) = some (s.type, s.argument) := by
    rw [Origin.topResource?, block]
    dsimp only
    rw [s.resource]
  have within : s.line.Within 1 ((lines s.header).length + 1) :=
    Line.within_of_mem_ofSource (s.reads ▸ List.mem_singleton_self _)
  have span : max (s.height body) s.line.first = s.height body := by
    have first := Nat.lt_of_le_of_lt within.first_le within.last_lt
    rw [height]
    omega
  have children : (s.block body).children = [.statement (s.entry body)] := rfl
  rw [Origin.nodeFindings_of_resource top, Origin.blockDeclaration, children, List.foldl_cons,
    List.foldl_nil, Origin.addNode, entry, s.property.addStatement_text]
  simp only [Origin.declaration, Origin.span, block, span]
  rfl

/-- What is declared behind the block. -/
def following : List Declaration :=
  let origin : Origin := ⟨file, types, lines (s.source body after)⟩
  let behind := Node.ofLines (Line.ofSource (after.drop 1))
  (joined none (origin.nodesFindings [] (behind.map (Node.renumber (· + s.height body))))).flatMap
    (Finding.declarations origin)

variable {body after}

theorem declarations_source (isBody : IsBody s.property.opener.tag body)
    (follows : after = [] ∨ after.head? = some '\n') :
    (SourceFile.extract file types (s.source body after)).declarations =
      s.declaration file body (s.property.opener.held body) ::
        s.following file types body after := by
  have settles (first last : Nat) (guards : List Guard) :
      .declared (s.declaration file body (s.property.opener.held body)) ≠
        Finding.unknown first last guards :=
    Finding.noConfusion
  rw [declarations_extract, findingsOf, s.ofLines_source isBody follows, Origin.nodesFindings,
    s.nodeFindings_block, List.singleton_append, joined_cons _ _ settles]
  rfl

/-- Behind the block the body makes no difference but for the numbers of the lines. -/
theorem displaced_following {body' : List (List Char)} (isBody : IsBody s.property.opener.tag body)
    (isBody' : IsBody s.property.opener.tag body')
    (follows : after = [] ∨ after.head? = some '\n') :
    List.Forall₂ (Declaration.Displaced body.length body'.length)
      (s.following file types body after) (s.following file types body' after) := by
  have height (body : List (List Char)) :
      s.height body = body.length + ((lines s.header).length + 3) := by
    rw [Script.height]
    omega
  have behind {body : List (List Char)} (isBody : IsBody s.property.opener.tag body) :
      (lines (s.source body after)).drop (s.height body) = lines (after.drop 1) := by
    rw [s.lines_source isBody follows]
    refine List.drop_left' ?_
    simp only [Script.height, List.length_append, List.length_cons, List.length_nil]
    omega
  have alike : Origin.Alike (s.height body) (s.height body')
      ⟨file, types, lines (s.source body after)⟩ ⟨file, types, lines (s.source body' after)⟩ :=
    ⟨rfl, rfl, (behind isBody).trans (behind isBody').symm⟩
  have stand : NodesStand (fun _ => True) 1 _ (Node.ofLines (Line.ofSource (after.drop 1))) :=
    nodesStand_ofSource fun _ _ => trivial
  have findings := alike.displaced_nodesFindings stand []
  have displaced := alike.displaced_declarations (displaced_joined findings none nofun)
  refine displaced.imp fun d e displaced => ?_
  rw [height, height] at displaced
  exact displaced.of_add

end Findings

end Script

/-! ## Opacity -/

/-- A value that a heredoc with this body has: the rows as they are, or without the indentation that
all of them share. -/
structure Opener.IsValue (o : Opener) (body : List (List Char)) (value : List Char) : Prop where
  plain : o.squiggly = false → value = unlines body
  squiggly : o.squiggly = true → (∀ row ∈ body, BlanksAreSpaces row) →
    value = unlines (body.map (List.drop (margin body)))

theorem Opener.isValue_held (o : Opener) (body : List (List Char)) :
    o.IsValue body (o.held body) where
  plain flag := by rw [held, flag]; rfl
  squiggly flag spaced := by
    rw [held, flag, if_pos rfl]
    exact dedent_eq spaced

/-- Heredoc bodies are opaque. With any two bodies a block that holds a heredoc, together with what
follows it, declares the same, but for the value of the property and for line numbers; and that
value is the body. -/
theorem declarations_opaque (s : Script) (file : String) (types : List String)
    {body body' : List (List Char)} (isBody : IsBody s.property.opener.tag body)
    (isBody' : IsBody s.property.opener.tag body') {after : List Char}
    (follows : after = [] ∨ after.head? = some '\n') :
    ∃ value value' others others',
      (SourceFile.extract file types (s.source body after)).declarations =
        s.declaration file body value :: others ∧
      (SourceFile.extract file types (s.source body' after)).declarations =
        s.declaration file body' value' :: others' ∧
      List.Forall₂ (Declaration.Displaced body.length body'.length) others others' ∧
      s.property.opener.IsValue body value ∧ s.property.opener.IsValue body' value' :=
  ⟨_, _, _, _, s.declarations_source file types isBody follows,
    s.declarations_source file types isBody' follows,
    s.displaced_following file types isBody isBody' follows,
    s.property.opener.isValue_held body, s.property.opener.isValue_held body'⟩

/-- A script whose body is in quotes and loses its indentation. -/
def buildScript : Script where
  property :=
    { key := "code"
      opener := ⟨true, some '\'', "EOH".toList, by simp, by decide, by decide⟩
      isHead := ⟨by decide, by decide, by decide⟩
      ordinary := by decide }
  header := "bash 'build' do\n".toList
  line := ⟨"bash 'build' do".toList, 1, 1, []⟩
  head := "bash 'build'".toList
  params := none
  type := "bash"
  argument := "'build'".toList
  opening := "  code <<~'EOH'".toList
  closing := "  EOH".toList
  ending := "end".toList
  broken := by decide +kernel
  settled := by decide +kernel
  reads := by decide +kernel
  opens := by decide +kernel
  resource := by rfl
  trim_opening := by decide +kernel
  trim_closing := by decide +kernel
  trim_ending := by decide +kernel
  whole := by decide +kernel

/-- Neither the words nor the quote of the one body are seen; the stretch behind the block stands
two lines further down. -/
theorem declarations_buildScript : ∃ others others',
    (SourceFile.extract "r.rb" [] (buildScript.source
        ["    make".toList, [], "      end do '#".toList] "\nfrobnicate\n".toList)).declarations =
      buildScript.declaration "r.rb" ["    make".toList, [], "      end do '#".toList]
        "make\n\n  end do '#".toList :: others ∧
    (SourceFile.extract "r.rb" [] (buildScript.source ["make".toList]
        "\nfrobnicate\n".toList)).declarations =
      buildScript.declaration "r.rb" ["make".toList] "make".toList :: others' ∧
    List.Forall₂ (Declaration.Displaced 3 1) others others' := by
  have isBody : IsBody "EOH".toList ["    make".toList, [], "      end do '#".toList] := by decide
  have isBody' : IsBody "EOH".toList ["make".toList] := by decide
  have follows : "\nfrobnicate\n".toList = [] ∨ "\nfrobnicate\n".toList.head? = some '\n' :=
    .inr rfl
  obtain ⟨value, value', others, others', first, second, displaced, isValue, isValue'⟩ :=
    declarations_opaque buildScript "r.rb" [] isBody isBody' follows
  obtain rfl : value = "make\n\n  end do '#".toList := isValue.squiggly rfl (by decide)
  obtain rfl : value' = "make".toList := isValue'.squiggly rfl (by decide)
  exact ⟨others, others', first, second, displaced⟩

end Recipe

end Rolewright
