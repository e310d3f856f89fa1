/-
# Extraction loses no code

Every logical line of a source stands in a declaration, or frames a block that only governs its
statements, or is absorbed into the attributes, variables and inclusions of the file; and what is
declared as not understood quotes its lines. The one exception is a resource that is itself written
with the type of what is not understood (`covers_extract`).
-/

import Rolewright.Proofs.Recipe.Findings
import Rolewright.Proofs.Recipe.Statements

namespace Rolewright.Recipe

open Text

/-- A line opens a control block, a loop or a wrapping block that is no resource, is one of its
arms, or ends it; and all blocks around that one are of the same kind. -/
def IsFrame (source : List Char) (line : Line) : Prop :=
  ∃ node ∈ Node.ofLines (Line.ofSource source), ∃ block,
    node.Reaches BlockOf.IsPlain (.block block) ∧ block.IsPlain ∧ block.Frames line

/-! ## Where findings stand -/

section Finding

variable {o : Origin} {block : Block} {type : String} {argument : List Char}

/-- The block of a resource is a call, whose head the resource is written as. -/
theorem exists_head_of_resource
    (resource : Origin.topResource? block = some (type, argument) ∨
      o.nestedResource? block = some (type, argument)) :
    ∃ head params, block.kind = .call head params ∧
      resourceHeader? head = some (type, argument) := by
  rcases resource with top | nested
  · unfold Origin.topResource? at top
    split at top
    · rename_i head params kind
      split at top
      · rename_i role
        cases top
        exact ⟨head, params, kind, resourceHeader?_of_ofHead role⟩
      · cases top
    · cases top
  · unfold Origin.nestedResource? at nested
    split at nested
    · rename_i head params kind
      dsimp only at nested
      split at nested
      · cases nested
      · split at nested
        · rename_i found
          obtain ⟨-, same⟩ := Option.ite_none_right_eq_some.mp nested
          cases same
          exact ⟨head, params, kind, found⟩
        · cases nested
    · cases nested

/-- The type of a resource is written in the line that opens its block. -/
theorem type_infix_header {final : Nat} (formed : block.Formed final)
    (resource : Origin.topResource? block = some (type, argument) ∨
      o.nestedResource? block = some (type, argument)) :
    type.toList <:+: block.header.text := by
  obtain ⟨head, params, kind, found⟩ := exists_head_of_resource resource
  obtain ⟨condition, opens⟩ := formed.opened
  rw [kind] at opens
  exact (type_prefix_of_resourceHeader? found).isInfix.trans (head_infix_of_opens opens)

end Finding

section Extract

variable {file : String} {types : List String} {source : List Char}

/-- A node that is met has consecutive lines of the source. -/
theorem exists_lines_of_reaches {through : Block → Prop} {node met : Node}
    (member : node ∈ Node.ofLines (Line.ofSource source)) (reaches : node.Reaches through met) :
    met.Formed (finalLine (Line.ofSource source)) ∧
      ∃ part, part <:+: Line.ofSource source ∧ List.Forall₂ Mark.IsOf part met.marks :=
  ⟨reaches.formed (formedNodes_iff.mp (formed_ofLines _) node member),
    exists_infix_of_forall₂ (marks_ofLines _)
      (reaches.infix_marks.trans (marks_infix_nodeMarks member))⟩

/-- What is found stands on lines of the source: a stretch on some that are there, and a resource
where its type is written. -/
theorem finding_stands {finding : Finding} (member : finding ∈ findingsOf file types source) :
    finding.IsInside (lines source) ∧
      ∀ d, finding = .declared d →
        ∃ line ∈ Line.ofSource source, d.span.first = line.first ∧
          d.type.toList <:+: line.text := by
  obtain ⟨node, among, given⟩ := Origin.mem_nodesFindings.mp member
  obtain ⟨met, reaches, gives⟩ := Origin.exists_gives given
  obtain ⟨formed, part, consecutive, areOf⟩ := exists_lines_of_reaches among reaches
  have laid : Laid (finalLine (Line.ofSource source)) part :=
    (laid_ofSource source).sublist consecutive.sublist
  have kept {line : Line} (mark : .whole line ∈ met.marks) : line ∈ part :=
    mem_of_whole_mem areOf mark
  have placed {line : Line} (there : line ∈ part) :
      1 ≤ line.first ∧ line.first ≤ line.last ∧ line.last ≤ (lines source).length :=
    have within := Line.within_of_mem_ofSource (consecutive.subset there)
    ⟨within.low_le, within.first_le, Nat.le_of_lt_succ within.last_lt⟩
  cases gives with
  | @statement line guards _ given =>
      have there : line ∈ part := kept (.head _)
      have begins := (isOf_of_mem_statementFindings given).beginsAt
      cases finding with
      | declared d =>
          refine ⟨trivial, ?_⟩
          rintro _ ⟨⟩
          exact ⟨line, consecutive.subset there, begins⟩
      | unknown first last guards =>
          obtain ⟨rfl, rfl⟩ := begins
          exact ⟨placed there, fun _ other => nomatch other⟩
      | _ => exact ⟨trivial, fun _ other => nomatch other⟩
  | @stray line guards => exact ⟨placed (kept (.head _)), fun _ other => nomatch other⟩
  | @whole block guards =>
      have there : block.header ∈ part := kept (.head _)
      obtain ⟨reach, ends⟩ := formed.1.reach areOf laid
      obtain ⟨first, ordered, _⟩ := placed there
      refine ⟨⟨first, Nat.le_trans ordered (reach _ there).2, ?_⟩, fun _ other => nomatch other⟩
      exact Nat.le_trans ends (finalLine_ofSource_le source)
  | @resource block type argument guards resource =>
      refine ⟨trivial, ?_⟩
      rintro _ ⟨⟩
      have same := Origin.embodies_blockDeclaration ⟨file, types, lines source⟩ type argument
        guards block
      refine ⟨block.header, consecutive.subset (kept (.head _)), ?_, ?_⟩
      · rw [same.span]
        rfl
      · rw [same.type]
        exact type_infix_header formed.1 resource

end Extract

/-! ## Where lines are kept -/

section Lines

variable {o : Origin} {f : SourceFile} {source : List Char} {guards : List Guard} {met : Node}
  {line : Line}

/-- At its place a line is kept by the file that keeps what is given there. -/
theorem covers_of_place (keeps : ∀ finding ∈ o.nodeFindings guards met, f.Keeps finding)
    (place : Place BlockOf.IsPlain line met) :
    f.Covers line.first line.last ∨
      (∃ block, met = .block block ∧ block.IsPlain ∧ block.Frames line) ∨ f.Absorbs line.text := by
  cases place with
  | statement => exact (covers_or_absorbs keeps).imp_right .inr
  | stray => exact .inl (keeps _ (.head _))
  | @frames block plain frames => exact .inr (.inl ⟨block, rfl, plain, frames⟩)
  | @inside block shut first last =>
      have wider {a b : Nat} (covers : f.Covers a b) (low : a ≤ line.first)
          (high : line.last ≤ b) : f.Covers line.first line.last := by
        obtain ⟨d, member, begins, ends⟩ := covers
        exact ⟨d, member, Nat.le_trans begins low, Nat.le_trans high ends⟩
      left
      cases head : Origin.topResource? block with
      | some named =>
          rw [Origin.nodeFindings_of_resource head] at keeps
          exact wider (covers_of_sameHead (keeps _ (.head _))
            (o.embodies_blockDeclaration _ _ _ block).sameHead) first last
      | none =>
          by_cases kind : block.kind = .sealed
          · rw [Origin.nodeFindings_of_sealed head kind] at keeps
            exact wider (keeps _ (.head _)) first last
          · exact absurd ⟨head, kind⟩ shut

end Lines

/-- A declaration of a resource, whose type is written in the line where it begins. -/
def IsWritten (file : String) (types : List String) (source : List Char) (d : Declaration) :
    Prop :=
  .declared d ∈ findingsOf file types source ∧
    ∃ line ∈ Line.ofSource source, d.span.first = line.first ∧ d.type.toList <:+: line.text

/-- Extraction loses no code: each logical line stands in a declaration, or is the opener, an arm or
the end of a block that only governs its statements, or is recorded among the attributes, variables
and inclusions, as are all the statements of a loop on one line. And what is declared as not
understood quotes its lines, unless a resource is written with that type. -/
theorem covers_extract (file : String) (types : List String) (source : List Char) :
    let f := SourceFile.extract file types source
    (∀ line ∈ Line.ofSource source,
      f.Covers line.first line.last ∨ IsFrame source line ∨ f.Absorbs line.text) ∧
      ∀ d ∈ f.declarations, d.isUnparsed = true →
        d.IsVerbatim (lines source) ∨ IsWritten file types source d := by
  intro f
  have stands (finding : Finding) (member : finding ∈ findingsOf file types source) :=
    finding_stands member
  obtain ⟨keeps, declared⟩ := keeps_extract fun finding member => (stands finding member).1
  constructor
  · intro line member
    obtain ⟨node, among, part, sublist, there, areOf⟩ :=
      exists_node_of_mem (marks_ofLines (Line.ofSource source)) member
    have formed := formedNodes_iff.mp (formed_ofLines (Line.ofSource source)) node among
    obtain ⟨met, reaches, place⟩ :
        ∃ met, node.Reaches BlockOf.IsPlain met ∧ Place BlockOf.IsPlain line met :=
      node.exists_place formed areOf ((laid_ofSource source).sublist sublist) there
    obtain ⟨inner, given⟩ := Origin.exists_guards_of_reaches (o := ⟨file, types, lines source⟩)
      reaches []
    have kept : ∀ finding ∈ Origin.nodeFindings ⟨file, types, lines source⟩ inner met,
        f.Keeps finding := fun finding member =>
      keeps finding (Origin.mem_nodesFindings.mpr ⟨node, among, given member⟩)
    rcases covers_of_place kept place with covers | ⟨block, rfl, plain, frames⟩ | absorbs
    · exact .inl covers
    · exact .inr (.inl ⟨node, among, block, reaches, plain, frames⟩)
    · exact .inr (.inr absorbs)
  · intro d member unparsed
    rcases declared d member with found | verbatim
    · exact .inr ⟨found, (stands _ found).2 d rfl⟩
    · exact .inl verbatim

/-! ## A stricter reading -/

/-- A loop on one line without any statement. -/
def IsEmptyLoop (text : List Char) : Prop :=
  ∃ inline, splitInlineBlock? (splitModifier text).1 = some inline ∧
    CallRole.ofHead inline.head = .loop ∧ Value.split ';' inline.body = []

/-- Of the loops on one line only those without any statement may pass, and whatever has the type
of what is not understood quotes its lines. -/
structure LosesNothing (file : String) (types : List String) (source : List Char) : Prop where
  lines : ∀ line ∈ Line.ofSource source,
    (SourceFile.extract file types source).Covers line.first line.last ∨ IsFrame source line ∨
      (SourceFile.extract file types source).Records line.text ∨ IsEmptyLoop line.text
  verbatim : ∀ d ∈ (SourceFile.extract file types source).declarations, d.isUnparsed = true →
    d.IsVerbatim (Text.lines source)

/-- A loop on one line that holds nothing but another one without statements. -/
def nestedLoops : List Char :=
  "xs.each do |x| ys.each do |y| end end".toList

/-- The outer loop holds a statement, and yet it leaves nothing behind: that statement gives nothing
either. -/
theorem not_losesNothing_nestedLoops :
    ¬ LosesNothing "recipes/default.rb" [] nestedLoops := by
  intro keeps
  have lines : Line.ofSource nestedLoops = [⟨nestedLoops, 1, 1, []⟩] := by decide +kernel
  have alone : (LineRole.ofText nestedLoops).standsAlone = true := by decide +kernel
  have nodes : Node.ofLines (Line.ofSource nestedLoops) =
      [.statement ⟨nestedLoops, 1, 1, []⟩] := by
    rw [lines]
    exact Node.ofLines_statements (List.forall_mem_singleton.mpr alone)
  have member : (⟨nestedLoops, 1, 1, []⟩ : Line) ∈ Line.ofSource nestedLoops := by
    rw [lines]
    exact .head _
  rcases keeps.lines _ member with ⟨d, declared, _⟩ | frame | records | ⟨inline, whole, _, none⟩
  · have nothing : (SourceFile.extract "recipes/default.rb" [] nestedLoops).declarations.isEmpty =
        true := by decide +kernel
    rw [List.isEmpty_iff.mp nothing] at declared
    cases declared
  · obtain ⟨node, among, block, reaches, _⟩ := frame
    rw [nodes] at among
    rw [List.mem_singleton.mp among] at reaches
    cases reaches
  · have unassigned : attributeAssignment? (splitModifier nestedLoops).1 = none := by
      decide +kernel
    have unnamed : variableAssignment? (splitModifier nestedLoops).1 = none := by decide +kernel
    have unincluded : includedRecipe? (splitModifier nestedLoops).1 = none := by decide +kernel
    cases records with
    | assigned matched _ => exact nomatch unassigned.symm.trans matched
    | named matched _ => exact nomatch unnamed.symm.trans matched
    | included matched _ => exact nomatch unincluded.symm.trans matched
  · have statement : (splitInlineBlock? (splitModifier nestedLoops).1).map (·.body) =
        some "ys.each do |y| end".toList := by decide +kernel
    have body : inline.body = "ys.each do |y| end".toList := by
      rw [whole] at statement
      exact Option.some.inj statement
    rw [body] at none
    exact absurd none (by decide +kernel)

/-- A resource written with the type of what is not understood. -/
def writtenUnparsed : List Char :=
  "__unparsed__ 'x' do\n  mode '0644'\nend\n".toList

/-- It is read as any other resource, so it has the properties that it is written with and not its
source. -/
theorem not_losesNothing_writtenUnparsed :
    ¬ LosesNothing "recipes/default.rb" [] writtenUnparsed := by
  intro keeps
  have declared : (SourceFile.extract "recipes/default.rb" [] writtenUnparsed).declarations.map
      (fun d => (d.isUnparsed, d.properties.map (·.1))) = [(true, ["mode"])] := by decide +kernel
  obtain ⟨d, member, same⟩ := List.mem_map.mp (declared ▸ List.mem_singleton_self _)
  obtain ⟨unparsed, keys⟩ := Prod.mk.inj same
  rw [(keeps.verbatim d member unparsed).source] at keys
  have other : ["source"] ≠ ["mode"] := by decide
  exact other keys

/-- A loop on one line that holds another one may pass, and a resource may be written with the type
of what is not understood. -/
theorem not_losesNothing :
    ¬ LosesNothing "recipes/default.rb" [] nestedLoops ∧
      ¬ LosesNothing "recipes/default.rb" [] writtenUnparsed :=
  ⟨not_losesNothing_nestedLoops, not_losesNothing_writtenUnparsed⟩

end Rolewright.Recipe
