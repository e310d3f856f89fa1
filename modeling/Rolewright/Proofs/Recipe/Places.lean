/-
# Where a line stands in a nesting

Going into a nesting block by block, every line is met: as a statement, as one of the lines that
frame a block, or inside a block that is not gone into (`exists_place`). Which blocks are gone into
is left open. A block reaches over its lines and no further, as its marks are consecutive.
-/

import Rolewright.Proofs.Recipe.Lines
import Rolewright.Proofs.Recipe.Nesting

namespace Rolewright.Recipe

/-! ## Lines in order -/

/-- Lines that follow one another and end by the line `final`. -/
structure Laid (final : Nat) (lines : List Line) : Prop where
  ordered : lines.Pairwise (·.last < ·.first)
  within : ∀ line ∈ lines, line.Within 1 (final + 1)

theorem Laid.sublist {final : Nat} {lines part : List Line} (laid : Laid final lines)
    (sublist : part.Sublist lines) : Laid final part :=
  ⟨laid.ordered.sublist sublist, fun line member => laid.within line (sublist.subset member)⟩

/-- Of lines that follow one another the last ends last. -/
theorem last_le_finalLine {lines : List Line} (ordered : lines.Pairwise (·.last < ·.first))
    (forward : ∀ line ∈ lines, line.first ≤ line.last) {line : Line} (member : line ∈ lines) :
    line.last ≤ finalLine lines := by
  unfold finalLine
  cases last : lines.getLast? with
  | none =>
      rw [List.getLast?_eq_none_iff.mp last] at member
      cases member
  | some final =>
      have there : final ∈ lines := List.mem_of_getLast? last
      obtain ⟨before, split⟩ := List.getLast?_eq_some_iff.mp last
      rw [split] at member ordered
      rcases List.mem_append.mp member with earlier | itself
      · have follows := (List.pairwise_append.mp ordered).2.2 line earlier final (.head _)
        exact Nat.le_trans (Nat.le_of_lt follows) (forward final there)
      · exact Nat.le_of_eq (congrArg _ (List.mem_singleton.mp itself))

/-- The logical lines of a source follow one another. -/
theorem laid_ofSource (source : List Char) :
    Laid (finalLine (Line.ofSource source)) (Line.ofSource source) where
  ordered := Line.pairwise_ofSource source
  within := by
    intro line member
    have within := Line.within_of_mem_ofSource member
    refine ⟨within.low_le, within.first_le, Nat.lt_succ_of_le ?_⟩
    exact last_le_finalLine (Line.pairwise_ofSource source)
      (fun line member => (Line.within_of_mem_ofSource member).first_le) member

/-- The last logical line ends inside the source. -/
theorem finalLine_ofSource_le (source : List Char) :
    finalLine (Line.ofSource source) ≤ (Text.lines source).length := by
  unfold finalLine
  cases last : (Line.ofSource source).getLast? with
  | none => exact Nat.zero_le _
  | some final =>
      have there : final ∈ Line.ofSource source := List.mem_of_getLast? last
      exact Nat.le_of_lt_succ (Line.within_of_mem_ofSource there).last_lt

/-- Lines whose marks come in two parts come in two parts. -/
theorem exists_append_of_forall₂ {lines : List Line} {marks others : List Mark}
    (areOf : List.Forall₂ Mark.IsOf lines (marks ++ others)) :
    ∃ before after, lines = before ++ after ∧ List.Forall₂ Mark.IsOf before marks ∧
      List.Forall₂ Mark.IsOf after others :=
  ⟨_, _, (List.take_append_drop marks.length lines).symm,
    List.forall₂_take_append _ _ _ areOf, List.forall₂_drop_append _ _ _ areOf⟩

/-- A line that is kept as it is is one of the lines. -/
theorem mem_of_whole_mem {lines : List Line} {marks : List Mark} {line : Line}
    (areOf : List.Forall₂ Mark.IsOf lines marks) (member : .whole line ∈ marks) :
    line ∈ lines := by
  induction areOf with
  | nil => cases member
  | @cons first mark others marks isOf _ ih =>
      rcases List.mem_cons.mp member with rfl | later
      · obtain rfl : line = first := isOf
        exact .head _
      · exact .tail _ (ih later)

/-- What is kept of one line is kept of no other. -/
theorem eq_of_mem_of_whole {lines : List Line} {kept line : Line}
    (areOf : List.Forall₂ Mark.IsOf lines [.whole kept]) (member : line ∈ lines) : kept = line := by
  obtain ⟨only, _, isOf, none, rfl⟩ := List.forall₂_cons_right_iff.mp areOf
  cases none
  rw [List.mem_singleton.mp member]
  exact isOf

/-! ## The lines of a block -/

/-- A line opens a block, is one of its arms, or ends it. -/
def BlockOf.Frames (block : Block) (line : Line) : Prop :=
  block.header = line ∨ (∃ branch ∈ block.branches.tail, branch.line = line.first) ∨
    block.closed = true ∧ block.last = line.last

/-- The lines of a block: its header, what its arms hold, and its `end`. -/
theorem exists_parts_of_block {block : Block} {lines : List Line}
    (areOf : List.Forall₂ Mark.IsOf lines (Node.block block).marks) :
    ∃ inner ends, lines = block.header :: (inner ++ ends) ∧
      List.Forall₂ Mark.IsOf inner (branchMarks block.branches).tail ∧
      (block.closed = true ∧ (∃ line, ends = [line] ∧ block.last = line.last) ∨
        block.closed = false ∧ ends = []) := by
  obtain ⟨kind, header, branches, last, closed, modifier⟩ := block
  cases areOf with
  | cons isOf rest =>
      obtain ⟨inner, ends, rfl, areOf, closing⟩ := exists_append_of_forall₂ rest
      obtain rfl : header = _ := isOf
      refine ⟨inner, ends, rfl, areOf, ?_⟩
      cases closed with
      | true =>
          cases closing with
          | cons isOf none =>
              cases none
              exact .inl ⟨rfl, _, rfl, isOf⟩
      | false =>
          cases closing
          exact .inr ⟨rfl, rfl⟩

/-- A block reaches over its lines, and no further than the source. -/
theorem BlockOf.Formed.reach {final : Nat} {block : Block} {lines : List Line}
    (formed : block.Formed final) (areOf : List.Forall₂ Mark.IsOf lines (Node.block block).marks)
    (laid : Laid final lines) :
    (∀ line ∈ lines, block.header.first ≤ line.first ∧ line.last ≤ block.last) ∧
      block.last ≤ final := by
  obtain ⟨inner, ends, rfl, -, closing⟩ := exists_parts_of_block areOf
  have bound (line : Line) (member : line ∈ block.header :: (inner ++ ends)) :
      line.last ≤ final := Nat.le_of_lt_succ (laid.within line member).last_lt
  have begins : ∀ line ∈ block.header :: (inner ++ ends), block.header.first ≤ line.first := by
    intro line member
    rcases List.mem_cons.mp member with rfl | later
    · exact Nat.le_refl _
    · have follows := (List.pairwise_cons.mp laid.ordered).1 line later
      have header := (laid.within block.header (.head _)).first_le
      exact Nat.le_trans header (Nat.le_of_lt follows)
  rcases closing with ⟨-, line, rfl, last⟩ | ⟨unclosed, rfl⟩
  · rw [← List.cons_append] at laid begins bound ⊢
    have final_line : line ∈ (block.header :: inner) ++ [line] :=
      List.mem_append_right _ (.head _)
    refine ⟨fun other member => ⟨begins other member, ?_⟩, last ▸ bound line final_line⟩
    rw [last]
    rcases List.mem_append.mp member with earlier | itself
    · have before : other.last < line.first :=
        (List.pairwise_append.mp laid.ordered).2.2 other earlier line (.head _)
      exact Nat.le_trans (Nat.le_of_lt before) (laid.within line final_line).first_le
    · exact Nat.le_of_eq (congrArg _ (List.mem_singleton.mp itself))
  · have cut : block.last = final := by
      rw [formed.cut unclosed]
      exact Nat.max_eq_left (bound block.header (.head _))
    rw [cut]
    exact ⟨fun line member => ⟨begins line member, bound line member⟩, Nat.le_refl _⟩

/-! ## Going into blocks -/

/-- A node met by going into blocks, each of which satisfies `through`. -/
inductive Node.Reaches (through : Block → Prop) : Node → Node → Prop
  | self (node : Node) : Reaches through node node
  | inside {block : Block} {child met : Node} (passes : through block)
      (member : child ∈ block.children) (reaches : Reaches through child met) :
      Reaches through (.block block) met

/-- Where a line is met: it is a statement by itself, or frames a block that is gone into, or
stands somewhere in a block that is not. -/
inductive Place (through : Block → Prop) (line : Line) : Node → Prop
  | statement : Place through line (.statement line)
  | stray : Place through line (.stray line)
  | frames {block : Block} (passes : through block) (frames : block.Frames line) :
      Place through line (.block block)
  | inside {block : Block} (shut : ¬ through block) (first : block.header.first ≤ line.first)
      (last : line.last ≤ block.last) : Place through line (.block block)

theorem formed_of_mem_children {final : Nat} {block : Block} {child : Node}
    (formed : (Node.block block).Formed final) (member : child ∈ block.children) :
    child.Formed final := by
  obtain ⟨branch, among, held⟩ := List.mem_flatMap.mp member
  exact formedNodes_iff.mp (formedBranches_iff.mp formed.2 branch among) child held

/-- A line of several nodes is a line of one of them. -/
theorem exists_node_of_mem {nodes : List Node} {lines : List Line} {line : Line}
    (areOf : List.Forall₂ Mark.IsOf lines (nodeMarks nodes)) (member : line ∈ lines) :
    ∃ node ∈ nodes, ∃ part, part.Sublist lines ∧ line ∈ part ∧
      List.Forall₂ Mark.IsOf part node.marks := by
  induction nodes generalizing lines with
  | nil =>
      cases areOf
      cases member
  | cons node others ih =>
      obtain ⟨here, rest, rfl, areOf, areOf'⟩ := exists_append_of_forall₂ areOf
      rcases List.mem_append.mp member with inside | later
      · exact ⟨node, .head _, here, List.sublist_append_left here rest, inside, areOf⟩
      · obtain ⟨next, among, part, sublist, held⟩ := ih areOf' later
        exact ⟨next, .tail _ among, part, sublist.trans (List.sublist_append_right here rest), held⟩

/-- A line between the header of a block and its `end` is an arm or a line of a child. -/
theorem exists_child_of_mem {branches : List (Branch Node)} {lines : List Line} {line : Line}
    (areOf : List.Forall₂ Mark.IsOf lines (branchMarks branches).tail) (member : line ∈ lines) :
    (∃ branch ∈ branches.tail, branch.line = line.first) ∨
      ∃ branch ∈ branches, ∃ child ∈ branch.children, ∃ part, part.Sublist lines ∧ line ∈ part ∧
        List.Forall₂ Mark.IsOf part child.marks := by
  induction branches generalizing lines with
  | nil =>
      cases areOf
      cases member
  | cons branch others ih =>
      obtain ⟨here, rest, rfl, areOf, areOf'⟩ := exists_append_of_forall₂ areOf
      rcases List.mem_append.mp member with inside | later
      · obtain ⟨child, among, part, sublist, held⟩ := exists_node_of_mem areOf inside
        exact .inr ⟨branch, .head _, child, among, part,
          sublist.trans (List.sublist_append_left here rest), held⟩
      · cases others with
        | nil =>
            cases areOf'
            cases later
        | cons next others =>
            obtain ⟨arm, after, isOf, held, rfl⟩ := List.forall₂_cons_right_iff.mp areOf'
            rcases List.mem_cons.mp later with rfl | inside
            · exact .inl ⟨next, .head _, isOf⟩
            · have sublist_after : after.Sublist (here ++ arm :: after) :=
                (List.sublist_cons_self arm after).trans (List.sublist_append_right here _)
              rcases ih held inside with ⟨branch, among, arm⟩ | ⟨branch, among, child, place⟩
              · exact .inl ⟨branch, .tail _ among, arm⟩
              · obtain ⟨held, part, sublist, place⟩ := place
                exact .inr ⟨branch, .tail _ among, child, held, part, sublist.trans sublist_after,
                  place⟩

/-- Every line of a node is met. -/
theorem Node.exists_place {through : Block → Prop} {final : Nat} (node : Node) {lines : List Line}
    {line : Line} (formed : node.Formed final)
    (areOf : List.Forall₂ Mark.IsOf lines node.marks) (laid : Laid final lines)
    (member : line ∈ lines) : ∃ met, node.Reaches through met ∧ Place through line met := by
  induction node using Node.inductChildren generalizing lines with
  | statement kept =>
      obtain rfl := eq_of_mem_of_whole areOf member
      exact ⟨_, .self _, .statement⟩
  | stray kept =>
      obtain rfl := eq_of_mem_of_whole areOf member
      exact ⟨_, .self _, .stray⟩
  | block block ih =>
      by_cases passes : through block
      · obtain ⟨inner, ends, rfl, held, closing⟩ := exists_parts_of_block areOf
        rcases List.mem_cons.mp member with rfl | later
        · exact ⟨_, .self _, .frames passes (.inl rfl)⟩
        · rcases List.mem_append.mp later with inside | ending
          · rcases exists_child_of_mem held inside with arm | ⟨branch, among, child, held, part,
              sublist, here, areOf⟩
            · exact ⟨_, .self _, .frames passes (.inr (.inl arm))⟩
            · have member : child ∈ block.children := List.mem_flatMap.mpr ⟨branch, among, held⟩
              have laid_part : Laid final part := laid.sublist
                (sublist.trans ((List.sublist_append_left inner ends).cons _))
              obtain ⟨met, reaches, place⟩ :=
                ih child member (formed_of_mem_children formed member) areOf laid_part here
              exact ⟨met, .inside passes member reaches, place⟩
          · rcases closing with ⟨closed, other, rfl, same⟩ | ⟨_, rfl⟩
            · rw [List.mem_singleton.mp ending]
              exact ⟨_, .self _, .frames passes (.inr (.inr ⟨closed, same⟩))⟩
            · cases ending
      · obtain ⟨first, last⟩ := (formed.1.reach areOf laid).1 line member
        exact ⟨_, .self _, .inside passes first last⟩

/-! ## The lines of a node that is met -/

theorem marks_infix_nodeMarks {node : Node} {nodes : List Node} (member : node ∈ nodes) :
    node.marks <:+: nodeMarks nodes := by
  induction nodes with
  | nil => cases member
  | cons first others ih =>
      rcases List.mem_cons.mp member with rfl | later
      · exact ⟨[], _, rfl⟩
      · exact (ih later).trans (List.suffix_append _ _).isInfix

theorem children_infix_branchMarks {branch : Branch Node} {branches : List (Branch Node)}
    (member : branch ∈ branches) :
    nodeMarks branch.children <:+: (branchMarks branches).tail := by
  induction branches with
  | nil => cases member
  | cons first others ih =>
      rcases List.mem_cons.mp member with rfl | later
      · exact ⟨[], _, rfl⟩
      · have tail : (branchMarks others).tail <:+: branchMarks others :=
          (List.tail_suffix _).isInfix
        exact ((ih later).trans tail).trans (List.suffix_append _ _).isInfix

theorem marks_infix_of_mem_children {block : Block} {child : Node}
    (member : child ∈ block.children) : child.marks <:+: (Node.block block).marks := by
  obtain ⟨branch, among, held⟩ := List.mem_flatMap.mp member
  have inner := (marks_infix_nodeMarks held).trans (children_infix_branchMarks among)
  have ends : (branchMarks block.branches).tail <:+: (Node.block block).marks :=
    (List.prefix_append _ _).isInfix.trans (List.suffix_cons _ _).isInfix
  exact inner.trans ends

namespace Node.Reaches

variable {through : Block → Prop} {node met : Node}

theorem formed {final : Nat} (reaches : node.Reaches through met) (formed : node.Formed final) :
    met.Formed final := by
  induction reaches with
  | self node => exact formed
  | inside _ member _ ih => exact ih (formed_of_mem_children formed member)

/-- The lines of a node that is met are consecutive. -/
theorem infix_marks (reaches : node.Reaches through met) : met.marks <:+: node.marks := by
  induction reaches with
  | self node => exact List.infix_rfl
  | inside _ member _ ih => exact ih.trans (marks_infix_of_mem_children member)

end Node.Reaches

/-- Consecutive marks are those of consecutive lines. -/
theorem exists_infix_of_forall₂ {lines : List Line} {marks part : List Mark}
    (areOf : List.Forall₂ Mark.IsOf lines marks) (consecutive : part <:+: marks) :
    ∃ some, some <:+: lines ∧ List.Forall₂ Mark.IsOf some part := by
  obtain ⟨before, after, rfl⟩ := consecutive
  obtain ⟨first, rest, rfl, areOf, -⟩ := exists_append_of_forall₂ areOf
  obtain ⟨first, part, rfl, -, areOf⟩ := exists_append_of_forall₂ areOf
  exact ⟨part, ⟨first, rest, rfl⟩, areOf⟩

/-! ## What holds of all blocks -/

/-- All blocks in some nodes, however deep, satisfy `good`. -/
def Throughout (good : Block → Prop) (nodes : List Node) : Prop :=
  ∀ node ∈ nodes, ∀ block, node.Reaches (fun _ => True) (.block block) → good block

namespace Throughout

variable {good better : Block → Prop} {nodes others : List Node}

theorem append_iff :
    Throughout good (nodes ++ others) ↔ Throughout good nodes ∧ Throughout good others :=
  List.forall_mem_append

theorem block_iff {block : Block} :
    Throughout good [.block block] ↔ good block ∧ Throughout good block.children := by
  constructor
  · refine fun all => ⟨all _ (.head _) block (.self _), fun child member inner reaches => ?_⟩
    exact all _ (.head _) inner (.inside trivial member reaches)
  · rintro ⟨here, deeper⟩ node member inner reaches
    obtain rfl := List.mem_singleton.mp member
    cases reaches with
    | self => exact here
    | inside _ child reaches => exact deeper _ child inner reaches

theorem statement (good : Block → Prop) (line : Line) : Throughout good [.statement line] := by
  rintro node member inner reaches
  obtain rfl := List.mem_singleton.mp member
  cases reaches

theorem stray (good : Block → Prop) (line : Line) : Throughout good [.stray line] := by
  rintro node member inner reaches
  obtain rfl := List.mem_singleton.mp member
  cases reaches

theorem and (first : Throughout good nodes) (second : Throughout better nodes) :
    Throughout (fun block => good block ∧ better block) nodes :=
  fun node member block reaches =>
    ⟨first node member block reaches, second node member block reaches⟩

end Throughout

end Rolewright.Recipe
