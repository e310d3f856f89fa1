/-
# Blocks match brackets

Headers and `end`s match like brackets (`isMatching_ofLines`). The nesting gives back its lines in
their order; nodes that stand side by side follow one another, and what a block holds lies between
its header and its last line. A header, an arm and an `end` are lines that play this part, an arm
belongs to the innermost block around it, and an `end` that matches nothing stands outside all
blocks.

A block without an `end` can only be the last thing that its surroundings hold, and these have no
`end` either. While lines are read all that is finished has its `end`; when they are at an end the
innermost block is closed first, and becomes the last thing in the block around it.
-/

import Rolewright.Proofs.Recipe.Order

namespace Rolewright.Recipe

/-! ## Nodes and what is around them -/

/-- A line that is a statement where some arms are taken: it is none of these. -/
def Line.IsPlain (taken : Arm → Bool) (line : Line) : Prop :=
  LineRole.ofText line.text = .statement ∨
    ∃ arm condition, LineRole.ofText line.text = .arm arm condition ∧ taken arm = false

/-- A node that stands outside all blocks. -/
def Node.StandsAlone : Node → Prop
  | .statement line => line.IsPlain fun _ => false
  | .stray line => ∃ modifier, LineRole.ofText line.text = .ends modifier
  | .block _ => True

/-- A node that a block of some kind can hold. -/
def Node.BelongsTo (kind : BlockKind) : Node → Prop
  | .statement line => line.IsPlain kind.accepts
  | .stray _ => False
  | .block _ => True

/-- A block without an `end`. -/
def Node.IsCut : Node → Prop
  | .block b => b.closed = false
  | _ => False

/-! ## Matched blocks -/

/-- A block is opened by one of some lines, others are its further arms, and what it holds belongs
to it. -/
structure Opened (lines : List Line) (kind : BlockKind) (header : Line)
    (branches : List (Branch Node)) : Prop where
  mem_lines : header ∈ lines
  first : ∃ condition children,
    branches.head? = some ⟨.body, condition, header.first, children⟩ ∧
      LineRole.ofText header.text = .opens kind condition
  further : ∀ branch ∈ branches.tail, kind.accepts branch.arm = true ∧
    ∃ line ∈ lines, branch.line = line.first ∧
      LineRole.ofText line.text = .arm branch.arm branch.condition
  belongs : ∀ child ∈ branches.flatMap (·.children), child.BelongsTo kind

/-- A block ends where a line says so, or else with all that is around it. -/
structure BlockOf.IsBracketed (lines : List Line) (block : Block) : Prop
    extends Opened lines block.kind block.header block.branches where
  ends : block.closed = true → ∃ line ∈ lines, block.last = line.last ∧
    LineRole.ofText line.text = .ends block.modifier
  cut : ∀ child ∈ block.children, child.IsCut → block.closed = false ∧
    ∃ branch, block.branches.getLast? = some branch ∧ branch.children.getLast? = some child

/-- What a block holds lies inside it, one after the other. -/
structure BlockOf.IsNested (block : Block) : Prop where
  ordered : block.children.Pairwise (·.last < ·.first)
  inside : ∀ child ∈ block.children, block.header.first ≤ child.first ∧ child.last ≤ block.last

/-- Nodes in which the brackets of some lines are matched. -/
structure IsMatching (lines : List Line) (nodes : List Node) : Prop where
  reading : List.Forall₂ Mark.IsOf lines (nodeMarks nodes)
  ordered : nodes.Pairwise (·.last < ·.first)
  alone : ∀ node ∈ nodes, node.StandsAlone
  cut : ∀ node ∈ nodes, node.IsCut → nodes.getLast? = some node
  blocks : Throughout (fun block => block.IsBracketed lines ∧ block.IsNested) nodes

section Matching

variable {lines : List Line}

/-! ## Order -/

/-- Nodes that follow one another do so in every block. -/
theorem NodesStand.throughout {p : Line → Prop} {low high : Nat} {nodes : List Node}
    (stand : NodesStand p low high nodes) : Throughout BlockOf.IsNested nodes := by
  intro node member block reaches
  have stands := stand.stands_of_mem member
  clear member stand
  generalize met : Node.block block = last at reaches
  induction reaches generalizing low high with
  | self node =>
      subst met
      obtain ⟨within, -, inner⟩ := stands
      have held := branchesStand_iff.mp inner
      refine ⟨held.pairwise, fun child among => ?_⟩
      obtain ⟨first, last⟩ := (held.stands_of_mem among).bounds
      exact ⟨Nat.le_trans within.first_le (Nat.le_of_lt first), Nat.le_of_lt_succ last⟩
  | inside _ among _ ih =>
      obtain ⟨within, -, inner⟩ := stands
      exact ih ((branchesStand_iff.mp inner).stands_of_mem among) met

/-! ## Reading lines -/

namespace OpenBlock

/-- An open block and all that it holds are matched, and only where the lines end, `cutOff`, it can
hold a block without an `end`. -/
structure IsMatched (lines : List Line) (cutOff : Prop) (b : OpenBlock) : Prop where
  opened : Opened lines b.kind b.header (b.finished ++ [b.current])
  inner : Throughout (BlockOf.IsBracketed lines) b.children
  cut : ∀ child ∈ b.children, child.IsCut → cutOff ∧ b.current.children.getLast? = some child

variable {b : OpenBlock} {cutOff : Prop}

/-- A node that is added to the last arm of a block is in its place there. -/
theorem opened_add {node : Node} (opened : Opened lines b.kind b.header (b.finished ++ [b.current]))
    (belongs : node.BelongsTo b.kind) :
    Opened lines (b.add node).kind (b.add node).header
      ((b.add node).finished ++ [(b.add node).current]) := by
  obtain ⟨member, ⟨condition, children, first, role⟩, further, held⟩ := opened
  refine ⟨member, ?_, ?_, ?_⟩
  · cases none : b.finished with
    | nil =>
        rw [none] at first
        have body : b.current = ⟨.body, condition, b.header.first, children⟩ :=
          Option.some.inj first
        exact ⟨condition, children ++ [node], by simp [OpenBlock.add, none, body], role⟩
    | cons body others =>
        rw [none] at first
        exact ⟨condition, children, by rw [OpenBlock.add, none]; exact first, role⟩
  · cases none : b.finished with
    | nil =>
        rw [OpenBlock.add, none]
        exact List.forall_mem_nil _
    | cons body others =>
        rw [none] at further
        rw [OpenBlock.add, none]
        obtain ⟨early, late⟩ := List.forall_mem_append.mp further
        refine List.forall_mem_append.mpr ⟨early, List.forall_mem_singleton.mpr ?_⟩
        exact late b.current (.head _)
  · change ∀ child ∈ (b.add node).children, child.BelongsTo b.kind
    rw [b.children_add]
    exact List.forall_mem_append.mpr ⟨held, List.forall_mem_singleton.mpr belongs⟩

/-- A block that is matched stays so when a matched node is added, which may be cut off only at its
end. -/
theorem IsMatched.add (matched : b.IsMatched lines False) {node : Node}
    (bracketed : Throughout (BlockOf.IsBracketed lines) [node]) (belongs : node.BelongsTo b.kind)
    (cut : node.IsCut → cutOff) : (b.add node).IsMatched lines cutOff where
  opened := opened_add matched.opened belongs
  inner := by
    rw [b.children_add]
    exact Throughout.append_iff.mpr ⟨matched.inner, bracketed⟩
  cut child member unclosed := by
    rw [b.children_add] at member
    rcases List.mem_append.mp member with earlier | itself
    · exact (matched.cut child earlier unclosed).1.elim
    · obtain rfl := List.mem_singleton.mp itself
      exact ⟨cut unclosed, List.getLast?_concat⟩

/-- A new arm is opened by a line that the kind of the block accepts as one. -/
theorem IsMatched.openArm (matched : b.IsMatched lines False) {line : Line} {arm : Arm}
    {condition : List Char} (member : line ∈ lines)
    (role : LineRole.ofText line.text = .arm arm condition)
    (accepted : b.kind.accepts arm = true) :
    (b.openArm arm condition line.first).IsMatched lines False where
  opened := by
    obtain ⟨there, first, further, held⟩ := matched.opened
    refine ⟨there, ?_, ?_, ?_⟩
    · obtain ⟨condition, children, first, role⟩ := first
      exact ⟨condition, children, by rw [OpenBlock.openArm]; simpa using first, role⟩
    · rw [OpenBlock.openArm, List.tail_append_of_ne_nil (by simp)]
      refine List.forall_mem_append.mpr ⟨further, List.forall_mem_singleton.mpr ?_⟩
      exact ⟨accepted, line, member, rfl, role⟩
    · change ∀ child ∈ (b.openArm arm condition line.first).children, child.BelongsTo b.kind
      rw [b.children_openArm]
      exact held
  inner := by
    rw [b.children_openArm]
    exact matched.inner
  cut child among unclosed := by
    rw [b.children_openArm] at among
    exact (matched.cut child among unclosed).1.elim

/-- A block that is closed stands between the line that opens it and the one that ends it, and so
does all that it holds. -/
theorem IsMatched.close (matched : b.IsMatched lines cutOff) {last : Nat} {closed : Bool}
    {modifier : Option Modifier} (unclosed : cutOff → closed = false)
    (ends : closed = true → ∃ line ∈ lines, last = line.last ∧
      LineRole.ofText line.text = .ends modifier) :
    Throughout (BlockOf.IsBracketed lines) [.block (b.close last closed modifier)] := by
  refine Throughout.block_iff.mpr ⟨⟨matched.opened, ends, fun child member cut => ?_⟩,
    matched.inner⟩
  obtain ⟨cutOff, last⟩ := matched.cut child member cut
  exact ⟨unclosed cutOff, b.current, List.getLast?_concat, last⟩

end OpenBlock

namespace Nesting

variable {s : Nesting} {node : Node}

/-- All that has been read is matched. -/
structure IsMatched (lines : List Line) (s : Nesting) : Prop where
  stack : ∀ b ∈ s.stack, b.IsMatched lines False
  root : Throughout (BlockOf.IsBracketed lines) s.root
  alone : ∀ node ∈ s.root, node.StandsAlone ∧ ¬ node.IsCut

/-- A node can stand where the reading stands. -/
def Admits (s : Nesting) (node : Node) : Prop :=
  match s.stack with
  | [] => node.StandsAlone
  | top :: _ => node.BelongsTo top.kind

/-- So does what is read so far. -/
theorem IsMatched.add (matched : s.IsMatched lines)
    (bracketed : Throughout (BlockOf.IsBracketed lines) [node]) (admitted : s.Admits node)
    (whole : ¬ node.IsCut) : (s.add node).IsMatched lines := by
  obtain ⟨stack, root⟩ := s
  cases stack with
  | nil =>
      exact ⟨matched.stack, Throughout.append_iff.mpr ⟨matched.root, bracketed⟩,
        List.forall_mem_append.mpr ⟨matched.alone, List.forall_mem_singleton.mpr
          ⟨admitted, whole⟩⟩⟩
  | cons top below =>
      obtain ⟨first, others⟩ := List.forall_mem_cons.mp matched.stack
      exact ⟨List.forall_mem_cons.mpr ⟨first.add bracketed admitted whole, others⟩,
        matched.root, matched.alone⟩

/-- Reading one more line keeps all open blocks matched. -/
theorem IsMatched.read (matched : s.IsMatched lines) {line : Line} (member : line ∈ lines) :
    (s.read line).IsMatched lines := by
  have reads := s.reads_read line
  generalize s.read line = next at reads ⊢
  cases reads with
  | @opens stack root kind condition role =>
      refine ⟨List.forall_mem_cons.mpr ⟨⟨⟨member, ⟨condition, [], rfl, role⟩, ?_, ?_⟩, ?_, ?_⟩,
        matched.stack⟩, matched.root, matched.alone⟩
      all_goals exact List.forall_mem_nil _
  | arm role accepted =>
      obtain ⟨first, others⟩ := List.forall_mem_cons.mp matched.stack
      exact ⟨List.forall_mem_cons.mpr ⟨first.openArm member role accepted, others⟩,
        matched.root, matched.alone⟩
  | @ends top below root modifier role =>
      obtain ⟨first, others⟩ := List.forall_mem_cons.mp matched.stack
      have outside : Nesting.IsMatched lines ⟨below, root⟩ :=
        ⟨others, matched.root, matched.alone⟩
      have closing : Throughout (BlockOf.IsBracketed lines)
          [.block (top.close line.last true modifier)] :=
        first.close False.elim fun _ => ⟨line, member, rfl, role⟩
      refine outside.add closing ?_ fun (cut : true = false) => Bool.false_ne_true cut.symm
      cases below <;> trivial
  | @stray root modifier role => exact matched.add (.stray _ line) ⟨modifier, role⟩ id
  | statement role =>
      refine matched.add (.statement _ line) ?_ id
      obtain ⟨stack, root⟩ := s
      cases stack <;> exact .inl role
  | @refused _ arm condition role refused =>
      refine matched.add (.statement _ line) ?_ id
      obtain ⟨stack, root⟩ := s
      cases stack with
      | nil => exact .inr ⟨arm, condition, role, rfl⟩
      | cons top below => exact .inr ⟨arm, condition, role, refused top rfl⟩

/-! ## The end of the lines -/

/-- A block that has no `end` becomes the last thing in the block around it. -/
theorem IsMatched.finish (final : Nat) {stack : List OpenBlock} {root : List Node}
    (innermost : ∀ b ∈ stack.head?, b.IsMatched lines True)
    (outer : ∀ b ∈ stack.tail, b.IsMatched lines False)
    (matched : Throughout (BlockOf.IsBracketed lines) root)
    (alone : ∀ node ∈ root, node.StandsAlone ∧ ¬ node.IsCut) :
    Throughout (BlockOf.IsBracketed lines) (Nesting.finish final stack root) ∧
      ∀ node ∈ Nesting.finish final stack root, node.StandsAlone ∧
        (node.IsCut → (Nesting.finish final stack root).getLast? = some node) := by
  -- Only the innermost block may hold one that was cut, so this is said of the head of the stack.
  fun_induction Nesting.finish final stack root with
  | case1 root =>
      exact ⟨matched, fun node member => ⟨(alone node member).1,
        fun cut => absurd cut (alone node member).2⟩⟩
  | case2 top root node =>
      have closing : Throughout (BlockOf.IsBracketed lines) [node] :=
        (innermost top rfl).close (fun _ => rfl) fun closed => absurd closed Bool.false_ne_true
      refine ⟨Throughout.append_iff.mpr ⟨matched, closing⟩, List.forall_mem_append.mpr ⟨?_, ?_⟩⟩
      · exact fun node member => ⟨(alone node member).1,
          fun cut => absurd cut (alone node member).2⟩
      · exact List.forall_mem_singleton.mpr ⟨trivial, fun _ => List.getLast?_concat⟩
  | case3 top root node next rest ih =>
      have closing : Throughout (BlockOf.IsBracketed lines) [node] :=
        (innermost top rfl).close (fun _ => rfl) fun closed => absurd closed Bool.false_ne_true
      obtain ⟨second, others⟩ := List.forall_mem_cons.mp outer
      refine ih (fun b here => ?_) others matched alone
      obtain rfl := Option.some.inj here
      exact second.add closing trivial fun _ => trivial

end Nesting

/-- The nesting of lines that follow one another matches their brackets. -/
theorem isMatching_ofLines (forward : ∀ line ∈ lines, line.first ≤ line.last)
    (ordered : lines.Pairwise (·.last < ·.first)) : IsMatching lines (Node.ofLines lines) := by
  have stand : NodesStand (fun _ => True) 0 (finalLine lines + 1) (Node.ofLines lines) :=
    nodesStand_ofLines (Nat.zero_le _) ordered fun line member =>
      ⟨⟨Nat.zero_le _, forward line member,
        Nat.lt_succ_of_le (last_le_finalLine ordered forward member)⟩, trivial⟩
  have matched : (lines.foldl Nesting.read ⟨[], []⟩).IsMatched lines := by
    refine List.foldlRecOn lines _ ⟨?_, ?_, ?_⟩ fun s matched line member => matched.read member
    all_goals exact List.forall_mem_nil _
  have innermost : ∀ b ∈ (lines.foldl Nesting.read ⟨[], []⟩).stack.head?,
      b.IsMatched lines True := fun b here =>
    have whole := matched.stack b (List.mem_of_mem_head? here)
    ⟨whole.opened, whole.inner, fun child member cut => (whole.cut child member cut).1.elim⟩
  obtain ⟨blocks, roots⟩ := Nesting.IsMatched.finish (finalLine lines) innermost
    (fun b there => matched.stack b (List.mem_of_mem_tail there)) matched.root matched.alone
  exact ⟨marks_ofLines lines, stand.pairwise, fun node member => (roots node member).1,
    fun node member => (roots node member).2, blocks.and stand.throughout⟩

end Matching

/-- Lines with one `end` too many and two too few. -/
def unbalanced : List Line :=
  [⟨"end".toList, 1, 1, []⟩, ⟨"if a".toList, 2, 3, []⟩, ⟨"rescue b".toList, 4, 4, []⟩,
    ⟨"else".toList, 6, 6, []⟩, ⟨"begin".toList, 7, 7, []⟩]

/-- Their nodes: the arm that the condition does not have is a statement, and both blocks end with
the lines. -/
def unbalancedNodes : List Node :=
  [.stray ⟨"end".toList, 1, 1, []⟩,
    .block ⟨.ifElse, ⟨"if a".toList, 2, 3, []⟩,
      [⟨.body, "a".toList, 2, [.statement ⟨"rescue b".toList, 4, 4, []⟩]⟩,
        ⟨.otherwise, [], 6,
          [.block ⟨.begin, ⟨"begin".toList, 7, 7, []⟩, [⟨.body, [], 7, []⟩], 7, false, none⟩]⟩],
      7, false, none⟩]

theorem ofLines_unbalanced : Node.ofLines unbalanced = unbalancedNodes := by
  have ends : LineRole.ofText "end".toList = .ends none := by decide +kernel
  have condition : LineRole.ofText "if a".toList = .opens .ifElse "a".toList := by decide +kernel
  have arm : LineRole.ofText "rescue b".toList = .arm .rescue "b".toList := by decide +kernel
  have otherwise : LineRole.ofText "else".toList = .arm .otherwise [] := by decide +kernel
  have begins : LineRole.ofText "begin".toList = .opens .begin [] := by decide +kernel
  simp only [unbalanced, Node.ofLines, List.foldl_cons, List.foldl_nil, Nesting.read, ends,
    condition, arm, otherwise, begins]
  simp [BlockKind.accepts, Nesting.add, OpenBlock.add, OpenBlock.openArm, OpenBlock.close,
    Nesting.finish, unbalancedNodes]

theorem isMatching_unbalanced : IsMatching unbalanced unbalancedNodes := by
  rw [← ofLines_unbalanced]
  exact isMatching_ofLines (by decide) (by decide)

end Rolewright.Recipe
