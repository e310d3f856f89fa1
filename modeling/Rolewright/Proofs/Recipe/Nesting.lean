/-
# The nesting keeps every line

Read in source order, a nesting gives back its lines, each in its place: a statement and the header
of a block as they are, an arm and an `end` by their numbers (`marks_ofLines`). One line read adds
one mark, at the end; what the nesting is when the source ends is then closed without losing any.

`Nesting.Reads` lists what reading a line can do. Whatever holds of every nesting that is read is
proved from this list.
-/

import Mathlib.Data.List.Forall2
import Rolewright.Recipe.Block

namespace Rolewright.Recipe

/-- What a nesting keeps of a line. -/
inductive Mark where
  | whole (line : Line)
  | arm (first : Nat)
  | ending (last : Nat)

/-- Whether this is what is kept of a line. -/
def Mark.IsOf (line : Line) : Mark → Prop
  | .whole kept => kept = line
  | .arm first => first = line.first
  | .ending last => last = line.last

/-! ## Reading a line -/

/-- What reading a line makes of a nesting. It opens a block, ends one or opens an arm of it, or is
added where the reading stands, as an `end` too many or as a statement. -/
inductive Nesting.Reads (line : Line) : Nesting → Nesting → Prop
  | opens {stack : List OpenBlock} {root : List Node} {kind : BlockKind} {condition : List Char}
      (role : LineRole.ofText line.text = .opens kind condition) :
      Reads line ⟨stack, root⟩
        ⟨⟨kind, line, [], ⟨.body, condition, line.first, []⟩⟩ :: stack, root⟩
  | arm {top : OpenBlock} {below : List OpenBlock} {root : List Node} {arm : Arm}
      {condition : List Char} (role : LineRole.ofText line.text = .arm arm condition)
      (accepted : top.kind.accepts arm = true) :
      Reads line ⟨top :: below, root⟩ ⟨top.openArm arm condition line.first :: below, root⟩
  | ends {top : OpenBlock} {below : List OpenBlock} {root : List Node}
      {modifier : Option Modifier} (role : LineRole.ofText line.text = .ends modifier) :
      Reads line ⟨top :: below, root⟩
        (Nesting.add ⟨below, root⟩ (.block (top.close line.last true modifier)))
  | stray {root : List Node} {modifier : Option Modifier}
      (role : LineRole.ofText line.text = .ends modifier) :
      Reads line ⟨[], root⟩ (Nesting.add ⟨[], root⟩ (.stray line))
  | statement {s : Nesting} (role : LineRole.ofText line.text = .statement) :
      Reads line s (s.add (.statement line))
  /-- An arm that the innermost block does not have. -/
  | refused {s : Nesting} {arm : Arm} {condition : List Char}
      (role : LineRole.ofText line.text = .arm arm condition)
      (refused : ∀ top ∈ s.stack.head?, top.kind.accepts arm = false) :
      Reads line s (s.add (.statement line))

/-- Reading a line does what its role asks for. -/
theorem Nesting.reads_read (s : Nesting) (line : Line) : Reads line s (s.read line) := by
  obtain ⟨stack, root⟩ := s
  unfold Nesting.read
  cases role : LineRole.ofText line.text with
  | opens kind condition => exact .opens role
  | arm arm condition =>
      cases stack with
      | nil =>
          refine .refused role ?_
          rintro _ ⟨⟩
      | cons top below =>
          dsimp only
          split
          · rename_i accepted
            exact .arm role accepted
          · rename_i refused
            refine .refused role fun innermost first => ?_
            obtain rfl := Option.some.inj first
            exact Bool.eq_false_iff.mpr refused
  | ends modifier =>
      cases stack with
      | nil => exact .stray role
      | cons top below => exact .ends role
  | statement => exact .statement role

/-- Nothing else is made of it. -/
theorem Nesting.Reads.read_eq {line : Line} {s next : Nesting} (reads : Reads line s next) :
    s.read line = next := by
  unfold Nesting.read
  cases reads with
  | opens role | ends role | statement role => rw [role]
  | stray role =>
      rw [role]
      rfl
  | arm role accepted =>
      rw [role]
      exact if_pos accepted
  | refused role refused =>
      obtain ⟨stack, root⟩ := s
      rw [role]
      cases stack with
      | nil => rfl
      | cons top below => exact if_neg (Bool.eq_false_iff.mp (refused top rfl))

/-! ## Induction over a nesting -/

section Induction

variable {motive : Node → Prop} (statement : ∀ line, motive (.statement line))
  (stray : ∀ line, motive (.stray line))
  (block : ∀ b : Block, (∀ child ∈ b.children, motive child) → motive (.block b))

include statement stray block

-- all three are used by each theorem, through the others
set_option linter.unusedSectionVars false in
mutual

/-- What holds of every line by itself, and of a block if it holds of all that its arms hold, holds
of every node. -/
@[elab_as_elim]
theorem Node.inductChildren : ∀ node, motive node
  | .statement line => statement line
  | .stray line => stray line
  | .block ⟨_, _, branches, _, _, _⟩ => block _ fun child member =>
    have ⟨branch, among, held⟩ := List.mem_flatMap.mp member
    inductBranches branches branch among child held

theorem inductBranches :
    ∀ branches : List (Branch Node), ∀ branch ∈ branches, ∀ child ∈ branch.children, motive child
  | [] => fun _ member => nomatch member
  | ⟨_, _, _, children⟩ :: branches =>
    List.forall_mem_cons.mpr ⟨inductNodes children, inductBranches branches⟩

theorem inductNodes : ∀ nodes : List Node, ∀ node ∈ nodes, motive node
  | [] => fun _ member => nomatch member
  | node :: nodes => List.forall_mem_cons.mpr ⟨Node.inductChildren node, inductNodes nodes⟩

end

end Induction

/-! ## The marks of a nesting -/

mutual

/-- The marks of a node in source order. -/
def Node.marks : Node → List Mark
  | .statement line | .stray line => [.whole line]
  | .block ⟨_, header, branches, last, closed, _⟩ =>
    -- the first arm has no line of its own
    .whole header :: ((branchMarks branches).tail ++ if closed then [.ending last] else [])

/-- The marks of the arms of a block, one for each arm before those of what it holds. -/
def branchMarks : List (Branch Node) → List Mark
  | [] => []
  | ⟨_, _, line, children⟩ :: branches => .arm line :: (nodeMarks children ++ branchMarks branches)

/-- The marks of several nodes. -/
def nodeMarks : List Node → List Mark
  | [] => []
  | node :: nodes => node.marks ++ nodeMarks nodes

end

/-- The marks of nodes are those of each, one after the other. -/
theorem nodeMarks_append (nodes others : List Node) :
    nodeMarks (nodes ++ others) = nodeMarks nodes ++ nodeMarks others := by
  induction nodes with
  | nil => rfl
  | cons node nodes ih => simp only [List.cons_append, nodeMarks, ih, List.append_assoc]

theorem branchMarks_append (branches others : List (Branch Node)) :
    branchMarks (branches ++ others) = branchMarks branches ++ branchMarks others := by
  induction branches with
  | nil => rfl
  | cons branch branches ih => simp only [List.cons_append, branchMarks, ih, List.append_assoc]

/-- The marks of a block that is being read. -/
def OpenBlock.marks (b : OpenBlock) : List Mark :=
  .whole b.header :: (branchMarks (b.finished ++ [b.current])).tail

/-- The marks of all that has been read, in source order: the innermost block is read last. -/
def Nesting.marks (s : Nesting) : List Mark :=
  nodeMarks s.root ++ s.stack.reverse.flatMap OpenBlock.marks

namespace OpenBlock

variable (b : OpenBlock)

theorem branchMarks_ne_nil : branchMarks (b.finished ++ [b.current]) ≠ [] := by
  simp [branchMarks_append, branchMarks]

theorem marks_add (node : Node) : (b.add node).marks = b.marks ++ node.marks := by
  have grown : branchMarks ((b.add node).finished ++ [(b.add node).current]) =
      branchMarks (b.finished ++ [b.current]) ++ node.marks := by
    simp [add, branchMarks_append, branchMarks, nodeMarks_append, nodeMarks]
  rw [marks, grown, List.tail_append_of_ne_nil b.branchMarks_ne_nil]
  rfl

/-- An arm that is opened leaves its mark behind the others. -/
theorem marks_openArm (arm : Arm) (condition : List Char) (line : Nat) :
    (b.openArm arm condition line).marks = b.marks ++ [.arm line] := by
  have grown : branchMarks ((b.openArm arm condition line).finished ++
      [(b.openArm arm condition line).current]) =
        branchMarks (b.finished ++ [b.current]) ++ [.arm line] := by
    rw [openArm, branchMarks_append]
    simp [branchMarks, nodeMarks]
  rw [marks, grown, List.tail_append_of_ne_nil b.branchMarks_ne_nil]
  rfl

/-- A block that is closed leaves the mark of its end last, if it has one. -/
theorem marks_close (last : Nat) (closed : Bool) (modifier : Option Modifier) :
    (Node.block (b.close last closed modifier)).marks =
      b.marks ++ if closed then [.ending last] else [] :=
  rfl

end OpenBlock

namespace Nesting

/-- Open blocks come behind all that is finished. -/
theorem marks_push (root : List Node) (top : OpenBlock) (below : List OpenBlock) :
    marks ⟨top :: below, root⟩ = marks ⟨below, root⟩ ++ top.marks := by
  simp [marks, List.flatMap_append]

theorem marks_add (s : Nesting) (node : Node) : (s.add node).marks = s.marks ++ node.marks := by
  obtain ⟨stack, root⟩ := s
  cases stack with
  | nil => simp [add, marks, nodeMarks_append, nodeMarks]
  | cons top below => rw [add, marks_push, marks_push, top.marks_add, List.append_assoc]

/-- A line that is read leaves one mark, after all others. -/
theorem marks_read (s : Nesting) (line : Line) :
    ∃ mark, mark.IsOf line ∧ (s.read line).marks = s.marks ++ [mark] := by
  have reads := s.reads_read line
  generalize s.read line = next at reads ⊢
  cases reads with
  | opens role => exact ⟨.whole line, rfl, marks_push _ _ _⟩
  | @arm top below root arm condition role accepted =>
      refine ⟨.arm line.first, rfl, ?_⟩
      rw [marks_push, marks_push, top.marks_openArm, List.append_assoc]
  | @ends top below root modifier role =>
      refine ⟨.ending line.last, rfl, ?_⟩
      rw [marks_push, marks_add, top.marks_close, List.append_assoc]
      rfl
  | stray role => exact ⟨.whole line, rfl, marks_add _ _⟩
  | statement role | refused role refused => exact ⟨.whole line, rfl, marks_add _ _⟩

/-- The marks of all lines that are read, in their order. -/
theorem marks_foldl_read (lines : List Line) (s : Nesting) :
    ∃ marks, List.Forall₂ Mark.IsOf lines marks ∧
      (lines.foldl read s).marks = s.marks ++ marks := by
  induction lines generalizing s with
  | nil => exact ⟨[], .nil, (List.append_nil _).symm⟩
  | cons line lines ih =>
      obtain ⟨mark, isOf, first⟩ := s.marks_read line
      obtain ⟨marks, areOf, rest⟩ := ih (s.read line)
      refine ⟨mark :: marks, .cons isOf areOf, ?_⟩
      rw [List.foldl_cons, rest, first, List.append_assoc]
      rfl

/-- Closing the open blocks keeps the marks as they are. -/
theorem nodeMarks_finish (last : Nat) (stack : List OpenBlock) (root : List Node) :
    nodeMarks (finish last stack root) = marks ⟨stack, root⟩ := by
  fun_induction finish last stack root with
  | case1 root => simp [marks]
  | case2 root top node =>
      rw [nodeMarks_append, marks_push]
      simp [marks, nodeMarks, node, OpenBlock.marks_close]
  | case3 root top node next rest ih =>
      rw [ih, marks_push, marks_push, marks_push, next.marks_add, List.append_assoc]
      simp [node, OpenBlock.marks_close]

end Nesting

/-- Read in source order a nesting gives back its lines, none lost, doubled or moved. -/
theorem marks_ofLines (lines : List Line) :
    List.Forall₂ Mark.IsOf lines (nodeMarks (Node.ofLines lines)) := by
  obtain ⟨marks, areOf, all⟩ := Nesting.marks_foldl_read lines ⟨[], []⟩
  rw [Node.ofLines, Nesting.nodeMarks_finish]
  change List.Forall₂ Mark.IsOf lines (lines.foldl Nesting.read ⟨[], []⟩).marks
  rw [all]
  exact areOf

/-! ## The blocks of a nesting -/

/-- The physical line on which the last of some lines ends. -/
def finalLine (lines : List Line) : Nat :=
  (lines.getLast?.map (·.last)).getD 0

/-- What is known of a block: its header opens it, and without an `end` it reaches to the end of the
source. -/
structure BlockOf.Formed (final : Nat) (block : Block) : Prop where
  opened : ∃ condition, LineRole.ofText block.header.text = .opens block.kind condition
  cut : block.closed = false → block.last = max final block.header.last

mutual

/-- A node whose blocks are all well formed. -/
def Node.Formed (final : Nat) : Node → Prop
  | .statement _ | .stray _ => True
  | .block ⟨kind, header, branches, last, closed, modifier⟩ =>
    BlockOf.Formed final ⟨kind, header, branches, last, closed, modifier⟩ ∧
      FormedBranches final branches

/-- Arms that hold only such nodes. -/
def FormedBranches (final : Nat) : List (Branch Node) → Prop
  | [] => True
  | ⟨_, _, _, children⟩ :: branches => FormedNodes final children ∧ FormedBranches final branches

/-- Several such nodes. -/
def FormedNodes (final : Nat) : List Node → Prop
  | [] => True
  | node :: nodes => node.Formed final ∧ FormedNodes final nodes

end

section Formed

variable {final : Nat}

/-- Nodes are well formed if each of them is, -/
theorem formedNodes_iff {nodes : List Node} :
    FormedNodes final nodes ↔ ∀ node ∈ nodes, node.Formed final := by
  induction nodes with
  | nil => simp [FormedNodes]
  | cons node nodes ih => simp [FormedNodes, ih]

/-- and branches if all that they hold is. -/
theorem formedBranches_iff {branches : List (Branch Node)} :
    FormedBranches final branches ↔ ∀ branch ∈ branches, FormedNodes final branch.children := by
  induction branches with
  | nil => simp [FormedBranches]
  | cons branch branches ih => simp [FormedBranches, ih]

theorem formedNodes_append {nodes others : List Node} :
    FormedNodes final (nodes ++ others) ↔ FormedNodes final nodes ∧ FormedNodes final others := by
  simp only [formedNodes_iff, List.forall_mem_append]

theorem formedBranches_append {branches others : List (Branch Node)} :
    FormedBranches final (branches ++ others) ↔
      FormedBranches final branches ∧ FormedBranches final others := by
  simp only [formedBranches_iff, List.forall_mem_append]

/-- What is known of a block that is being read. -/
structure OpenBlock.Formed (final : Nat) (b : OpenBlock) : Prop where
  opened : ∃ condition, LineRole.ofText b.header.text = .opens b.kind condition
  finished : FormedBranches final b.finished
  current : FormedNodes final b.current.children

/-- All that has been read is well formed. -/
structure Nesting.Formed (final : Nat) (s : Nesting) : Prop where
  root : FormedNodes final s.root
  stack : ∀ b ∈ s.stack, b.Formed final

/-- An open block stays well formed when a node is added -/
theorem OpenBlock.Formed.add {b : OpenBlock} {node : Node} (formed : b.Formed final)
    (new : node.Formed final) : (b.add node).Formed final where
  opened := formed.opened
  finished := formed.finished
  current := formedNodes_append.mpr ⟨formed.current, new, trivial⟩

/-- and when an arm is opened. -/
theorem OpenBlock.Formed.openArm {b : OpenBlock} (formed : b.Formed final) (arm : Arm)
    (condition : List Char) (line : Nat) : (b.openArm arm condition line).Formed final where
  opened := formed.opened
  finished := formedBranches_append.mpr ⟨formed.finished, formed.current, trivial⟩
  current := trivial

/-- Closed at its end, or at the last line if it has none, it is well formed as a node. -/
theorem OpenBlock.Formed.close {b : OpenBlock} (formed : b.Formed final) {last : Nat}
    {closed : Bool} (cut : closed = false → last = max final b.header.last)
    (modifier : Option Modifier) : (Node.block (b.close last closed modifier)).Formed final :=
  ⟨⟨formed.opened, cut⟩, formedBranches_append.mpr ⟨formed.finished, formed.current, trivial⟩⟩

namespace Nesting

theorem Formed.add {s : Nesting} {node : Node} (formed : s.Formed final)
    (new : node.Formed final) : (s.add node).Formed final := by
  obtain ⟨stack, root⟩ := s
  cases stack with
  | nil => exact ⟨formedNodes_append.mpr ⟨formed.root, new, trivial⟩, formed.stack⟩
  | cons top below =>
      have ⟨first, others⟩ := List.forall_mem_cons.mp formed.stack
      exact ⟨formed.root, List.forall_mem_cons.mpr ⟨first.add new, others⟩⟩

/-- Reading one more line keeps all that is read well formed, -/
theorem Formed.read {s : Nesting} (formed : s.Formed final) (line : Line) :
    (s.read line).Formed final := by
  have reads := s.reads_read line
  generalize s.read line = next at reads ⊢
  cases reads with
  | @opens stack root kind condition role =>
      exact ⟨formed.root, List.forall_mem_cons.mpr
        ⟨⟨⟨condition, role⟩, trivial, trivial⟩, formed.stack⟩⟩
  | arm role accepted =>
      have ⟨first, others⟩ := List.forall_mem_cons.mp formed.stack
      exact ⟨formed.root, List.forall_mem_cons.mpr ⟨first.openArm _ _ _, others⟩⟩
  | @ends top below root modifier role =>
      have ⟨first, others⟩ := List.forall_mem_cons.mp formed.stack
      have rest : Nesting.Formed final ⟨below, root⟩ := ⟨formed.root, others⟩
      have closing : (Node.block (top.close line.last true modifier)).Formed final :=
        first.close (by intro unclosed; cases unclosed) modifier
      exact rest.add closing
  | stray role => exact formed.add trivial
  | statement role | refused role refused => exact formed.add trivial

/-- and so does closing at the last line what is still open. -/
theorem Formed.finish {stack : List OpenBlock} {root : List Node}
    (formed : Nesting.Formed final ⟨stack, root⟩) :
    FormedNodes final (Nesting.finish final stack root) := by
  fun_induction Nesting.finish final stack root with
  | case1 root => exact formed.root
  | case2 root top node =>
      have ⟨first, _⟩ := List.forall_mem_cons.mp formed.stack
      exact formedNodes_append.mpr ⟨formed.root, first.close (fun _ => rfl) none, trivial⟩
  | case3 root top node next rest ih =>
      have ⟨first, others⟩ := List.forall_mem_cons.mp formed.stack
      have ⟨second, others⟩ := List.forall_mem_cons.mp others
      have grown : (next.add node).Formed final := second.add (first.close (fun _ => rfl) none)
      exact ih ⟨formed.root, List.forall_mem_cons.mpr ⟨grown, others⟩⟩

end Nesting

/-- The blocks of a nesting are well formed. -/
theorem formed_ofLines (lines : List Line) :
    FormedNodes (finalLine lines) (Node.ofLines lines) := by
  refine Nesting.Formed.finish (List.foldlRecOn lines _ ?_ ?_)
  · exact ⟨trivial, fun _ member => nomatch member⟩
  · exact fun s formed line _ => formed.read line

end Formed

/-! ## Where no block is open -/

/-- Whether a line with this role is a statement when no block is open. -/
def LineRole.standsAlone : LineRole → Bool
  | .statement | .arm _ _ => true
  | _ => false

/-- Lines that are all statements are the nodes. -/
theorem Node.ofLines_statements {lines : List Line}
    (alone : ∀ line ∈ lines, (LineRole.ofText line.text).standsAlone = true) :
    Node.ofLines lines = lines.map .statement := by
  have read (root : List Node) (rest : List Line)
      (alone : ∀ line ∈ rest, (LineRole.ofText line.text).standsAlone = true) :
      rest.foldl Nesting.read ⟨[], root⟩ = ⟨[], root ++ rest.map .statement⟩ := by
    induction rest generalizing root with
    | nil => simp
    | cons line rest ih =>
        obtain ⟨here, later⟩ := List.forall_mem_cons.mp alone
        have added : Nesting.read ⟨[], root⟩ line = ⟨[], root ++ [.statement line]⟩ := by
          rw [Nesting.read]
          cases role : LineRole.ofText line.text with
          | «statement» | arm => rfl
          | opens | ends =>
              rw [role] at here
              cases here
        rw [List.foldl_cons, added, ih _ later]
        simp
  rw [Node.ofLines, read [] lines alone, Nesting.finish]
  rfl

/-- A block that is opened on the only line holds nothing. -/
theorem Node.ofLines_opens {line : Line} {kind : BlockKind} {condition : List Char}
    (opens : LineRole.ofText line.text = .opens kind condition) :
    Node.ofLines [line] = [.block ⟨kind, line, [⟨.body, condition, line.first, []⟩],
      max line.last line.last, false, none⟩] := by
  have read : Nesting.read ⟨[], []⟩ line =
      ⟨[⟨kind, line, [], ⟨.body, condition, line.first, []⟩⟩], []⟩ := by
    rw [Nesting.read, opens]
  rw [Node.ofLines, List.foldl_cons, List.foldl_nil, read, Nesting.finish]
  rfl

end Rolewright.Recipe
