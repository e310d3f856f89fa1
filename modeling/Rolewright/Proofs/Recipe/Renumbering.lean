/-
# Lines under other numbers

No statement and no block is read otherwise because of the numbers of its physical lines. Statements
that are counted from a later number are the same under later numbers (`statements_add`), and the
nesting of lines whose numbers change, but stay in order, is the same nesting under the new numbers
(`ofLines_renumber`). The order matters for blocks without an `end`, as these end with the last of
the lines.
-/

import Mathlib.Order.MinMax
import Rolewright.Proofs.Recipe.Lines
import Rolewright.Proofs.Recipe.Nesting

namespace Rolewright.Recipe

/-- A line on other physical lines. -/
def Line.renumber (f : Nat → Nat) (line : Line) : Line :=
  { line with first := f line.first, last := f line.last }

/-! ## Statements -/

/-- Statements that are counted from a later number have later numbers, and are the same
otherwise. -/
theorem statements_add (number count : Nat) (rows : List (List Char)) :
    statements (number + count) rows =
      (statements number rows).map (Line.renumber (· + count)) := by
  fun_induction statements number rows with
  | case1 number => rw [statements, List.map_nil]
  | case2 number row rows documentation fewer ih =>
      rw [← ih, statements, if_pos documentation]
      congr 1
      omega
  | case3 number row rows code fewer taken next text others empty ih =>
      have later : number + count + 1 + (rows.length - taken.2.length) = next + count := by omega
      rw [← ih, statements, if_neg code]
      dsimp only
      rw [if_pos empty]
      exact congrArg (statements · taken.2) later
  | case4 number row rows code fewer taken next text others full ih =>
      have later : number + count + 1 + (rows.length - taken.2.length) = next + count := by omega
      have last : next + count - 1 = next - 1 + count := by omega
      rw [List.map_cons, ← ih, statements, if_neg code]
      dsimp only
      rw [if_neg full, later, last]
      rfl

/-! ## Nodes -/

mutual

/-- A node on other physical lines. -/
def Node.renumber (f : Nat → Nat) : Node → Node
  | .statement line => .statement (line.renumber f)
  | .stray line => .stray (line.renumber f)
  | .block ⟨kind, header, branches, last, closed, modifier⟩ =>
    .block ⟨kind, header.renumber f, renumberBranches f branches, f last, closed, modifier⟩

/-- The arms of a block on other physical lines. -/
def renumberBranches (f : Nat → Nat) : List (Branch Node) → List (Branch Node)
  | [] => []
  | ⟨arm, condition, line, children⟩ :: branches =>
    ⟨arm, condition, f line, renumberNodes f children⟩ :: renumberBranches f branches

/-- Several nodes on other physical lines. -/
def renumberNodes (f : Nat → Nat) : List Node → List Node
  | [] => []
  | node :: nodes => node.renumber f :: renumberNodes f nodes

end

section Renumber

variable {f : Nat → Nat}

theorem renumberNodes_eq_map (nodes : List Node) :
    renumberNodes f nodes = nodes.map (Node.renumber f) := by
  induction nodes with
  | nil => rfl
  | cons node nodes ih => rw [renumberNodes, ih, List.map_cons]

/-- An arm on other physical lines. -/
def Branch.renumber (f : Nat → Nat) (branch : Branch Node) : Branch Node :=
  ⟨branch.arm, branch.condition, f branch.line, branch.children.map (Node.renumber f)⟩

theorem renumberBranches_eq_map (branches : List (Branch Node)) :
    renumberBranches f branches = branches.map (Branch.renumber f) := by
  induction branches with
  | nil => rfl
  | cons branch branches ih =>
      rw [renumberBranches, ih, renumberNodes_eq_map, List.map_cons, Branch.renumber]

/-! ## Reading lines -/

namespace OpenBlock

/-- A block that is being read, on other physical lines. -/
def renumber (f : Nat → Nat) (b : OpenBlock) : OpenBlock :=
  ⟨b.kind, b.header.renumber f, b.finished.map (Branch.renumber f), b.current.renumber f⟩

variable (b : OpenBlock)

theorem renumber_add (node : Node) :
    (b.add node).renumber f = (b.renumber f).add (node.renumber f) := by
  simp [renumber, add, Branch.renumber]

/-- So does opening an arm. -/
theorem renumber_openArm (arm : Arm) (condition : List Char) (line : Nat) :
    (b.openArm arm condition line).renumber f = (b.renumber f).openArm arm condition (f line) := by
  simp [renumber, openArm, Branch.renumber]

/-- A block that is closed is numbered anew like the open one. -/
theorem renumber_close (last : Nat) (closed : Bool) (modifier : Option Modifier) :
    (Node.block (b.close last closed modifier)).renumber f =
      .block ((b.renumber f).close (f last) closed modifier) := by
  simp [renumber, close, Node.renumber, renumberBranches_eq_map]

end OpenBlock

namespace Nesting

/-- A nesting on other physical lines. -/
def renumber (f : Nat → Nat) (s : Nesting) : Nesting :=
  ⟨s.stack.map (OpenBlock.renumber f), s.root.map (Node.renumber f)⟩

theorem renumber_add (s : Nesting) (node : Node) :
    (s.add node).renumber f = (s.renumber f).add (node.renumber f) := by
  obtain ⟨stack, root⟩ := s
  cases stack with
  | nil => simp [renumber, add]
  | cons top below => simp [renumber, add, OpenBlock.renumber_add]

/-- Reading a line does not depend on the numbers. -/
theorem Reads.renumber {line : Line} {s next : Nesting} (reads : Reads line s next) :
    Reads (line.renumber f) (s.renumber f) (next.renumber f) := by
  cases reads with
  | opens role => exact .opens role
  | @arm top below root arm condition role accepted =>
      have opened : Reads (line.renumber f) (Nesting.renumber f ⟨top :: below, root⟩)
          ⟨(top.renumber f).openArm arm condition (f line.first) ::
            below.map (OpenBlock.renumber f), root.map (Node.renumber f)⟩ := .arm role accepted
      rwa [← top.renumber_openArm] at opened
  | ends role =>
      rw [renumber_add, OpenBlock.renumber_close]
      exact .ends role
  | stray role =>
      rw [renumber_add]
      exact .stray role
  | statement role =>
      rw [renumber_add]
      exact .statement role
  | @refused s arm condition role refused =>
      rw [renumber_add]
      refine .refused role ?_
      obtain ⟨stack, root⟩ := s
      cases stack with
      | nil =>
          rintro _ ⟨⟩
      | cons top below =>
          rintro _ ⟨⟩
          exact refused top rfl

/-- So lines may be numbered anew before they are read or after. -/
theorem renumber_foldl_read (lines : List Line) (s : Nesting) :
    (lines.foldl Nesting.read s).renumber f =
      (lines.map (Line.renumber f)).foldl Nesting.read (s.renumber f) := by
  induction lines generalizing s with
  | nil => rfl
  | cons line lines ih =>
      rw [List.foldl_cons, ih, ← (s.reads_read line).renumber.read_eq, List.map_cons,
        List.foldl_cons]

/-- The end of the lines stays their end. -/
theorem finish_renumber (monotone : Monotone f) (final : Nat) (stack : List OpenBlock)
    (root : List Node) :
    Nesting.finish (f final) (stack.map (OpenBlock.renumber f)) (root.map (Node.renumber f)) =
      (Nesting.finish final stack root).map (Node.renumber f) := by
  have closing (top : OpenBlock) :
      (Node.block (top.close (max final top.header.last) false none)).renumber f = .block
        ((top.renumber f).close (max (f final) (top.renumber f).header.last) false none) := by
    rw [top.renumber_close, monotone.map_max]
    rfl
  fun_induction Nesting.finish final stack root with
  | case1 => rw [List.map_nil, Nesting.finish]
  | case2 top root node =>
      rw [List.map_append, List.map_singleton, List.map_singleton, closing, Nesting.finish]
  | case3 top root node next rest ih =>
      rw [← ih, List.map_cons, List.map_cons, List.map_cons, next.renumber_add, closing]
      conv => lhs; rw [Nesting.finish]

end Nesting

/-- Lines whose numbers stay in order have the same nesting. -/
theorem ofLines_renumber (monotone : Monotone f) (lines : List Line) :
    Node.ofLines (lines.map (Line.renumber f)) = (Node.ofLines lines).map (Node.renumber f) := by
  cases last : lines.getLast? with
  | none =>
      rw [List.getLast?_eq_none_iff.mp last]
      simp [Node.ofLines, Nesting.finish]
  | some line =>
      have read : (lines.map (Line.renumber f)).foldl Nesting.read ⟨[], []⟩ =
          (lines.foldl Nesting.read ⟨[], []⟩).renumber f :=
        (Nesting.renumber_foldl_read lines ⟨[], []⟩).symm
      rw [Node.ofLines, Node.ofLines, read, List.getLast?_map, last]
      exact Nesting.finish_renumber monotone line.last _ _

end Renumber

end Rolewright.Recipe
