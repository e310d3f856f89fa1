/-
# The lines of a nesting follow one another

Lines that follow one another still do in their nesting: those of a node lie before those of the
next, and those of a block between its header and its last line (`nodesStand_ofLines`). Lines that
are read one by one keep this, as each stands after all that has been read.

A property of the statements is carried along, so that it need not be looked up line by line later.
-/

import Rolewright.Proofs.Recipe.Places

namespace Rolewright.Recipe

open Text

/-- Bounds may be widened, for a line -/
theorem Line.Within.widen {line : Line} {low low' high high' : Nat} (within : line.Within low high)
    (lower : low' ≤ low) (higher : high ≤ high') : line.Within low' high' :=
  ⟨Nat.le_trans lower within.low_le, within.first_le, Nat.lt_of_lt_of_le within.last_lt higher⟩

theorem Line.Within.lt {line : Line} {low high : Nat} (within : line.Within low high) :
    low < high :=
  Nat.lt_of_le_of_lt (Nat.le_trans within.low_le within.first_le) within.last_lt

/-! ## Nodes in order -/

section Stand

variable (p : Line → Prop)

mutual

/-- The lines of a node follow one another, from the physical line `low` on and before `high`, and
its statements satisfy `p`. -/
def Node.Stands (low high : Nat) : Node → Prop
  | .statement line => line.Within low high ∧ p line
  | .stray line => line.Within low high
  | .block ⟨_, header, branches, last, _, _⟩ =>
    header.Within low high ∧ last < high ∧ BranchesStand (header.last + 1) (last + 1) branches

/-- So do the lines in the arms of a block. -/
def BranchesStand (low high : Nat) : List (Branch Node) → Prop
  | [] => low ≤ high
  | ⟨_, _, _, children⟩ :: branches =>
    ∃ mid, NodesStand low mid children ∧ BranchesStand mid high branches

/-- So do the lines of several nodes. -/
def NodesStand (low high : Nat) : List Node → Prop
  | [] => low ≤ high
  | node :: nodes => ∃ mid, node.Stands low mid ∧ NodesStand mid high nodes

end

variable {p} {low low' mid high high' : Nat}

/-- for a node -/
theorem Node.Stands.widen {node : Node} (stands : node.Stands p low high) (lower : low' ≤ low)
    (higher : high ≤ high') : node.Stands p low' high' := by
  cases node with
  | statement line => exact ⟨stands.1.widen lower higher, stands.2⟩
  | stray line => exact Line.Within.widen stands lower higher
  | block block =>
      obtain ⟨within, ends, inner⟩ := stands
      exact ⟨within.widen lower higher, Nat.lt_of_lt_of_le ends higher, inner⟩

/-- and for nodes. -/
theorem NodesStand.widen {nodes : List Node} (stand : NodesStand p low high nodes)
    (lower : low' ≤ low) (higher : high ≤ high') : NodesStand p low' high' nodes := by
  induction nodes generalizing low low' with
  | nil => exact Nat.le_trans lower (Nat.le_trans stand higher)
  | cons node nodes ih =>
      obtain ⟨mid, first, others⟩ := stand
      exact ⟨mid, first.widen lower (Nat.le_refl _), ih others (Nat.le_refl _)⟩

theorem Node.Stands.lt {node : Node} (stands : node.Stands p low high) : low < high := by
  cases node with
  | statement line => exact stands.1.lt
  | stray line => exact Line.Within.lt stands
  | block block => exact stands.1.lt

theorem NodesStand.le {nodes : List Node} (stand : NodesStand p low high nodes) : low ≤ high := by
  induction nodes generalizing low with
  | nil => exact stand
  | cons node nodes ih =>
      obtain ⟨mid, first, others⟩ := stand
      exact Nat.le_trans (Nat.le_of_lt first.lt) (ih others)

/-- The lines of a node lie within its bounds. -/
theorem Node.Stands.bounds {node : Node} (stands : node.Stands p low high) :
    low ≤ node.first ∧ node.last < high := by
  cases node with
  | statement line => exact ⟨stands.1.low_le, stands.1.last_lt⟩
  | stray line =>
      have within : line.Within low high := stands
      exact ⟨within.low_le, within.last_lt⟩
  | block block => exact ⟨stands.1.low_le, stands.2.1⟩

/-- What holds of the nodes of a list together holds of each. -/
theorem NodesStand.stands_of_mem {nodes : List Node} {node : Node}
    (stand : NodesStand p low high nodes) (member : node ∈ nodes) : node.Stands p low high := by
  induction nodes generalizing low with
  | nil => cases member
  | cons first others ih =>
      obtain ⟨mid, here, rest⟩ := stand
      rcases List.mem_cons.mp member with rfl | later
      · exact here.widen (Nat.le_refl _) rest.le
      · exact (ih rest later).widen (Nat.le_of_lt here.lt) (Nat.le_refl _)

/-- Each node ends before the next begins. -/
theorem NodesStand.pairwise {nodes : List Node} (stand : NodesStand p low high nodes) :
    nodes.Pairwise (·.last < ·.first) := by
  induction nodes generalizing low with
  | nil => exact .nil
  | cons node nodes ih =>
      obtain ⟨mid, first, others⟩ := stand
      refine .cons (fun other member => ?_) (ih others)
      exact Nat.lt_of_lt_of_le first.bounds.2 (others.stands_of_mem member).bounds.1

/-- Nodes stand in order exactly if they do so on both sides of some line between them. -/
theorem nodesStand_append {nodes others : List Node} :
    NodesStand p low high (nodes ++ others) ↔
      ∃ mid, NodesStand p low mid nodes ∧ NodesStand p mid high others := by
  induction nodes generalizing low with
  | nil =>
      constructor
      · exact fun stand => ⟨low, Nat.le_refl _, stand⟩
      · exact fun ⟨mid, lower, stand⟩ => stand.widen lower (Nat.le_refl _)
  | cons node nodes ih =>
      simp only [List.cons_append, NodesStand, ih]
      constructor
      · exact fun ⟨first, here, mid, between, rest⟩ => ⟨mid, ⟨first, here, between⟩, rest⟩
      · exact fun ⟨mid, ⟨first, here, between⟩, rest⟩ => ⟨first, here, mid, between, rest⟩

theorem nodesStand_singleton {node : Node} (stands : node.Stands p low high) :
    NodesStand p low high [node] :=
  ⟨high, stands, Nat.le_refl _⟩

/-- The arms of a block matter only for what they hold. -/
theorem branchesStand_iff {branches : List (Branch Node)} :
    BranchesStand p low high branches ↔ NodesStand p low high (branches.flatMap (·.children)) := by
  induction branches generalizing low with
  | nil => exact Iff.rfl
  | cons branch branches ih =>
      rw [List.flatMap_cons, nodesStand_append]
      simp only [BranchesStand, ih]

/-! ## Reading keeps the order -/

/-- All that a block holds so far. -/
def OpenBlock.children (b : OpenBlock) : List Node :=
  (b.finished ++ [b.current]).flatMap (·.children)

theorem OpenBlock.children_add (b : OpenBlock) (node : Node) :
    (b.add node).children = b.children ++ [node] := by
  simp [children, add]

theorem OpenBlock.children_openArm (b : OpenBlock) (arm : Arm) (condition : List Char)
    (line : Nat) : (b.openArm arm condition line).children = b.children := by
  simp [children, openArm]

/-- A block stands where its header does, what it holds stands behind the header, and its end comes
last. -/
theorem OpenBlock.close_stands {b : OpenBlock} (header : b.header.Within low high)
    (held : NodesStand p (b.header.last + 1) mid b.children) {last : Nat} (later : mid ≤ last + 1)
    (ends : last < high) (closed : Bool) (modifier : Option Modifier) :
    (Node.block (b.close last closed modifier)).Stands p low high :=
  ⟨header, ends, branchesStand_iff.mpr (held.widen (Nat.le_refl _) later)⟩

/-- The lines of the open blocks, the innermost first, follow one another, and so do those of the
finished nodes before them, from the physical line `base` on. -/
def OpensStand (p : Line → Prop) (base : Nat) (root : List Node) : Nat → List OpenBlock → Prop
  | high, [] => NodesStand p base high root
  | high, top :: below =>
    ∃ mid, OpensStand p base root mid below ∧ top.header.Within mid high ∧
      NodesStand p (top.header.last + 1) high top.children

namespace Nesting

variable {base : Nat} {root : List Node} {stack : List OpenBlock} {s : Nesting}

/-- All lines read so far follow one another, from `base` on, and end before `high`. -/
def Stands (p : Line → Prop) (base high : Nat) (s : Nesting) : Prop :=
  OpensStand p base s.root high s.stack

/-- So may those of what is read so far. -/
theorem Stands.widen (stands : s.Stands p base high) (higher : high ≤ high') :
    s.Stands p base high' := by
  obtain ⟨stack, root⟩ := s
  cases stack with
  | nil => exact NodesStand.widen stands (Nat.le_refl _) higher
  | cons top below =>
      obtain ⟨mid, outer, header, held⟩ := stands
      exact ⟨mid, outer, header.widen (Nat.le_refl _) higher, held.widen (Nat.le_refl _) higher⟩

/-- A node behind all that was read may be added. -/
theorem Stands.add {node : Node} (stands : s.Stands p base low) (new : node.Stands p low high) :
    (s.add node).Stands p base high := by
  obtain ⟨stack, root⟩ := s
  cases stack with
  | nil => exact nodesStand_append.mpr ⟨low, stands, nodesStand_singleton new⟩
  | cons top below =>
      obtain ⟨mid, outer, header, held⟩ := stands
      refine ⟨mid, outer, header.widen (Nat.le_refl _) (Nat.le_of_lt new.lt), ?_⟩
      rw [top.children_add]
      exact nodesStand_append.mpr ⟨low, held, nodesStand_singleton new⟩

/-- A line that is read stands after all others. -/
theorem Stands.read {line : Line} (stands : s.Stands p base low) (within : line.Within low high)
    (good : p line) : (s.read line).Stands p base high := by
  have later : low ≤ high := Nat.le_of_lt within.lt
  have reads := s.reads_read line
  generalize s.read line = next at reads ⊢
  cases reads with
  | opens role =>
      exact ⟨low, stands, within, nodesStand_append.mpr ⟨_, Nat.le_refl _, within.last_lt⟩⟩
  | @arm top below root arm condition role accepted =>
      obtain ⟨mid, outer, header, held⟩ := stands.widen later
      refine ⟨mid, outer, header, ?_⟩
      rw [top.children_openArm]
      exact held
  | @ends top below root modifier role =>
      obtain ⟨mid, outer, header, held⟩ := stands
      have reached : low ≤ line.last + 1 :=
        Nat.le_succ_of_le (Nat.le_trans within.low_le within.first_le)
      exact Stands.add (s := ⟨below, root⟩) outer (top.close_stands
        (header.widen (Nat.le_refl _) later) held reached within.last_lt true modifier)
  | stray role => exact stands.add within
  | statement role | refused role refused => exact stands.add ⟨within, good⟩

/-- Reading lines in order keeps all nodes in order. -/
theorem Stands.foldl_read {lines : List Line} (stands : s.Stands p base low) (reach : low ≤ high)
    (ordered : lines.Pairwise (·.last < ·.first))
    (within : ∀ line ∈ lines, line.Within low high ∧ p line) :
    (lines.foldl Nesting.read s).Stands p base high := by
  induction lines generalizing s low with
  | nil => exact stands.widen reach
  | cons line lines ih =>
      obtain ⟨here, good⟩ := within line (.head _)
      obtain ⟨follow, ordered⟩ := List.pairwise_cons.mp ordered
      have next : line.Within low (line.last + 1) :=
        ⟨here.low_le, here.first_le, Nat.lt_succ_self _⟩
      refine ih (stands.read next good) here.last_lt ordered fun other member => ?_
      obtain ⟨there, good⟩ := within other (.tail _ member)
      exact ⟨⟨follow other member, there.first_le, there.last_lt⟩, good⟩

/-- A block without an `end` reaches to the end of the source, and nothing comes after it. -/
theorem Stands.finish {final : Nat} (stands : Nesting.Stands p base (final + 1) ⟨stack, root⟩) :
    NodesStand p base (final + 1) (Nesting.finish final stack root) := by
  fun_induction Nesting.finish final stack root with
  | case1 => exact stands
  | case2 top root node =>
      obtain ⟨mid, outer, header, held⟩ := stands
      have last : max final top.header.last = final :=
        Nat.max_eq_left (Nat.le_of_lt_succ header.last_lt)
      refine nodesStand_append.mpr ⟨mid, outer, nodesStand_singleton ?_⟩
      exact top.close_stands header held (Nat.succ_le_succ (Nat.le_of_eq last.symm))
        (Nat.lt_succ_of_le (Nat.le_of_eq last)) _ _
  | case3 top root node next rest ih =>
      obtain ⟨mid, outer, header, held⟩ := stands
      have last : max final top.header.last = final :=
        Nat.max_eq_left (Nat.le_of_lt_succ header.last_lt)
      have closed : node.Stands p mid (final + 1) :=
        top.close_stands header held (Nat.succ_le_succ (Nat.le_of_eq last.symm))
          (Nat.lt_succ_of_le (Nat.le_of_eq last)) _ _
      exact ih (Stands.add (s := ⟨next :: rest, root⟩) outer closed)

end Nesting

/-- Lines that follow one another do so in their nesting. -/
theorem nodesStand_ofLines {lines : List Line} {base : Nat} (reach : base ≤ finalLine lines + 1)
    (ordered : lines.Pairwise (·.last < ·.first))
    (within : ∀ line ∈ lines, line.Within base (finalLine lines + 1) ∧ p line) :
    NodesStand p base (finalLine lines + 1) (Node.ofLines lines) := by
  have start : Nesting.Stands p base base ⟨[], []⟩ := Nat.le_refl base
  exact Nesting.Stands.finish (start.foldl_read reach ordered within)

/-- The nodes of a source stand in order, from its first line to its last. -/
theorem nodesStand_ofSource {source : List Char} (good : ∀ line ∈ Line.ofSource source, p line) :
    NodesStand p 1 (finalLine (Line.ofSource source) + 1)
      (Node.ofLines (Line.ofSource source)) := by
  have laid := laid_ofSource source
  refine nodesStand_ofLines (Nat.succ_le_succ (Nat.zero_le _)) laid.ordered ?_
  exact fun line member => ⟨laid.within line member, good line member⟩

end Stand

end Rolewright.Recipe
