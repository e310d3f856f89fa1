/-
# Where declarations stand

The declarations of a source file stand on lines of it, in source order, and two of them share lines
only where a resource stands in the body of another (`laidOut_extract`). A loop on one line is the
exception, as all that it declares stands on that line: what is said of shared lines supposes that
there is none.

The order is that of the nesting, in which the lines of a node lie before those of the next
(`nodesStand_ofSource`). It passes to what the nodes give (`orderly_findingsOf`), and from there to
the declarations, as it is kept when stretches are joined (`Orderly.join`).
-/

import Rolewright.Proofs.Recipe.Coverage
import Rolewright.Proofs.Recipe.Order
import Rolewright.Proofs.Recipe.Stretches

namespace Rolewright.Recipe

open Text

/-! ## What is found follows the lines -/

/-- The text of a loop on one line. -/
def IsInlineLoop (text : List Char) : Prop :=
  ∃ inline, splitInlineBlock? (splitModifier text).1 = some inline ∧
    CallRole.ofHead inline.head = .loop

/-- What is asked of a statement: that it is no loop, if no lines are to be shared. -/
def Line.IsSingle (apart : Prop) (line : Line) : Prop :=
  apart → ¬ IsInlineLoop line.text

namespace Finding

/-- The first and the last line of a declaration or of a stretch. -/
def extent? : Finding → Option (Nat × Nat)
  | .declared d => some (d.span.first, d.span.last)
  | .unknown first last _ => some (first, last)
  | _ => none

def IsResource : Finding → Prop
  | .declared _ => True
  | _ => False

/-- A finding lies between two lines. -/
def Lies (low high : Nat) (finding : Finding) : Prop :=
  ∀ extent ∈ finding.extent?, low ≤ extent.1 ∧ extent.1 ≤ extent.2 ∧ extent.2 < high

/-- A finding begins no later than another one. They share no lines, if that is asked for, unless
one is a resource in the body of the other. -/
def Precedes (apart : Prop) (a b : Finding) : Prop :=
  ∀ i ∈ a.extent?, ∀ j ∈ b.extent?, i.1 ≤ j.1 ∧
    (apart → i.2 < j.1 ∨ a.IsResource ∧ b.IsResource ∧ j.2 ≤ i.2)

end Finding

/-- What a statement gives stands on all of its lines. -/
theorem Finding.IsOf.extent {o : Origin} {line : Line} {finding : Finding}
    (isOf : finding.IsOf o line) (ordered : line.first ≤ line.last) :
    ∀ extent ∈ finding.extent?, extent = (line.first, line.last) := by
  intro extent known
  cases finding with
  | declared d =>
      obtain ⟨head, type, argument, guards, -, -, embodies⟩ := isOf
      have last : max line.last line.first = line.last := Nat.max_eq_left ordered
      cases known
      simp only [embodies.span, Origin.declaration, Origin.span, last]
  | unknown first last guards =>
      obtain ⟨rfl, rfl⟩ := isOf
      exact (Option.some.inj known).symm
  | _ => cases known

/-- Findings that lie between two lines, in order. -/
structure Orderly (apart : Prop) (low high : Nat) (findings : List Finding) : Prop where
  lie : ∀ finding ∈ findings, finding.Lies low high
  ordered : findings.Pairwise (Finding.Precedes apart)

namespace Orderly

variable {apart : Prop} {low low' mid high high' : Nat} {findings others : List Finding}

theorem nil : Orderly apart low high [] where
  lie _ member := nomatch member
  ordered := .nil

/-- A stretch by itself. -/
theorem stretch {first last : Nat} (lower : low ≤ first) (ordered : first ≤ last)
    (higher : last < high) (guards : List Guard) :
    Orderly apart low high [.unknown first last guards] where
  lie := by
    refine List.forall_mem_singleton.mpr ?_
    rintro _ ⟨⟩
    exact ⟨lower, ordered, higher⟩
  ordered := List.pairwise_singleton _ _

theorem widen (orderly : Orderly apart low high findings) (lower : low' ≤ low)
    (higher : high ≤ high') : Orderly apart low' high' findings where
  lie finding member extent known := by
    obtain ⟨first, ordered, last⟩ := orderly.lie finding member extent known
    exact ⟨Nat.le_trans lower first, ordered, Nat.lt_of_lt_of_le last higher⟩
  ordered := orderly.ordered

theorem append (first : Orderly apart low mid findings) (second : Orderly apart mid high others)
    (lower : low ≤ mid) (higher : mid ≤ high) : Orderly apart low high (findings ++ others) where
  lie := List.forall_mem_append.mpr
    ⟨(first.widen (Nat.le_refl _) higher).lie, (second.widen lower (Nat.le_refl _)).lie⟩
  ordered := by
    refine List.pairwise_append.mpr ⟨first.ordered, second.ordered, ?_⟩
    intro a earlier b later i known j known'
    obtain ⟨-, ordered, before⟩ := first.lie a earlier i known
    have after := (second.lie b later j known').1
    have apart : i.2 < j.1 := Nat.lt_of_lt_of_le before after
    exact ⟨Nat.le_trans ordered (Nat.le_of_lt apart), fun _ => .inl apart⟩

/-- A resource comes before those of its body. -/
theorem cons_resource {d : Declaration} (first : low ≤ d.span.first)
    (ordered : d.span.first ≤ d.span.last) (last : d.span.last < high)
    (body : Orderly apart (d.span.first + 1) (d.span.last + 1) findings)
    (resources : ∀ finding ∈ findings, finding.IsResource) :
    Orderly apart low high (.declared d :: findings) where
  lie := by
    refine List.forall_mem_cons.mpr ⟨?_, fun finding member extent known => ?_⟩
    · rintro _ ⟨⟩
      exact ⟨first, ordered, last⟩
    · obtain ⟨after, ordered', before⟩ := body.lie finding member extent known
      omega
  ordered := by
    refine .cons ?_ body.ordered
    rintro finding member _ ⟨⟩ extent known
    obtain ⟨after, -, before⟩ := body.lie finding member extent known
    exact ⟨Nat.le_of_succ_le after,
      fun _ => .inr ⟨trivial, resources finding member, Nat.le_of_lt_succ before⟩⟩

end Orderly

namespace Origin

variable {o : Origin} {guards : List Guard} {low high : Nat} {apart : Prop}

/-! ### Statements -/

section Statement

variable {line : Line} {text : List Char} {finding : Finding} {findings : List Finding}

/-- A statement that is no loop gives one finding. -/
theorem exists_lineFindings_eq_singleton (o : Origin) (guards : List Guard)
    (single : ¬ IsInlineLoop line.text) : ∃ finding,
      o.lineFindings guards line = [finding] := by
  unfold lineFindings
  have gives := o.statementFindings_cases guards line line.text.length
  generalize o.statementFindings (line.text.length + 1) guards line = findings at gives
  cases gives with
  | plain plain => cases plain <;> exact ⟨_, rfl⟩
  | loop whole loops => exact absurd ⟨_, whole, loops⟩ single
  | resource whole role => exact ⟨_, rfl⟩

theorem orderly_lineFindings (within : line.Within low high)
    (single : line.IsSingle apart) :
    Orderly apart low high (o.lineFindings guards line) := by
  have extents : ∀ finding ∈ o.lineFindings guards line, ∀ extent ∈ finding.extent?,
      extent = (line.first, line.last) :=
    fun finding member => (isOf_of_mem_statementFindings member).extent within.first_le
  constructor
  · intro finding member extent known
    obtain rfl := extents finding member extent known
    exact ⟨within.low_le, within.first_le, within.last_lt⟩
  · by_cases asked : apart
    · obtain ⟨finding, only⟩ := exists_lineFindings_eq_singleton o guards (single asked)
      rw [only]
      exact List.pairwise_singleton _ _
    · refine List.pairwise_of_forall_mem_list fun a here b there i known j known' => ?_
      obtain rfl := extents a here i known
      obtain rfl := extents b there j known'
      exact ⟨Nat.le_refl _, fun holds => absurd holds asked⟩

end Statement

/-! ### Blocks -/

section Inner

variable {node : Node} {branches : List (Branch Node)} {finding : Finding}

theorem isResource_of_mem_innerFindings (member : finding ∈ o.innerFindings guards node) :
    finding.IsResource := by
  induction node using Node.inductChildren with
  | statement line => cases member
  | stray line => cases member
  | block block ih =>
      rw [innerFindings_block] at member
      split at member
      · rcases List.mem_cons.mp member with rfl | inner
        · trivial
        · obtain ⟨branch, among, child, held, given⟩ := mem_innerBranches.mp inner
          exact ih child (List.mem_flatMap.mpr ⟨branch, among, held⟩) given
      · cases member

theorem isResource_of_mem_innerBranches (member : finding ∈ o.innerBranches guards branches) :
    finding.IsResource :=
  have ⟨_, _, _, _, given⟩ := mem_innerBranches.mp member
  isResource_of_mem_innerFindings given

end Inner

/-- Nodes of which each gives its findings in order give all in order. -/
theorem orderly_flatMap {p : Line → Prop} {give : Node → List Finding} {nodes : List Node}
    (each : ∀ node ∈ nodes, ∀ low high, node.Stands p low high →
      Orderly apart low high (give node))
    (stand : NodesStand p low high nodes) : Orderly apart low high (nodes.flatMap give) := by
  induction nodes generalizing low with
  | nil => exact .nil
  | cons node nodes ih =>
      obtain ⟨mid, first, others⟩ := stand
      obtain ⟨here, each⟩ := List.forall_mem_cons.mp each
      rw [List.flatMap_cons]
      exact (here low mid first).append (ih each others) (Nat.le_of_lt first.lt) others.le

theorem nodesFindings_eq_flatMap (nodes : List Node) :
    o.nodesFindings guards nodes = nodes.flatMap (o.nodeFindings guards) := by
  induction nodes with
  | nil => rfl
  | cons node nodes ih => rw [nodesFindings, ih, List.flatMap_cons]

theorem innerBranches_eq_flatMap (branches : List (Branch Node)) :
    o.innerBranches guards branches =
      (branches.flatMap (·.children)).flatMap (o.innerFindings guards) := by
  have nodes (nodes : List Node) : o.innerNodes guards nodes =
      nodes.flatMap (o.innerFindings guards) := by
    induction nodes with
    | nil => rfl
    | cons node nodes ih => rw [innerNodes, ih, List.flatMap_cons]
  induction branches with
  | nil => rfl
  | cons branch branches ih =>
      rw [innerBranches, ih, nodes, List.flatMap_cons, List.flatMap_append]

section Blocks

variable {p : Line → Prop} {block : Block} {type : String} {argument : List Char}

/-- A resource with the resources of its body, if these come in order. -/
theorem orderly_resource (stands : (Node.block block).Stands p low high)
    (each : ∀ child ∈ block.children, ∀ low high, child.Stands p low high →
      Orderly apart low high (o.innerFindings guards child)) :
    Orderly apart low high (.declared (o.blockDeclaration block type argument guards) ::
      o.innerBranches guards block.branches) := by
  obtain ⟨within, ends, inner⟩ := stands
  have held := branchesStand_iff.mp inner
  have ordered : block.header.first ≤ block.last :=
    Nat.le_trans within.first_le (Nat.le_of_succ_le_succ held.le)
  have same := (o.embodies_blockDeclaration type argument guards block).span
  have last : max block.last block.header.first = block.last := Nat.max_eq_left ordered
  refine .cons_resource ?_ ?_ ?_ ?_ fun _ => isResource_of_mem_innerBranches
  all_goals simp only [same, declaration, span, last]
  · exact within.low_le
  · exact ordered
  · exact ends
  · rw [innerBranches_eq_flatMap]
    exact (orderly_flatMap each held).widen (Nat.succ_le_succ within.first_le) (Nat.le_refl _)

end Blocks

theorem orderly_innerFindings {p : Line → Prop} {node : Node} (stands : node.Stands p low high) :
    Orderly apart low high (o.innerFindings guards node) := by
  induction node using Node.inductChildren generalizing low high with
  | statement line => exact .nil
  | stray line => exact .nil
  | block block ih =>
      rw [innerFindings_block]
      split
      · exact orderly_resource stands fun child member low high => ih child member
      · exact .nil

/-- The arms of a block give their findings one after the other. -/
theorem orderly_branchFindings {p : Line → Prop} {extras : List (List Guard)}
    {branches : List (Branch Node)}
    (each : ∀ node ∈ branches.flatMap (·.children), ∀ guards low high, node.Stands p low high →
      Orderly apart low high (o.nodeFindings guards node))
    (stand : BranchesStand p low high branches) :
    Orderly apart low high (o.branchFindings guards extras branches) := by
  induction extras generalizing low branches with
  | nil => cases branches <;> exact .nil
  | cons extra extras ih =>
      cases branches with
      | nil => exact .nil
      | cons branch branches =>
          obtain ⟨mid, first, others⟩ := stand
          rw [List.flatMap_cons, List.forall_mem_append] at each
          rw [branchFindings, nodesFindings_eq_flatMap]
          have reach : mid ≤ high := (branchesStand_iff.mp others).le
          exact (orderly_flatMap (fun node member => each.1 node member _) first).append
            (ih each.2 others) first.le reach

/-- What a node gives lies on its lines, in order. -/
theorem orderly_nodeFindings {node : Node} (stands : node.Stands (Line.IsSingle apart) low high) :
    Orderly apart low high (o.nodeFindings guards node) := by
  induction node using Node.inductChildren generalizing guards low high with
  | statement line => exact orderly_lineFindings stands.1 stands.2
  | stray line =>
      have within : line.Within low high := stands
      exact .stretch within.low_le within.first_le within.last_lt guards
  | block block ih =>
      cases head : topResource? block with
      | some named =>
          rw [nodeFindings_of_resource head]
          exact orderly_resource stands fun child _ low high => orderly_innerFindings
      | none =>
          by_cases shut : block.kind = .sealed
          · rw [nodeFindings_of_sealed head shut]
            obtain ⟨within, ends, inner⟩ := stands
            have ordered : block.header.last ≤ block.last :=
              Nat.le_of_succ_le_succ (branchesStand_iff.mp inner).le
            exact .stretch within.low_le (Nat.le_trans within.first_le ordered) ends _
          · rw [nodeFindings_of_isPlain ⟨head, shut⟩]
            obtain ⟨within, ends, inner⟩ := stands
            exact (orderly_branchFindings (fun child member _ low high => ih child member)
              inner).widen (Nat.le_succ_of_le (Nat.le_trans within.low_le within.first_le)) ends

end Origin

/-- What is found in a source lies on its lines, in order. -/
theorem orderly_findingsOf {apart : Prop} {source : List Char}
    (single : apart → ∀ line ∈ Line.ofSource source, ¬ IsInlineLoop line.text) (file : String)
    (types : List String) :
    Orderly apart 1 ((lines source).length + 1) (findingsOf file types source) := by
  have stand : NodesStand (Line.IsSingle apart) 1 _ (Node.ofLines (Line.ofSource source)) :=
    nodesStand_ofSource fun line member asked => single asked line member
  rw [findingsOf, Origin.nodesFindings_eq_flatMap]
  exact (Origin.orderly_flatMap (fun node _ low high => Origin.orderly_nodeFindings) stand).widen
    (Nat.le_refl _) (Nat.succ_le_succ (finalLine_ofSource_le source))

/-! ## Types and names -/

/-- A declaration has a type and a name. -/
structure Declaration.IsNamed (d : Declaration) : Prop where
  type : d.type ≠ ""
  name : isBlankText d.name.toList = false

theorem isBlankText_append_eq_false {cs ds : List Char} (solid : isBlankText ds = false) :
    isBlankText (cs ++ ds) = false := by
  rw [isBlankText, List.all_append, ← isBlankText, ← isBlankText, solid, Bool.and_false]

/-- A resource without a name is named after its type and its line. -/
theorem isBlankText_resourceName (argument : List Char) (type : String) (line : Nat) :
    isBlankText (resourceName argument type line).toList = false := by
  unfold resourceName
  extract_lets first name
  split
  · rw [String.toList_append, String.toList_append, List.append_assoc]
    exact isBlankText_append_eq_false rfl
  · rename_i solid
    exact Bool.not_eq_true _ ▸ solid

theorem type_ne_empty_of_resourceHeader? {head argument : List Char} {type : String}
    (found : resourceHeader? head = some (type, argument)) : type ≠ "" := by
  obtain ⟨word, rest, ident, rfl⟩ := takeIdent_of_resourceHeader? found
  obtain ⟨c, cs, -, -, rfl, -⟩ := exists_of_takeIdent ident
  exact fun empty => List.cons_ne_nil _ _ (String.ofList_eq_empty_iff.mp empty)

theorem Declaration.Embodies.isNamed {o : Origin} {d : Declaration} {head argument : List Char}
    {type : String} {first last : Nat} {guards : List Guard}
    (embodies : d.Embodies (o.declaration type argument first last guards))
    (found : resourceHeader? head = some (type, argument)) : d.IsNamed where
  type := by
    rw [embodies.type]
    exact type_ne_empty_of_resourceHeader? found
  name := by
    rw [embodies.name, Origin.declaration, isBlankText_resourceName argument type first]

theorem isNamed_of_mem_findingsOf {file : String} {types : List String} {source : List Char}
    {d : Declaration} (member : .declared d ∈ findingsOf file types source) : d.IsNamed := by
  obtain ⟨node, -, given⟩ := Origin.mem_nodesFindings.mp member
  obtain ⟨met, -, gives⟩ := Origin.exists_gives given
  cases gives with
  | statement given =>
      obtain ⟨_, _, _, _, -, found, embodies⟩ := isOf_of_mem_statementFindings given
      exact embodies.isNamed found
  | resource resource =>
      obtain ⟨_, _, -, found⟩ := exists_head_of_resource resource
      exact (Origin.embodies_blockDeclaration _ _ _ _ _).isNamed found

/-! ## Joining stretches keeps the order -/

section Joined

variable {apart : Prop} {low high : Nat} {kept findings : List Finding}

/-- Two stretches that follow one another can be one. -/
theorem Orderly.widened {stretch : Stretch} {first last : Nat} {guards : List Guard}
    (orderly : Orderly apart low high
      (kept ++ (stretch.finding :: .unknown first last guards :: findings))) :
    Orderly apart low high (kept ++ (Stretch.finding { stretch with last } :: findings)) := by
  obtain ⟨lie, ordered⟩ := orderly
  obtain ⟨lie_kept, lie⟩ := List.forall_mem_append.mp lie
  obtain ⟨lie_old, lie⟩ := List.forall_mem_cons.mp lie
  obtain ⟨lie_new, lie⟩ := List.forall_mem_cons.mp lie
  obtain ⟨ordered_kept, ordered, before⟩ := List.pairwise_append.mp ordered
  obtain ⟨follow_old, ordered⟩ := List.pairwise_cons.mp ordered
  obtain ⟨follow_new, ordered⟩ := List.pairwise_cons.mp ordered
  obtain ⟨lower, -, -⟩ := lie_old _ rfl
  obtain ⟨-, ascending, higher⟩ := lie_new _ rfl
  have begins := (follow_old _ (.head _) _ rfl _ rfl).1
  refine ⟨List.forall_mem_append.mpr ⟨lie_kept, List.forall_mem_cons.mpr ⟨?_, lie⟩⟩,
    List.pairwise_append.mpr ⟨ordered_kept, List.pairwise_cons.mpr ⟨?_, ordered⟩, ?_⟩⟩
  · rintro _ ⟨⟩
    exact ⟨lower, Nat.le_trans begins ascending, higher⟩
  · rintro finding member _ ⟨⟩ extent known
    refine ⟨(follow_old finding (.tail _ member) _ rfl extent known).1, fun asked => .inl ?_⟩
    exact ((follow_new finding member _ rfl extent known).2 asked).resolve_right
      fun inside => inside.1
  · intro finding member other there
    rcases List.mem_cons.mp there with rfl | later
    · rintro extent known _ ⟨⟩
      have old := before finding member _ (.head _) extent known _ rfl
      exact ⟨old.1, fun asked => .inl ((old.2 asked).resolve_right fun inside => inside.2.1)⟩
    · exact before finding member other (.tail _ (.tail _ later))

theorem Orderly.join {pending : Option Stretch} (orderly : Orderly apart low high
      (kept ++ ((pending.map Stretch.finding).toList ++ findings))) :
    Orderly apart low high (kept ++ joined pending findings) := by
  fun_induction joined pending findings generalizing kept with
  | case1 pending => rwa [List.append_nil] at orderly
  | case2 first last guards rest ih => exact ih orderly
  | case3 stretch first last guards rest joins ih => exact ih orderly.widened
  | case4 stretch first last guards rest apart ih =>
      rw [List.append_cons]
      refine ih ?_
      rw [← List.append_cons]
      exact orderly
  | case5 pending finding rest _ _ ih =>
      rw [← List.append_assoc, List.append_cons]
      refine ih ?_
      rwa [← List.append_assoc, List.append_cons] at orderly

theorem declared_mem_of_mem_joined {pending : Option Stretch} {d : Declaration}
    (member : .declared d ∈ joined pending findings) : .declared d ∈ findings := by
  fun_induction joined pending findings with
  | case1 pending => cases pending <;> simp [Stretch.finding] at member
  | case2 first last guards rest ih => exact .tail _ (ih member)
  | case3 stretch first last guards rest joins ih => exact .tail _ (ih member)
  | case4 stretch first last guards rest apart ih =>
      exact .tail _ (ih ((List.mem_cons.mp member).resolve_left nofun))
  | case5 pending finding rest _ _ ih =>
      rcases List.mem_append.mp member with stretch | later
      · cases pending <;> simp [Stretch.finding] at stretch
      · rcases List.mem_cons.mp later with rfl | later
        · exact .head _
        · exact .tail _ (ih later)

end Joined

/-- What is declared and was understood was found so. -/
theorem found_of_not_isUnparsed {file : String} {types : List String} {source : List Char}
    {d : Declaration} (declared : d ∈ (SourceFile.extract file types source).declarations)
    (parsed : d.isUnparsed = false) : .declared d ∈ findingsOf file types source := by
  rw [declarations_extract] at declared
  obtain ⟨finding, member, among⟩ := List.mem_flatMap.mp declared
  cases finding with
  | declared other =>
      obtain rfl := List.mem_singleton.mp among
      exact declared_mem_of_mem_joined member
  | unknown first last guards =>
      obtain rfl := List.mem_singleton.mp among
      cases parsed
  | _ => cases among

/-! ## The layout of a source file -/

/-- A declaration has a type and a name and stands on lines that are there. -/
structure Declaration.WellFormed (length : Nat) (d : Declaration) : Prop extends d.IsNamed where
  first_pos : 1 ≤ d.span.first
  first_le : d.span.first ≤ d.span.last
  last_le : d.span.last ≤ length

theorem Stretch.isNamed_declaration (o : Origin) (stretch : Stretch) :
    (stretch.declaration o).IsNamed where
  type := show unparsedType ≠ "" by decide
  name := by
    rw [Stretch.declaration, String.toList_append, String.toList_append, List.append_assoc]
    exact isBlankText_append_eq_false rfl

section Declared

variable {o : Origin} {d : Declaration} {finding : Finding} {low high : Nat}

/-- What is declared stands where the finding stands. -/
theorem Finding.Lies.extent_eq (lies : finding.Lies low high)
    (member : d ∈ finding.declarations o) :
    finding.extent? = some (d.span.first, d.span.last) := by
  cases finding with
  | declared d =>
      obtain rfl := List.mem_singleton.mp member
      rfl
  | unknown first last guards =>
      obtain rfl := List.mem_singleton.mp member
      have ordered : first ≤ last := (lies _ rfl).2.1
      have same : max last first = last := Nat.max_eq_left ordered
      simp only [Finding.extent?, Stretch.declaration, Origin.span, same]
  | _ => cases member

/-- What is declared is well formed, if its finding lies between the first line and the last. -/
theorem Finding.Lies.wellFormed {length : Nat} (lies : finding.Lies 1 (length + 1))
    (named : ∀ e, finding = .declared e → e.IsNamed) (member : d ∈ finding.declarations o) :
    d.WellFormed length := by
  obtain ⟨first, ordered, last⟩ := lies _ (lies.extent_eq member)
  refine ⟨?_, first, ordered, Nat.le_of_lt_succ last⟩
  cases finding with
  | declared e =>
      obtain rfl := List.mem_singleton.mp member
      exact named d rfl
  | unknown first last guards =>
      obtain rfl := List.mem_singleton.mp member
      exact Stretch.isNamed_declaration _ _
  | _ => cases member

/-- Of the findings only resources declare what was found as it is. -/
theorem Finding.IsResource.eq_declared (resource : finding.IsResource)
    (member : d ∈ finding.declarations o) : finding = .declared d := by
  cases finding with
  | declared d => rw [List.mem_singleton.mp member]
  | _ => exact resource.elim

end Declared

/-- The declarations of a source file are well formed and stand on its lines, in source order. If
there is no loop on one line, two of them share lines only where one stands within the other, which
is then a resource and comes first. -/
theorem laidOut_extract (file : String) (types : List String) (source : List Char) :
    let declarations := (SourceFile.extract file types source).declarations
    (∀ d ∈ declarations, d.WellFormed (lines source).length) ∧
      declarations.Pairwise (fun d e => d.span.first ≤ e.span.first) ∧
      ((∀ line ∈ Line.ofSource source, ¬ IsInlineLoop line.text) →
        declarations.Pairwise fun d e => d.span.last < e.span.first ∨
          (IsWritten file types source d ∧ d.span.first ≤ e.span.first ∧
            e.span.last ≤ d.span.last)) := by
  intro declarations
  have same : declarations = _ := declarations_extract file types source
  generalize Origin.mk file types (lines source) = o at same
  have found : Orderly (∀ line ∈ Line.ofSource source, ¬ IsInlineLoop line.text) 1 _
      (joined none (findingsOf file types source)) :=
    @Orderly.join _ _ _ [] _ none (orderly_findingsOf id file types)
  have precedes : declarations.Pairwise fun d e => d.span.first ≤ e.span.first ∧
      ((∀ line ∈ Line.ofSource source, ¬ IsInlineLoop line.text) → d.span.last < e.span.first ∨
        IsWritten file types source d ∧ e.span.last ≤ d.span.last) := by
    rw [same, List.pairwise_flatMap]
    constructor
    · intro finding member
      cases finding <;> simp [Finding.declarations]
    · refine found.ordered.imp_of_mem ?_
      intro a b first second ordered d given e given'
      obtain ⟨le, apart⟩ := ordered _ ((found.lie a first).extent_eq given) _
        ((found.lie b second).extent_eq given')
      refine ⟨le, fun single => (apart single).imp_right ?_⟩
      rintro ⟨resource, -, inside⟩
      obtain rfl := resource.eq_declared given
      have written := declared_mem_of_mem_joined first
      exact ⟨⟨written, (finding_stands written).2 d rfl⟩, inside⟩
  refine ⟨fun d member => ?_, precedes.imp fun both => both.1, fun single =>
    precedes.imp fun both => (both.2 single).imp_right fun ⟨written, last⟩ =>
      ⟨written, both.1, last⟩⟩
  rw [same] at member
  obtain ⟨finding, there, given⟩ := List.mem_flatMap.mp member
  refine (found.lie finding there).wellFormed ?_ given
  rintro e rfl
  exact isNamed_of_mem_findingsOf (declared_mem_of_mem_joined there)

end Rolewright.Recipe
