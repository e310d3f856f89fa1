/-
# Where findings come from

Every finding is given by a node of the nesting: by a statement, a stray `end`, a block that is kept
whole, or a resource, also one in the body of another (`exists_gives`). And every node that is met
by going into blocks that are no resource gives what it gives, under some guards
(`exists_guards_of_reaches`): in such a block nothing is passed over.
-/

import Rolewright.Proofs.Recipe.Places
import Rolewright.Recipe.Finding

namespace Rolewright.Recipe

/-- A block whose statements stand for themselves: a control block, a loop, or a call with a block
that is no resource. -/
def BlockOf.IsPlain (block : Block) : Prop :=
  Origin.topResource? block = none ∧ block.kind ≠ .sealed

/-- What a node gives by itself, not by what it holds. -/
inductive Node.Gives (o : Origin) : Node → Finding → Prop
  | statement {line : Line} {guards : List Guard} {finding : Finding}
      (given : finding ∈ o.lineFindings guards line) : Gives o (.statement line) finding
  | stray {line : Line} {guards : List Guard} :
      Gives o (.stray line) (.unknown line.first line.last guards)
  | whole {block : Block} {guards : List Guard} :
      Gives o (.block block) (.unknown block.header.first block.last guards)
  | resource {block : Block} {type : String} {argument : List Char} {guards : List Guard}
      (head : Origin.topResource? block = some (type, argument) ∨
        o.nestedResource? block = some (type, argument)) :
      Gives o (.block block) (.declared (o.blockDeclaration block type argument guards))

namespace Origin

variable {o : Origin} {guards : List Guard} {finding : Finding}

/-! ## Findings of lists -/

/-- What is found in nodes is found in one of them, -/
theorem mem_nodesFindings {nodes : List Node} :
    finding ∈ o.nodesFindings guards nodes ↔
      ∃ node ∈ nodes, finding ∈ o.nodeFindings guards node := by
  induction nodes with
  | nil => simp [nodesFindings]
  | cons node nodes ih => simp [nodesFindings, ih]

/-- and so is what is found in the body of a resource, -/
theorem mem_innerNodes {nodes : List Node} :
    finding ∈ o.innerNodes guards nodes ↔
      ∃ node ∈ nodes, finding ∈ o.innerFindings guards node := by
  induction nodes with
  | nil => simp [innerNodes]
  | cons node nodes ih => simp [innerNodes, ih]

/-- in all of its arms, -/
theorem mem_innerBranches {branches : List (Branch Node)} :
    finding ∈ o.innerBranches guards branches ↔
      ∃ branch ∈ branches, ∃ node ∈ branch.children, finding ∈ o.innerFindings guards node := by
  induction branches with
  | nil => simp [innerBranches]
  | cons branch branches ih => simp [innerBranches, mem_innerNodes, ih]

/-- and in the arms of a block, each under its own guards. -/
theorem mem_branchFindings {extras : List (List Guard)} {branches : List (Branch Node)} :
    finding ∈ o.branchFindings guards extras branches ↔
      ∃ scope ∈ extras.zip branches, ∃ node ∈ scope.2.children,
        finding ∈ o.nodeFindings (guards ++ scope.1) node := by
  induction extras generalizing branches with
  | nil => simp [branchFindings]
  | cons extra extras ih =>
      cases branches with
      | nil => simp [branchFindings]
      | cons branch branches => simp [branchFindings, mem_nodesFindings, ih]

/-! ## Findings of blocks -/

/-- There are guards for each arm. -/
theorem length_armGuards (kind : BlockKind) (subject header : String) (before : List String)
    (branches : List (Branch Node)) :
    (armGuards kind subject header before branches).length = branches.length := by
  induction branches generalizing before with
  | nil => rfl
  | cons branch branches ih =>
      unfold armGuards
      dsimp only
      split <;> simp only [List.length_cons, ih]

/-- Every arm of a block has guards of its own, if none at all. -/
theorem length_scopes (block : Block) : (scopes block).length = block.branches.length := by
  unfold scopes
  split
  · exact List.length_map _
  · exact length_armGuards _ _ _ _ _

/-- A block that only governs what it holds is found by its arms. -/
theorem nodeFindings_of_isPlain {block : Block} (plain : block.IsPlain) :
    o.nodeFindings guards (.block block) =
      o.branchFindings (guards ++ modifierGuards block.modifier) (scopes block) block.branches := by
  obtain ⟨kind, header, branches, last, closed, modifier⟩ := block
  rw [nodeFindings, plain.1]
  exact if_neg plain.2

/-- A block of another kind that is no resource is not understood as a whole. -/
theorem nodeFindings_of_sealed {block : Block} (none : topResource? block = none)
    (shut : block.kind = .sealed) :
    o.nodeFindings guards (.block block) =
      [.unknown block.header.first block.last (guards ++ modifierGuards block.modifier)] := by
  obtain ⟨kind, header, branches, last, closed, modifier⟩ := block
  rw [nodeFindings, none]
  exact if_pos shut

/-- A block of a resource declares it, and then what its body declares. -/
theorem nodeFindings_of_resource {block : Block} {type : String} {argument : List Char}
    (head : topResource? block = some (type, argument)) :
    o.nodeFindings guards (.block block) =
      .declared (o.blockDeclaration block type argument
        (guards ++ modifierGuards block.modifier)) ::
        o.innerBranches (guards ++ modifierGuards block.modifier) block.branches := by
  obtain ⟨kind, header, branches, last, closed, modifier⟩ := block
  rw [nodeFindings, head]

/-- What a plain block holds gives what it gives, under the guards of its arm. -/
theorem exists_guards_of_mem_children {block : Block} {child : Node} (plain : block.IsPlain)
    (member : child ∈ block.children) (guards : List Guard) :
    ∃ inner, o.nodeFindings inner child ⊆ o.nodeFindings guards (.block block) := by
  obtain ⟨branch, among, held⟩ := List.mem_flatMap.mp member
  obtain ⟨i, here, rfl⟩ := List.mem_iff_getElem.mp among
  have there : i < (scopes block).length := by rwa [length_scopes]
  refine ⟨guards ++ modifierGuards block.modifier ++ (scopes block)[i], ?_⟩
  intro finding given
  rw [nodeFindings_of_isPlain plain, mem_branchFindings]
  have paired : ((scopes block)[i], block.branches[i]) ∈ (scopes block).zip block.branches := by
    have inside : i < ((scopes block).zip block.branches).length := by
      rw [List.length_zip]
      exact Nat.lt_min.mpr ⟨there, here⟩
    rw [← List.getElem_zip (h := inside)]
    exact List.getElem_mem inside
  exact ⟨_, paired, child, held, given⟩

/-- What lies inside blocks that only govern it is found with them, under further guards. -/
theorem exists_guards_of_reaches {node met : Node} (reaches : node.Reaches BlockOf.IsPlain met)
    (guards : List Guard) :
    ∃ inner, o.nodeFindings inner met ⊆ o.nodeFindings guards node := by
  induction reaches generalizing guards with
  | self node => exact ⟨guards, fun _ => id⟩
  | inside plain member _ ih =>
      obtain ⟨middle, subset⟩ := exists_guards_of_mem_children (o := o) plain member guards
      obtain ⟨inner, subset'⟩ := ih middle
      exact ⟨inner, fun _ given => subset (subset' given)⟩

/-! ## Where a finding comes from -/

/-- A block in the body of a resource declares a resource of its own, or is searched for some. -/
theorem innerFindings_block (block : Block) :
    o.innerFindings guards (.block block) =
      match o.nestedResource? block with
      | some (type, argument) =>
        .declared (o.blockDeclaration block type argument guards) ::
          o.innerBranches guards block.branches
      | none => [] := by
  rfl

section Gives

variable {node : Node} {block : Block}

/-- What a block gives through one of the nodes it holds comes from inside it. -/
theorem exists_gives_inside {branch : Branch Node} {child : Node} (among : branch ∈ block.branches)
    (held : child ∈ branch.children)
    (given : ∃ met, child.Reaches (fun _ => True) met ∧ met.Gives o finding) :
    ∃ met, (Node.block block).Reaches (fun _ => True) met ∧ met.Gives o finding := by
  obtain ⟨met, reaches, gives⟩ := given
  have member : child ∈ block.children := List.mem_flatMap.mpr ⟨branch, among, held⟩
  exact ⟨met, .inside trivial member reaches, gives⟩

/-- What is found in a body is given by some node inside it. -/
theorem exists_gives_of_innerFindings (given : finding ∈ o.innerFindings guards node) :
    ∃ met, node.Reaches (fun _ => True) met ∧ met.Gives o finding := by
  induction node using Node.inductChildren with
  | statement line => cases given
  | stray line => cases given
  | block block ih =>
      rw [innerFindings_block] at given
      cases head : o.nestedResource? block with
      | none =>
          rw [head] at given
          cases given
      | some named =>
          rw [head] at given
          rcases List.mem_cons.mp given with rfl | inner
          · exact ⟨_, .self _, .resource (.inr head)⟩
          · obtain ⟨branch, among, child, held, given⟩ := mem_innerBranches.mp inner
            have member : child ∈ block.children := List.mem_flatMap.mpr ⟨branch, among, held⟩
            exact exists_gives_inside among held (ih child member given)

/-- A finding is given by some node, however deep. -/
theorem exists_gives (given : finding ∈ o.nodeFindings guards node) :
    ∃ met, node.Reaches (fun _ => True) met ∧ met.Gives o finding := by
  induction node using Node.inductChildren generalizing guards with
  | statement line => exact ⟨_, .self _, .statement given⟩
  | stray line =>
      obtain rfl := List.mem_singleton.mp given
      exact ⟨_, .self _, .stray⟩
  | block block ih =>
      cases head : topResource? block with
      | some named =>
          rw [nodeFindings_of_resource head] at given
          rcases List.mem_cons.mp given with rfl | inner
          · exact ⟨_, .self _, .resource (.inl head)⟩
          · obtain ⟨branch, among, child, held, given⟩ := mem_innerBranches.mp inner
            exact exists_gives_inside among held (exists_gives_of_innerFindings given)
      | none =>
          by_cases shut : block.kind = .sealed
          · rw [nodeFindings_of_sealed head shut] at given
            obtain rfl := List.mem_singleton.mp given
            exact ⟨_, .self _, .whole⟩
          · rw [nodeFindings_of_isPlain ⟨head, shut⟩] at given
            obtain ⟨scope, paired, child, held, given⟩ := mem_branchFindings.mp given
            have among : scope.2 ∈ block.branches := List.of_mem_zip paired |>.2
            have member : child ∈ block.children := List.mem_flatMap.mpr ⟨_, among, held⟩
            exact exists_gives_inside among held (ih child member given)

end Gives

end Origin

end Rolewright.Recipe
