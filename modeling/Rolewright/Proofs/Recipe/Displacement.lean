/-
# What lines say does not depend on their numbers

The numbers of its lines enter what a source declares in two ways only: as spans, and as names of
what has no name of its own. So two sources that are the same from some line on declare the same
from there, on lines that differ by one and the same distance (`displaced_declarations`).

The distance goes through extraction as a relation, not as a function: a name that ends in the
number of its line cannot be told from one that is written so.
-/

import Rolewright.Proofs.Recipe.Layout
import Rolewright.Proofs.Recipe.Renumbering

namespace Rolewright.Recipe

open Text

/-! ## Sources that are the same from some line on -/

/-- Two sources of one file that are the same behind the first `k` lines of the one and the first
`l` lines of the other. -/
structure Origin.Alike (k l : Nat) (o o' : Origin) : Prop where
  file : o.file = o'.file
  types : o.types = o'.types
  physical : o.physical.drop k = o'.physical.drop l

/-- A block on other physical lines. -/
def BlockOf.renumber (f : Nat → Nat) (block : Block) : Block :=
  ⟨block.kind, block.header.renumber f, block.branches.map (Branch.renumber f), f block.last,
    block.closed, block.modifier⟩

section Renumber

variable (f : Nat → Nat)

theorem Node.renumber_block (block : Block) :
    (Node.block block).renumber f = .block (block.renumber f) := by
  rw [Node.renumber, renumberBranches_eq_map]
  rfl

theorem BlockOf.children_renumber (block : Block) :
    (block.renumber f).children = block.children.map (Node.renumber f) := by
  simp [children, renumber, Branch.renumber, List.flatMap_map, List.map_flatMap]

theorem inlineStatements_renumber (line : Line) (body : List Char) :
    Origin.inlineStatements (line.renumber f) body =
      (Origin.inlineStatements line body).map (Line.renumber f) := by
  simp [Origin.inlineStatements, Line.renumber]

theorem armGuards_renumber (kind : BlockKind) (subject header : String) (before : List String)
    (branches : List (Branch Node)) :
    armGuards kind subject header before (branches.map (Branch.renumber f)) =
      armGuards kind subject header before branches := by
  induction branches generalizing before with
  | nil => rfl
  | cons branch branches ih =>
      simp only [List.map_cons, armGuards, Branch.renumber, ih]

/-- The guards of a block are told by its texts. -/
theorem scopes_renumber (block : Block) :
    Origin.scopes (block.renumber f) = Origin.scopes block := by
  obtain ⟨kind, header, branches, last, closed, modifier⟩ := block
  have subject : (branches.map (Branch.renumber f)).head?.map (fun b => String.ofList b.condition) =
      branches.head?.map fun b => String.ofList b.condition := by
    rw [List.head?_map, Option.map_map]
    rfl
  have arms : branchGuards ⟨kind, header.renumber f, branches.map (Branch.renumber f), f last,
      closed, modifier⟩ = branchGuards ⟨kind, header, branches, last, closed, modifier⟩ := by
    rw [branchGuards, branchGuards, subject]
    exact armGuards_renumber f _ _ _ _ _
  cases kind with
  | call head params => exact List.map_map
  | _ => exact arms

end Renumber

/-- Lines that are counted from a later one. -/
theorem excerpt_add (physical : List (List Char)) (k : Nat) {first : Nat} (positive : 1 ≤ first)
    (last : Nat) :
    excerpt physical (first + k) (last + k) = excerpt (physical.drop k) first last := by
  have skipped : first + k - 1 = k + (first - 1) := by omega
  rw [excerpt, excerpt, skipped, ← List.drop_drop, List.drop_take, Nat.add_sub_cancel]

namespace Origin.Alike

variable {k l : Nat} {o o' : Origin} (alike : o.Alike k l o') {first : Nat}

include alike

/-- Both extractors know the same resources, -/
theorem knows_eq (type : String) : o.knows type = o'.knows type := by
  rw [knows, knows, alike.types]

/-- and read the same text on lines that stand for each other, -/
theorem text_eq (positive : 1 ≤ first) (last : Nat) :
    o.text (first + k) (last + k) = o'.text (first + l) (last + l) := by
  rw [Origin.text, Origin.text, excerpt_add _ _ positive, excerpt_add _ _ positive, alike.physical]

/-- the interior of a block among it, -/
theorem interior_eq (block : Block) :
    o.interior (block.renumber (· + k)) = o'.interior (block.renumber (· + l)) := by
  have skipped (physical : List (List Char)) (n last : Nat) :
      (physical.take (last + n)).drop (block.header.last + n) =
        ((physical.drop n).take last).drop block.header.last := by
    rw [Nat.add_comm block.header.last, ← List.drop_drop, List.drop_take, Nat.add_sub_cancel]
  -- A block that ends on no line at all has nothing between its lines.
  have before (physical : List (List Char)) (n : Nat) :
      (physical.take (block.last + n - 1)).drop (block.header.last + n) =
        ((physical.drop n).take (block.last - 1)).drop block.header.last := by
    rcases Nat.eq_zero_or_pos block.last with none | some
    · rw [none, Nat.zero_add, Nat.zero_sub, List.take_zero, List.drop_nil]
      refine List.drop_eq_nil_of_le (Nat.le_trans (List.length_take_le _ _) ?_)
      omega
    · rw [Nat.sub_add_comm some, skipped]
  rw [interior, interior]
  cases closed : block.closed with
  | true => simp only [BlockOf.renumber, Line.renumber, closed, if_true, before, alike.physical]
  | false =>
      simp only [BlockOf.renumber, Line.renumber, closed, Bool.false_eq_true, if_false, skipped,
        alike.physical]

/-- and so the same nested resource, if there is one. -/
theorem nestedResource?_eq (block : Block) :
    o.nestedResource? (block.renumber (· + k)) = o'.nestedResource? (block.renumber (· + l)) := by
  simp only [nestedResource?, BlockOf.renumber, alike.knows_eq]

end Origin.Alike

/-! ## Declarations -/

/-- A declaration under another name, on other lines. -/
def Declaration.place (d : Declaration) (name : String) (span : Span) : Declaration :=
  { d with name, span }

/-- The same declaration on other lines: what is `k` lines late here is `l` lines late there. A name
stays, unless it ends in the number of its line. -/
structure Declaration.Displaced (k l : Nat) (d e : Declaration) : Prop where
  same : e = d.place e.name e.span
  file : d.span.file = e.span.file
  first : d.span.first + l = e.span.first + k
  last : d.span.last + l = e.span.last + k
  name : d.name = e.name ∨
    ∃ lead, d.name = lead ++ toString d.span.first ∧ e.name = lead ++ toString e.span.first

/-- What is added to a declaration without regard to its name and its lines. -/
structure Declaration.IsAddition (add : Declaration → Declaration) : Prop where
  name (d : Declaration) : (add d).name = d.name
  span (d : Declaration) : (add d).span = d.span
  place (d : Declaration) (name : String) (span : Span) :
    add (d.place name span) = (add d).place name span

namespace Declaration

variable {k l : Nat} {d e : Declaration}

/-- An addition that does not look at the lines keeps a declaration displaced. -/
theorem Displaced.add {add : Declaration → Declaration} (addition : IsAddition add)
    (displaced : d.Displaced k l e) : (add d).Displaced k l (add e) where
  same := by
    conv => lhs; rw [displaced.same, addition.place]
    rw [addition.name, addition.span]
  file := by rw [addition.span, addition.span, displaced.file]
  first := by rw [addition.span, addition.span, displaced.first]
  last := by rw [addition.span, addition.span, displaced.last]
  name := by
    rw [addition.name, addition.name, addition.span, addition.span]
    exact displaced.name

/-- Only the distance counts. -/
theorem Displaced.of_add {n : Nat} (displaced : d.Displaced (k + n) (l + n) e) :
    d.Displaced k l e where
  same := displaced.same
  file := displaced.file
  first := by
    have first := displaced.first
    omega
  last := by
    have last := displaced.last
    omega
  name := displaced.name

/-- What is added piece by piece. -/
theorem Displaced.foldl {α β : Type} {add : Declaration → α → Declaration} {f g : β → α}
    {add' : Declaration → α → Declaration} {xs : List β}
    (additions : ∀ x ∈ xs, IsAddition (add · (f x)))
    (agree : ∀ x ∈ xs, ∀ d, add d (f x) = add' d (g x)) (displaced : d.Displaced k l e) :
    ((xs.map f).foldl add d).Displaced k l ((xs.map g).foldl add' e) := by
  induction xs generalizing d e with
  | nil => exact displaced
  | cons x xs ih =>
      obtain ⟨here, additions⟩ := List.forall_mem_cons.mp additions
      obtain ⟨same, agree⟩ := List.forall_mem_cons.mp agree
      rw [List.map_cons, List.foldl_cons, List.map_cons, List.foldl_cons, ← same]
      exact ih additions agree (displaced.add here)

end Declaration

namespace Origin

variable (o : Origin)

/-- What a statement adds to a declaration does not depend on what it holds already, -/
theorem isAddition_addStatement (line : Line) :
    Declaration.IsAddition (o.addStatement · line) where
  name d := (o.embodies_addStatement d line).name
  span d := (o.embodies_addStatement d line).span
  place d name span := by
    unfold addStatement
    dsimp only
    split_ifs
    · cases edge? .notifies (trim (line.text.drop (leadingWord line.text).length)) <;> rfl
    · cases edge? .subscribes (trim (line.text.drop (leadingWord line.text).length)) <;> rfl
    · rfl
    · rfl
    · cases property? line.text <;> rfl

/-- nor does what a block adds -/
theorem isAddition_addBlock (block : Block) : Declaration.IsAddition (o.addBlock · block) where
  name d := (o.embodies_addBlock d block).name
  span d := (o.embodies_addBlock d block).span
  place d name span := by
    obtain ⟨kind, header, branches, last, closed, modifier⟩ := block
    unfold addBlock
    cases kind with
    | call head params =>
        dsimp only
        split_ifs <;> rfl
    | _ => rfl

/-- or any other node. -/
theorem isAddition_addNode (node : Node) : Declaration.IsAddition (o.addNode · node) := by
  cases node with
  | statement line => exact o.isAddition_addStatement line
  | stray line => exact ⟨fun _ => rfl, fun _ => rfl, fun _ _ _ => rfl⟩
  | block block => exact o.isAddition_addBlock block

end Origin

namespace Origin.Alike

variable {k l : Nat} {o o' : Origin} (alike : o.Alike k l o')

include alike

/-- A statement adds the same wherever it stands, -/
theorem addStatement_eq {line : Line} (positive : 1 ≤ line.first) (d : Declaration) :
    o.addStatement d (line.renumber (· + k)) = o'.addStatement d (line.renumber (· + l)) := by
  have text : o.text (line.renumber (· + k)).first (line.renumber (· + k)).last =
      o'.text (line.renumber (· + l)).first (line.renumber (· + l)).last :=
    alike.text_eq positive line.last
  rw [addStatement, addStatement, text]
  rfl

/-- and so does a block -/
theorem addBlock_eq {block : Block} (positive : 1 ≤ block.header.first) (d : Declaration) :
    o.addBlock d (block.renumber (· + k)) = o'.addBlock d (block.renumber (· + l)) := by
  have text : o.text (block.renumber (· + k)).header.first (block.renumber (· + k)).last =
      o'.text (block.renumber (· + l)).header.first (block.renumber (· + l)).last :=
    alike.text_eq positive block.last
  rw [addBlock, addBlock, text, alike.interior_eq, alike.nestedResource?_eq]
  rfl

/-- and any node. -/
theorem addNode_eq {node : Node} (positive : 1 ≤ node.first) (d : Declaration) :
    o.addNode d (node.renumber (· + k)) = o'.addNode d (node.renumber (· + l)) := by
  cases node with
  | statement line => exact alike.addStatement_eq positive d
  | stray line =>
      have text : o.text (line.first + k) (line.last + k) =
          o'.text (line.first + l) (line.last + l) := alike.text_eq positive line.last
      simp only [Node.renumber, addNode, Line.renumber, text]
  | block block =>
      rw [Node.renumber_block, Node.renumber_block]
      exact alike.addBlock_eq positive d

/-- A declaration with nothing in it is displaced with the lines that it takes, -/
theorem displaced_declaration (type : String) (argument : List Char) (first last : Nat)
    (guards : List Guard) :
    (o.declaration type argument (first + k) (last + k) guards).Displaced k l
      (o'.declaration type argument (first + l) (last + l) guards) where
  same := by simp only [declaration, Declaration.place]
  file := alike.file
  first := Nat.add_right_comm first k l
  last := by
    simp only [declaration, span]
    omega
  name := by
    simp only [declaration, resourceName, span]
    split_ifs
    · exact .inr ⟨type ++ "@", rfl, rfl⟩
    · exact .inl rfl

/-- so is one whose body is on the row of its head, -/
theorem displaced_shortDeclaration (line : Line) (type : String) (argument : List Char)
    (guards : List Guard) :
    (o.shortDeclaration (line.renumber (· + k)) type argument guards).Displaced k l
      (o'.shortDeclaration (line.renumber (· + l)) type argument guards) := by
  have displaced := alike.displaced_declaration type argument line.first line.last guards
  unfold shortDeclaration
  generalize (Value.split ',' argument).drop 1 = parts
  rw [← parts.map_id]
  refine displaced.foldl (fun part _ => ?_) fun _ _ _ => rfl
  rw [id]
  refine ⟨fun d => ?_, fun d => ?_, fun d name span => ?_⟩
  all_goals cases Value.pair? part <;> rfl

/-- and one with a body of its own. -/
theorem displaced_blockDeclaration {block : Block}
    (positive : ∀ child ∈ block.children, 1 ≤ child.first) (type : String) (argument : List Char)
    (guards : List Guard) :
    (o.blockDeclaration (block.renumber (· + k)) type argument guards).Displaced k l
      (o'.blockDeclaration (block.renumber (· + l)) type argument guards) := by
  have declared := alike.displaced_declaration type argument block.header.first block.last guards
  have unfinished : Declaration.IsAddition fun d => { d with unfinished := !block.closed } :=
    ⟨fun _ => rfl, fun _ => rfl, fun _ _ _ => rfl⟩
  rw [blockDeclaration, blockDeclaration, BlockOf.children_renumber, BlockOf.children_renumber]
  exact (declared.add unfinished).foldl (fun child _ => o.isAddition_addNode _)
    fun child held d => alike.addNode_eq (positive child held) d

end Origin.Alike

/-! ## Findings -/

/-- The same finding on other lines. -/
inductive Finding.Displaced (k l : Nat) : Finding → Finding → Prop
  | declared {d e : Declaration} (displaced : d.Displaced k l e) :
      Displaced k l (.declared d) (.declared e)
  | attribute (path : String) (value : Value) :
      Displaced k l (.attribute path value) (.attribute path value)
  | «variable» (name : String) (value : Value) :
      Displaced k l (.variable name value) (.variable name value)
  | included (recipe : String) : Displaced k l (.included recipe) (.included recipe)
  | unknown {first : Nat} (positive : 1 ≤ first) (last : Nat) (guards : List Guard) :
      Displaced k l (.unknown (first + k) (last + k) guards)
        (.unknown (first + l) (last + l) guards)

/-- Lists that are joined from lists in relation are in relation. -/
theorem forall₂_flatMap {α β : Type} {r : β → β → Prop} {f g : α → List β} {xs : List α}
    (each : ∀ x ∈ xs, List.Forall₂ r (f x) (g x)) :
    List.Forall₂ r (xs.flatMap f) (xs.flatMap g) := by
  have pairs : List.Forall₂ (fun x y => List.Forall₂ r (f x) (g y)) xs xs :=
    List.forall₂_same.mpr each
  exact List.rel_flatMap pairs fun x y related => related

/-- What a block holds stands between its first line and its last. -/
theorem Node.Stands.children {p : Line → Prop} {low high : Nat} {block : Block}
    (stands : (Node.block block).Stands p low high) :
    NodesStand p low (block.last + 1) block.children := by
  obtain ⟨within, -, inner⟩ := stands
  exact (branchesStand_iff.mp inner).widen
    (Nat.le_succ_of_le (Nat.le_trans within.low_le within.first_le)) (Nat.le_refl _)

namespace Origin.Alike

variable {k l : Nat} {o o' : Origin} (alike : o.Alike k l o') {p : Line → Prop} {high : Nat}

include alike

section Line

variable {line : Line} (positive : 1 ≤ line.first)

include positive

/-- What a statement gives that is no block on one line is displaced with its line, -/
theorem displaced_plainFindings (guards : List Guard) (text : List Char) :
    List.Forall₂ (Finding.Displaced k l)
      (o.plainFindings guards (line.renumber (· + k)) text)
      (o'.plainFindings guards (line.renumber (· + l)) text) := by
  have unknown : List.Forall₂ (Finding.Displaced k l)
      [.unknown (line.first + k) (line.last + k) guards]
      [.unknown (line.first + l) (line.last + l) guards] :=
    .cons (.unknown positive line.last guards) .nil
  unfold plainFindings
  cases attributeAssignment? text with
  | some assigned => exact .cons (.attribute _ _) .nil
  | none =>
      cases includedRecipe? text with
      | some recipe => exact .cons (.included _) .nil
      | none =>
          cases variableAssignment? text with
          | some assigned => exact .cons (.variable _ _) .nil
          | none =>
              cases resourceHeader? text with
              | none => exact unknown
              | some head =>
                  dsimp only
                  rw [alike.knows_eq]
                  split
                  · exact .cons (.declared (alike.displaced_shortDeclaration line _ _ guards)) .nil
                  · exact unknown

/-- so is what is found in a statement, at any depth, -/
theorem displaced_statementFindings (depth : Nat) (guards : List Guard) :
    List.Forall₂ (Finding.Displaced k l)
      (o.statementFindings depth guards (line.renumber (· + k)))
      (o'.statementFindings depth guards (line.renumber (· + l))) := by
  induction depth generalizing line guards with
  | zero => exact .cons (.unknown positive line.last guards) .nil
  | succ depth ih =>
      have first (body : List Char) (part : Line) (member : part ∈ inlineStatements line body) :
          1 ≤ part.first := by
        obtain ⟨text, -, rfl⟩ := List.mem_map.mp member
        exact positive
      have same (f : Nat → Nat) : splitModifier (line.renumber f).text = splitModifier line.text :=
        rfl
      unfold statementFindings
      rw [same, same]
      obtain ⟨text, modifier⟩ := splitModifier line.text
      dsimp only
      cases splitInlineBlock? text with
      | none => exact alike.displaced_plainFindings positive _ _
      | some inline =>
          dsimp only
          rw [inlineStatements_renumber, inlineStatements_renumber]
          cases CallRole.ofHead inline.head with
          | loop =>
              dsimp only
              rw [List.flatMap_map, List.flatMap_map]
              exact forall₂_flatMap fun part member => ih (first _ part member) _
          | resource type argument =>
              have declared := alike.displaced_declaration type argument line.first line.last
                (guards ++ modifierGuards modifier)
              refine .cons (.declared (declared.foldl ?_ ?_)) .nil
              · exact fun part _ => o.isAddition_addStatement _
              · exact fun part member d => alike.addStatement_eq (first _ part member) d
          | wrapper => exact alike.displaced_plainFindings positive _ _

end Line

/-! ### Blocks -/

/-- The resource that a block declares, and those of its body. -/
theorem displaced_resource {block : Block} (stands : (Node.block block).Stands p 1 high)
    (type : String) (argument : List Char) (guards : List Guard)
    (each : ∀ child ∈ block.children, ∀ high, child.Stands p 1 high →
      List.Forall₂ (Finding.Displaced k l) (o.innerFindings guards (child.renumber (· + k)))
        (o'.innerFindings guards (child.renumber (· + l)))) :
    List.Forall₂ (Finding.Displaced k l)
      (.declared (o.blockDeclaration (block.renumber (· + k)) type argument guards) ::
        o.innerBranches guards (block.renumber (· + k)).branches)
      (.declared (o'.blockDeclaration (block.renumber (· + l)) type argument guards) ::
        o'.innerBranches guards (block.renumber (· + l)).branches) := by
  have held := stands.children
  have children (f : Nat → Nat) : (block.renumber f).branches.flatMap (·.children) =
      block.children.map (Node.renumber f) := block.children_renumber f
  refine .cons (.declared (alike.displaced_blockDeclaration ?_ type argument guards)) ?_
  · exact fun child member => (held.stands_of_mem member).bounds.1
  · rw [innerBranches_eq_flatMap, innerBranches_eq_flatMap, children, children, List.flatMap_map,
      List.flatMap_map]
    exact forall₂_flatMap fun child member => each child member _ (held.stands_of_mem member)

/-- what is found inside a resource -/
theorem displaced_innerFindings {node : Node} (stands : node.Stands p 1 high)
    (guards : List Guard) :
    List.Forall₂ (Finding.Displaced k l) (o.innerFindings guards (node.renumber (· + k)))
      (o'.innerFindings guards (node.renumber (· + l))) := by
  induction node using Node.inductChildren generalizing high with
  | statement line => exact .nil
  | stray line => exact .nil
  | block block ih =>
      rw [Node.renumber_block, Node.renumber_block, innerFindings_block, innerFindings_block,
        alike.nestedResource?_eq]
      cases o'.nestedResource? (block.renumber (· + l)) with
      | none => exact .nil
      | some named =>
          exact alike.displaced_resource stands _ _ _ fun child member _ => ih child member

omit alike in
/-- The arms of a block, if each node in them gives the same on other lines. -/
theorem displaced_branchFindings {extras : List (List Guard)} {branches : List (Branch Node)}
    (each : ∀ node ∈ branches.flatMap (·.children), ∀ guards,
      List.Forall₂ (Finding.Displaced k l) (o.nodeFindings guards (node.renumber (· + k)))
        (o'.nodeFindings guards (node.renumber (· + l)))) (guards : List Guard) :
    List.Forall₂ (Finding.Displaced k l)
      (o.branchFindings guards extras (branches.map (Branch.renumber (· + k))))
      (o'.branchFindings guards extras (branches.map (Branch.renumber (· + l)))) := by
  induction extras generalizing branches with
  | nil => cases branches <;> exact .nil
  | cons extra extras ih =>
      cases branches with
      | nil => exact .nil
      | cons branch branches =>
          rw [List.flatMap_cons, List.forall_mem_append] at each
          rw [List.map_cons, List.map_cons, branchFindings, branchFindings,
            nodesFindings_eq_flatMap, nodesFindings_eq_flatMap]
          refine List.rel_append ?_ (ih each.2)
          rw [Branch.renumber, Branch.renumber, List.flatMap_map, List.flatMap_map]
          exact forall₂_flatMap fun node member => each.1 node member _

/-- and what is found at a node. -/
theorem displaced_nodeFindings {node : Node} (stands : node.Stands p 1 high)
    (guards : List Guard) :
    List.Forall₂ (Finding.Displaced k l) (o.nodeFindings guards (node.renumber (· + k)))
      (o'.nodeFindings guards (node.renumber (· + l))) := by
  induction node using Node.inductChildren generalizing guards high with
  | statement line => exact alike.displaced_statementFindings stands.1.low_le _ guards
  | stray line =>
      have within : line.Within 1 high := stands
      exact .cons (.unknown within.low_le line.last guards) .nil
  | block block ih =>
      have top (f : Nat → Nat) : topResource? (block.renumber f) = topResource? block := rfl
      rw [Node.renumber_block, Node.renumber_block]
      cases head : topResource? block with
      | some named =>
          rw [nodeFindings_of_resource ((top _).trans head),
            nodeFindings_of_resource ((top _).trans head)]
          exact alike.displaced_resource stands _ _ _ fun child _ _ stands =>
            alike.displaced_innerFindings stands _
      | none =>
          by_cases shut : block.kind = .sealed
          · rw [nodeFindings_of_sealed ((top _).trans head) shut,
              nodeFindings_of_sealed ((top _).trans head) shut]
            exact .cons (.unknown stands.1.low_le block.last _) .nil
          · have plain (f : Nat → Nat) : (block.renumber f).IsPlain := ⟨(top f).trans head, shut⟩
            rw [nodeFindings_of_isPlain (plain _), nodeFindings_of_isPlain (plain _),
              scopes_renumber, scopes_renumber]
            exact displaced_branchFindings (fun child member guards =>
              ih child member (stands.children.stands_of_mem member) guards) _

/-- What nodes give they give on other lines as well. -/
theorem displaced_nodesFindings {nodes : List Node} (stand : NodesStand p 1 high nodes)
    (guards : List Guard) :
    List.Forall₂ (Finding.Displaced k l)
      (o.nodesFindings guards (nodes.map (Node.renumber (· + k))))
      (o'.nodesFindings guards (nodes.map (Node.renumber (· + l)))) := by
  rw [nodesFindings_eq_flatMap, nodesFindings_eq_flatMap, List.flatMap_map, List.flatMap_map]
  exact forall₂_flatMap fun node member =>
    alike.displaced_nodeFindings (stand.stands_of_mem member) guards

end Origin.Alike

/-! ## Stretches -/

/-- A stretch some lines further down. -/
def Stretch.down (n : Nat) (stretch : Stretch) : Stretch :=
  ⟨stretch.first + n, stretch.last + n, stretch.guards⟩

section Joined

variable {k l : Nat}

/-- A stretch that is not understood keeps its text when it is moved. -/
theorem Stretch.displaced_finding {stretch : Stretch} (positive : 1 ≤ stretch.first) :
    (stretch.down k).finding.Displaced k l (stretch.down l).finding :=
  .unknown positive stretch.last stretch.guards

/-- Whether two stretches are joined is told by the distance between them. -/
theorem joined_down (stretch : Stretch) (n first last : Nat) (guards : List Guard)
    (rest : List Finding) :
    joined (some (stretch.down n)) (.unknown (first + n) (last + n) guards :: rest) =
      if stretch.guards = guards ∧ stretch.last < first then
        joined (some (Stretch.down n ⟨stretch.first, last, stretch.guards⟩)) rest
      else
        (stretch.down n).finding :: joined (some (Stretch.down n ⟨first, last, guards⟩)) rest := by
  have after : (stretch.down n).last < first + n ↔ stretch.last < first := Nat.add_lt_add_iff_right
  rw [joined]
  refine if_congr ?_ rfl rfl
  rw [Bool.and_eq_true, decide_eq_true_eq, decide_eq_true_eq, after]
  rfl

/-- Stretches are joined wherever they stand. -/
theorem displaced_joined {findings findings' : List Finding}
    (displaced : List.Forall₂ (Finding.Displaced k l) findings findings')
    (pending : Option Stretch) (positive : ∀ stretch ∈ pending, 1 ≤ stretch.first) :
    List.Forall₂ (Finding.Displaced k l) (joined (pending.map (Stretch.down k)) findings)
      (joined (pending.map (Stretch.down l)) findings') := by
  have flushed (pending : Option Stretch) (positive : ∀ stretch ∈ pending, 1 ≤ stretch.first) :
      List.Forall₂ (Finding.Displaced k l)
        ((pending.map (Stretch.down k)).map Stretch.finding).toList
        ((pending.map (Stretch.down l)).map Stretch.finding).toList := by
    cases pending with
    | none => exact .nil
    | some stretch => exact .cons (Stretch.displaced_finding (positive stretch rfl)) .nil
  induction displaced generalizing pending with
  | nil => exact flushed pending positive
  | @cons finding finding' rest rest' here _ ih =>
      -- Whatever is no stretch ends the pending one on both sides.
      have settled (settles : ∀ first last guards, finding ≠ .unknown first last guards)
          (settles' : ∀ first last guards, finding' ≠ .unknown first last guards) :
          List.Forall₂ (Finding.Displaced k l)
            (joined (pending.map (Stretch.down k)) (finding :: rest))
            (joined (pending.map (Stretch.down l)) (finding' :: rest')) := by
        rw [joined_cons _ _ settles, joined_cons _ _ settles']
        exact List.rel_append (flushed pending positive) (.cons here (ih none nofun))
      cases here with
      | @unknown first positive' last guards =>
          have begun : ∀ stretch ∈ some (⟨first, last, guards⟩ : Stretch), 1 ≤ stretch.first :=
            fun _ same => Option.some.inj same ▸ positive'
          cases pending with
          | none => exact ih _ begun
          | some stretch =>
              have positive : 1 ≤ stretch.first := positive stretch rfl
              rw [Option.map_some, Option.map_some, joined_down, joined_down]
              split_ifs
              · exact ih (some ⟨stretch.first, last, stretch.guards⟩) fun _ same =>
                  Option.some.inj same ▸ positive
              · exact .cons (Stretch.displaced_finding positive) (ih _ begun)
      | _ => exact settled nofun nofun

end Joined

/-! ## What is declared -/

namespace Origin.Alike

variable {k l : Nat} {o o' : Origin} (alike : o.Alike k l o') {p : Line → Prop} {high : Nat}

include alike

/-- A stretch quotes the same lines wherever it stands. -/
theorem displaced_stretchDeclaration {stretch : Stretch} (positive : 1 ≤ stretch.first) :
    ((stretch.down k).declaration o).Displaced k l ((stretch.down l).declaration o') where
  same := by
    simp only [Stretch.declaration, Stretch.down, Declaration.place, alike.text_eq positive]
  file := alike.file
  first := Nat.add_right_comm stretch.first k l
  last := by
    simp only [Stretch.declaration, Stretch.down, span]
    omega
  name := by
    refine .inr ⟨o.file ++ ":", rfl, ?_⟩
    rw [alike.file]
    rfl

/-- What is found on other lines is declared on other lines. -/
theorem displaced_declarations {findings findings' : List Finding}
    (displaced : List.Forall₂ (Finding.Displaced k l) findings findings') :
    List.Forall₂ (Declaration.Displaced k l) (findings.flatMap (Finding.declarations o))
      (findings'.flatMap (Finding.declarations o')) := by
  refine List.rel_flatMap displaced fun finding finding' here => ?_
  cases here with
  | declared displaced => exact .cons displaced .nil
  | @unknown first positive last guards =>
      have begun : 1 ≤ (⟨first, last, guards⟩ : Stretch).first := positive
      have displaced := alike.displaced_stretchDeclaration begun
      exact .cons displaced .nil
  | _ => exact .nil

end Origin.Alike

end Rolewright.Recipe
