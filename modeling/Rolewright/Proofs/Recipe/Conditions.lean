/-
# The conditions that govern declarations

A declaration stands at a place: a resource as it is written, and around it the loops and blocks,
from the outermost to the innermost. What is declared is just what stands at the places of a recipe,
and its guards begin with those that the place contributes, but for one way of losing them: of
resources in the body of another the conditions behind their own `end` are dropped
(`carries_extract_iff`).
-/

import Rolewright.Proofs.Recipe.Coverage

namespace Rolewright.Recipe

open Text

/-! ## Places -/

/-- What stands around a declaration. -/
inductive Enclosure where
  /-- A block that is no resource, and the guards of the arm in which the declaration stands. -/
  | arm (block : Block) (scope : List Guard)
  /-- A loop on one line, and the condition behind it. -/
  | loop (inline : InlineBlock) (modifier : Option Modifier)
  /-- A resource in whose body the declaration stands. -/
  | body (block : Block)

/-- The guards that an enclosure contributes. That of a condition behind its `end` comes first. -/
def Enclosure.guards : Enclosure → List Guard
  | .arm block scope => modifierGuards block.modifier ++ scope
  | .loop inline modifier =>
    modifierGuards modifier ++ [⟨.loop, describeCall inline.head inline.params⟩]
  | .body block => modifierGuards block.modifier

/-- A resource as it is written: in one statement, as a block on one line, or as a block. -/
inductive Site where
  | short (line : Line) (type : String) (argument : List Char)
  | oneLine (line : Line) (inline : InlineBlock) (type : String) (argument : List Char)
  | spread (block : Block) (type : String) (argument : List Char)

namespace Site

/-- The condition behind the statement or behind the `end`. -/
def modifier : Site → Option Modifier
  | .short line _ _ | .oneLine line _ _ _ => (splitModifier line.text).2
  | .spread block _ _ => block.modifier

/-- What is declared there under some guards, before the body is read. -/
def head (o : Origin) (guards : List Guard) : Site → Declaration
  | .short line type argument | .oneLine line _ type argument =>
    o.declaration type argument line.first line.last guards
  | .spread block type argument =>
    o.declaration type argument block.header.first block.last guards

/-- What is declared there under some guards. -/
def declaration (o : Origin) (guards : List Guard) : Site → Declaration
  | .short line type argument => o.shortDeclaration line type argument guards
  | .oneLine line inline type argument =>
    (Origin.inlineStatements line inline.body).foldl o.addStatement
      (o.declaration type argument line.first line.last guards)
  | .spread block type argument => o.blockDeclaration block type argument guards

end Site

/-- A statement is a resource of a type that is known, and no assignment and no inclusion. -/
structure IsShort (o : Origin) (text : List Char) (type : String) (argument : List Char) :
    Prop where
  unassigned : attributeAssignment? text = none
  unincluded : includedRecipe? text = none
  unnamed : variableAssignment? text = none
  head : resourceHeader? text = some (type, argument)
  known : o.knows type = true

/-- A resource stands in a line, inside loops that are all on this line. -/
inductive Line.Declares (o : Origin) : Line → List Enclosure → Site → Prop
  | statement {line : Line} {type : String} {argument : List Char}
      (simple : ∀ inline, splitInlineBlock? (splitModifier line.text).1 = some inline →
        CallRole.ofHead inline.head = .wrapper)
      (short : IsShort o (splitModifier line.text).1 type argument) :
      Declares o line [] (.short line type argument)
  | inline {line : Line} {inline : InlineBlock} {type : String} {argument : List Char}
      (whole : splitInlineBlock? (splitModifier line.text).1 = some inline)
      (role : CallRole.ofHead inline.head = .resource type argument) :
      Declares o line [] (.oneLine line inline type argument)
  | loop {line part : Line} {inline : InlineBlock} {path : List Enclosure} {site : Site}
      (whole : splitInlineBlock? (splitModifier line.text).1 = some inline)
      (loops : CallRole.ofHead inline.head = .loop)
      (member : part ∈ Origin.inlineStatements line inline.body)
      (inside : part.Declares o path site) :
      Declares o line (.loop inline (splitModifier line.text).2 :: path) site

/-- A resource is a node in the body of another, or stands in the body of that node. -/
inductive Node.Nests (o : Origin) : Node → List Enclosure → Site → Prop
  | self {block : Block} {type : String} {argument : List Char}
      (found : o.nestedResource? block = some (type, argument)) :
      Nests o (.block block) [] (.spread block type argument)
  | inside {block : Block} {child : Node} {path : List Enclosure} {site : Site}
      (found : (o.nestedResource? block).isSome) (member : child ∈ block.children)
      (deeper : child.Nests o path site) : Nests o (.block block) (.body block :: path) site

/-- A resource stands in a node of a recipe. -/
inductive Node.Declares (o : Origin) : Node → List Enclosure → Site → Prop
  | statement {line : Line} {path : List Enclosure} {site : Site}
      (inside : line.Declares o path site) : Declares o (.statement line) path site
  | self {block : Block} {type : String} {argument : List Char}
      (found : Origin.topResource? block = some (type, argument)) :
      Declares o (.block block) [] (.spread block type argument)
  | body {block : Block} {child : Node} {path : List Enclosure} {site : Site}
      (found : (Origin.topResource? block).isSome) (member : child ∈ block.children)
      (nested : child.Nests o path site) : Declares o (.block block) (.body block :: path) site
  | arm {block : Block} {scope : List Guard} {branch : Branch Node} {child : Node}
      {path : List Enclosure} {site : Site} (plain : block.IsPlain)
      (among : (scope, branch) ∈ (Origin.scopes block).zip block.branches)
      (member : child ∈ branch.children) (inside : child.Declares o path site) :
      Declares o (.block block) (.arm block scope :: path) site

/-- The guards that a place contributes, from the outermost to the innermost. That of a condition
behind the resource itself comes last. -/
def conditions (path : List Enclosure) (site : Site) : List Guard :=
  path.flatMap Enclosure.guards ++ modifierGuards site.modifier

/-- Those of them that are kept: nothing of what stands in the body of a resource. -/
def keptConditions : List Enclosure → Site → List Guard
  | [], site => modifierGuards site.modifier
  | .body block :: _, _ => modifierGuards block.modifier
  | around :: path, site => around.guards ++ keptConditions path site

/-- What stands in the body of a resource has no condition behind its `end`, at any depth. -/
def BodyIsUnconditional : List Enclosure → Site → Prop
  | [], _ => True
  | .body _ :: path, site => conditions path site = []
  | _ :: path, site => BodyIsUnconditional path site

/-- The guards of a declaration begin with some conditions, after which only its own come. -/
def Declaration.Carries (d : Declaration) (conditions : List Guard) : Prop :=
  ∃ own, d.guards = conditions ++ own ∧ ∀ guard ∈ own, guard.IsOwn

/-! ## Statements -/

section Line

variable {o : Origin} {line : Line} {inline : InlineBlock} {path : List Enclosure} {site : Site}

/-- A line that is no loop and no resource with a block is a resource as a whole, or declares
none. -/
theorem Line.declares_iff_of_simple
    (simple : ∀ inline, splitInlineBlock? (splitModifier line.text).1 = some inline →
      CallRole.ofHead inline.head = .wrapper) :
    line.Declares o path site ↔ ∃ type argument,
      IsShort o (splitModifier line.text).1 type argument ∧ path = [] ∧
        site = .short line type argument := by
  constructor
  · intro place
    cases place with
    | statement _ short => exact ⟨_, _, short, rfl, rfl⟩
    | inline whole role => exact nomatch (simple _ whole).symm.trans role
    | loop whole loops _ _ => exact nomatch (simple _ whole).symm.trans loops
  · rintro ⟨type, argument, short, rfl, rfl⟩
    exact .statement simple short

theorem Line.declares_iff_of_resource {type : String} {argument : List Char}
    (whole : splitInlineBlock? (splitModifier line.text).1 = some inline)
    (role : CallRole.ofHead inline.head = .resource type argument) :
    line.Declares o path site ↔ path = [] ∧ site = .oneLine line inline type argument := by
  constructor
  · intro place
    cases place with
    | statement simple _ => exact nomatch role.symm.trans (simple inline whole)
    | inline whole' role' =>
        cases whole.symm.trans whole'
        cases role.symm.trans role'
        exact ⟨rfl, rfl⟩
    | loop whole' loops _ _ =>
        cases whole.symm.trans whole'
        exact nomatch role.symm.trans loops
  · rintro ⟨rfl, rfl⟩
    exact .inline whole role

theorem Line.declares_iff_of_loop
    (whole : splitInlineBlock? (splitModifier line.text).1 = some inline)
    (loops : CallRole.ofHead inline.head = .loop) :
    line.Declares o path site ↔ ∃ part ∈ Origin.inlineStatements line inline.body, ∃ inner,
      path = .loop inline (splitModifier line.text).2 :: inner ∧ part.Declares o inner site := by
  constructor
  · intro place
    cases place with
    | statement simple _ => exact nomatch loops.symm.trans (simple inline whole)
    | inline whole' role =>
        cases whole.symm.trans whole'
        exact nomatch loops.symm.trans role
    | loop whole' _ member inside =>
        cases whole.symm.trans whole'
        exact ⟨_, member, _, rfl, inside⟩
  · rintro ⟨part, member, inner, rfl, inside⟩
    exact .loop whole loops member inside

end Line

namespace Origin

variable {o : Origin} {guards : List Guard} {line : Line} {d : Declaration}

theorem declared_mem_plainFindings_iff {text : List Char} :
    .declared d ∈ o.plainFindings guards line text ↔
      ∃ type argument, IsShort o text type argument ∧
        d = o.shortDeclaration line type argument guards := by
  constructor
  · intro member
    unfold plainFindings at member
    split at member
    · simp at member
    · rename_i unassigned
      split at member
      · simp at member
      · rename_i unincluded
        split at member
        · simp at member
        · rename_i unnamed
          split at member
          · rename_i head
            split at member
            · rename_i known
              cases List.mem_singleton.mp member
              exact ⟨_, _, ⟨unassigned, unincluded, unnamed, head, known⟩, rfl⟩
            · simp at member
          · simp at member
  · rintro ⟨type, argument, short, rfl⟩
    simp [plainFindings, short.unassigned, short.unincluded, short.unnamed, short.head, short.known]

/-- A statement of a block on one line is shorter than the line. -/
theorem length_lt_of_mem_inlineStatements {part : Line} {inline : InlineBlock}
    (whole : splitInlineBlock? (splitModifier line.text).1 = some inline)
    (member : part ∈ inlineStatements line inline.body) : part.text.length < line.text.length := by
  obtain ⟨text, among, rfl⟩ := List.mem_map.mp member
  calc text.length
      ≤ inline.body.length := (Value.infix_of_mem_split among).length_le
    _ < (splitModifier line.text).1.length := length_body_lt whole
    _ ≤ line.text.length := (prefix_splitModifier line.text).length_le

theorem declared_mem_simple_iff
    (simple : ∀ inline, splitInlineBlock? (splitModifier line.text).1 = some inline →
      CallRole.ofHead inline.head = .wrapper) :
    .declared d ∈ o.plainFindings (guards ++ modifierGuards (splitModifier line.text).2) line
        (splitModifier line.text).1 ↔
      ∃ path site, line.Declares o path site ∧
        d = site.declaration o (guards ++ conditions path site) := by
  simp only [declared_mem_plainFindings_iff, Line.declares_iff_of_simple simple]
  constructor
  · rintro ⟨type, argument, short, rfl⟩
    exact ⟨_, _, ⟨type, argument, short, rfl, rfl⟩, rfl⟩
  · rintro ⟨_, _, ⟨type, argument, short, rfl, rfl⟩, rfl⟩
    exact ⟨type, argument, short, rfl⟩

/-- A statement declares the resources that stand in it, under the conditions of their places. -/
theorem declared_mem_statementFindings_iff {depth : Nat} (deep : line.text.length < depth) :
    .declared d ∈ o.statementFindings depth guards line ↔
      ∃ path site, line.Declares o path site ∧
        d = site.declaration o (guards ++ conditions path site) := by
  induction depth generalizing guards line with
  | zero => exact absurd deep (Nat.not_lt_zero _)
  | succ depth ih =>
      unfold statementFindings
      dsimp only
      cases whole : splitInlineBlock? (splitModifier line.text).1 with
      | none =>
          refine declared_mem_simple_iff fun _ other => ?_
          rw [whole] at other
          cases other
      | some inline =>
          dsimp only
          cases role : CallRole.ofHead inline.head with
          | wrapper =>
              refine declared_mem_simple_iff fun other also => ?_
              cases whole.symm.trans also
              exact role
          | resource type argument =>
              simp only [Line.declares_iff_of_resource whole role, List.mem_singleton,
                Finding.declared.injEq]
              constructor
              · rintro rfl
                exact ⟨_, _, ⟨rfl, rfl⟩, rfl⟩
              · rintro ⟨_, _, ⟨rfl, rfl⟩, rfl⟩
                rfl
          | loop =>
              have shorter (part : Line) (member : part ∈ inlineStatements line inline.body) :
                  part.text.length < depth :=
                Nat.lt_of_lt_of_le (length_lt_of_mem_inlineStatements whole member)
                  (Nat.le_of_lt_succ deep)
              simp only [Line.declares_iff_of_loop whole role, List.mem_flatMap]
              constructor
              · rintro ⟨part, member, given⟩
                obtain ⟨path, site, place, rfl⟩ := (ih (shorter part member)).mp given
                refine ⟨_, site, ⟨part, member, path, rfl, place⟩, ?_⟩
                simp [conditions, Enclosure.guards]
              · rintro ⟨_, site, ⟨part, member, path, rfl, place⟩, rfl⟩
                refine ⟨part, member, (ih (shorter part member)).mpr ⟨path, site, place, ?_⟩⟩
                simp [conditions, Enclosure.guards]

end Origin

/-! ## Nodes -/

section Node

variable {o : Origin} {block : Block} {path : List Enclosure} {site : Site} {type : String}
  {argument : List Char}

theorem Node.nests_iff_of_resource (found : o.nestedResource? block = some (type, argument)) :
    (Node.block block).Nests o path site ↔
      (path = [] ∧ site = .spread block type argument) ∨
        ∃ child ∈ block.children, ∃ inner, path = .body block :: inner ∧
          child.Nests o inner site := by
  constructor
  · intro place
    cases place with
    | self found' =>
        cases found.symm.trans found'
        exact .inl ⟨rfl, rfl⟩
    | inside _ member deeper => exact .inr ⟨_, member, _, rfl, deeper⟩
  · rintro (⟨rfl, rfl⟩ | ⟨child, member, inner, rfl, deeper⟩)
    · exact .self found
    · exact .inside (found ▸ rfl) member deeper

theorem Node.declares_iff_of_resource (found : Origin.topResource? block = some (type, argument)) :
    (Node.block block).Declares o path site ↔
      (path = [] ∧ site = .spread block type argument) ∨
        ∃ child ∈ block.children, ∃ inner, path = .body block :: inner ∧
          child.Nests o inner site := by
  constructor
  · intro place
    cases place with
    | self found' =>
        cases found.symm.trans found'
        exact .inl ⟨rfl, rfl⟩
    | body _ member nested => exact .inr ⟨_, member, _, rfl, nested⟩
    | arm plain => exact nomatch found.symm.trans plain.1
  · rintro (⟨rfl, rfl⟩ | ⟨child, member, inner, rfl, nested⟩)
    · exact .self found
    · exact .body (found ▸ rfl) member nested

theorem Node.declares_iff_of_isPlain (plain : block.IsPlain) :
    (Node.block block).Declares o path site ↔
      ∃ scope ∈ (Origin.scopes block).zip block.branches, ∃ child ∈ scope.2.children, ∃ inner,
        path = .arm block scope.1 :: inner ∧ child.Declares o inner site := by
  constructor
  · intro place
    cases place with
    | self found => exact nomatch plain.1.symm.trans found
    | body found =>
        rw [plain.1] at found
        cases found
    | arm _ among member inside => exact ⟨_, among, _, member, _, rfl, inside⟩
  · rintro ⟨⟨scope, branch⟩, among, child, member, inner, rfl, inside⟩
    exact .arm plain among member inside

/-- Nothing is declared in a block that is left as it stands. -/
theorem Node.not_declares_of_sealed (found : Origin.topResource? block = none)
    (shut : block.kind = .sealed) : ¬ (Node.block block).Declares o path site := by
  intro place
  cases place with
  | self found' =>
      rw [found] at found'
      cases found'
  | body found' =>
      rw [found] at found'
      cases found'
  | arm plain => exact absurd shut plain.2

theorem Line.Declares.keptConditions_eq {line : Line} (place : line.Declares o path site) :
    keptConditions path site = conditions path site := by
  induction place with
  | statement | inline => rfl
  | loop whole loops member inside ih => simp [keptConditions, conditions, ih]

theorem Line.Declares.bodyIsUnconditional {line : Line} (place : line.Declares o path site) :
    BodyIsUnconditional path site := by
  induction place with
  | statement | inline => trivial
  | loop whole loops member inside ih => exact ih

end Node

namespace Origin

variable {o : Origin} {guards : List Guard} {d : Declaration} {node : Node}

/-- A resource declares itself and what is nested in its body. -/
theorem declared_mem_resource_iff {block : Block} {type : String} {argument : List Char}
    (each : ∀ child ∈ block.children, .declared d ∈ o.innerFindings guards child ↔
      ∃ path site, child.Nests o path site ∧ d = site.declaration o guards) :
    .declared d ∈ .declared (o.blockDeclaration block type argument guards) ::
        o.innerBranches guards block.branches ↔
      d = (Site.spread block type argument).declaration o guards ∨
        ∃ child ∈ block.children, ∃ path site, child.Nests o path site ∧
          d = site.declaration o guards := by
  rw [List.mem_cons, Finding.declared.injEq, mem_innerBranches]
  refine or_congr_right ⟨?_, ?_⟩
  · rintro ⟨branch, among, child, held, given⟩
    have member : child ∈ block.children := List.mem_flatMap.mpr ⟨branch, among, held⟩
    exact ⟨child, member, (each child member).mp given⟩
  · rintro ⟨child, member, place⟩
    obtain ⟨branch, among, held⟩ := List.mem_flatMap.mp member
    exact ⟨branch, among, child, held, (each child member).mpr place⟩

/-- The resources in the body of another are declared under the guards of that one. -/
theorem declared_mem_innerFindings_iff : .declared d ∈ o.innerFindings guards node ↔
    ∃ path site, node.Nests o path site ∧ d = site.declaration o guards := by
  induction node using Node.inductChildren with
  | statement line => exact ⟨(nomatch ·), fun ⟨_, _, place, _⟩ => nomatch place⟩
  | stray line => exact ⟨(nomatch ·), fun ⟨_, _, place, _⟩ => nomatch place⟩
  | block block ih =>
      rw [innerFindings_block]
      cases found : o.nestedResource? block with
      | none =>
          refine ⟨(nomatch ·), ?_⟩
          rintro ⟨path, site, place, -⟩
          cases place with
          | self found' => exact nomatch found.symm.trans found'
          | inside found' =>
              rw [found] at found'
              cases found'
      | some named =>
          obtain ⟨type, argument⟩ := named
          dsimp only
          rw [declared_mem_resource_iff ih]
          simp only [Node.nests_iff_of_resource found]
          constructor
          · rintro (rfl | ⟨child, member, path, site, place, rfl⟩)
            · exact ⟨_, _, .inl ⟨rfl, rfl⟩, rfl⟩
            · exact ⟨_, _, .inr ⟨child, member, path, rfl, place⟩, rfl⟩
          · rintro ⟨_, _, ⟨rfl, rfl⟩ | ⟨child, member, path, rfl, place⟩, rfl⟩
            · exact .inl rfl
            · exact .inr ⟨child, member, path, _, place, rfl⟩

/-- A node declares the resources that stand in it, under the conditions that are kept. -/
theorem declared_mem_nodeFindings_iff : .declared d ∈ o.nodeFindings guards node ↔
    ∃ path site, node.Declares o path site ∧
      d = site.declaration o (guards ++ keptConditions path site) := by
  induction node using Node.inductChildren generalizing guards with
  | statement line =>
      rw [nodeFindings, lineFindings, declared_mem_statementFindings_iff (Nat.lt_succ_self _)]
      constructor
      · rintro ⟨path, site, place, rfl⟩
        exact ⟨path, site, .statement place, by rw [place.keptConditions_eq]⟩
      · rintro ⟨path, site, ⟨place⟩, rfl⟩
        exact ⟨path, site, place, by rw [place.keptConditions_eq]⟩
  | stray line =>
      rw [nodeFindings, List.mem_singleton]
      refine ⟨Finding.noConfusion, ?_⟩
      rintro ⟨_, _, place, _⟩
      cases place
  | block block ih =>
      cases found : topResource? block with
      | some named =>
          obtain ⟨type, argument⟩ := named
          rw [nodeFindings_of_resource found,
            declared_mem_resource_iff fun child _ => declared_mem_innerFindings_iff]
          simp only [Node.declares_iff_of_resource found]
          constructor
          · rintro (rfl | ⟨child, member, path, site, place, rfl⟩)
            · exact ⟨_, _, .inl ⟨rfl, rfl⟩, rfl⟩
            · exact ⟨_, _, .inr ⟨child, member, path, rfl, place⟩, rfl⟩
          · rintro ⟨_, _, ⟨rfl, rfl⟩ | ⟨child, member, path, rfl, place⟩, rfl⟩
            · exact .inl rfl
            · exact .inr ⟨child, member, path, _, place, rfl⟩
      | none =>
          by_cases shut : block.kind = .sealed
          · rw [nodeFindings_of_sealed found shut, List.mem_singleton]
            refine ⟨Finding.noConfusion, ?_⟩
            rintro ⟨path, site, place, -⟩
            exact absurd place (Node.not_declares_of_sealed found shut)
          · have plain : block.IsPlain := ⟨found, shut⟩
            rw [nodeFindings_of_isPlain plain, mem_branchFindings]
            simp only [Node.declares_iff_of_isPlain plain]
            have held {scope : List Guard × Branch Node} {child : Node}
                (among : scope ∈ (scopes block).zip block.branches)
                (member : child ∈ scope.2.children) : child ∈ block.children :=
              List.mem_flatMap.mpr ⟨_, (List.of_mem_zip among).2, member⟩
            constructor
            · rintro ⟨scope, among, child, member, given⟩
              obtain ⟨path, site, place, rfl⟩ := (ih child (held among member)).mp given
              refine ⟨_, site, ⟨scope, among, child, member, path, rfl, place⟩, ?_⟩
              simp [keptConditions, Enclosure.guards]
            · rintro ⟨_, site, ⟨scope, among, child, member, path, rfl, place⟩, rfl⟩
              refine ⟨scope, among, child, member,
                (ih child (held among member)).mpr ⟨path, site, place, ?_⟩⟩
              simp [keptConditions, Enclosure.guards]

end Origin

/-! ## What is kept and what is lost -/

section Carries

variable {o : Origin} {node : Node} {path : List Enclosure} {site : Site}

theorem Site.embodies_declaration (o : Origin) (guards : List Guard) (site : Site) :
    (site.declaration o guards).Embodies (site.head o guards) := by
  cases site with
  | short line type argument => exact o.embodies_shortDeclaration type argument guards line
  | oneLine line inline type argument => exact embodies_foldl o.embodies_addStatement _ _
  | spread block type argument => exact o.embodies_blockDeclaration type argument guards block

theorem Site.guards_head (o : Origin) (guards : List Guard) (site : Site) :
    (site.head o guards).guards = guards := by
  cases site <;> rfl

theorem not_isOwn_of_mem_modifierGuards {modifier : Option Modifier} {guard : Guard}
    (member : guard ∈ modifierGuards modifier) : ¬ guard.IsOwn := by
  obtain ⟨m, -, rfl⟩ := Option.map_eq_some_iff.mp (Option.mem_toList.mp member)
  unfold Modifier.guard Guard.IsOwn
  cases m.negated <;> simp

/-- In the body of a resource only conditions behind an `end` are contributed. -/
theorem Node.Nests.not_isOwn {guard : Guard} (nests : node.Nests o path site)
    (member : guard ∈ conditions path site) : ¬ guard.IsOwn := by
  induction nests with
  | self found => exact not_isOwn_of_mem_modifierGuards member
  | inside found held deeper ih =>
      rw [conditions, List.flatMap_cons, List.append_assoc] at member
      rcases List.mem_append.mp member with here | later
      · exact not_isOwn_of_mem_modifierGuards here
      · exact ih later

/-- The conditions of a place are those that are kept and then those that are lost. -/
theorem Node.Declares.exists_lost (place : node.Declares o path site) :
    ∃ lost, conditions path site = keptConditions path site ++ lost ∧
      (∀ guard ∈ lost, ¬ guard.IsOwn) ∧ (BodyIsUnconditional path site ↔ lost = []) := by
  induction place with
  | statement inside =>
      refine ⟨[], ?_, nofun, iff_of_true inside.bodyIsUnconditional rfl⟩
      rw [inside.keptConditions_eq, List.append_nil]
  | self found => exact ⟨[], (List.append_nil _).symm, nofun, iff_of_true trivial rfl⟩
  | @body block child path site found member nested =>
      refine ⟨conditions path site, ?_, fun _ => nested.not_isOwn, Iff.rfl⟩
      simp [conditions, keptConditions, Enclosure.guards]
  | arm plain among member inside ih =>
      obtain ⟨lost, all, foreign, intact⟩ := ih
      refine ⟨lost, ?_, foreign, intact⟩
      rw [conditions, List.flatMap_cons, List.append_assoc, ← conditions, all]
      simp [keptConditions]

/-- What is declared at a place carries all its conditions unless some are lost. -/
theorem Node.Declares.carries_iff (place : node.Declares o path site) :
    (site.declaration o (keptConditions path site)).Carries (conditions path site) ↔
      BodyIsUnconditional path site := by
  obtain ⟨lost, all, foreign, intact⟩ := place.exists_lost
  obtain ⟨own, guards, areOwn⟩ := (site.embodies_declaration o (keptConditions path site)).guards
  rw [Site.guards_head] at guards
  rw [intact, all]
  constructor
  · rintro ⟨others, split, areOwn'⟩
    rw [guards, List.append_assoc, List.append_cancel_left_eq] at split
    refine List.eq_nil_iff_forall_not_mem.mpr fun guard member => foreign guard member ?_
    exact areOwn guard (split ▸ List.mem_append_left _ member)
  · rintro rfl
    exact ⟨own, by rw [guards, List.append_nil], areOwn⟩

end Carries

/-! ## The conditions of a recipe -/

/-- A resource stands at a place of a recipe. -/
def IsPlace (o : Origin) (source : List Char) (path : List Enclosure) (site : Site) : Prop :=
  ∃ node ∈ Node.ofLines (Line.ofSource source), node.Declares o path site

/-- A recipe declares what stands at its places, beside the stretches that it quotes. Each
declaration carries the conditions that govern it, except where a resource in the body of another,
or one around it there, has a condition behind its `end`. -/
theorem carries_extract_iff (file : String) (types : List String) (source : List Char) :
    let o : Origin := ⟨file, types, lines source⟩
    let declarations := (SourceFile.extract file types source).declarations
    (∀ d ∈ declarations, d.IsVerbatim (lines source) ∨ ∃ path site, IsPlace o source path site ∧
        d = site.declaration o (keptConditions path site)) ∧
      ∀ path site, IsPlace o source path site →
        site.declaration o (keptConditions path site) ∈ declarations ∧
          ((site.declaration o (keptConditions path site)).Carries (conditions path site) ↔
            BodyIsUnconditional path site) := by
  intro o declarations
  have inside (finding : Finding) (member : finding ∈ findingsOf file types source) :
      finding.IsInside (lines source) := (finding_stands member).1
  obtain ⟨keeps, declared⟩ := keeps_extract inside
  have places {d : Declaration} : .declared d ∈ findingsOf file types source ↔
      ∃ path site, IsPlace o source path site ∧
        d = site.declaration o (keptConditions path site) := by
    rw [findingsOf, Origin.mem_nodesFindings]
    simp only [Origin.declared_mem_nodeFindings_iff, List.nil_append]
    constructor
    · rintro ⟨node, among, path, site, place, rfl⟩
      exact ⟨path, site, ⟨node, among, place⟩, rfl⟩
    · rintro ⟨path, site, ⟨node, among, place⟩, rfl⟩
      exact ⟨node, among, path, site, place, rfl⟩
  refine ⟨fun d member => (declared d member).symm.imp_right places.mp, fun path site place => ?_⟩
  refine ⟨keeps _ (places.mpr ⟨path, site, place, rfl⟩), ?_⟩
  obtain ⟨node, -, inside⟩ := place
  exact inside.carries_iff

/-- Every resource of a recipe is declared with all the conditions that govern it, after which only
its own guards come. -/
def KeepsConditions (file : String) (types : List String) (source : List Char) : Prop :=
  ∀ path site, IsPlace ⟨file, types, lines source⟩ source path site →
    ∃ d ∈ (SourceFile.extract file types source).declarations,
      d.Embodies (site.head ⟨file, types, lines source⟩ (conditions path site))

/-- A resource that is only for some nodes, in the body of another. -/
def nestedCondition : List Char :=
  "template '/a' do\n  service 'x' do\n    action :restart\n  end if node['y']\nend\n".toList

/-- The block of that resource. -/
def conditionalBlock : Block where
  kind := .call "service 'x'".toList none
  header := ⟨"service 'x' do".toList, 2, 2, []⟩
  branches := [⟨.body, [], 2, [.statement ⟨"action :restart".toList, 3, 3, []⟩]⟩]
  last := 4
  closed := true
  modifier := some ⟨false, "node['y']".toList⟩

/-- The block of the resource around it. -/
def enclosingBlock : Block where
  kind := .call "template '/a'".toList none
  header := ⟨"template '/a' do".toList, 1, 1, []⟩
  branches := [⟨.body, [], 1, [.block conditionalBlock]⟩]
  last := 5
  closed := true
  modifier := none

theorem ofLines_nestedCondition :
    Node.ofLines (Line.ofSource nestedCondition) = [.block enclosingBlock] := by
  have lines : Line.ofSource nestedCondition =
      [⟨"template '/a' do".toList, 1, 1, []⟩, ⟨"service 'x' do".toList, 2, 2, []⟩,
        ⟨"action :restart".toList, 3, 3, []⟩, ⟨"end if node['y']".toList, 4, 4, []⟩,
        ⟨"end".toList, 5, 5, []⟩] := by decide +kernel
  have outer : LineRole.ofText "template '/a' do".toList =
      .opens (.call "template '/a'".toList none) [] := by decide +kernel
  have inner : LineRole.ofText "service 'x' do".toList =
      .opens (.call "service 'x'".toList none) [] := by decide +kernel
  have body : LineRole.ofText "action :restart".toList = .statement := by decide +kernel
  have condition : LineRole.ofText "end if node['y']".toList =
      .ends (some ⟨false, "node['y']".toList⟩) := by decide +kernel
  have ends : LineRole.ofText "end".toList = .ends none := by decide +kernel
  rw [lines]
  simp only [Node.ofLines, List.foldl_cons, List.foldl_nil, Nesting.read, outer, inner, body,
    condition, ends]
  simp [Nesting.add, OpenBlock.add, OpenBlock.close, Nesting.finish, enclosingBlock,
    conditionalBlock]

/-- The inner resource is declared as if it were for all nodes. -/
theorem not_keepsConditions_nestedCondition :
    ¬ KeepsConditions "recipes/default.rb" [] nestedCondition := by
  intro keeps
  have unguarded : (SourceFile.extract "recipes/default.rb" [] nestedCondition).declarations.all
      (fun d => d.guards.isEmpty) = true := by decide +kernel
  have outer : (Origin.topResource? enclosingBlock).isSome := by decide +kernel
  have inner : Origin.nestedResource? ⟨"recipes/default.rb", [], lines nestedCondition⟩
      conditionalBlock = some ("service", "'x'".toList) := by decide +kernel
  have place : IsPlace ⟨"recipes/default.rb", [], lines nestedCondition⟩ nestedCondition
      [.body enclosingBlock] (.spread conditionalBlock "service" "'x'".toList) := by
    refine ⟨.block enclosingBlock, ?_, .body outer (.head _) (.self inner)⟩
    rw [ofLines_nestedCondition]
    exact .head _
  obtain ⟨d, declared, embodies⟩ := keeps _ _ place
  obtain ⟨own, guards, -⟩ := embodies.guards
  have none : d.guards = [] := List.isEmpty_iff.mp (List.all_eq_true.mp unguarded d declared)
  rw [none] at guards
  cases guards

end Rolewright.Recipe
