/-
# Statements and resources

A resource keeps the type and the name it is written with, the lines it stands on and the conditions
that govern it, whatever its body adds (`Embodies`, of which `SameHead` is a part). A statement is
kept in one way or another: a source file that keeps its findings has a declaration that covers it,
or has absorbed it (`covers_or_absorbs`).
-/

import Rolewright.Proofs.Recipe.Excerpts
import Rolewright.Proofs.Recipe.Gathering

namespace Rolewright.Recipe

/-! ## Declarations of resources -/

/-- A guard that a resource sets for itself. -/
def Guard.IsOwn (guard : Guard) : Prop :=
  guard.kind = .onlyIf ∨ guard.kind = .notIf

/-- A declaration is another one with more of its body read: of the guards only those are new that
the resource sets for itself, and they come last. -/
structure Declaration.Embodies (d e : Declaration) : Prop where
  type : d.type = e.type
  name : d.name = e.name
  span : d.span = e.span
  guards : ∃ own, d.guards = e.guards ++ own ∧ ∀ guard ∈ own, guard.IsOwn

/-- Two declarations of one resource. -/
structure Declaration.SameHead (d e : Declaration) : Prop where
  type : d.type = e.type
  span : d.span = e.span

namespace Declaration.Embodies

variable {a b c : Declaration}

/-- What adds no guard. -/
theorem of_guards_eq (type : a.type = b.type) (name : a.name = b.name) (span : a.span = b.span)
    (guards : a.guards = b.guards) : a.Embodies b :=
  ⟨type, name, span, [], by rw [guards, List.append_nil], fun _ member => nomatch member⟩

theorem trans (first : a.Embodies b) (second : b.Embodies c) : a.Embodies c := by
  obtain ⟨inner, grown, own⟩ := second.guards
  obtain ⟨outer, grown', own'⟩ := first.guards
  refine ⟨first.type.trans second.type, first.name.trans second.name,
    first.span.trans second.span, inner ++ outer, ?_, ?_⟩
  · rw [grown', grown, List.append_assoc]
  · exact List.forall_mem_append.mpr ⟨own, own'⟩

/-- A declaration that embodies another one has the same head. -/
theorem sameHead (embodies : a.Embodies b) : a.SameHead b :=
  ⟨embodies.type, embodies.span⟩

end Declaration.Embodies

/-- What adds to a declaration piece by piece adds to its body. -/
theorem embodies_foldl {α : Type} {add : Declaration → α → Declaration}
    (one : ∀ d x, (add d x).Embodies d) (xs : List α) (d : Declaration) :
    (xs.foldl add d).Embodies d := by
  induction xs generalizing d with
  | nil => exact .of_guards_eq rfl rfl rfl rfl
  | cons x xs ih => exact (ih (add d x)).trans (one d x)

namespace Origin

variable (o : Origin) (d : Declaration)

/-- What is added to a declaration keeps all that it says: a statement of the body, -/
theorem embodies_addStatement (line : Line) : (o.addStatement d line).Embodies d := by
  unfold addStatement
  extract_lets word rest verbatim edge guard
  have edges (kind : EdgeKind) : (edge kind).Embodies d := by
    dsimp only [edge]
    split <;> exact .of_guards_eq rfl rfl rfl rfl
  have guards {kind : GuardKind} (own : kind = .onlyIf ∨ kind = .notIf) :
      (guard kind).Embodies d :=
    ⟨rfl, rfl, rfl, _, rfl, List.forall_mem_singleton.mpr own⟩
  split_ifs
  · exact edges .notifies
  · exact edges .subscribes
  · exact guards (.inl rfl)
  · exact guards (.inr rfl)
  · split <;> exact .of_guards_eq rfl rfl rfl rfl

/-- a block in it, -/
theorem embodies_addBlock (block : Block) : (o.addBlock d block).Embodies d := by
  unfold addBlock
  extract_lets verbatim
  split
  · extract_lets word
    split_ifs
    · exact ⟨rfl, rfl, rfl, _, rfl, List.forall_mem_singleton.mpr (.inl rfl)⟩
    · exact ⟨rfl, rfl, rfl, _, rfl, List.forall_mem_singleton.mpr (.inr rfl)⟩
    all_goals exact .of_guards_eq rfl rfl rfl rfl
  · exact .of_guards_eq rfl rfl rfl rfl

/-- or any node. -/
theorem embodies_addNode (node : Node) : (o.addNode d node).Embodies d := by
  cases node with
  | statement line => exact o.embodies_addStatement d line
  | stray line => exact .of_guards_eq rfl rfl rfl rfl
  | block block => exact o.embodies_addBlock d block

variable (type : String) (argument : List Char) (guards : List Guard)

/-- So a block declares at least its head, -/
theorem embodies_blockDeclaration (block : Block) :
    (o.blockDeclaration block type argument guards).Embodies
      (o.declaration type argument block.header.first block.last guards) := by
  refine (embodies_foldl o.embodies_addNode _ _).trans ?_
  generalize o.declaration type argument block.header.first block.last guards = head
  exact .of_guards_eq rfl rfl rfl rfl

/-- and so does a statement. -/
theorem embodies_shortDeclaration (line : Line) :
    (o.shortDeclaration line type argument guards).Embodies
      (o.declaration type argument line.first line.last guards) := by
  refine embodies_foldl (fun d part => ?_) _ _
  split <;> exact .of_guards_eq rfl rfl rfl rfl

end Origin

/-! ## What a statement gives -/

/-- What a statement gives that is no block on one line: an assignment or an inclusion, a resource
of a type that is known, or else a stretch of its lines. -/
inductive PlainFindings (o : Origin) (guards : List Guard) (line : Line) (text : List Char) :
    List Finding → Prop
  | assigned {path : String} {value : List Char}
      (matched : attributeAssignment? text = some (path, value)) :
      PlainFindings o guards line text [.attribute path (argumentValue line value)]
  | included {recipe : String} (matched : includedRecipe? text = some recipe) :
      PlainFindings o guards line text [.included recipe]
  | named {name : String} {value : List Char}
      (matched : variableAssignment? text = some (name, value)) :
      PlainFindings o guards line text [.variable name (argumentValue line value)]
  | resource {type : String} {argument : List Char}
      (head : resourceHeader? text = some (type, argument)) (known : o.knows type = true) :
      PlainFindings o guards line text [.declared (o.shortDeclaration line type argument guards)]
  | unknown : PlainFindings o guards line text [.unknown line.first line.last guards]

/-- What any statement gives: what it gives as it stands, or as a block on one line, which is a loop
over statements or a resource. -/
inductive StatementFindings (o : Origin) (depth : Nat) (guards : List Guard) (line : Line)
    (text : List Char) : List Finding → Prop
  | plain {findings : List Finding} (plain : PlainFindings o guards line text findings) :
      StatementFindings o depth guards line text findings
  | loop {inline : InlineBlock} (whole : splitInlineBlock? text = some inline)
      (loops : CallRole.ofHead inline.head = .loop) :
      StatementFindings o depth guards line text
        ((Origin.inlineStatements line inline.body).flatMap (o.statementFindings depth
          (guards ++ [⟨.loop, describeCall inline.head inline.params⟩])))
  | resource {inline : InlineBlock} {type : String} {argument : List Char}
      (whole : splitInlineBlock? text = some inline)
      (role : CallRole.ofHead inline.head = .resource type argument) :
      StatementFindings o depth guards line text
        [.declared ((Origin.inlineStatements line inline.body).foldl o.addStatement
          (o.declaration type argument line.first line.last guards))]

namespace Origin

variable (o : Origin) (guards : List Guard) (line : Line)

/-- A statement that is no block is found in one of these ways. -/
theorem plainFindings_cases (text : List Char) :
    PlainFindings o guards line text (o.plainFindings guards line text) := by
  unfold plainFindings
  split
  · rename_i matched
    exact .assigned matched
  · split
    · rename_i matched
      exact .included matched
    · split
      · rename_i matched
        exact .named matched
      · split
        · rename_i head
          split
          · rename_i known
            exact .resource head known
          · exact .unknown
        · exact .unknown

/-- A statement is one without a block, or a block on one line. -/
theorem statementFindings_cases (depth : Nat) :
    StatementFindings o depth (guards ++ modifierGuards (splitModifier line.text).2) line
      (splitModifier line.text).1 (o.statementFindings (depth + 1) guards line) := by
  unfold statementFindings
  dsimp only
  split
  · exact .plain (o.plainFindings_cases _ line _)
  · rename_i inline whole
    split
    · rename_i loops
      exact .loop whole loops
    · rename_i role
      exact .resource whole role
    · exact .plain (o.plainFindings_cases _ line _)

end Origin

/-- What a call with a block declares is written as its head. -/
theorem resourceHeader?_of_ofHead {head argument : List Char} {type : String}
    (role : CallRole.ofHead head = .resource type argument) :
    resourceHeader? head = some (type, argument) := by
  unfold CallRole.ofHead at role
  split at role
  · cases role
  · split at role
    · rename_i found
      split at role
      · cases role
      · cases role
        exact found
    · cases role

/-! ## Where the findings of a statement stand -/

/-- A finding is read off a line: a resource whose head is written there, with the lines it stands
on, or a stretch of just these lines. -/
def Finding.IsOf (o : Origin) (line : Line) : Finding → Prop
  | .declared d => ∃ head type argument guards, head <:+: line.text ∧
      resourceHeader? head = some (type, argument) ∧
      d.Embodies (o.declaration type argument line.first line.last guards)
  | .unknown first last _ => first = line.first ∧ last = line.last
  | _ => True

/-- A finding that begins where a line begins: a resource whose type is written there, or a stretch
of that line only. -/
def Finding.BeginsAt (line : Line) : Finding → Prop
  | .declared d => d.span.first = line.first ∧ d.type.toList <:+: line.text
  | .unknown first last _ => first = line.first ∧ last = line.last
  | _ => True

section IsOf

variable {o : Origin} {guards : List Guard} {line : Line} {text : List Char} {finding : Finding}
  {findings : List Finding}

/-- What is found of a line begins there. -/
theorem Finding.IsOf.beginsAt (isOf : finding.IsOf o line) : finding.BeginsAt line := by
  cases finding with
  | declared d =>
      obtain ⟨head, type, argument, guards, inside, found, embodies⟩ := isOf
      constructor
      · rw [embodies.span]
        rfl
      · rw [embodies.type]
        exact (type_prefix_of_resourceHeader? found).isInfix.trans inside
  | unknown first last guards => exact isOf
  | _ => trivial

/-- All that is found in a statement without a block is found of its line, -/
theorem PlainFindings.isOf (plain : PlainFindings o guards line text findings)
    (inside : text <:+: line.text) (member : finding ∈ findings) : finding.IsOf o line := by
  cases plain with
  | resource head known =>
      obtain rfl := List.mem_singleton.mp member
      exact ⟨_, _, _, guards, inside, head, o.embodies_shortDeclaration _ _ guards line⟩
  | unknown =>
      obtain rfl := List.mem_singleton.mp member
      exact ⟨rfl, rfl⟩
  | _ =>
      obtain rfl := List.mem_singleton.mp member
      trivial

/-- A statement in a block on one line stands where the block stands. -/
theorem isOf_of_inline {body : List Char} {part : Line} (isOf : finding.IsOf o part)
    (member : part ∈ Origin.inlineStatements line body) (inside : body <:+: line.text) :
    finding.IsOf o line := by
  obtain ⟨text, among, rfl⟩ := List.mem_map.mp member
  cases finding with
  | declared d =>
      obtain ⟨head, type, argument, guards, within, found, embodies⟩ := isOf
      have standing : text <:+: line.text := (Value.infix_of_mem_split among).trans inside
      exact ⟨head, type, argument, guards, within.trans standing, found, embodies⟩
  | unknown first last guards => exact isOf
  | _ => trivial

/-- and so is all that is found in any statement. -/
theorem isOf_of_mem_statementFindings {depth : Nat}
    (member : finding ∈ o.statementFindings depth guards line) : finding.IsOf o line := by
  induction depth generalizing guards line with
  | zero =>
      obtain rfl := List.mem_singleton.mp member
      exact ⟨rfl, rfl⟩
  | succ depth ih =>
      have inside : (splitModifier line.text).1 <:+: line.text :=
        (prefix_splitModifier line.text).isInfix
      have gives := o.statementFindings_cases guards line depth
      generalize o.statementFindings (depth + 1) guards line = findings at gives member
      cases gives with
      | plain plain => exact plain.isOf inside member
      | loop whole loops =>
          obtain ⟨part, among, member⟩ := List.mem_flatMap.mp member
          have body := (infix_of_splitInlineBlock? whole).2.trans inside
          exact isOf_of_inline (ih member) among body
      | resource whole role =>
          obtain rfl := List.mem_singleton.mp member
          have head := (infix_of_splitInlineBlock? whole).1.trans inside
          exact ⟨_, _, _, _, head, resourceHeader?_of_ofHead role,
            embodies_foldl o.embodies_addStatement _ _⟩

end IsOf

/-! ## What becomes of a statement -/

namespace SourceFile

/-- A statement is an assignment or an inclusion whose key or recipe the file has. -/
inductive Records (f : SourceFile) (text : List Char) : Prop
  | assigned {path : String} {value : List Char}
      (matched : attributeAssignment? (splitModifier text).1 = some (path, value))
      (present : (f.attributes.get? path).isSome)
  | named {name : String} {value : List Char}
      (matched : variableAssignment? (splitModifier text).1 = some (name, value))
      (present : (f.locals.get? name).isSome)
  | included {recipe : String}
      (matched : includedRecipe? (splitModifier text).1 = some recipe)
      (present : recipe ∈ f.includes)

/-- A statement is recorded, or is a loop on one line with nothing but such statements. -/
inductive Absorbs (f : SourceFile) : List Char → Prop
  | recorded {text : List Char} (records : f.Records text) : Absorbs f text
  | loop {text : List Char} {inline : InlineBlock}
      (whole : splitInlineBlock? (splitModifier text).1 = some inline)
      (loops : CallRole.ofHead inline.head = .loop)
      (parts : ∀ part ∈ Value.split ';' inline.body, Absorbs f part) : Absorbs f text

end SourceFile

section Covers

variable {o : Origin} {f : SourceFile} {guards : List Guard} {line : Line}
  {findings : List Finding}

/-- A resource that begins with a line and ends with it covers it. -/
theorem covers_of_sameHead {type : String} {argument : List Char} {d : Declaration}
    {first last : Nat} (member : d ∈ f.declarations)
    (same : d.SameHead (o.declaration type argument first last guards)) :
    f.Covers first last := by
  refine ⟨d, member, ?_, ?_⟩
  · rw [same.span]
    exact Nat.le_refl _
  · rw [same.span]
    exact Nat.le_max_left _ _

/-- If it is kept, the line is covered by it or recorded. -/
theorem PlainFindings.covers_or_records
    (plain : PlainFindings o guards line (splitModifier line.text).1 findings)
    (keeps : ∀ finding ∈ findings, f.Keeps finding) :
    f.Covers line.first line.last ∨ f.Records line.text := by
  cases plain with
  | assigned matched => exact .inr (.assigned matched (keeps _ (.head _)))
  | included matched => exact .inr (.included matched (keeps _ (.head _)))
  | named matched => exact .inr (.named matched (keeps _ (.head _)))
  | resource head known =>
      exact .inl (covers_of_sameHead (keeps _ (.head _))
        (o.embodies_shortDeclaration _ _ guards line).sameHead)
  | unknown => exact .inl (keeps _ (.head _))

/-- No statement is lost: some declaration covers it, or the file has absorbed it. -/
theorem covers_or_absorbs {depth : Nat}
    (keeps : ∀ finding ∈ o.statementFindings depth guards line, f.Keeps finding) :
    f.Covers line.first line.last ∨ f.Absorbs line.text := by
  induction depth generalizing guards line with
  | zero => exact .inl (keeps _ (.head _))
  | succ depth ih =>
      have gives := o.statementFindings_cases guards line depth
      generalize o.statementFindings (depth + 1) guards line = findings at gives keeps
      cases gives with
      | plain plain => exact (plain.covers_or_records keeps).imp_right .recorded
      | @loop inline whole loops =>
          by_cases absorbed : ∀ part ∈ Value.split ';' inline.body, f.Absorbs part
          · exact .inr (.loop whole loops absorbed)
          · obtain ⟨part, among, lost⟩ :
                ∃ part ∈ Value.split ';' inline.body, ¬ f.Absorbs part := by
              simpa using absorbed
            let statement : Line := ⟨part, line.first, line.last, []⟩
            have member : statement ∈ Origin.inlineStatements line inline.body :=
              List.mem_map.mpr ⟨part, among, rfl⟩
            have kept : f.Covers statement.first statement.last ∨ f.Absorbs statement.text :=
              ih fun finding given =>
                keeps finding (List.mem_flatMap.mpr ⟨statement, member, given⟩)
            exact .inl (kept.resolve_right lost)
      | resource whole role =>
          exact .inl (covers_of_sameHead (keeps _ (.head _))
            (embodies_foldl o.embodies_addStatement _ _).sameHead)

end Covers

end Rolewright.Recipe
