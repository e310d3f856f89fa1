/-
# Findings

What extraction finds in the nesting of a recipe, in source order: declarations with the guards
that govern them, assignments, inclusions, and stretches that were not understood. Guards gather
from the outside in; a resource inside the body of another follows it.
-/

import Rolewright.Recipe.Block
import Rolewright.Recipe.Statement

namespace Rolewright.Recipe

open Text

/-- The source that findings quote, and the resource types that it may use. -/
structure Origin where
  file : String
  /-- Types beyond the built-in ones. -/
  types : List String
  physical : List (List Char)

namespace Origin

/-- Whether a resource type is known even without a block. -/
def knows (o : Origin) (type : String) : Bool :=
  builtinTypes.contains type || o.types.contains type

/-- Physical lines, verbatim. -/
def text (o : Origin) (first last : Nat) : String :=
  String.ofList (excerpt o.physical first last)

/-- A span of this file. -/
def span (o : Origin) (first last : Nat) : Span :=
  ⟨o.file, first, max last first⟩

/-- The lines between the header of a block and its `end`, trimmed, on one line. -/
def interior (o : Origin) (block : Block) : String :=
  let last := if block.closed then block.last - 1 else block.last
  let rows := (o.physical.take last).drop block.header.last
  String.ofList (List.intercalate "; ".toList ((rows.map trim).filter fun row => !row.isEmpty))

end Origin

/-- One finding. -/
inductive Finding where
  | declared (declaration : Declaration)
  | attribute (path : String) (value : Value)
  | «variable» (name : String) (value : Value)
  | included (recipe : String)
  /-- Lines that were not understood, and the guards around them. -/
  | unknown (first last : Nat) (guards : List Guard)

/-! ## Guards -/

/-- The guard of a condition behind a statement or an `end`. -/
def Modifier.guard (m : Modifier) : Guard :=
  ⟨if m.negated then .unless else .onlyWhen, String.ofList m.condition⟩

/-- The guard that an optional modifier contributes. -/
def modifierGuards (modifier : Option Modifier) : List Guard :=
  (modifier.map Modifier.guard).toList

/-- Conditions joined as alternatives. -/
def alternatives (conditions : List String) : String :=
  String.intercalate " || " conditions

/-- The guards of the arms of a block that stands on conditions, given the conditions of the arms
before; an arm that is reached only when those failed says so. -/
def armGuards (kind : BlockKind) (subject : String) (header : String) (before : List String) :
    List (Branch Node) → List (List Guard)
  | [] => []
  | branch :: rest =>
    let condition := String.ofList branch.condition
    let others (before : List String) := armGuards kind subject header before rest
    match kind, branch.arm with
    | .ifElse, .body => [⟨.onlyWhen, condition⟩] :: others (before ++ [condition])
    | .unlessElse, .body => [⟨.unless, condition⟩] :: others (before ++ ["!(" ++ condition ++ ")"])
    | .ifElse, .elsif | .unlessElse, .elsif =>
      [⟨.otherwise, alternatives before⟩, ⟨.onlyWhen, condition⟩] ::
        others (before ++ [condition])
    | .caseWhen, .when =>
      let test := if subject.isEmpty then condition else subject ++ " == " ++ condition
      [⟨.when, test⟩] :: others (before ++ [test])
    | .ifElse, .otherwise | .unlessElse, .otherwise | .caseWhen, .otherwise =>
      [⟨.otherwise, alternatives before⟩] :: others before
    | .loop, _ => [⟨.loop, header⟩] :: others before
    | _, .rescue =>
      [⟨.rescue, if condition.isEmpty then "StandardError" else condition⟩] :: others before
    | _, _ => [] :: others before

/-- The guards that each arm of a control block contributes. -/
def branchGuards (block : Block) : List (List Guard) :=
  armGuards block.kind ((block.branches.head?.map fun b => String.ofList b.condition).getD "")
    (String.ofList block.header.text) [] block.branches

/-- The methods whose block runs once for each of several items. -/
def loopMethods : List (List Char) :=
  ["each", "each_with_index", "each_pair", "each_key", "each_value", "each_slice", "map", "times",
    "upto", "downto", "step", "select", "reject"].map String.toList

/-- Whether a text calls one of the looping methods. -/
def callsLoop : List Char → Bool
  | [] => false
  | c :: cs =>
    (c == '.' && loopMethods.any fun method => (afterPrefix? method cs).any atBoundary) ||
      callsLoop cs

/-- What a call with a block does with it. -/
inductive CallRole where
  | loop
  | resource (type : String) (argument : List Char)
  | wrapper

/-- What a call with a block does, by its head. -/
def CallRole.ofHead (head : List Char) : CallRole :=
  if head = "loop".toList || callsLoop head then .loop
  else
    match resourceHeader? head with
    | some (type, argument) =>
      if nonResources.contains type then .wrapper else .resource type argument
    | none => .wrapper

/-- A call with the parameters of its block. -/
def describeCall (head : List Char) (params : Option (List Char)) : String :=
  match params with
  | some params => String.ofList (head ++ " |".toList ++ params ++ ['|'])
  | none => String.ofList head

/-! ## Resources -/

namespace Origin

/-- A declaration without a body. -/
def declaration (o : Origin) (type : String) (argument : List Char) (first last : Nat)
    (guards : List Guard) : Declaration :=
  { type
    name := resourceName argument type first
    properties := []
    guards
    notifies := []
    span := o.span first last
    unparsed := []
    unfinished := false }

/-- A declaration with a statement of its body added. -/
def addStatement (o : Origin) (d : Declaration) (line : Line) : Declaration :=
  let word := leadingWord line.text
  let rest := trim (line.text.drop word.length)
  let verbatim := { d with unparsed := d.unparsed ++ [o.text line.first line.last] }
  let edge (kind : EdgeKind) : Declaration :=
    match edge? kind rest with
    | some edge => { d with notifies := d.notifies ++ [edge] }
    | none => verbatim
  let guard (kind : GuardKind) : Declaration :=
    { d with guards := d.guards ++ [⟨kind, guardExpression rest⟩] }
  if word = "notifies".toList then edge .notifies
  else if word = "subscribes".toList then edge .subscribes
  else if word = "only_if".toList && !rest.isEmpty then guard .onlyIf
  else if word = "not_if".toList && !rest.isEmpty then guard .notIf
  else
    match property? line.text with
    | some (key, argument) =>
      { d with properties := d.properties.put key (argumentValue line argument) }
    | none => verbatim

/-- The type and argument of a resource that a block inside a body declares. An unknown type must
be followed by a quoted name, for else the block is a property. -/
def nestedResource? (o : Origin) (block : Block) : Option (String × List Char) :=
  match block.kind with
  | .call head _ =>
    let word := leadingWord head
    if word = "only_if".toList || word = "not_if".toList then none
    else
      match resourceHeader? head with
      | some (type, argument) =>
        let quotedName :=
          match Value.parse (((Value.split ',' argument).head?).getD []) with
          | .str _ => true
          | _ => argument.head? == some '"'
        if !nonResources.contains type && (o.knows type || quotedName) then some (type, argument)
        else none
      | none => none
  | _ => none

/-- A declaration with a block of its body added. Resources inside a body add nothing to it. -/
def addBlock (o : Origin) (d : Declaration) (block : Block) : Declaration :=
  let verbatim := o.text block.header.first block.last
  match block.kind with
  | .call head _ =>
    let word := leadingWord head
    if word = "only_if".toList then
      { d with guards := d.guards ++ [⟨.onlyIf, o.interior block⟩] }
    else if word = "not_if".toList then
      { d with guards := d.guards ++ [⟨.notIf, o.interior block⟩] }
    else if (o.nestedResource? block).isSome then d
    else if word.isEmpty then { d with unparsed := d.unparsed ++ [verbatim] }
    else { d with properties := d.properties.put (String.ofList word) (.raw verbatim) }
  | _ => { d with unparsed := d.unparsed ++ [verbatim] }

/-- A declaration with one node of its body added. -/
def addNode (o : Origin) (d : Declaration) : Node → Declaration
  | .statement line => o.addStatement d line
  | .stray line => { d with unparsed := d.unparsed ++ [o.text line.first line.last] }
  | .block block => o.addBlock d block

/-- The declaration that a block makes of a resource head. -/
def blockDeclaration (o : Origin) (block : Block) (type : String) (argument : List Char)
    (guards : List Guard) : Declaration :=
  block.children.foldl o.addNode
    { o.declaration type argument block.header.first block.last guards with
      unfinished := !block.closed }

/-- The declaration of a resource in one statement, whose further arguments are properties. -/
def shortDeclaration (o : Origin) (line : Line) (type : String) (argument : List Char)
    (guards : List Guard) : Declaration :=
  ((Value.split ',' argument).drop 1).foldl
    (fun d part =>
      match Value.pair? part with
      | some (key, value) => { d with properties := d.properties.put key (Value.parse value) }
      | none => { d with unparsed := d.unparsed ++ [String.ofList part] })
    (o.declaration type argument line.first line.last guards)

/-! ## Statements -/

/-- The statements inside a block on one line. They stand where the block stands. -/
def inlineStatements (line : Line) (body : List Char) : List Line :=
  (Value.split ';' body).map fun part => ⟨part, line.first, line.last, []⟩

/-- What a statement gives that is no block on one line. -/
def plainFindings (o : Origin) (guards : List Guard) (line : Line) (text : List Char) :
    List Finding :=
  match attributeAssignment? text with
  | some (path, value) => [.attribute path (argumentValue line value)]
  | none =>
    match includedRecipe? text with
    | some recipe => [.included recipe]
    | none =>
      match variableAssignment? text with
      | some (name, value) => [.variable name (argumentValue line value)]
      | none =>
        match resourceHeader? text with
        | some (type, argument) =>
          if o.knows type then [.declared (o.shortDeclaration line type argument guards)]
          else [.unknown line.first line.last guards]
        | none => [.unknown line.first line.last guards]

/-- What a statement gives. Blocks on one line may hold further ones, to a depth of which so much
is left; beyond it a statement is not understood. -/
def statementFindings (o : Origin) : Nat → List Guard → Line → List Finding
  | 0, guards, line => [.unknown line.first line.last guards]
  | depth + 1, outer, line =>
    let (text, modifier) := splitModifier line.text
    let guards := outer ++ modifierGuards modifier
    match splitInlineBlock? text with
    | none => o.plainFindings guards line text
    | some inline =>
      let parts := inlineStatements line inline.body
      match CallRole.ofHead inline.head with
      | .loop =>
        let inner := guards ++ [⟨.loop, describeCall inline.head inline.params⟩]
        parts.flatMap (o.statementFindings depth inner)
      | .resource type argument =>
        [.declared (parts.foldl o.addStatement
          (o.declaration type argument line.first line.last guards))]
      | .wrapper => o.plainFindings guards line text

/-- What a logical line gives. -/
def lineFindings (o : Origin) (guards : List Guard) (line : Line) : List Finding :=
  o.statementFindings (line.text.length + 1) guards line

/-! ## The nesting -/

/-- The guards that each arm of a block contributes, the block being no resource. -/
def scopes (block : Block) : List (List Guard) :=
  match block.kind with
  | .call head params =>
    let kind : GuardKind := match CallRole.ofHead head with | .loop => .loop | _ => .block
    block.branches.map fun _ => [⟨kind, describeCall head params⟩]
  | _ => branchGuards block

/-- The resource that a block declares at the top of a recipe or of a control block. -/
def topResource? (block : Block) : Option (String × List Char) :=
  match block.kind with
  | .call head _ =>
    match CallRole.ofHead head with
    | .resource type argument => some (type, argument)
    | _ => none
  | _ => none

mutual

/-- What the resources inside the body of another give. -/
def innerFindings (o : Origin) (guards : List Guard) : Node → List Finding
  | .block ⟨kind, header, branches, last, closed, modifier⟩ =>
    let block : Block := ⟨kind, header, branches, last, closed, modifier⟩
    match o.nestedResource? block with
    | some (type, argument) =>
      .declared (o.blockDeclaration block type argument guards) ::
        o.innerBranches guards branches
    | none => []
  | _ => []

/-- What the resources inside the arms of a body give. -/
def innerBranches (o : Origin) (guards : List Guard) : List (Branch Node) → List Finding
  | [] => []
  | ⟨_, _, _, children⟩ :: branches =>
    o.innerNodes guards children ++ o.innerBranches guards branches

/-- What the resources among the nodes of a body give. -/
def innerNodes (o : Origin) (guards : List Guard) : List Node → List Finding
  | [] => []
  | node :: nodes => o.innerFindings guards node ++ o.innerNodes guards nodes

end

mutual

/-- What a node gives under the guards around it. -/
def nodeFindings (o : Origin) (guards : List Guard) : Node → List Finding
  | .statement line => o.lineFindings guards line
  | .stray line => [.unknown line.first line.last guards]
  | .block ⟨kind, header, branches, last, closed, modifier⟩ =>
    let block : Block := ⟨kind, header, branches, last, closed, modifier⟩
    let guards := guards ++ modifierGuards modifier
    match topResource? block with
    | some (type, argument) =>
      .declared (o.blockDeclaration block type argument guards) ::
        o.innerBranches guards branches
    | none =>
      if kind = .sealed then [.unknown header.first last guards]
      else o.branchFindings guards (scopes block) branches

/-- What the arms of a block give, each under the guards it contributes. -/
def branchFindings (o : Origin) (guards : List Guard) :
    List (List Guard) → List (Branch Node) → List Finding
  | extra :: extras, ⟨_, _, _, children⟩ :: branches =>
    o.nodesFindings (guards ++ extra) children ++ o.branchFindings guards extras branches
  | _, _ => []

/-- What several nodes give, in order. -/
def nodesFindings (o : Origin) (guards : List Guard) : List Node → List Finding
  | [] => []
  | node :: nodes => o.nodeFindings guards node ++ o.nodesFindings guards nodes

end

end Origin

end Rolewright.Recipe
