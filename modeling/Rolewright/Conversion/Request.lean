/-
# Requests

What a generator is asked: the recipes with the places that were not understood, for each
declaration what the rules make of it, and what else the cookbook has. No declaration is left out;
one without a rule is marked as unresolved. A request that follows a rejected attempt carries the
feedback on it.
-/

import Rolewright.Conversion.Example
import Rolewright.Conversion.Feedback
import Rolewright.Cookbook.Load
import Rolewright.Mapping.Registry

namespace Rolewright

open Recipe

/-- A recipe as it is shown: its source, and the places in it that were not understood. -/
structure RecipeSource where
  name : String
  file : String
  source : String
  unparsed : List Span
deriving Repr

/-- A declaration and what the rules make of it. -/
structure Hint where
  reference : String
  type : String
  span : Span
  guards : List Guard
  notifies : List Edge
  resolution : Mapping.Resolution
deriving Repr

/-- What a generator is asked. -/
structure Request where
  cookbook : String
  attempt : Nat
  metadata : Cookbook.Metadata
  recipes : List RecipeSource
  hints : List Hint
  defaults : Entries Value
  templates : List String
  files : List String
  customResources : List Cookbook.CustomResource
  examples : List WorkedExample
  feedback : Option Feedback
deriving Repr

namespace Request

/-- The recipe as it is shown. -/
def recipeSource (f : SourceFile) : RecipeSource :=
  ⟨f.name, f.file, f.source, (f.declarations.filter (·.isUnparsed)).map (·.span)⟩

/-- A declaration and what a registry makes of it. -/
def hint (registry : Mapping.Registry) (d : Declaration) : Hint :=
  ⟨d.reference, d.type, d.span, d.guards, d.notifies, registry.resolve d.type d.properties⟩

/-- The first request for a cookbook, with so many worked examples. -/
def build (cookbook : Cookbook) (registry : Mapping.Registry) (examples : Nat) : Request :=
  { cookbook := cookbook.name
    attempt := 1
    metadata := cookbook.metadata
    recipes := cookbook.recipes.map recipeSource
    hints := (cookbook.declarations.filter fun d => !d.isUnparsed).map (hint registry)
    defaults := cookbook.attributeDefaults
    templates := cookbook.templates.map (·.path)
    files := cookbook.files.map (·.path)
    customResources := cookbook.customResources
    examples := WorkedExample.all.take examples
    feedback := none }

/-- The request again, for another attempt. -/
def withFeedback (r : Request) (attempt : Nat) (feedback : Feedback) : Request :=
  { r with attempt, feedback := some feedback }

/-- The hints without a rule. -/
def unresolved (r : Request) : List Hint :=
  r.hints.filter fun h => !h.resolution.isMapped

/-! ## Wording -/

/-- The wording of an edge in a hint. -/
def edgeText (e : Edge) : String :=
  let kind := match e.kind with
    | .notifies => "Notifies"
    | .subscribes => "Subscribes"
  let timing := match e.timing with
    | .immediate => "immediately"
    | .delayed => "delayed"
  "; " ++ kind ++ " " ++ e.target ++ " " ++ e.action ++ " (" ++ timing ++ ")"

/-- The wording of a hint. -/
def hintText (h : Hint) : String :=
  let advice := match h.resolution with
    | .mapped call =>
      let arguments := call.arguments.map fun (name, value) => name ++ ": " ++ value.source
      "use " ++ call.primitive ++ " \x7b " ++ String.intercalate ", " arguments ++ " \x7d"
    | .unmapped => "UNRESOLVED, no known mapping; pick the closest module and explain nothing"
  let guards :=
    if h.guards.isEmpty then ""
    else "; guarded by [" ++ String.intercalate "; " (h.guards.map Guard.text) ++ "]"
  "- " ++ h.reference ++ " at " ++ h.span.text ++ ": " ++ advice ++ guards ++
    String.join (h.notifies.map edgeText) ++ "\n"

/-- The wording of a recipe. -/
def recipeText (r : RecipeSource) : String :=
  let source := String.ofList (Text.trimEnd r.source.toList)
  let unparsed :=
    if r.unparsed.isEmpty then ""
    else "Not understood by the extractor, convert by reading the source: " ++
      String.intercalate ", " (r.unparsed.map Span.text) ++ "\n"
  "## Recipe " ++ r.name ++ " (" ++ r.file ++ ")\n\x60\x60\x60ruby\n" ++ source ++
    "\n\x60\x60\x60\n" ++ unparsed ++ "\n"

/-- The wording of a custom resource. -/
def customResourceText (c : Cookbook.CustomResource) : String :=
  "- " ++ c.name ++ " (properties: " ++ String.intercalate ", " c.properties ++ "; actions: " ++
    String.intercalate ", " c.actions ++ ")\n"

/-- A part under a heading, left out when there is nothing to say. -/
def part (heading : String) (rows : List String) : String :=
  if rows.isEmpty then "" else heading ++ String.join rows ++ "\n"

/-- A part whose items stand in one row. -/
def rowPart (heading : String) (items : List String) : String :=
  if items.isEmpty then "" else heading ++ String.intercalate ", " items ++ "\n\n"

/-- What every generator is told about its job. -/
def systemPrompt : String :=
  "You are an expert in Chef and Ansible. You convert Chef cookbooks into Ansible roles that " ++
    "pass ansible-lint. Use fully-qualified collection names for every module, name every task, " ++
    "turn Chef notifications into notify plus handlers, turn guards into when conditions, and " ++
    "keep node attributes as role defaults."

/-- What every generator is told about the form of its answer. -/
def outputConvention : String :=
  "## Output format\n" ++
    "Return every file of the role as its own fenced block whose info string carries the " ++
    "relative path, for example:\n" ++
    "\x60\x60\x60yaml path=tasks/main.yml\n- name: Install nginx\n" ++
    "  ansible.builtin.package:\n    name: nginx\n    state: present\n\x60\x60\x60\n" ++
    "Always include tasks/main.yml and meta/main.yml. Put handlers in handlers/main.yml and " ++
    "only include handlers that are notified. Put defaults in defaults/main.yml. Templates use " ++
    ".j2 under templates/.\n"

/-- The wording of a request. -/
def userPrompt (r : Request) : String :=
  let examples := r.examples.zipIdx.map fun (e, position) => e.text (position + 1)
  let defaults := r.defaults.map fun (path, value) => "- " ++ path ++ " = " ++ value.source ++ "\n"
  let corrections := match r.feedback with
    | some feedback => "## Corrections required\n" ++ feedback.text ++ "\n"
    | none => ""
  (if examples.isEmpty then "" else "Here are worked conversions:\n\n" ++ String.join examples) ++
    "Convert the Chef cookbook \x60" ++ r.cookbook ++ "\x60 into an Ansible role named \x60" ++
    r.cookbook ++ "\x60.\n\n" ++
    String.join (r.recipes.map recipeText) ++
    part "## Resource hints\n" (r.hints.map hintText) ++
    part "## Attribute defaults (put these in defaults/main.yml)\n" defaults ++
    rowPart "## Templates (already copied to templates/ with .erb renamed to .j2)\n" r.templates ++
    rowPart "## Static files (already copied to files/)\n" r.files ++
    part "## Custom resources defined by this cookbook\n"
      (r.customResources.map customResourceText) ++
    rowPart "Depends on cookbooks: " (r.metadata.dependencies.map (·.name)) ++
    corrections ++ outputConvention

end Request

end Rolewright
