/-
# Looking into cookbooks

All that was found in cookbooks as a document, and what the rules make of each declaration.
-/

import Rolewright.Command.Rules
import Rolewright.Cookbook.Collection
import Rolewright.Cookbook.Record
import Rolewright.Mapping.Registry
import Rolewright.Yaml.Write

namespace Rolewright.Command

/-- Shows all that was found in cookbooks. -/
def showCookbooks (input : String) (json : Bool) : Job Unit := do
  let cookbooks ← Job.consult fun d => Cookbook.loadInput d input []
  let document := Json.arr (cookbooks.map Cookbook.record)
  Job.print (if json then document.pretty else Yaml.render document)

/-- The primitive for a declaration, if there is one. -/
def primitive? (registry : Mapping.Registry) (d : Recipe.Declaration) : Option String :=
  match registry.resolve d.type d.properties with
  | .mapped invocation => some invocation.primitive
  | .unmapped => none

/-- The lines for a declaration. -/
def resolutionLines (registry : Mapping.Registry) (unmappedOnly : Bool) (d : Recipe.Declaration) :
    List String :=
  if d.isUnparsed then ["  " ++ d.span.text ++ "  UNPARSED"]
  else
    let what := "  " ++ d.span.text ++ "  " ++ d.reference ++ " -> "
    match primitive? registry d with
    | some primitive => if unmappedOnly then [] else [what ++ primitive]
    | none => [what ++ "UNMAPPED"]

/-- The lines for a cookbook. -/
def cookbookLines (registry : Mapping.Registry) (unmappedOnly : Bool) (c : Cookbook) :
    List String :=
  (c.name ++ ":") :: c.declarations.flatMap (resolutionLines registry unmappedOnly)

/-- Shows what becomes of each declaration. Source that was not understood does not count. -/
def showResolutions (input : String) (sources : Sources) (unmappedOnly : Bool) : Job Unit := do
  let configuration ← Job.consult fun d => Configuration.loadOrStandard d sources.configuration
  let registry := Mapping.Registry.ofRules (← loadRules configuration sources.mapping)
  let cookbooks ← Job.consult fun d => Cookbook.loadInput d input []
  let counted := (cookbooks.flatMap Cookbook.declarations).filter fun d => !d.isUnparsed
  let unmapped := counted.filter fun d => (primitive? registry d).isNone
  Job.printAll (cookbooks.flatMap (cookbookLines registry unmappedOnly))
  Job.print ""
  Job.print (toString counted.length ++ " declaration(s), " ++ toString unmapped.length ++
    " unmapped")

end Rolewright.Command
