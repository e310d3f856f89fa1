/-
# Records of cookbooks

All that was found in a cookbook, as a document. The texts of files are left out, as they stand in
the cookbook itself; so are the marks of what is in order.
-/

import Rolewright.Cookbook.Load
import Rolewright.Json.Basic

namespace Rolewright

namespace Value

/-- A value under the word for its kind. -/
def recordAs (kind : String) (content : Json) : Json :=
  .obj [("kind", .str kind), ("value", content)]

/-- The record of a literal under the word for its type. -/
def scalarRecord (type : String) (content : Json) : Json :=
  recordAs "scalar" (.obj [("type", .str type), ("value", content)])

mutual

/-- The record of a value. -/
def record : Value → Json
  | .str text => scalarRecord "string" (.str text)
  | .sym text => scalarRecord "symbol" (.str text)
  | .int n => scalarRecord "integer" (.int n)
  | .float x => scalarRecord "float" (.float x)
  | .bool b => scalarRecord "bool" (.bool b)
  | .nil => recordAs "scalar" (.obj [("type", .str "nil")])
  | .ref path => recordAs "reference" (.str path)
  | .list items => recordAs "list" (.arr (recordItems items))
  | .map entries => recordAs "map" (.obj (recordFields entries))
  | .raw source => recordAs "raw" (.str source)

/-- The records of several values. -/
def recordItems : List Value → List Json
  | [] => []
  | item :: items => record item :: recordItems items

/-- The records of values under their keys. -/
def recordFields : List (String × Value) → List (String × Json)
  | [] => []
  | (key, value) :: rest => (key, record value) :: recordFields rest

end

end Value

namespace Recipe

/-- The word for when a notified resource acts. -/
def Timing.word : Timing → String
  | .immediate => "immediate"
  | .delayed => "delayed"

/-- The word for the end of a notification that a declaration is. -/
def EdgeKind.word : EdgeKind → String
  | .notifies => "notifies"
  | .subscribes => "subscribes"

/-- The record of a guard. -/
def Guard.record (guard : Guard) : Json :=
  .obj [("kind", .str guard.kind.word), ("expression", .str guard.expression)]

/-- The record of a notification. -/
def Edge.record (edge : Edge) : Json :=
  .obj [
    ("target", .str edge.target),
    ("action", .str edge.action),
    ("timing", .str edge.timing.word),
    ("kind", .str edge.kind.word)]

/-- The record of a stretch of source. -/
def Span.record (span : Span) : Json :=
  .obj [("file", .str span.file), ("start_line", .int span.first), ("end_line", .int span.last)]

/-- The record of a declaration. -/
def Declaration.record (d : Declaration) : Json :=
  .obj (
    [("type", .str d.type),
     ("name", .str d.name),
     ("properties", .obj (Value.recordFields d.properties)),
     ("guards", .arr (d.guards.map Guard.record)),
     ("notifies", .arr (d.notifies.map Edge.record)),
     ("span", d.span.record)] ++
    (if d.unparsed.isEmpty then [] else [("unparsed", .ofTexts d.unparsed)]) ++
    if d.unfinished then [("partial", .bool true)] else [])

/-- The record of a source file. -/
def SourceFile.record (f : SourceFile) : Json :=
  .obj [
    ("name", .str f.name),
    ("file", .str f.file),
    ("declarations", .arr (f.declarations.map Declaration.record)),
    ("attributes", .obj (Value.recordFields f.attributes)),
    ("variables", .obj (Value.recordFields f.locals)),
    ("templates", .ofTexts f.templates),
    ("includes", .ofTexts f.includes)]

end Recipe

namespace Cookbook

/-- The record of another cookbook that is needed. -/
def Dependency.record (d : Dependency) : Json :=
  .obj [("name", .str d.name), ("constraint", .ofText? d.constraint)]

/-- The record of what a cookbook says about itself. -/
def Metadata.record (m : Metadata) : Json :=
  .obj [
    ("name", .ofText? m.name),
    ("version", .ofText? m.version),
    ("maintainer", .ofText? m.maintainer),
    ("maintainer_email", .ofText? m.maintainerEmail),
    ("license", .ofText? m.license),
    ("description", .ofText? m.description),
    ("dependencies", .arr (m.dependencies.map Dependency.record)),
    ("supports", .ofTexts m.supports)]

/-- The record of a template or static file. -/
def Asset.record (asset : Asset) : Json :=
  .obj [("path", .str asset.path)]

/-- The record of a resource that a cookbook defines. -/
def CustomResource.record (r : CustomResource) : Json :=
  .obj [
    ("name", .str r.name),
    ("file", .str r.file),
    ("properties", .ofTexts r.properties),
    ("actions", .ofTexts r.actions),
    ("default_action", .ofText? r.defaultAction)]

/-- The record of a cookbook. -/
def record (c : Cookbook) : Json :=
  .obj [
    ("name", .str c.name),
    ("path", .str c.path),
    ("metadata", c.metadata.record),
    ("recipes", .arr (c.recipes.map Recipe.SourceFile.record)),
    ("attribute_files", .arr (c.attributeFiles.map Recipe.SourceFile.record)),
    ("templates", .arr (c.templates.map Asset.record)),
    ("files", .arr (c.files.map Asset.record)),
    ("custom_resources", .arr (c.customResources.map CustomResource.record)),
    ("libraries", .ofTexts c.libraries)]

end Cookbook

end Rolewright
