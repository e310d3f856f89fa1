/-
# Files of rules

A document of rules in a file: as JSON if the name of the file ends so, as YAML otherwise.
-/

import Rolewright.Failure
import Rolewright.Json.Read
import Rolewright.Mapping.Document
import Rolewright.Yaml.Document

namespace Rolewright.Mapping

/-- The document in a text, by the name of its file. -/
def readDocument? (path : String) (text : List Char) : Option Json :=
  if Path.extension? path = some "json" then Json.read? Json.documentDepth text
  else (Yaml.readData text).toOption

/-- The rules in a file. -/
def loadFile (d : Disk) (path : String) : Except Failure Loaded := do
  let text ← accessing path (d.readText path)
  match readDocument? path text with
  | none => throw (.mappingSyntax path)
  | some document => (loadDocument document).mapError (.mappingFile path)

/-- Adds the rules in a file to those that are there. -/
def addFile (rules : List Rule) (d : Disk) (path : String) : List Rule × Except Failure Loaded :=
  extend rules (loadFile d path)

end Rolewright.Mapping
