/-
# Loading cookbooks

A cookbook is a directory with a metadata file. Loading reads its metadata, the resources it
defines, its recipes, attribute files, templates and static files. Files come in path order, and
the resources a cookbook defines are known to its recipes.
-/

import Rolewright.Cookbook.CustomResource
import Rolewright.Disk.Search
import Rolewright.Failure
import Rolewright.Recipe.Extract

namespace Rolewright

open Recipe Text

namespace Cookbook

/-- A template or static file; one that is no text has no content. -/
structure Asset where
  path : String
  content : Option String
deriving DecidableEq, Repr

/-- Where a cookbook is. -/
structure Location where
  name : String
  path : String
deriving DecidableEq, Repr

end Cookbook

open Cookbook in
/-- A cookbook and all that was found in it. -/
structure Cookbook where
  name : String
  path : String
  metadata : Metadata
  recipes : List SourceFile
  attributeFiles : List SourceFile
  templates : List Asset
  files : List Asset
  customResources : List CustomResource
  libraries : List String
deriving Repr

namespace Cookbook

/-- The declarations of all recipes, in order. -/
def declarations (c : Cookbook) : List Declaration :=
  c.recipes.flatMap (·.declarations)

/-- The default of every attribute: the first that attribute files, then recipes, assign. -/
def attributeDefaults (c : Cookbook) : Entries Value :=
  ((c.attributeFiles ++ c.recipes).flatMap (·.attributes)).foldl
    (fun merged (path, value) => merged.putMissing path value) []

/-! ## Looking for files -/

/-- The Ruby files directly in a directory of a cookbook: their search paths and their bytes. -/
def rubyFiles (d : Disk) (root directory : String) : List (String × List UInt8) :=
  (d.filesIn (Path.join root directory)).filterMap fun (names, bytes) =>
    match names with
    | [name] =>
      if ".rb".toList.isSuffixOf name.toList then some (Disk.found root [directory, name], bytes)
      else none
    | _ => none

/-- The text of bytes that may not be well formed. -/
def lenientText (bytes : List UInt8) : List Char :=
  decodeLenient bytes

/-- The last name of a directory, if it has one. -/
def directoryName (path : String) : String :=
  (Path.fileName? path).getD "cookbook"

/-- The directories below a root that hold a metadata file, with the names of the cookbooks. -/
def locate (d : Disk) (root : String) : Except Failure (List Location) :=
  if !d.isDirectory root then .error (.access root .noSuchDirectory)
  else
    let holders := (d.filesIn root).filter fun (names, _) => names.getLast? = some "metadata.rb"
    let ordered := holders.mergeSort fun a b => Disk.pathOrder a.1.dropLast b.1.dropLast
    .ok (ordered.map fun (names, bytes) =>
      let path := Disk.directoryOf (Disk.found root names)
      ⟨((Metadata.parse (lenientText bytes)).properName?).getD (directoryName path), path⟩)

/-! ## Loading -/

/-- The source files of a directory of a cookbook, extracted. -/
def sourceFiles (d : Disk) (root directory : String) (types : List String) : List SourceFile :=
  (rubyFiles d root directory).map fun (path, bytes) =>
    SourceFile.extract (Path.relative root path) types (lenientText bytes)

/-- The files below a directory of a cookbook. -/
def assets (d : Disk) (root directory : String) : List Asset :=
  let base := Path.join root directory
  (d.filesIn base).map fun (names, bytes) =>
    ⟨Path.relative base (Disk.found root (directory :: names)), (decode? bytes).map String.ofList⟩

/-- Loads the cookbook in a directory. -/
def load (d : Disk) (path : String) : Except Failure Cookbook := do
  let metadataPath := Path.join path "metadata.rb"
  let metadata ←
    if d.isFile metadataPath then
      (accessing metadataPath (d.read metadataPath)).map fun bytes =>
        Metadata.parse (lenientText bytes)
    else pure Metadata.empty
  let name := metadata.properName?.getD (directoryName path)
  let customResources := (rubyFiles d path "resources").map fun (file, bytes) =>
    CustomResource.parse name (Path.relative path file) (lenientText bytes)
  let types := customResources.map (·.name)
  return {
    name
    path
    metadata
    recipes := sourceFiles d path "recipes" types
    attributeFiles := sourceFiles d path "attributes" types
    templates := assets d path "templates"
    files := assets d path "files"
    customResources
    libraries := (rubyFiles d path "libraries").map fun (file, _) => Path.relative path file }

end Cookbook

end Rolewright
