/-
# Completing a role

What a generator leaves out of a role comes from the cookbook: metadata, the defaults of variables,
templates, static files and a read-me. Files that are there already are never touched.
-/

import Rolewright.Cookbook.Load
import Rolewright.Role.Basic
import Rolewright.Role.Variable
import Rolewright.Yaml.Write

namespace Rolewright.Role

open Text

/-- Where the metadata of a role stands. -/
def metaPath : String := "meta/main.yml"

/-- Where the defaults of the variables of a role stand. -/
def defaultsPath : String := "defaults/main.yml"

/-- Where the description of a role stands. -/
def readmePath : String := "README.md"

/-- The name of a platform in the metadata of roles. -/
def platformName (platform : String) : String :=
  if ["redhat", "rhel", "centos", "rocky", "almalinux"].contains platform then "EL"
  else if platform = "mac_os_x" then "MacOSX"
  else capitalized platform

/-- The metadata of the role of a cookbook. -/
def metadata (cookbook : Cookbook) : Json :=
  let known := cookbook.metadata
  let field (name : String) (value : Option String) : List (String × Json) :=
    value.toList.map fun text => (name, .str text)
  let platforms := known.supports.map fun platform =>
    Json.obj [("name", .str (platformName platform))]
  .obj [
    ("galaxy_info", .obj (
      [("role_name", .str (variableName cookbook.name))] ++
      field "author" known.maintainer ++
      field "description" known.description ++
      field "license" known.license ++
      [("min_ansible_version", .str "2.14")] ++
      if platforms.isEmpty then [] else [("platforms", .arr platforms)])),
    ("dependencies", .arr (known.dependencies.map fun d => .str d.name))]

/-- The defaults of the variables of a role: for each attribute its variable and its value. -/
def defaults (attributes : Entries Value) : Entries Json :=
  Entries.ofPairs (attributes.map fun (path, value) => (variableName path, data value))

/-- A path inside a cookbook without the directory for all platforms. -/
def withoutDefault (path : String) : String :=
  String.ofList (withoutPrefix "default/".toList path.toList)

/-- Where the template at a path of a cookbook stands in a role. -/
def templatePath (path : String) : String :=
  let path := (withoutDefault path).toList
  match beforeSuffix? ".erb".toList path with
  | some stem => "templates/" ++ String.ofList stem ++ ".j2"
  | none => "templates/" ++ String.ofList path

/-- Where the static file at a path of a cookbook stands in a role. -/
def filePath (path : String) : String :=
  "files/" ++ withoutDefault path

/-- The description of the role of a cookbook. -/
def readme (cookbook : Cookbook) : String :=
  let known := cookbook.metadata
  let version := match known.version with
    | some version => " (version " ++ version ++ ")"
    | none => ""
  let description := match known.description with
    | some description => description ++ "\n\n"
    | none => ""
  let recipes :=
    if cookbook.recipes.isEmpty then ""
    else "Source recipes: " ++ String.intercalate ", " (cookbook.recipes.map (·.name)) ++ "\n\n"
  let dependency (d : Cookbook.Dependency) : String :=
    match d.constraint with
    | some constraint => "- " ++ d.name ++ " (" ++ constraint ++ ")\n"
    | none => "- " ++ d.name ++ "\n"
  let dependencies :=
    if known.dependencies.isEmpty then ""
    else "## Dependencies\n\n" ++ String.join (known.dependencies.map dependency) ++ "\n"
  "# " ++ variableName cookbook.name ++ "\n\n" ++ description ++
    "Converted from the Chef cookbook \x60" ++ cookbook.name ++ "\x60" ++ version ++
    " by cookport.\n\n" ++ recipes ++ dependencies ++
    "Template placeholders were copied verbatim and still use ERB syntax.\n"

/-- The files that a cookbook has for its role, the first one of a path counting. -/
def supplements (cookbook : Cookbook) : List (String × String) :=
  let attributes := cookbook.attributeDefaults
  let assets (path : String → String) (found : List Cookbook.Asset) : List (String × String) :=
    found.filterMap fun asset => asset.content.map fun content => (path asset.path, content)
  [(metaPath, Yaml.render (metadata cookbook))] ++
    (if attributes.isEmpty then []
      else [(defaultsPath, "---\n" ++ Yaml.render (.obj (defaults attributes)))]) ++
    assets templatePath cookbook.templates ++
    assets filePath cookbook.files ++
    [(readmePath, readme cookbook)]

/-- The role with all that it lacks and the cookbook has. -/
def complete (role : Role) (cookbook : Cookbook) : Role :=
  (supplements cookbook).foldl (fun role (path, content) => role.insertMissing path content) role

end Rolewright.Role
