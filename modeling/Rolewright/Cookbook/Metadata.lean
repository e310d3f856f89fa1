/-
# Cookbook metadata

The fields of a metadata file. A field stands at the start of a line, its value between quotes;
the first of several equal fields counts. Everything else in the file is passed over.
-/

import Rolewright.Recipe.Statement

namespace Rolewright.Cookbook

open Text

/-- Another cookbook that a cookbook needs. -/
structure Dependency where
  name : String
  constraint : Option String
deriving DecidableEq, Repr

/-- What a cookbook says about itself. -/
structure Metadata where
  name : Option String
  version : Option String
  maintainer : Option String
  maintainerEmail : Option String
  license : Option String
  description : Option String
  dependencies : List Dependency
  supports : List String
deriving DecidableEq, Repr

/-- What `probe` finds at the starts of lines, from left to right and without overlaps, once `skip`
characters have passed. A probe gives what it found and the text after it. -/
def atLineStarts {α : Type} (probe : List Char → Option (α × List Char)) :
    Nat → Bool → List Char → List α
  | _, _, [] => []
  | skip + 1, _, c :: cs => atLineStarts probe skip (c == '\n') cs
  | 0, false, c :: cs => atLineStarts probe 0 (c == '\n') cs
  | 0, true, c :: cs =>
    match probe (c :: cs) with
    | some (found, rest) =>
      found :: atLineStarts probe (cs.length - rest.length) (c == '\n') cs
    | none => atLineStarts probe 0 (c == '\n') cs

/-- Everything that `probe` finds at the start of a line. -/
def lineMatches {α : Type} (probe : List Char → Option (α × List Char)) (cs : List Char) :
    List α :=
  atLineStarts probe 0 true cs

/-- A word at the start of a line, with what follows it up to its argument: blanks and at most one
opening bracket. -/
def callOf? (word : String) (cs : List Char) : Option (List Char) :=
  (afterPrefix? word.toList (trimStart cs)).map fun rest =>
    trimStart (withoutPrefix ['('] (trimStart rest))

/-- A quoted argument that is not empty. -/
def quotedArgument? (cs : List Char) : Option (List Char × List Char) :=
  match Recipe.looselyQuoted? cs with
  | some (text, rest) => if text.isEmpty then none else some (text, rest)
  | none => none

/-- The fields of which a metadata file has one each. -/
def fieldNames : List String :=
  ["name", "version", "maintainer", "maintainer_email", "license", "description"]

/-- A field and its value at the start of a line. -/
def field? (cs : List Char) : Option ((String × String) × List Char) :=
  fieldNames.findSome? fun name => do
    let (value, rest) ← Recipe.looselyQuoted? (← callOf? name cs)
    return ((name, String.ofList value), rest)

/-- A dependency at the start of a line. -/
def dependency? (cs : List Char) : Option (Dependency × List Char) := do
  let (name, rest) ← quotedArgument? (← callOf? "depends" cs)
  let constraint := (afterPrefix? [','] (trimStart rest)).bind fun more =>
    quotedArgument? (trimStart more)
  match constraint with
  | some (text, rest) => return (⟨String.ofList name, some (String.ofList text)⟩, rest)
  | none => return (⟨String.ofList name, none⟩, rest)

/-- A supported platform at the start of a line. -/
def platform? (cs : List Char) : Option (String × List Char) := do
  let (name, rest) ← quotedArgument? (← callOf? "supports" cs)
  return (String.ofList name, rest)

/-- The metadata in the text of a metadata file. -/
def Metadata.parse (content : List Char) : Metadata :=
  let fields := lineMatches field? content
  let first (name : String) : Option String := Entries.get? fields name
  { name := first "name"
    version := first "version"
    maintainer := first "maintainer"
    maintainerEmail := first "maintainer_email"
    license := first "license"
    description := first "description"
    dependencies := lineMatches dependency? content
    supports := lineMatches platform? content }

/-- The metadata of a cookbook that has none. -/
def Metadata.empty : Metadata := ⟨none, none, none, none, none, none, [], []⟩

/-- The name of a cookbook, unless it is missing or empty. -/
def Metadata.properName? (m : Metadata) : Option String :=
  m.name.filter fun name => !name.isEmpty

end Rolewright.Cookbook
