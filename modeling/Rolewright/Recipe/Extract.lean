/-
# Extraction

From the text of a source file to all that it declares. Extraction never fails: what it does not
understand becomes a declaration that carries the source verbatim, and adjacent stretches of such
source under the same guards become one.
-/

import Rolewright.Recipe.Finding

namespace Rolewright.Recipe

open Text

/-- A stretch of source that was not understood and may still grow. -/
structure Stretch where
  first : Nat
  last : Nat
  guards : List Guard

/-- A source file while findings are gathered into it. -/
structure Gathering where
  found : SourceFile
  pending : Option Stretch

namespace Gathering

/-- Turns the pending stretch into a declaration. -/
def flush (o : Origin) (g : Gathering) : SourceFile :=
  match g.pending with
  | none => g.found
  | some stretch =>
    let declaration : Declaration :=
      { type := unparsedType
        name := o.file ++ ":" ++ toString stretch.first
        properties := [("source", .raw (o.text stretch.first stretch.last))]
        guards := stretch.guards
        notifies := []
        span := o.span stretch.first stretch.last
        unparsed := []
        unfinished := false }
    { g.found with declarations := g.found.declarations ++ [declaration] }

/-- Adds a declaration, and the template that it renders if that is new. -/
def declare (f : SourceFile) (d : Declaration) : SourceFile :=
  let templates :=
    if d.type = "template" && !f.templates.contains d.templateSource then
      f.templates ++ [d.templateSource]
    else f.templates
  { f with declarations := f.declarations ++ [d], templates }

/-- Adds a finding. Everything but a further stretch ends the pending one. -/
def add (o : Origin) (g : Gathering) : Finding → Gathering
  | .declared d => ⟨declare (g.flush o) d, none⟩
  | .attribute path value =>
    let f := g.flush o
    ⟨{ f with attributes := f.attributes.put path value }, none⟩
  | .variable name value =>
    let f := g.flush o
    ⟨{ f with locals := f.locals.put name value }, none⟩
  | .included recipe =>
    let f := g.flush o
    ⟨{ f with includes := f.includes ++ [recipe] }, none⟩
  | .unknown first last guards =>
    match g.pending with
    | some stretch =>
      if stretch.guards = guards && stretch.last < first then
        { g with pending := some { stretch with last } }
      else ⟨g.flush o, some ⟨first, last, guards⟩⟩
    | none => { g with pending := some ⟨first, last, guards⟩ }

end Gathering

/-- All that a source file declares. `types` are the resource types known beside the built-in
ones. -/
def SourceFile.extract (file : String) (types : List String) (source : List Char) : SourceFile :=
  let origin : Origin := ⟨file, types, lines source⟩
  let empty : SourceFile :=
    { name := (Path.fileStem? file).getD ""
      file
      declarations := []
      attributes := []
      locals := []
      templates := []
      includes := []
      source := String.ofList source }
  let findings := origin.nodesFindings [] (Node.ofLines (Line.ofSource source))
  (findings.foldl (Gathering.add origin) ⟨empty, none⟩).flush origin

end Rolewright.Recipe
