/-
# Declarations

What a recipe declares: resources with their properties, the conditions that govern them, and the
notifications between them. A stretch of source that was not understood is a declaration too, of a
type of its own, so that no code gets lost.
-/

import Rolewright.Path
import Rolewright.Value.Basic

namespace Rolewright.Recipe

/-- A stretch of a source file, both ends included, counted from one. -/
structure Span where
  file : String
  first : Nat
  last : Nat
deriving DecidableEq, Repr

/-- The span as `file:line` or `file:first-last`. -/
def Span.text (span : Span) : String :=
  if span.first = span.last then span.file ++ ":" ++ toString span.first
  else span.file ++ ":" ++ toString span.first ++ "-" ++ toString span.last

/-- What kind of condition governs a declaration. -/
inductive GuardKind where
  | onlyWhen
  | unless
  /-- No earlier arm was taken; the expression lists their conditions. -/
  | otherwise
  | when
  | loop
  | rescue
  /-- Any other block around the declaration. -/
  | block
  /-- The guard of the resource itself. -/
  | onlyIf
  | notIf
deriving DecidableEq, Repr

/-- The word for a kind of guard. -/
def GuardKind.word : GuardKind → String
  | .onlyWhen => "if"
  | .unless => "unless"
  | .otherwise => "else"
  | .when => "when"
  | .loop => "loop"
  | .rescue => "rescue"
  | .block => "block"
  | .onlyIf => "only_if"
  | .notIf => "not_if"

/-- A condition that governs a declaration. -/
structure Guard where
  kind : GuardKind
  expression : String
deriving DecidableEq, Repr

/-- The guard as its kind and its expression. -/
def Guard.text (guard : Guard) : String :=
  guard.kind.word ++ " " ++ guard.expression

/-- When a notified resource acts. -/
inductive Timing where
  | immediate
  | delayed
deriving DecidableEq, Repr

/-- Which end of a notification the declaration is. -/
inductive EdgeKind where
  | notifies
  | subscribes
deriving DecidableEq, Repr

/-- A notification between two resources. -/
structure Edge where
  /-- The other resource, as `type[name]` when it is known. -/
  target : String
  action : String
  timing : Timing
  kind : EdgeKind
deriving DecidableEq, Repr

/-- The type of a declaration that stands for source that was not understood. -/
def unparsedType : String := "__unparsed__"

/-- A declared resource. -/
structure Declaration where
  type : String
  name : String
  properties : Entries Value
  guards : List Guard
  notifies : List Edge
  span : Span
  /-- The statements of its body that were not understood, verbatim. -/
  unparsed : List String
  /-- Whether its `end` is missing. -/
  unfinished : Bool
deriving Repr

namespace Declaration

/-- Whether the declaration stands for source that was not understood. -/
def isUnparsed (d : Declaration) : Bool :=
  d.type == unparsedType

/-- The form in which notifications name a resource. -/
def reference (d : Declaration) : String :=
  d.type ++ "[" ++ d.name ++ "]"

/-- The actions that the resource is asked for. -/
def actions (d : Declaration) : List String :=
  match d.properties.get? "action" with
  | some (.list items) => items.filterMap Value.asText?
  | some value => value.asText?.toList
  | none => []

/-- The template that a template resource renders: its `source`, or the last component of its name
with the ending of templates. -/
def templateSource (d : Declaration) : String :=
  match (d.properties.get? "source").bind Value.asText? with
  | some source => source
  | none => (Path.fileName? d.name).getD d.name ++ ".erb"

end Declaration

/-- All that was found in one source file. -/
structure SourceFile where
  name : String
  file : String
  declarations : List Declaration
  attributes : Entries Value
  locals : Entries Value
  templates : List String
  includes : List String
  source : String
deriving Repr

namespace SourceFile

/-- The declarations of resources, leaving out what was not understood. -/
def resources (f : SourceFile) : List Declaration :=
  f.declarations.filter fun d => !d.isUnparsed

/-- The declaration that a reference names. -/
def find? (f : SourceFile) (reference : String) : Option Declaration :=
  f.declarations.find? fun d => d.reference == reference

end SourceFile

end Rolewright.Recipe
