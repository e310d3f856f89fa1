/-
# Custom resources

What a file below `resources/` defines: the name under which recipes use the resource, its
properties and its actions. Definitions stand at the starts of lines.
-/

import Rolewright.Cookbook.Metadata

namespace Rolewright.Cookbook

open Text

/-- A resource that a cookbook defines. -/
structure CustomResource where
  name : String
  file : String
  properties : List String
  actions : List String
  defaultAction : Option String
deriving DecidableEq, Repr

/-- A symbol at the start of a text: its name and what follows it. -/
def symbolName? (cs : List Char) : Option (List Char × List Char) :=
  (afterPrefix? [':'] cs).bind (takeIdent isIdentStart isAsciiWord)

/-- A call of one of several words with a symbol as its argument. -/
def symbolCall? (words : List String) (cs : List Char) : Option (String × List Char) :=
  words.findSome? fun word => do
    let (name, rest) ← symbolName? (← callOf? word cs)
    return (String.ofList name, rest)

/-- What follows the `do` that opens the block of an action, if one does. -/
def actionBlock? (rest : List Char) : Option (List Char) := do
  let rest ← afterPrefix? "do".toList (trimStart (withoutPrefix [')'] (trimStart rest)))
  if atBoundary rest then some rest else none

/-- The definition of an action. A name that ends in `do` and is followed by none gives up its
last two letters to open the block. -/
def action? (cs : List Char) : Option (String × List Char) := do
  let (name, rest) ← symbolName? (← callOf? "action" cs)
  match actionBlock? rest with
  | some rest => return (String.ofList name, rest)
  | none =>
    let short ← beforeSuffix? "do".toList name
    if short.isEmpty || !atBoundary rest then none else return (String.ofList short, rest)

/-- The symbols in a text, once `skip` characters have passed. -/
def symbolsIn : Nat → List Char → List String
  | _, [] => []
  | skip + 1, _ :: cs => symbolsIn skip cs
  | 0, c :: cs =>
    match symbolName? (c :: cs) with
    | some (name, _) => String.ofList name :: symbolsIn name.length cs
    | none => symbolsIn 0 cs

/-- The symbols of a list of actions on one line. -/
def actionList? (cs : List Char) : Option (List String × List Char) := do
  let rest ← afterPrefix? "actions".toList (trimStart cs)
  let list := trimStart rest
  if list.length == rest.length || list.isEmpty then none
  else
    let row := list.takeWhile (· != '\n')
    return (symbolsIn 0 row, list.drop row.length)

/-- The resource that the text of a file defines. Its name is its own, or made of the names of the
cookbook and of the file. -/
def CustomResource.parse (cookbook file : String) (content : List Char) : CustomResource :=
  let stem := (Path.fileStem? file).getD ""
  let named := lineMatches (symbolCall? ["resource_name", "provides"]) content
  let underscored := String.ofList (replaceChar '-' ['_'] cookbook.toList)
  let listed := (lineMatches actionList? content).flatten
  let actions := listed.foldl
    (fun actions action => if actions.contains action then actions else actions ++ [action])
    (lineMatches action? content)
  { name := named.head?.getD (underscored ++ "_" ++ stem)
    file
    properties := lineMatches (symbolCall? ["property", "attribute"]) content
    actions
    defaultAction :=
      (lineMatches (symbolCall? ["default_action"]) content).head?.or actions.head? }

end Rolewright.Cookbook
