/-
# Paths

Slash-separated paths as they are written, and the components they denote. Repeated slashes, a
trailing slash and single dots inside a path carry no meaning; a leading dot and double dots are
components of their own.
-/

namespace Rolewright

/-- One step of a path. -/
inductive Component where
  | root
  | here
  | parent
  | name (text : String)
deriving DecidableEq, Repr

/-- The text of a component. -/
def Component.text : Component → String
  | .root => "/"
  | .here => "."
  | .parent => ".."
  | .name text => text

namespace Path

/-- The pieces between slashes, empty ones included. -/
def pieces : List Char → List (List Char)
  | [] => [[]]
  | c :: cs =>
    if c = '/' then [] :: pieces cs
    else
      match pieces cs with
      | [] => [[c]]
      | piece :: rest => (c :: piece) :: rest

/-- The step a piece stands for, if it stands for one. -/
def component? (piece : List Char) : Option Component :=
  if piece = [] ∨ piece = ['.'] then none
  else if piece = ['.', '.'] then some .parent
  else some (.name (String.ofList piece))

/-- Whether a path starts at the root. -/
def isAbsolute (path : String) : Bool :=
  path.toList.head? == some '/'

/-- The steps of a path. -/
def components (path : String) : List Component :=
  let pieces := pieces path.toList
  let lead :=
    if isAbsolute path then [Component.root]
    else if pieces.head? = some ['.'] then [Component.here]
    else []
  lead ++ pieces.filterMap component?

/-- The last component, if it is a name. -/
def fileName? (path : String) : Option String :=
  match (components path).getLast? with
  | some (.name text) => some text
  | _ => none

/-- A file name cut at its last dot. A dot that opens the name does not count. -/
def splitExtension (name : String) : String × Option String :=
  let reversed := name.toList.reverse
  match reversed.dropWhile (· != '.') with
  | _ :: before@(_ :: _) =>
    (String.ofList before.reverse,
      some (String.ofList (reversed.takeWhile (· != '.')).reverse))
  | _ => (name, none)

/-- The file name without its extension. -/
def fileStem? (path : String) : Option String :=
  (fileName? path).map fun name => (splitExtension name).1

/-- The extension of the file name. -/
def extension? (path : String) : Option String :=
  (fileName? path).bind fun name => (splitExtension name).2

/-- A path continued by another one; an absolute continuation replaces it. -/
def join (base rest : String) : String :=
  if isAbsolute rest then rest
  else if base.isEmpty || base.toList.getLast? == some '/' then base ++ rest
  else base ++ "/" ++ rest

/-- What a path adds to a base that it starts with, component by component. -/
def relative? (base path : String) : Option (List Component) :=
  (components base).isPrefixOf? (components path)

/-- Components as a path. -/
def ofComponents (steps : List Component) : String :=
  String.intercalate "/" (steps.map Component.text)

/-- A path from a base on, or the whole path when it does not start with the base. -/
def relative (base path : String) : String :=
  ofComponents ((relative? base path).getD (components path))

end Path

end Rolewright
