/-
# Searches

The files below a directory, and the paths under which a search from that directory reports them.
-/

import Rolewright.Disk.Basic

namespace Rolewright.Disk

/-- How a search writes the directory it starts from: as it is written, without single dots in front
and without slashes that mean nothing. -/
def searchRoot (root : String) : String :=
  let pieces := (Path.pieces root.toList).filter fun piece => !piece.isEmpty
  let text (pieces : List (List Char)) := String.intercalate "/" (pieces.map String.ofList)
  if Path.isAbsolute root then "/" ++ text pieces else text (pieces.dropWhile (· == ['.']))

/-- The path that a search below a directory reports for the names it finds there. -/
def found (root : String) (names : List String) : String :=
  let base := searchRoot root
  let rest := String.intercalate "/" names
  if base.isEmpty then rest else Path.join base rest

/-- The regular files below a directory: their names from there, and their bytes. -/
def filesIn (d : Disk) (path : String) : List (List String × List UInt8) :=
  if d.isDirectory path then
    match d.resolve path with
    | .ok place => d.filesBelow place
    | .error _ => []
  else []

end Rolewright.Disk
