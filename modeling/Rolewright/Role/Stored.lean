/-
# Roles in directories

Reading a role back from a directory. Files that are no text and the records of conversions are not
part of a role.
-/

import Rolewright.Disk.Search
import Rolewright.Fingerprint.Basic

namespace Rolewright.Role

/-- The path of a file in a role, seen from the directory of the role; none for a record. -/
def storedPath? (directory : String) (names : List String) : Option String := do
  let steps ← Path.relative? directory (Disk.found directory names)
  if steps.head? = some (.name Fingerprint.recordDirectory) then none
  else some ((Path.ofComponents steps).map fun c => if c = '\\' then '/' else c)

/-- A file of a directory as a file of a role, if it is one. -/
def storedFile? (directory : String) (file : List String × List UInt8) :
    Option (String × String) := do
  let path ← storedPath? directory file.1
  return (path, String.ofList (← Text.decode? file.2))

/-- The role in a directory. -/
def stored (d : Disk) (directory : String) : Except Failure Role :=
  if d.isDirectory directory then
    .ok (.ofList ((d.filesIn directory).filterMap (storedFile? directory)))
  else .error (.access directory .noSuchDirectory)

end Rolewright.Role
