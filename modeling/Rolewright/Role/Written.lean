/-
# Roles on a disk

Writing the files of a role below a directory.
-/

import Rolewright.Disk.Work
import Rolewright.Role.Basic

namespace Rolewright.Role

/-- Copies the files of a role below a directory. -/
def copyTo (role : Role) (d : Disk) (directory : String) : Except OsError Disk :=
  role.files.foldlM
    (fun d (path, content) => do
      let target := Path.join directory path
      (← d.makeDirectories (Disk.directoryOf target)).write target (Text.encode content.toList))
    d

/-- Writes files below a directory, one after the other. -/
def writeFiles (directory : String) : List (String × String) → DiskWork Unit
  | [] => pure ()
  | (path, content) :: rest => do
    DiskWork.replace (Path.join directory path) content
    writeFiles directory rest

/-- Writes the files of a role below a directory. -/
def writeTo (role : Role) (directory : String) : DiskWork Unit :=
  writeFiles directory role.files

end Rolewright.Role
