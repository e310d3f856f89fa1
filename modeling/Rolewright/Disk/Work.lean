/-
# Work on a disk

Operations that follow each other on one disk. The first failure ends the work, and what was done
before it stays done.
-/

import Rolewright.Failure

namespace Rolewright

/-- Work on a disk that may fail on the way. -/
abbrev DiskWork (α : Type) := ExceptT Failure (StateM Disk) α

namespace DiskWork

/-- Changes the disk. A failure names the path and leaves the disk as it is. -/
def change (path : String) (operation : Disk → Except OsError Disk) : DiskWork Unit := do
  match operation (← get) with
  | .ok disk => set disk
  | .error cause => throw (.access path cause)

/-- Looks something up on the disk. -/
def consult {α : Type} (question : Disk → Except Failure α) : DiskWork α := do
  match question (← get) with
  | .ok answer => return answer
  | .error failure => throw failure

/-- Makes a directory and those above it. -/
def makeDirectories (path : String) : DiskWork Unit :=
  change path fun d => d.makeDirectories path

/-- The path beside another one under which a file waits to be moved there. -/
def waitingPath (path : String) : String :=
  Path.join (Disk.directoryOf path) ((Path.fileName? path).getD "" ++ ".tmp")

/-- Writes a text to a path, making the directories above it. The text is written beside the path
and then moved there, so that a reader never meets half of it. -/
def replace (path content : String) : DiskWork Unit := do
  makeDirectories (Disk.directoryOf path)
  change (waitingPath path) fun d => d.write (waitingPath path) (Text.encode content.toList)
  change path fun d => d.rename (waitingPath path) path

/-- Adds a text at the end of a file, making it and the directories above it if need be. -/
def append (path content : String) : DiskWork Unit := do
  makeDirectories (Disk.directoryOf path)
  change path fun d =>
    d.write path ((d.read path).toOption.getD [] ++ Text.encode content.toList)

end DiskWork

end Rolewright
