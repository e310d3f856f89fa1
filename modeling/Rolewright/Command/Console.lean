/-
# Jobs

What a command does: it works on a disk, and it prints and warns line by line. The first failure
ends a job, and what was done and printed before it stays.
-/

import Rolewright.Disk.Work

namespace Rolewright

/-- The disk that a command works on, and the lines it has written. -/
structure Console where
  disk : Disk
  /-- The lines of the output. -/
  printed : List String
  /-- The lines for warnings and errors. -/
  warned : List String
deriving Repr

/-- Work that prints and may fail on the way. -/
abbrev Job (α : Type) := ExceptT Failure (StateM Console) α

/-- How a job ends that no failure stops. -/
inductive Ending where
  | finished
  /-- The program died. -/
  | died (message : String)
deriving DecidableEq, Repr

namespace Job

/-- Prints a line. -/
def print (line : String) : Job Unit :=
  modify fun c => { c with printed := c.printed ++ [line] }

/-- Writes a line among the warnings. -/
def warn (line : String) : Job Unit :=
  modify fun c => { c with warned := c.warned ++ [line] }

/-- Prints several lines. -/
def printAll : List String → Job Unit
  | [] => pure ()
  | line :: lines => do
    print line
    printAll lines

/-- Writes several lines among the warnings. -/
def warnAll : List String → Job Unit
  | [] => pure ()
  | line :: lines => do
    warn line
    warnAll lines

/-- Does work on the disk. -/
def work {α : Type} (onDisk : DiskWork α) : Job α := do
  let console ← get
  let (result, disk) := onDisk.run console.disk
  set { console with disk }
  match (result : Except Failure α) with
  | .ok answer => return answer
  | .error failure => throw failure

/-- Does work that the program does not die of. -/
def finishing (work : Job Unit) : Job Ending := do
  work
  return .finished

/-- Looks something up on the disk. -/
def consult {α : Type} (question : Disk → Except Failure α) : Job α :=
  work (DiskWork.consult question)

end Job

end Rolewright
