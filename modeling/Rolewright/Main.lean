/-
# The program

Runs a command line on files. The files that a command may see are named on standard input, one
path to a line, so a command never looks at anything else. Files and directories that the command
leaves behind are written when it is done. The program starts no other programs and has no network:
linters count as not installed, and no post to a generator arrives.
-/

import Rolewright.Command.Run

namespace Rolewright.Program

/-- A machine without other programs and without a network. Its clock stands still, since the
program does not wait before it posts again. -/
def machine (environment : String → Option String) : Machine :=
  ⟨environment, fun _ => .notStarted .notFound, "/tmp/scratch", .offline, fun _ => .zero⟩

/-- A disk without files, on which a directory is the working directory. -/
def emptyDisk (working : String) : Disk :=
  let place := Disk.empty.target working
  { (Disk.empty.makeDirectories working).toOption.getD .empty with working := place }

/-- The path of a place, seen from the working directory where that lies above it. -/
def pathOf (d : Disk) (place : List String) : String :=
  match d.working.isPrefixOf? place with
  | some rest => String.intercalate "/" rest
  | none => "/" ++ String.intercalate "/" place

/-- What stands on a disk that did not stand there before. -/
def changes (before after : Disk) : List (String × DiskNode) :=
  (after.nodes.filter fun (place, node) => before.at? place != some node).map
    fun (place, node) => (pathOf after place, node)

/-- The lines of a stream, up to the first empty one. -/
partial def readLines (stream : IO.FS.Stream) (lines : List String) : IO (List String) := do
  let line := (← stream.getLine).toList.takeWhile (· != '\n')
  if line.isEmpty then return lines.reverse
  readLines stream (String.ofList line :: lines)

/-- Adds the file at a path to a disk. -/
def addFile (d : Disk) (path : String) : IO Disk := do
  let bytes ← IO.FS.readBinFile path
  return d.withFile (d.target path) bytes.toList

/-- A variable of the environment and its value. -/
def readVariable : Option String → IO (List (String × String))
  | none => return []
  | some name => do return (← IO.getEnv name).toList.map fun value => (name, value)

/-- Writes what a command left behind. -/
def writeChange (change : String × DiskNode) : IO Unit := do
  match change with
  | (path, .directory) => IO.FS.createDirAll path
  | (path, .file bytes) =>
    IO.FS.createDirAll (Disk.directoryOf path)
    IO.FS.writeBinFile path ⟨bytes.toArray⟩

end Rolewright.Program

open Rolewright Rolewright.Program in
/-- Runs the command line of the program. -/
def main (words : List String) : IO UInt32 := do
  let working := (← IO.getEnv "PWD").getD "/"
  let paths ← readLines (← IO.getStdin) []
  let disk ← paths.foldlM addFile (emptyDisk working)
  let known ← readVariable (Command.neededVariable disk words)
  let done := Command.run (machine fun name => known.lookup name) disk words
  (changes disk done.disk).forM writeChange
  (← IO.getStdout).putStr done.output
  (← IO.getStderr).putStr done.errors
  return done.status.toUInt32
