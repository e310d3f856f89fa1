/-
# Disks

A directory tree as a finite table: what stands at each path, a path being the list of its names
from the root. Operations name files by slash-separated paths, relative ones from the working
directory, and fail with the causes an operating system reports.
-/

import Rolewright.Path
import Rolewright.Text.Utf8

namespace Rolewright

/-- What stands at a path. -/
inductive DiskNode where
  | file (bytes : List UInt8)
  | directory
deriving DecidableEq, Repr

/-- Why an operation on a disk failed. -/
inductive OsError where
  | notFound
  | busy
  | fileExists
  | notDirectory
  | isDirectory
  | nameTooLong
  /-- The path holds a character that no name may have. -/
  | invalidName
  /-- The bytes read are no text. -/
  | notText
  /-- A directory was expected; found by the program itself. -/
  | noSuchDirectory
deriving DecidableEq, Repr

/-- The wording of a cause. -/
def OsError.message : OsError → String
  | .notFound => "No such file or directory (os error 2)"
  | .busy => "Device or resource busy (os error 16)"
  | .fileExists => "File exists (os error 17)"
  | .notDirectory => "Not a directory (os error 20)"
  | .isDirectory => "Is a directory (os error 21)"
  | .nameTooLong => "File name too long (os error 36)"
  | .invalidName => "file name contained an unexpected NUL byte"
  | .notText => "stream did not contain valid UTF-8"
  | .noSuchDirectory => "not a directory"

/-- A directory tree and the directory that relative paths start from. -/
structure Disk where
  nodes : List (List String × DiskNode)
  working : List String
deriving DecidableEq, Repr

namespace Disk

/-- A disk that holds nothing but its root. -/
def empty : Disk := ⟨[], []⟩

/-- What stands at a place. The root is always a directory. -/
def at? (d : Disk) (place : List String) : Option DiskNode :=
  if place.isEmpty then some .directory else d.nodes.lookup place

/-- Puts a node at a place, whatever stood there. -/
def set (d : Disk) (place : List String) (node : DiskNode) : Disk :=
  { d with nodes := (place, node) :: d.nodes.filter fun entry => entry.1 != place }

/-- Takes away what stands at a place. -/
def remove (d : Disk) (place : List String) : Disk :=
  { d with nodes := d.nodes.filter fun entry => entry.1 != place }

/-- Whether a name is one a file may have. -/
def checkName (name : String) : Except OsError Unit :=
  if name.toList.contains '\x00' then .error .invalidName
  else if 255 < name.utf8ByteSize then .error .nameTooLong
  else .ok ()

/-- One step from a place, which must be a directory. -/
def walk (d : Disk) (place : List String) (step : Component) : Except OsError (List String) :=
  match d.at? place with
  | none => .error .notFound
  | some (.file _) => .error .notDirectory
  | some .directory =>
    match step with
    | .root => .ok []
    | .here => .ok place
    | .parent => .ok place.dropLast
    | .name name => (checkName name).map fun _ => place ++ [name]

/-- The place that a path denotes. Every directory on the way must be there; the last name need
not. -/
def resolve (d : Disk) (path : String) : Except OsError (List String) :=
  (Path.components path).foldlM d.walk d.working

/-- The node that a path denotes. -/
def node? (d : Disk) (path : String) : Option DiskNode :=
  match d.resolve path with
  | .ok place => d.at? place
  | .error _ => none

/-- Whether a path denotes a directory. -/
def isDirectory (d : Disk) (path : String) : Bool :=
  d.node? path == some .directory

/-- Whether a path denotes a regular file. -/
def isFile (d : Disk) (path : String) : Bool :=
  match d.node? path with
  | some (.file _) => true
  | _ => false

/-! ## Reading -/

/-- The bytes of a file. -/
def read (d : Disk) (path : String) : Except OsError (List UInt8) := do
  match d.at? (← d.resolve path) with
  | some (.file bytes) => return bytes
  | some .directory => throw .isDirectory
  | none => throw .notFound

/-- The text of a file, which must be well formed. -/
def readText (d : Disk) (path : String) : Except OsError (List Char) := do
  match Text.decode? (← d.read path) with
  | some text => return text
  | none => throw .notText

/-- The order of paths, name by name. -/
def pathOrder (a b : List String) : Bool :=
  !decide (b < a)

/-- The regular files below a place: their paths from there, in order, and their bytes. -/
def filesBelow (d : Disk) (place : List String) : List (List String × List UInt8) :=
  let below := d.nodes.filterMap fun (path, node) =>
    match node, place.isPrefixOf? path with
    | .file bytes, some rest => if rest.isEmpty then none else some (rest, bytes)
    | _, _ => none
  below.mergeSort fun a b => pathOrder a.1 b.1

/-! ## Writing -/

/-- Makes the directories on a way that starts at a place, step by step. -/
def makeAlong (d : Disk) (place : List String) : List Component → Except OsError Disk
  | [] => .ok d
  | .root :: steps => d.makeAlong [] steps
  | .here :: steps => d.makeAlong place steps
  | .parent :: steps => d.makeAlong place.dropLast steps
  | .name name :: steps =>
    let next := place ++ [name]
    match d.at? next with
    | some .directory => d.makeAlong next steps
    | some (.file _) => .error (if steps.isEmpty then .fileExists else .notDirectory)
    | none => do
      checkName name
      (d.set next .directory).makeAlong next steps

/-- The place a path denotes, whether or not anything is there. -/
def target (d : Disk) (path : String) : List String :=
  (Path.components path).foldl
    (fun place step =>
      match step with
      | .root => []
      | .here => place
      | .parent => place.dropLast
      | .name name => place ++ [name])
    d.working

/-- Makes a directory and those on the way to it. -/
def makeDirectories (d : Disk) (path : String) : Except OsError Disk :=
  d.makeAlong d.working (Path.components path)

/-- Whether a path can only be read as that of a directory, by how it ends. -/
def namesDirectory (path : String) : Bool :=
  match (Path.pieces path.toList).getLast? with
  | some last => last = [] || last = ['.']
  | none => false

/-- Writes a file whose directory is there. -/
def write (d : Disk) (path : String) (bytes : List UInt8) : Except OsError Disk := do
  let place ← d.resolve path
  match d.at? place with
  | some .directory => throw .isDirectory
  | _ => if namesDirectory path then throw .isDirectory else return d.set place (.file bytes)

/-- Moves a file to a path, replacing the file there. -/
def rename (d : Disk) (source path : String) : Except OsError Disk := do
  let place ← d.resolve path
  let last := (Path.pieces path.toList).getLast?
  if last = some ['.'] then
    match d.at? place with
    | some .directory => throw .busy
    | some (.file _) => throw .notDirectory
    | none => throw .notFound
  match d.at? place, d.at? (d.target source) with
  | some .directory, _ => throw .isDirectory
  | _, some (.file bytes) =>
    if last = some [] then throw .notDirectory
    else return (d.remove (d.target source)).set place (.file bytes)
  | _, _ => throw .notFound

/-- The directory part of a path: the path as it is written, without its last component. -/
def directoryOf (path : String) : String :=
  let pieces := Path.pieces path.toList
  let leads := pieces.head? == some [] || pieces.head? == some ['.']
  let lead := if leads then pieces.take 1 else []
  let bare (piece : List Char) : Bool := piece.isEmpty || piece == ['.']
  let steps := ((pieces.drop lead.length).reverse.dropWhile bare).drop 1
  let kept := lead ++ (steps.dropWhile bare).reverse
  let text := String.intercalate "/" (kept.map String.ofList)
  if Path.isAbsolute path && kept.length ≤ 1 then "/" else text

/-- The disk with a file at a place and directories on the way to it. -/
def withFile (d : Disk) (place : List String) (bytes : List UInt8) : Disk :=
  let parents := (List.range place.length).map fun n => place.take n
  let withParents := parents.foldl
    (fun d parent => if (d.at? parent).isSome then d else d.set parent .directory) d
  withParents.set place (.file bytes)

end Disk

end Rolewright
