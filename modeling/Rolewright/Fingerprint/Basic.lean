/-
# Fingerprints

Short texts that stand for contents. The fingerprint of several files goes over their paths and the
fingerprints of their contents, so that a role in memory and the same files on a disk agree.
-/

import Rolewright.Disk.Basic
import Rolewright.Failure
import Rolewright.Fingerprint.Blake3
import Rolewright.Role.Basic

namespace Rolewright.Fingerprint

/-- Bytes as hexadecimal digits in lower case. -/
def hexadecimal (bytes : List UInt8) : String :=
  String.ofList (bytes.flatMap fun b =>
    [Nat.digitChar (b.toNat / 16), Nat.digitChar (b.toNat % 16)])

/-- The fingerprint of bytes. -/
def ofBytes (bytes : List UInt8) : String :=
  "blake3:" ++ hexadecimal (Blake3.hash bytes)

/-- The fingerprint of a text. -/
def ofText (text : String) : String :=
  ofBytes (Text.encode text.toList)

/-- The listing of files over which their common fingerprint goes: path and fingerprint of each. -/
def listing (entries : List (String × String)) : List UInt8 :=
  entries.flatMap fun (path, fingerprint) =>
    Text.encode path.toList ++ [0] ++ Text.encode fingerprint.toList ++ [10]

/-- The common fingerprint of files, given the fingerprints of their contents. -/
def ofEntries (entries : List (String × String)) : String :=
  ofBytes (listing entries)

/-- The entries for files: the path of each and the fingerprint of its content. -/
def entriesOf (files : List (String × String)) : List (String × String) :=
  files.map fun (path, content) => (path, ofText content)

/-- The bytes that the fingerprint of a role goes over. -/
def coverage (role : Role) : List UInt8 :=
  listing (entriesOf role.files)

/-- The fingerprint of a role. -/
def ofRole (role : Role) : String :=
  ofBytes (coverage role)

/-- The directory for the records of conversions, which no fingerprint covers. -/
def recordDirectory : String := ".cookport"

/-- The fingerprint of the files below a directory. -/
def ofDirectory (d : Disk) (path : String) : Except Failure String := do
  let place ← accessing path (d.resolve path)
  match d.at? place with
  | none => throw (.access path .notFound)
  | some (.file _) => throw (.access path .notDirectory)
  | some .directory =>
    let kept := (d.filesBelow place).filter fun file =>
      !file.1.dropLast.contains recordDirectory
    let entries := kept.map fun (names, bytes) => (String.intercalate "/" names, ofBytes bytes)
    return ofEntries (Entries.sorted entries)

end Rolewright.Fingerprint
