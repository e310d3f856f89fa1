/-
# Delivering roles

The role of a session is written to a directory of its own below a common one, with the records of
the session beside it. The document of the attempts is written anew each time; the rows of events
are added to those of earlier sessions.
-/

import Rolewright.Conversion.Record
import Rolewright.Fingerprint.Basic
import Rolewright.Role.Variable
import Rolewright.Role.Written

namespace Rolewright

/-- What was written for a session. -/
structure Delivery where
  directory : String
  files : Nat
  /-- The fingerprint of the directory, if any files were written. -/
  fingerprint : Option String
deriving DecidableEq, Repr

namespace Delivery

/-- The directory for the role of a cookbook. -/
def directoryFor (root cookbook : String) : String :=
  Path.join root (Role.variableName cookbook)

/-- A path in the directory for records. -/
def recordPath (directory name : String) : String :=
  Path.join (Path.join directory Fingerprint.recordDirectory) name

/-- The rows for the events of a session. -/
def eventRows (c : Concluded) : String :=
  String.join (c.events.map fun event => event.record.compact ++ "\n")

end Delivery

open Delivery in
/-- Writes the role of a session, if it has one, and the records of the session. -/
def Concluded.deliver (c : Concluded) (root : String) : DiskWork Delivery := do
  let directory := directoryFor root c.cookbook
  DiskWork.makeDirectories directory
  let role := c.outcome.role?.getD .empty
  role.writeTo directory
  DiskWork.replace (recordPath directory "history.json") c.record.pretty
  DiskWork.append (recordPath directory "events.jsonl") (eventRows c)
  let fingerprint ←
    if role.isEmpty then pure none
    else some <$> DiskWork.consult fun d => Fingerprint.ofDirectory d directory
  return ⟨directory, role.size, fingerprint⟩

end Rolewright
