/-
# Failures

What stops a command. Only configuration and files do: source that is not understood, resources
without a rule and generators that fail are outcomes, and have types of their own.
-/

import Rolewright.Disk.Basic

namespace Rolewright

/-- Stands for the wording of a document reader, which no one relies on. -/
def readerMessage : String := "<parser message>"

/-- Why a command stopped. -/
inductive Failure where
  | configuration (message : String)
  | mappingFile (path message : String)
  /-- The mapping file is no document at all. -/
  | mappingSyntax (path : String)
  | access (path : String) (cause : OsError)
  | noCookbooks (path : String)
  | gateway (message : String)
  | rejected (blocking : Nat)
  | sessionsFailed (failed total : Nat)
deriving DecidableEq, Repr

/-- The wording of a failure. -/
def Failure.message : Failure → String
  | .configuration message => "configuration error: " ++ message
  | .mappingFile path message => "mapping file " ++ path ++ ": " ++ message
  | .mappingSyntax path => "mapping file " ++ path ++ ": " ++ readerMessage
  | .access path cause => "cannot access " ++ path ++ ": " ++ cause.message
  | .noCookbooks path => "no cookbooks (metadata.rb) found under " ++ path
  | .gateway message => "validation gateway: " ++ message
  | .rejected blocking => toString blocking ++ " blocking diagnostic(s)"
  | .sessionsFailed failed total =>
    toString failed ++ " of " ++ toString total ++ " conversion(s) failed"

/-- An operation on a disk whose failure names a path. -/
def accessing {α : Type} (path : String) (result : Except OsError α) : Except Failure α :=
  result.mapError (.access path)

end Rolewright
