/-
# Running a command line

What a command line leaves behind: the lines of its output and its warnings, the disk, and how it
went. A failure is the last line among the warnings.
-/

import Rolewright.Command.Conversion
import Rolewright.Command.Cookbooks
import Rolewright.Command.Directories

namespace Rolewright

/-- What a command line leaves behind. -/
structure Finished where
  status : Nat
  output : String
  errors : String
  disk : Disk

namespace Command

/-- The job that a command is. -/
def job (machine : Machine) : Command → Job Ending
  | .convert options => convertInput machine options
  | .extract input json => Job.finishing (showCookbooks input json)
  | .resolve input sources unmappedOnly =>
    Job.finishing (showResolutions input sources unmappedOnly)
  | .rules sources schema => Job.finishing (listRules sources schema)
  | .validate directory configuration builtinOnly =>
    Job.finishing (checkDirectory machine directory configuration builtinOnly)
  | .init directory => Job.finishing (writeTemplate directory)

/-- Lines as a text. -/
def lines (texts : List String) : String :=
  String.join (texts.map (· ++ "\n"))

/-- Does a job on a disk. -/
def perform (work : Job Ending) (disk : Disk) : Finished :=
  let (result, console) := work.run ⟨disk, [], []⟩
  let output := lines console.printed
  match (result : Except Failure Ending) with
  | .ok .finished => ⟨0, output, lines console.warned, console.disk⟩
  | .ok (.died message) => ⟨101, output, lines (console.warned ++ [message]), console.disk⟩
  | .error failure =>
    ⟨1, output, lines (console.warned ++ ["error: " ++ failure.message]), console.disk⟩

/-- The variable of the environment that a command line looks at, if it looks at one. -/
def neededVariable (disk : Disk) (words : List String) : Option String :=
  match Command.read words with
  | some (.convert options) =>
    match Configuration.loadOrStandard disk options.sources.configuration with
    | .ok configuration => some configuration.generator.keyVariable
    | .error _ => none
  | _ => none

/-- How commands are asked for. -/
def usage : String :=
  "usage: cookport [-v] convert|extract|resolve|rules|validate|init [OPTIONS] [PATH]\n"

/-- Runs a command line. -/
def run (machine : Machine) (disk : Disk) (words : List String) : Finished :=
  match Command.read words with
  | some command => perform (command.job machine) disk
  | none => ⟨2, "", usage, disk⟩

end Command

end Rolewright
