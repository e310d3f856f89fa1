/-
# Directories of roles and of configurations

Checking the role in a directory, and writing a configuration file to start from.
-/

import Rolewright.Command.Console
import Rolewright.Command.Machine
import Rolewright.Configuration.Template
import Rolewright.Role.Stored

namespace Rolewright.Command

/-- Has a role checked. -/
def report (machine : Machine) (configuration : Configuration) (builtinOnly : Bool) (role : Role) :
    Job Report :=
  match machine.check configuration builtinOnly role with
  | .ok report => pure report
  | .error error => throw (.gateway error.message)

/-- Checks the role in a directory. -/
def checkDirectory (machine : Machine) (directory : String) (configurationPath : Option String)
    (builtinOnly : Bool) : Job Unit := do
  let configuration ← Job.consult fun d => Configuration.loadOrStandard d configurationPath
  let role ← Job.consult fun d => Role.stored d directory
  let report ← report machine configuration builtinOnly role
  Job.warnAll (report.diagnostics.map fun d => "  " ++ d.text)
  if report.isClean then
    Job.print ("OK: " ++ directory ++ " (" ++ toString role.size ++ " files)")
  else throw (.rejected report.blocking.length)

/-- Writes a configuration file to start from, unless there is one. -/
def writeTemplate (directory : String) : Job Unit := do
  let path := Path.join directory Configuration.fileName
  if ((← get).disk.node? path).isSome then
    throw (.configuration (path ++ " already exists"))
  Job.work do
    DiskWork.makeDirectories directory
    DiskWork.change path fun d => d.write path (Text.encode Configuration.template.toList)
  Job.print ("Initialized cookport at " ++ directory)
  Job.print ("  Created: " ++ path)

end Rolewright.Command
