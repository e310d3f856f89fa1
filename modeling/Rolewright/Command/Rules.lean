/-
# Rules in force

The standard rules, those of the file that the configuration names, and those of another file; and
how they are listed.
-/

import Rolewright.Command.Arguments
import Rolewright.Command.Console
import Rolewright.Configuration.Read
import Rolewright.Mapping.Builtin
import Rolewright.Mapping.File
import Rolewright.Mapping.Schema

namespace Rolewright.Command

/-- Adds the rules of a file. Rules that are skipped are worth a warning. -/
def addRules (rules : List Mapping.Rule) (path : String) : Job (List Mapping.Rule) := do
  let (rules, outcome) ← Job.consult fun d => .ok (Mapping.addFile rules d path)
  let loaded ← Job.consult fun _ => outcome
  if !loaded.skipped.isEmpty then
    Job.warn ("warning: " ++ path ++ ": skipped " ++ toString loaded.skipped.length ++ " rule(s)")
  return rules

/-- Loads the rules in force. -/
def loadRules (configuration : Configuration) (extra : Option String) :
    Job (List Mapping.Rule) :=
  (configuration.conversion.mappingFile.toList ++ extra.toList).foldlM addRules
    Mapping.defaultRules

/-- What a rule does beyond naming a module. -/
def ruleExtras (rule : Mapping.Rule) : List String :=
  let counted (n : Nat) (what : String) := if n = 0 then [] else [toString n ++ what]
  counted rule.renames.length " rename(s)" ++
    counted rule.transforms.length " transform(s)" ++
    if rule.precedence = 0 then [] else ["precedence " ++ toString rule.precedence]

/-- The line for a rule; the types it is for take at least 24 columns. -/
def ruleLine (rule : Mapping.Rule) : String :=
  let extras := ruleExtras rule
  rule.source ++ "".pushn ' ' (24 - rule.source.length) ++ " -> " ++ rule.target ++
    if extras.isEmpty then "" else "  (" ++ String.intercalate ", " extras ++ ")"

/-- Lists the rules in force, or shows the schema of a rule. -/
def listRules (sources : Sources) (schema : Bool) : Job Unit := do
  if schema then Job.print Mapping.ruleSchema.pretty
  else
    let configuration ← Job.consult fun d => Configuration.loadOrStandard d sources.configuration
    let rules ← loadRules configuration sources.mapping
    Job.printAll (rules.map ruleLine)
    Job.print ""
    Job.print (toString rules.length ++ " rule(s)")

end Rolewright.Command
