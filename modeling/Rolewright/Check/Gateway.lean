/-
# The gateway of checks

A role passes the built-in checks and, where asked for, a linter and a syntax check that other
programs make on a copy of it. Those programs are given as a function, so every statement about the
gateway is one about all programs. A program that is missing is passed over unless it is required;
one that takes too long leaves no report at all.
-/

import Rolewright.Check.Lint
import Rolewright.Check.Tasks
import Rolewright.Duration
import Rolewright.Role.Written

namespace Rolewright

namespace Check

/-- Which external checks are made. -/
structure Settings where
  /-- The linter; an empty name asks for none. -/
  linter : String
  /-- Whether programs that are missing are a fault. -/
  required : Bool
  /-- Whether the syntax check is made. -/
  syntaxCheck : Bool
  timeout : Duration
deriving DecidableEq, Repr

/-- The checks that need no other program. -/
def Settings.builtin : Settings :=
  ⟨"", false, false, .ofSeconds 60⟩

/-- A call of a program. -/
structure Invocation where
  program : String
  arguments : List String
  timeout : Duration
deriving DecidableEq, Repr

/-- What becomes of a call of a program. -/
inductive Execution where
  | finished (output : ToolOutput)
  | timedOut
  /-- The program could not be started. -/
  | notStarted (cause : OsError)
  /-- The program could not be waited for. -/
  | lost (cause : OsError)
deriving DecidableEq, Repr

/-- Why a gateway has no report. -/
inductive GatewayError where
  | unavailable (reason : String)
  | timedOut (limit : Duration)
deriving DecidableEq, Repr

/-- The wording of such a cause. -/
def GatewayError.message : GatewayError → String
  | .unavailable reason => "validation gateway unavailable: " ++ reason
  | .timedOut limit => "validation timed out after " ++ limit.text

/-- The programs on a machine: what becomes of each call. -/
abbrev Programs := Invocation → Execution

/-- The output of a program; none if it is missing and not required. -/
def runTool (settings : Settings) (programs : Programs) (program : String)
    (arguments : List String) : Except GatewayError (Option ToolOutput) :=
  match programs ⟨program, arguments, settings.timeout⟩ with
  | .finished output => .ok (some output)
  | .timedOut => .error (.timedOut settings.timeout)
  | .notStarted cause =>
    if cause = .notFound && !settings.required then .ok none
    else .error (.unavailable ("failed to spawn " ++ program ++ ": " ++ cause.message))
  | .lost cause => .error (.unavailable ("wait error: " ++ cause.message))

/-- The findings of the linter, if one is asked for. -/
def lintFindings (settings : Settings) (programs : Programs) :
    Except GatewayError (List Diagnostic) := do
  if settings.linter.isEmpty then return []
  match ← runTool settings programs settings.linter ["-p", "--nocolor", "."] with
  | some output => return lintDiagnostics output
  | none => return []

/-- The findings of the syntax check, if it is asked for. -/
def syntaxFindings (settings : Settings) (programs : Programs) :
    Except GatewayError (List Diagnostic) := do
  if !settings.syntaxCheck then return []
  match ← runTool settings programs "ansible-playbook" ["--syntax-check", "site.yml"] with
  | some output =>
    if output.success then return []
    else return [⟨.error, "syntax-check[failed]", lastLines 5 output.stderr, none⟩]
  | none => return []

/-- The fault of a role that cannot be copied for other programs below a directory that is new, if
it is one. -/
def copyFault? (scratch : String) (role : Role) : Option GatewayError :=
  match role.copyTo Disk.empty (Path.join scratch "roles/candidate") with
  | .ok _ => none
  | .error cause => some (.unavailable ("scratch copy: " ++ cause.message))

/-- The findings of other programs. -/
def externalFindings (settings : Settings) (programs : Programs) (scratch : String) (role : Role) :
    Except GatewayError (List Diagnostic) := do
  if settings.linter.isEmpty && !settings.syntaxCheck then return []
  if let some fault := copyFault? scratch role then throw fault
  return (← lintFindings settings programs) ++ (← syntaxFindings settings programs)

/-- The report on a role, which other programs find below a new directory. -/
def validate (settings : Settings) (programs : Programs) (scratch : String) (role : Role) :
    Except GatewayError Report := do
  return Report.ofDiagnostics
    (Check.role role ++ (← externalFindings settings programs scratch role))

end Check

end Rolewright
