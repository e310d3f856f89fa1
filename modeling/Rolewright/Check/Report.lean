/-
# Reports

What a check of a role found. A finding has a code of the form `category[detail]`; warnings and
errors block a role, remarks do not. A report is clean when the checker agrees and nothing blocks.
-/

import Rolewright.Text.Blank

namespace Rolewright

/-- How bad a finding is. -/
inductive Severity where
  | info
  | warning
  | error
deriving DecidableEq, Repr

namespace Severity

/-- The place of a severity in their order. -/
def rank : Severity → Nat
  | .info => 0
  | .warning => 1
  | .error => 2

/-- The word for a severity. -/
def word : Severity → String
  | .info => "info"
  | .warning => "warning"
  | .error => "error"

/-- The worse of two severities. -/
def worse (a b : Severity) : Severity :=
  if a.rank < b.rank then b else a

/-- Whether a finding of this severity keeps a role from being accepted. -/
def isBlocking (s : Severity) : Bool :=
  Severity.warning.rank ≤ s.rank

end Severity

/-- A finding. -/
structure Diagnostic where
  severity : Severity
  code : String
  message : String
  location : Option String
deriving DecidableEq, Repr

namespace Diagnostic

/-- An error at a place. -/
def error (code message location : String) : Diagnostic :=
  ⟨.error, code, message, some location⟩

/-- A warning at a place. -/
def warning (code message location : String) : Diagnostic :=
  ⟨.warning, code, message, some location⟩

/-- The code up to its bracket. -/
def category (d : Diagnostic) : String :=
  let code := Text.trim d.code.toList
  let category := Text.trim (code.takeWhile (· != '['))
  if category.isEmpty then "unknown" else String.ofList category

/-- Whether the finding keeps a role from being accepted. -/
def isBlocking (d : Diagnostic) : Bool :=
  d.severity.isBlocking

/-- The finding on one line. -/
def text (d : Diagnostic) : String :=
  let place := match d.location with
    | some location => " " ++ location
    | none => ""
  d.severity.word ++ " " ++ d.code ++ place ++ ": " ++ d.message

end Diagnostic

/-- The findings of a check, and whether the checker accepts the role. -/
structure Report where
  ok : Bool
  diagnostics : List Diagnostic
deriving DecidableEq, Repr

namespace Report

/-- A report without findings. -/
def clean : Report := ⟨true, []⟩

/-- The report of some findings: the role is accepted unless one is an error. -/
def ofDiagnostics (diagnostics : List Diagnostic) : Report :=
  ⟨!diagnostics.any (·.severity = .error), diagnostics⟩

/-- The findings that block. -/
def blocking (r : Report) : List Diagnostic :=
  r.diagnostics.filter (·.isBlocking)

/-- Whether the role is accepted and nothing blocks. -/
def isClean (r : Report) : Bool :=
  r.ok && r.blocking.isEmpty

/-- A report is clean when it is accepted and holds remarks only. -/
theorem isClean_iff {r : Report} :
    r.isClean = true ↔ r.ok = true ∧ ∀ d ∈ r.diagnostics, d.isBlocking = false := by
  simp [isClean, blocking]

end Report

end Rolewright
