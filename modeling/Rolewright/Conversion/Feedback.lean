/-
# Feedback

What a generator is told about an answer that was not accepted. The findings of the latest report
that block are grouped by category, one item each; what earlier reports said only marks a category
as recurring or as resolved. A report without such findings gives one general instruction.
-/

import Rolewright.Check.Report

namespace Rolewright

/-- What is told about the findings of one category. -/
structure FeedbackItem where
  category : String
  /-- The worst of the findings. -/
  severity : Severity
  occurrences : Nat
  /-- The first distinct places, in the order of the report. -/
  locations : List String
  /-- The first distinct messages, in the order of the report. -/
  messages : List String
  instruction : String
  /-- Whether an earlier attempt was told about the category too. -/
  recurring : Bool
deriving DecidableEq, Repr

/-- What a generator is told about an attempt. -/
structure Feedback where
  /-- The number of the attempt. -/
  attempt : Nat
  /-- One item for each category, in the order of the categories. -/
  items : List FeedbackItem
  /-- Categories that blocked the attempt before and do so no more. -/
  resolved : List String
  /-- Whether there is nothing particular to tell. -/
  generic : Bool
deriving DecidableEq, Repr

/-- An attempt as feedback looks back on it. -/
structure Review where
  /-- The number of the attempt. -/
  attempt : Nat
  /-- What was found, if an answer came. -/
  report : Option Report
deriving DecidableEq, Repr

namespace Feedback

/-- What is told when there is nothing particular to tell. -/
def genericInstruction : String :=
  "The previous output was rejected without usable diagnostics. Retry with stricter defaults: " ++
    "fully-qualified module names, a name on every task, explicit state on every module, and " ++
    "each file in its own path= fenced block."

/-- How many places an item names at most. -/
def locationLimit : Nat := 8

/-- How many messages an item gives at most. -/
def messageLimit : Nat := 5

/-- What to do about the categories that are known. -/
def instructions : List (String × String) := [
  ("yaml",
    "Emit syntactically valid YAML: two-space indentation, no tabs, and quote any value that " ++
      "starts with '\x7b\x7b' or contains ': '."),
  ("fqcn",
    "Use fully-qualified collection names for every module (ansible.builtin.package, not " ++
      "package)."),
  ("name", "Give every task and handler a short descriptive name."),
  ("notify",
    "Every notify entry must equal the name (or a listen topic) of a handler defined in " ++
      "handlers/main.yml."),
  ("required-file", "Always include tasks/main.yml and meta/main.yml in the output."),
  ("schema",
    "Task and handler files must be YAML lists of mappings, each task calling exactly one module."),
  ("output",
    "Put every file in its own fenced block whose info string is \x60yaml path=<relative path " ++
      "inside the role>\x60."),
  ("syntax-check",
    "The role must pass ansible-playbook --syntax-check; fix the reported errors."),
  ("no-changed-when", "Add changed_when, creates or removes to every command and shell task."),
  ("risky-file-permissions", "Set an explicit mode on every file, copy and template task."),
  ("var-naming", "Variable names must be lowercase snake_case and prefixed with the role name."),
  ("jinja", "Use spaces inside Jinja delimiters: \x7b\x7b var \x7d\x7d."),
  ("no-free-form", "Pass module arguments as a mapping instead of the free-form string."),
  ("lint",
    "ansible-lint failed to process the role; make sure every file is valid YAML with the " ++
      "standard role layout.")]

/-- What to do about a category. -/
def instruction (category : String) : String :=
  (instructions.lookup category).getD ("Fix every reported " ++ category ++ " issue.")

/-- The first distinct texts of a list, at most so many. -/
def firstDistinct (limit : Nat) (texts : List String) : List String :=
  texts.eraseDups.take limit

/-- A text put in its place among others in order, unless it is there. -/
def insertSorted (text : String) : List String → List String
  | [] => [text]
  | t :: rest =>
    if text < t then text :: t :: rest
    else if t < text then t :: insertSorted text rest
    else t :: rest

/-- The categories that block, in order. -/
def blockedCategories (report : Report) : List String :=
  (report.blocking.map (·.category)).foldr insertSorted []

/-- What is told about the findings of a category. -/
def item (findings : List Diagnostic) (recurring : Bool) (category : String) : FeedbackItem :=
  { category
    severity := findings.foldl (fun worst d => worst.worse d.severity) .info
    occurrences := findings.length
    locations := firstDistinct locationLimit (findings.filterMap (·.location))
    messages := firstDistinct messageLimit (findings.map (·.message))
    instruction := instruction category
    recurring }

/-- What is told when there is nothing particular to tell about an attempt. -/
def general (attempt : Nat) : Feedback :=
  ⟨attempt, [], [], true⟩

/-- What a generator is told about a report, given all attempts so far. The feedback bears the
number of the last of them. -/
def ofReport (report : Report) (history : List Review) : Feedback :=
  let attempt := (history.getLast?.map (·.attempt)).getD 1
  let categories := blockedCategories report
  if categories.isEmpty then general attempt
  else
    let blocked (earlier : Review) : List String :=
      (earlier.report.map blockedCategories).getD []
    let earlier := history.dropLast
    let known := earlier.flatMap blocked
    let previous := (earlier.getLast?.map blocked).getD []
    { attempt
      items := categories.map fun category =>
        item (report.blocking.filter (·.category == category)) (known.contains category) category
      resolved := previous.filter fun category => !categories.contains category
      generic := false }

/-- The categories that feedback is about. -/
def categories (f : Feedback) : List String :=
  f.items.map (·.category)

/-! ## Wording -/

/-- The wording of an item. -/
def itemText (item : FeedbackItem) : String :=
  let age := if item.recurring then "recurring" else "new"
  let plural := if item.occurrences = 1 then "" else "s"
  let again :=
    if item.recurring then
      "This was reported before and is still present; change the approach.\n"
    else ""
  let places :=
    if item.locations.isEmpty then ""
    else "Where: " ++ String.intercalate ", " item.locations ++ "\n"
  "\n## " ++ item.category ++ " (" ++ item.severity.word ++ " " ++ age ++ ", " ++
    toString item.occurrences ++ " occurrence" ++ plural ++ ")\n" ++
    "Fix: " ++ item.instruction ++ "\n" ++ again ++ places ++
    String.join (item.messages.map fun message => "- " ++ message ++ "\n")

/-- The wording of feedback. -/
def text (f : Feedback) : String :=
  let opening := "The output of attempt " ++ toString f.attempt ++ " failed validation. Return " ++
    "the COMPLETE corrected role, every file again.\n"
  if f.generic then opening ++ genericInstruction ++ "\n"
  else
    let resolved :=
      if f.resolved.isEmpty then ""
      else
        "\nAlready fixed, leave that code as it is: " ++ String.intercalate ", " f.resolved ++ "\n"
    opening ++ String.join (f.items.map itemText) ++ resolved

end Feedback

end Rolewright
