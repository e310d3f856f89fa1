/-
# Checking a role

The checks that need no other program: the files that a role must have, the syntax of its YAML
files, the shape of its tasks and handlers, full names of modules, names of tasks, and handlers for
all notifications.
-/

import Rolewright.Check.Report
import Rolewright.Failure
import Rolewright.Role.Basic
import Rolewright.Yaml.Document

namespace Rolewright.Check

/-- The files that every role has. -/
def requiredFiles : List String :=
  ["tasks/main.yml", "meta/main.yml"]

/-- The keys of a task that are not names of modules. -/
def taskKeywords : List String :=
  ["name", "when", "notify", "register", "become", "become_user", "become_method", "tags", "loop",
    "loop_control", "vars", "ignore_errors", "changed_when", "failed_when", "block", "rescue",
    "always", "listen", "delegate_to", "environment", "args", "no_log", "until", "retries",
    "delay", "run_once", "check_mode", "diff", "any_errors_fatal", "collections", "debugger",
    "throttle", "timeout", "module_defaults", "local_action", "action", "ignore_unreachable",
    "delegate_facts", "connection", "port", "remote_user"]

/-- Whether a key of a task names a module. -/
def isModule (key : String) : Bool :=
  !taskKeywords.contains key && !"with_".toList.isPrefixOf key.toList

/-- The sections of a task that hold tasks of their own. -/
def blockSections : List String :=
  ["block", "rescue", "always"]

/-- The texts of a text or of a list of texts. -/
def texts : Yaml → List String
  | .str text => [text]
  | .seq items => items.filterMap Yaml.asText?
  | _ => []

/-- A notification: the handler that it names, and the task that sends it. -/
structure Notification where
  target : String
  location : String
deriving DecidableEq, Repr

/-- What a check of tasks gathers. -/
structure Findings where
  diagnostics : List Diagnostic
  notifications : List Notification
deriving DecidableEq, Repr

namespace Findings

/-- Nothing found. -/
def none : Findings := ⟨[], []⟩

/-- The findings of two checks, one after the other. -/
def append (a b : Findings) : Findings :=
  ⟨a.diagnostics ++ b.diagnostics, a.notifications ++ b.notifications⟩

instance : Append Findings := ⟨append⟩

end Findings

/-- The place of the task number `index` of a list, counted from zero. -/
def numbered (place : String) (index : Nat) : String :=
  place ++ "#" ++ toString (index + 1)

/-- The findings on the keys of a task. -/
def keyDiagnostics (location : String) (keys : List String) : List Diagnostic :=
  let isBlock := keys.contains "block"
  let modules := keys.filter isModule
  let acts := !modules.isEmpty || keys.contains "action" || keys.contains "local_action"
  let unnamed :=
    if isBlock || keys.contains "name" then []
    else [Diagnostic.warning "name[missing]" "all tasks should be named" location]
  let idle :=
    if isBlock || acts then [] else [.error "schema[tasks]" "task has no module" location]
  let crowded :=
    if modules.length ≤ 1 then []
    else
      [.error "schema[tasks]"
        ("task calls more than one module: " ++ String.intercalate ", " modules) location]
  let short := (modules.filter fun name => !name.toList.contains '.').map fun name =>
    .warning "fqcn[action]"
      ("use the fully-qualified collection name for '" ++ name ++
        "' (for example ansible.builtin." ++ name ++ ")") location
  unnamed ++ idle ++ crowded ++ short

/-- The findings on a task itself. -/
def ownFindings (location : String) (task : Yaml) : Findings :=
  match task.asMap? with
  | .none => .none
  | some entries =>
    let keys := entries.filterMap fun entry => entry.1.asText?
    let targets := ((task.field? "notify").map texts).getD []
    ⟨keyDiagnostics location keys, targets.map fun target => ⟨target, location⟩⟩

/-- The findings on a task and on the tasks inside it. -/
def taskFindings (location : String) (task : Yaml) : Findings :=
  let inside := blockSections.flatMap fun name =>
    match _found : task.field? name with
    | some (.seq items) =>
      items.attach.zipIdx.map fun (item, i) =>
        taskFindings (numbered (location ++ "/" ++ name) i) item.1
    | _ => []
  inside.foldl (· ++ ·) (ownFindings location task)
termination_by sizeOf task
decreasing_by
  have whole := Yaml.sizeOf_field? _found
  have part := List.sizeOf_lt_of_mem item.2
  simp at whole
  omega

/-- The names under which a handler can be notified. -/
def handlerNames (handler : Yaml) : List String :=
  ["name", "listen"].flatMap fun key => ((handler.field? key).map texts).getD []

/-- The tasks of a document, each with its place, and the findings on its shape. -/
def taskList (path : String) : Yaml → List (String × Yaml) × List Diagnostic
  | .null => ([], [])
  | .seq items =>
    let tasks := items.filter fun item => item.asMap?.isSome
    let strays := items.zipIdx.filter fun entry => entry.1.asMap?.isNone
    (tasks.zipIdx.map fun (task, i) => (numbered path i, task),
      strays.map fun (_, i) =>
        .error "schema[tasks]" "each task must be a mapping" (numbered path i))
  | _ => ([], [.error "schema[tasks]" "task file must be a list of tasks" path])

/-- Whether a path ends like that of a YAML file. -/
def isYamlFile (path : String) : Bool :=
  ".yml".toList.isSuffixOf path.toList || ".yaml".toList.isSuffixOf path.toList

/-- Whether a file lies below a directory. -/
def isBelow (directory path : String) : Bool :=
  directory.toList.isPrefixOf path.toList

/-- What the check of one file gives: findings, and the handlers that it defines. -/
structure FileFindings where
  findings : Findings
  handlers : List String

/-- What reads the documents of a role. -/
abbrev Reader := List Char → Except Yaml.Fault Yaml

/-- The check of one file of a role. -/
def fileFindings (read : Reader) (path content : String) : FileFindings :=
  if !isYamlFile path then ⟨.none, []⟩
  else
    match read content.toList with
    | .error fault =>
      let location := match fault.line with
        | some line => path ++ ":" ++ toString line
        | .none => path
      ⟨⟨[.error "yaml[syntax]" readerMessage location], []⟩, []⟩
    | .ok document =>
      let isHandlers := isBelow "handlers/" path
      if !isHandlers && !isBelow "tasks/" path then ⟨.none, []⟩
      else
        let (tasks, shape) := taskList path document
        let found := tasks.map fun (location, task) => taskFindings location task
        ⟨found.foldl (· ++ ·) ⟨shape, []⟩,
          if isHandlers then tasks.flatMap fun (_, task) => handlerNames task else []⟩

/-- The findings of the checks of a role, whatever reads its documents. -/
def roleRead (read : Reader) (role : Role) : List Diagnostic :=
  let missing := (requiredFiles.filter fun path => !role.contains path).map fun path =>
    Diagnostic.error "required-file[missing]" (path ++ " is missing") path
  let files := role.files.map fun (path, content) => fileFindings read path content
  let found := (files.map (·.findings)).foldl (· ++ ·) Findings.none
  let handlers := files.flatMap (·.handlers)
  let lost := found.notifications.filter fun n => !handlers.contains n.target
  missing ++ found.diagnostics ++ lost.map fun n =>
    .error "notify[missing-handler]"
      ("notify target '" ++ n.target ++ "' matches no handler name or listen") n.location

/-- The findings of the checks of a role. -/
def role (role : Role) : List Diagnostic :=
  roleRead Yaml.read role

end Rolewright.Check
