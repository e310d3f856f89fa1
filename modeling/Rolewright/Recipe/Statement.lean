/-
# Statements

The forms of a single statement that extraction understands: heads of resources, properties,
assignments, inclusions and notifications. Each is recognised from the text alone.
-/

import Rolewright.Recipe.Declaration
import Rolewright.Recipe.Line
import Rolewright.Value.Parse

namespace Rolewright.Recipe

open Text

/-- Resource types that are known without a definition. -/
def builtinTypes : List String :=
  ["apt_package", "apt_repository", "apt_update", "archive_file", "bash", "chef_gem",
    "cookbook_file", "cron", "cron_d", "csh", "directory", "dnf_package", "execute", "file",
    "gem_package", "git", "group", "homebrew_package", "hostname", "http_request", "link",
    "locale", "log", "mount", "ohai", "package", "perl", "powershell_script", "python", "reboot",
    "remote_directory", "remote_file", "route", "ruby", "ruby_block", "script", "selinux_state",
    "service", "snap_package", "ssh_known_hosts_entry", "swap_file", "sysctl", "systemd_unit",
    "template", "timezone", "user", "yum_package", "yum_repository", "zypper_package"]

/-- Words that stand before an argument without naming a resource. -/
def nonResources : List String :=
  ["action", "action_class", "block", "converge_by", "define_method", "fail", "if",
    "include_recipe", "lambda", "lazy", "load_current_value", "loop", "not_if", "only_if", "p",
    "pp", "print", "proc", "property", "puts", "raise", "require", "require_relative", "return",
    "unless", "until", "while", "with_run_context"]

/-! ## A word and its argument -/

/-- What stands between the first bracket and the last one, on one line. -/
def parenthesized? (rest : List Char) : Option (List Char) :=
  match rest with
  | '(' :: inside =>
    match beforeSuffix? [')'] inside with
    | some argument => if argument.contains '\n' then none else some argument
    | none => none
  | _ => none

/-- The argument behind a word: in brackets up to the end, or after a blank. -/
def argument? (rest : List Char) : Option (List Char) :=
  let inner := trimStart rest
  match parenthesized? inner with
  | some argument => some argument
  | none =>
    if inner.length == rest.length || inner.isEmpty || inner.contains '\n' then none
    else some inner

/-- A resource type and its argument. What looks like an operator after the word makes it a
variable in an expression. -/
def resourceHeader? (text : List Char) : Option (String × List Char) := do
  let (word, rest) ← takeIdent isNameStart (fun c => c.isLower || c.isDigit || c == '_') text
  let argument := trim (← argument? rest)
  if argument.isEmpty || argument.head?.any "=.?+*/<|&-".toList.contains then none
  else some (String.ofList word, argument)

/-- A property and its argument. A lambda and a heredoc begin like operators and are none. -/
def property? (text : List Char) : Option (String × List Char) := do
  let (word, rest) ← takeIdent isNameStart isAsciiWord text
  let argument := trim (← argument? rest)
  if argument.head?.any "=+-*/<|&?.".toList.contains && !"->".toList.isPrefixOf argument &&
      !"<<".toList.isPrefixOf argument then none
  else some (String.ofList word, argument)

/-- The name of a resource, from the first of its arguments. A resource without a name gets one
from its type and line. -/
def resourceName (argument : List Char) (type : String) (line : Nat) : String :=
  let first := ((Value.split ',' argument).head?).getD []
  let name :=
    match Value.parse first with
    | .ref path => path
    | value =>
      match value.plainText? with
      | some text => text
      | none => String.ofList (((afterPrefix? ['"'] first).bind (beforeSuffix? ['"'])).getD first)
  if isBlankText name.toList then type ++ "@" ++ toString line else name

/-! ## Assignments and inclusions -/

/-- The words that may assign a node attribute. -/
def precedenceLevels : List (List Char) :=
  ["default", "override", "normal", "force_default", "force_override", "set", "default_unless",
    "set_unless", "normal_unless", "override_unless"].map String.toList

/-- The keys of one or more indices at the start, blanks before each allowed, and what follows. -/
def indexKeys? : Nat → List Char → Option (List (List Char) × List Char)
  | 0, _ => none
  | fuel + 1, cs =>
    match trimStart cs with
    | '[' :: inside =>
      let key := inside.takeWhile fun c => c != '[' && c != ']'
      match inside.drop key.length with
      | ']' :: after =>
        if key.isEmpty then none
        else
          match indexKeys? fuel after with
          | some (keys, rest) => some (key :: keys, rest)
          | none => some ([key], after)
      | _ => none
    | _ => none

/-- The right-hand side after an assignment sign, which may be a conditional one. -/
def afterAssign? (rest : List Char) : Option (List Char) :=
  let rest := trimStart rest
  match rest with
  | '=' :: value => some (trimStart value)
  | '|' :: '|' :: '=' :: value => some (trimStart value)
  | _ => none

/-- The right-hand side of an assignment on one line. A comparison, a match and an arrow only look
like one. -/
def assigned? (rest : List Char) : Option (List Char) := do
  let value ← afterAssign? rest
  if value.contains '\n' then none
  else
    let value := trim value
    if value.isEmpty || value.head?.any "=~>".toList.contains then none else some value

/-- The dotted path and the right-hand side of an assignment to a node attribute. -/
def attributeAssignment? (text : List Char) : Option (String × List Char) :=
  let body := withoutPrefix "node.".toList text
  precedenceLevels.findSome? fun level => do
    let rest ← afterPrefix? level body
    let (keys, rest) ← indexKeys? (rest.length + 1) rest
    let value ← assigned? rest
    let path ← keys.mapM Value.indexKey?
    return (String.intercalate "." path, value)

/-- The name and the right-hand side of an assignment to a local variable. -/
def variableAssignment? (text : List Char) : Option (String × List Char) := do
  let (name, rest) ← takeIdent isNameStart isAsciiWord text
  let value ← assigned? rest
  return (String.ofList name, value)

/-- A text between quotes of either kind, the closing one not checked against the opening one. -/
def looselyQuoted? (cs : List Char) : Option (List Char × List Char) :=
  match cs with
  | [] => none
  | q :: cs =>
    if q != '\'' && q != '"' then none
    else
      let text := cs.takeWhile fun c => c != '\'' && c != '"'
      match cs.drop text.length with
      | _ :: rest => some (text, rest)
      | [] => none

/-- The recipe that a statement includes. -/
def includedRecipe? (text : List Char) : Option String := do
  let rest := trimStart (← afterPrefix? "include_recipe".toList text)
  let (recipe, _) ← looselyQuoted? (trimStart (withoutPrefix ['('] rest))
  if recipe.isEmpty then none else some (String.ofList recipe)

/-! ## Heredoc values -/

/-- Whether a text is one heredoc opener, of any spelling. -/
def isHeredocToken (cs : List Char) : Bool :=
  match Heredoc.opener? cs with
  | some (_, _, _, size) => size == cs.length
  | none => false

/-- Whether a heredoc opens here, told by its flag or its quote alone. -/
def opensHeredoc : List Char → Bool
  | '<' :: '<' :: c :: _ => c == '~' || c == '-' || c == '\'' || c == '"'
  | _ => false

/-- How many heredocs are opened in a text once `skip` characters have passed. -/
def countOpeners : Nat → List Char → Nat
  | _, [] => 0
  | skip + 1, _ :: cs => countOpeners skip cs
  | 0, c :: cs => if opensHeredoc (c :: cs) then countOpeners 2 cs + 1 else countOpeners 0 cs

/-- The body that a heredoc opener stands for, when it is the whole argument. -/
def heredocValue? (line : Line) (argument : List Char) : Option Value :=
  let argument := trim argument
  if isHeredocToken argument then do
    let (before, _) ← splitAtFirst? argument line.text
    let body ← line.heredocs[countOpeners 0 before]?
    return .str (String.ofList body)
  else none

/-- The value of an argument of a line. -/
def argumentValue (line : Line) (argument : List Char) : Value :=
  (heredocValue? line argument).getD (Value.parse argument)

/-! ## Notifications and guards -/

/-- A text without the pair of equal quotes around it. -/
def withoutQuotes (cs : List Char) : List Char :=
  let strip (q : Char) := (afterPrefix? [q] cs).bind (beforeSuffix? [q])
  ((strip '"').or (strip '\'')).getD cs

/-- The resource that a call of `resources` at the start of a text names. -/
def resourcesCall? (cs : List Char) : Option String := do
  let rest := trimStart (← afterPrefix? "resources(".toList cs)
  let rest := withoutPrefix [':'] rest
  let type := rest.takeWhile fun c => c.isLower || c == '_'
  if type.isEmpty then none
  else
    let rest := trimStart (rest.drop type.length)
    let rest ← (afterPrefix? ['=', '>'] rest).or (afterPrefix? [':'] rest)
    let (name, rest) ← looselyQuoted? (trimStart rest)
    if name.isEmpty || (trimStart rest).head? != some ')' then none
    else some (String.ofList type ++ "[" ++ String.ofList name ++ "]")

/-- The resource that a notification goes to or comes from. -/
def edgeTarget (part : List Char) : String :=
  match Value.parse part with
  | .str text => text
  | _ => (searchFirst? resourcesCall? part).getD (String.ofList (withoutQuotes (trim part)))

/-- When a notification acts, by its third argument. -/
def edgeTiming (part : Option (List Char)) : Timing :=
  match part.bind fun part => (Value.parse part).asText? with
  | some word =>
    if word == "immediately" || word == "immediate" || word == "before" then .immediate
    else .delayed
  | none => .delayed

/-- A notification, from the arguments of its statement. -/
def edge? (kind : EdgeKind) (rest : List Char) : Option Edge :=
  let arguments := ((afterPrefix? ['('] rest).bind (beforeSuffix? [')'])).getD rest
  match Value.split ',' arguments with
  | action :: target :: others =>
    (Value.parse action).plainText?.map fun action =>
      ⟨edgeTarget target, action, edgeTiming others.head?, kind⟩
  | _ => none

/-- The condition of a guard that stands on its line: inside braces, in a string, or bare. -/
def guardExpression (rest : List Char) : String :=
  let rest := trim rest
  match (afterPrefix? ['\x7b'] rest).bind (beforeSuffix? ['\x7d']) with
  | some inside => String.ofList (trim inside)
  | none =>
    match Value.parse rest with
    | .str text => text
    | _ => String.ofList rest

end Rolewright.Recipe
