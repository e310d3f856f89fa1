/-
# Documents of rules

Rules as a document holds them: a list of records, or the older form of a map from resource types
to modules. A record that is no rule is left out and accounted for by a message; only a document of
another shape is a fault as a whole.
-/

import Rolewright.Json.Basic
import Rolewright.Mapping.Registry
import Rolewright.Text.Blank
import Rolewright.Text.Display

namespace Rolewright.Mapping

open Text

/-! ## Records -/

/-- What a value is, in the words of a message about a wrong one. -/
def kindOf : Json → String
  | .null => "null"
  | .bool b => "boolean \x60" ++ (if b then "true" else "false") ++ "\x60"
  | .int n => "integer \x60" ++ toString n ++ "\x60"
  | .float x => "floating point \x60" ++ Json.floatText x ++ "\x60"
  | .str text => "string " ++ display text
  | .arr _ => "sequence"
  | .obj _ => "map"

/-- The message that a value is not of the kind that is expected. -/
def wrongKind {α : Type} (json : Json) (expected : String) : Except String α :=
  .error ("invalid type: " ++ kindOf json ++ ", expected " ++ expected)

/-- A value that must be a text. -/
def asText : Json → Except String String
  | .str text => .ok text
  | other => wrongKind other "a string"

/-- A value that must be a map, by what its values must be. -/
def asEntries {α : Type} (item : Json → Except String α) : Json → Except String (Entries α)
  | .obj fields => fields.mapM fun (key, value) => do return (key, ← item value)
  | other => wrongKind other "a map"

/-- A value that must be a whole number of 32 bits. -/
def asPrecedence : Json → Except String Int
  | .int n =>
    if -(Int.pow 2 31) ≤ n && n < Int.pow 2 31 then .ok n
    else .error ("invalid value: integer \x60" ++ toString n ++ "\x60, expected i32")
  | other => wrongKind other "i32"

/-- A table of replacements for the values of properties. -/
def asTransforms : Json → Except String (Entries (Entries String)) :=
  asEntries (asEntries asText)

/-- A rule of which some fields are known. -/
structure PartialRule where
  source : Option String
  target : Option String
  rest : Rule

namespace PartialRule

/-- A rule of which nothing is known. -/
def empty : PartialRule := ⟨none, none, .plain "" ""⟩

/-- The rule with one more field. Fields of other names do not matter. -/
def withField (rule : PartialRule) (field : String × Json) : Except String PartialRule := do
  let (name, value) := field
  if name = "source_type" then return { rule with source := some (← asText value) }
  else if name = "target_primitive" then return { rule with target := some (← asText value) }
  else if name = "property_renames" then
    return { rule with rest := { rule.rest with renames := ← asEntries asText value } }
  else if name = "value_transforms" then
    return { rule with rest := { rule.rest with transforms := ← asTransforms value } }
  else if name = "precedence" then
    return { rule with rest := { rule.rest with precedence := ← asPrecedence value } }
  else return rule

/-- The rule, once its source and its target are known. -/
def finish (rule : PartialRule) (missing : String → String) : Except String Rule :=
  match rule.source, rule.target with
  | none, _ => .error (missing "source_type")
  | _, none => .error (missing "target_primitive")
  | some source, some target => .ok { rule.rest with source, target }

end PartialRule

/-- The fields of a rule, in the order in which a list gives them. -/
def fieldNames : List String :=
  ["source_type", "target_primitive", "property_renames", "value_transforms", "precedence"]

/-- The rule that a record spells: a map of fields, or a list of their values. -/
def recordRule (record : Json) : Except String Rule := do
  match record with
  | .obj fields =>
    let rule ← fields.foldlM PartialRule.withField .empty
    rule.finish fun name => "missing field \x60" ++ name ++ "\x60"
  | .arr items =>
    let rule ← (fieldNames.zip items).foldlM PartialRule.withField .empty
    let rule ← rule.finish fun _ =>
      "invalid length " ++ toString items.length ++ ", expected struct MappingRule with 5 elements"
    if fieldNames.length < items.length then
      throw ("invalid length " ++ toString items.length ++ ", expected fewer elements in array")
    return rule
  | other => wrongKind other "struct MappingRule"

/-! ## The older form -/

/-- The text that replaces a value: a text as it is, anything else as it is written. -/
def replacementText : Json → String
  | .str text => text
  | other => other.compact

/-- A rule with the replacements for the values of a property. -/
def withTable (rule : Rule) (property : String) (table : Json) : Except String Rule :=
  match table with
  | .obj fields =>
    .ok (rule.transform property (fields.map fun (raw, target) => (raw, replacementText target)))
  | _ => .error ("value_mapping for \x60" ++ property ++ "\x60 must be a map")

/-- A rule with one entry of the map of its properties. -/
def withProperty (rule : Rule) (field : String × Json) : Except String Rule :=
  let (property, value) := field
  if property = "value_mapping" then
    match value with
    | .obj tables => tables.foldlM (fun rule (name, table) => withTable rule name table) rule
    | _ => .error "\x60value_mapping\x60 must be a map"
  else
    match value with
    | .str name => .ok (rule.rename property name)
    | _ => .error ("rename target for \x60" ++ property ++ "\x60 must be a string")

/-- The rule of a resource type in the older form. The precedence is read only if there is a map of
properties. -/
def olderRule (type : String) (entry : Json) : Except String Rule := do
  let named := (entry.field? "ansible_module").or (entry.field? "target_primitive")
  let some target := named.bind Json.asString?
    | throw "missing \x60ansible_module\x60"
  let rule := Rule.plain type target
  match entry.field? "property_mapping" with
  | none => return rule
  | some (.obj fields) =>
    let rule ← fields.foldlM withProperty rule
    match (entry.field? "precedence").bind Json.asInt64? with
    | some n =>
      if -(Int.pow 2 31) ≤ n && n < Int.pow 2 31 then return { rule with precedence := n }
      else throw "precedence out of range"
    | none => return rule
  | some _ => throw "\x60property_mapping\x60 must be a map"

/-! ## Documents -/

/-- Whether a rule can be used: it has a source and a target, and a pattern that can be read. -/
def checkRule (rule : Rule) : Except String Rule :=
  if isBlankText rule.source.toList then .error "empty source_type"
  else if isBlankText rule.target.toList then .error "empty target_primitive"
  else if isWildcard rule.source then
    match Pattern.read rule.source with
    | .ok _ => .ok rule
    | .error fault => .error fault.message
  else .ok rule

/-- A record of a document: how messages call it, and the rule that it spells. -/
structure Candidate where
  label : String
  rule : Except String Rule

/-- The records of a list. -/
def recordCandidates (records : List Json) : List Candidate :=
  records.zipIdx.map fun (record, i) =>
    { label := ((record.field? "source_type").bind Json.asString?).getD
        ("record #" ++ toString (i + 1))
      rule := recordRule record }

/-- The records of a document. -/
def candidates : Json → Except String (List Candidate)
  | .arr records => .ok (recordCandidates records)
  | .obj fields =>
    match Entries.get? fields "rules" with
    | some (.arr records) => .ok (recordCandidates records)
    | some _ => .error "\x60rules\x60 must be a list"
    | none => .ok (fields.map fun (type, entry) => ⟨type, olderRule type entry⟩)
  | .null => .ok []
  | _ => .error "expected a list of rules or a map of resource types"

/-- What a document gave: its rules, and a message for every record that was left out. -/
structure Loaded where
  rules : List Rule
  skipped : List String
deriving DecidableEq, Repr

/-- What was loaded, with one more record. -/
def Loaded.add (loaded : Loaded) (candidate : Candidate) : Loaded :=
  match candidate.rule.bind checkRule with
  | .ok rule => { loaded with rules := loaded.rules ++ [rule] }
  | .error reason =>
    { loaded with skipped := loaded.skipped ++ [candidate.label ++ ": " ++ reason] }

/-- The rules of a document. -/
def loadDocument (document : Json) : Except String Loaded := do
  return (← candidates document).foldl Loaded.add ⟨[], []⟩

/-- Rules with those that were loaded behind them. What could not be loaded adds none. -/
def extend {ε : Type} (rules : List Rule) (outcome : Except ε Loaded) :
    List Rule × Except ε Loaded :=
  match outcome with
  | .ok loaded => (rules ++ loaded.rules, outcome)
  | .error _ => (rules, outcome)

/-- Adds the rules of a document to those that are there. -/
def addDocument (rules : List Rule) (document : Json) : List Rule × Except String Loaded :=
  extend rules (loadDocument document)

end Rolewright.Mapping
