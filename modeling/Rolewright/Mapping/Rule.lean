/-
# Mapping rules

How a resource of one type becomes a call of a module: which module it is, how its properties are
renamed, and which of their values are replaced. What a rule does not mention passes unchanged.
-/

import Rolewright.Mapping.Pattern
import Rolewright.Value.Basic

namespace Rolewright.Mapping

/-- A rule for the resources of a type, or of the types that a pattern matches. -/
structure Rule where
  source : String
  target : String
  renames : Entries String
  /-- For a property as the resource names it: for values in lower case their replacements. -/
  transforms : Entries (Entries String)
  /-- Decides between rules that are equally specific. -/
  precedence : Int
deriving DecidableEq, Repr, Inhabited

namespace Rule

/-- A rule that only names a module. -/
def plain (source target : String) : Rule :=
  ⟨source, target, [], [], 0⟩

/-- The rule with one more property renamed. -/
def rename (rule : Rule) (property name : String) : Rule :=
  { rule with renames := rule.renames.put property name }

/-- The rule with replacements for more values of a property. -/
def transform (rule : Rule) (property : String) (table : List (String × String)) : Rule :=
  let known := (rule.transforms.get? property).getD []
  let extended := table.foldl
    (fun entries (raw, target) => Entries.put entries (Text.lowerString raw) target) known
  { rule with transforms := rule.transforms.put property extended }

/-- The name of a property after renaming. -/
def renamed (rule : Rule) (property : String) : String :=
  (rule.renames.get? property).getD property

/-- The value of a property after replacement. -/
def transformed (rule : Rule) (property : String) (value : Value) : Value :=
  let replacement := do
    let table ← rule.transforms.get? property
    table.get? (← value.lookupKey?)
  match replacement with
  | some text => .str text
  | none => value

/-- The arguments of a module for the properties of a resource. -/
def apply (rule : Rule) (properties : Entries Value) : Entries Value :=
  Entries.ofPairs (properties.map fun (property, value) =>
    (rule.renamed property, rule.transformed property value))

/-- A value is replaced by what the table of its property has under its key. -/
theorem transformed_eq (rule : Rule) (property : String) (value : Value) :
    rule.transformed property value =
      ((rule.transforms.get? property).bind fun table =>
        value.lookupKey?.bind table.get?).elim value .str := by
  have replacement : (do
      let table ← rule.transforms.get? property
      table.get? (← value.lookupKey?)) =
        (rule.transforms.get? property).bind fun table => value.lookupKey?.bind table.get? := rfl
  rw [transformed, replacement]
  cases (rule.transforms.get? property).bind fun table => value.lookupKey?.bind table.get? <;> rfl

end Rule

/-- A call of a module. -/
structure Invocation where
  primitive : String
  arguments : Entries Value
  /-- The source type of the rule that led here. -/
  rule : String
deriving Repr, BEq

/-- What becomes of a resource. -/
inductive Resolution where
  | mapped (invocation : Invocation)
  | unmapped
deriving Repr, BEq

/-- Whether a rule was found. -/
def Resolution.isMapped : Resolution → Bool
  | .mapped _ => true
  | .unmapped => false

end Rolewright.Mapping
