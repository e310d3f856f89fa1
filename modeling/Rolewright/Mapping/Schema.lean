/-
# The schema of a mapping rule

A JSON Schema for one rule in a document of rules.
-/

import Rolewright.Json.Basic

namespace Rolewright.Mapping

/-- The schema of a text. -/
def textSchema : Json :=
  .obj [("type", .str "string")]

/-- The schema of an object whose fields have a schema in common. -/
def tableSchema (fields : Json) : List (String × Json) :=
  [("type", .str "object"), ("additionalProperties", fields)]

/-- A schema with the value that stands for a missing field. -/
def withDefault (value : Json) (schema : List (String × Json)) : Json :=
  .obj (("default", value) :: schema)

/-- What a rule does, as its schema describes it. -/
def ruleDescription : String :=
  "Translates one source resource type into a target primitive.\n\n" ++
  "\x60source_type\x60 may contain glob wildcards (\x60mysql_*\x60). Renames apply to property " ++
  "keys; unknown properties pass through unchanged. Value transforms are keyed by the *source* " ++
  "property name and map the lowercased scalar value to a replacement."

/-- The schema of a rule. -/
def ruleSchema : Json :=
  .obj [
    ("$schema", .str "http://json-schema.org/draft-07/schema#"),
    ("title", .str "MappingRule"),
    ("description", .str ruleDescription),
    ("type", .str "object"),
    ("required", .ofTexts ["source_type", "target_primitive"]),
    ("properties", .obj [
      ("precedence", .obj [
        ("description", .str "Higher wins among rules of equal specificity."),
        ("default", .int 0),
        ("type", .str "integer"),
        ("format", .str "int32")]),
      ("property_renames", withDefault (.obj []) (tableSchema textSchema)),
      ("source_type", textSchema),
      ("target_primitive", textSchema),
      ("value_transforms", withDefault (.obj []) (tableSchema (.obj (tableSchema textSchema))))])]

end Rolewright.Mapping
