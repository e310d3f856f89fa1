/-
# What becomes of the properties of a resource

A rule gives every property a name and a value: the name that it is renamed to, and the value that
its table lists for its own. All of them go into one map, so that what is lost turns on the names
alone: every property arrives exactly if no two of them come to one name (`keepsProperties_iff`).
Which of them the rule renames does not matter for that; a property that the rule does not mention
loses its value to one that is renamed to its name.
-/

import Rolewright.Mapping.Rule
import Rolewright.Proofs.Entries

namespace Rolewright.Mapping.Rule

variable {rule : Rule} {property name : String} {value replacement : Value}

/-! ## One property -/

/-- The name that a property is to have. -/
inductive Renames (rule : Rule) (property : String) : String → Prop
  | renamed {name : String} (found : rule.renames.get? property = some name) :
      Renames rule property name
  | kept (unnamed : property ∉ rule.renames.keys) : Renames rule property property

/-- The value that a property is to have: a text if the table of the property lists one for the key
of its value, and the value itself otherwise. -/
inductive Replaces (rule : Rule) (property : String) (value : Value) : Value → Prop
  | listed {table : Entries String} {key text : String}
      (tabled : rule.transforms.get? property = some table)
      (keyed : value.lookupKey? = some key) (found : table.get? key = some text) :
      Replaces rule property value (.str text)
  | kept (unlisted : ∀ table key, rule.transforms.get? property = some table →
      value.lookupKey? = some key → key ∉ table.keys) : Replaces rule property value value

/-- A property has one name. -/
theorem renames_iff : rule.Renames property name ↔ rule.renamed property = name := by
  unfold renamed
  constructor
  · rintro (found | unnamed)
    · rw [found, Option.getD_some]
    · rw [Entries.get?_eq_none unnamed, Option.getD_none]
  · rintro rfl
    cases found : rule.renames.get? property with
    | some name => exact .renamed found
    | none =>
        refine .kept fun member => ?_
        obtain ⟨name, here⟩ := Entries.exists_get?_eq member
        cases found.symm.trans here

/-- A property has one value. -/
theorem replaces_iff :
    rule.Replaces property value replacement ↔ rule.transformed property value = replacement := by
  rw [transformed_eq]
  constructor
  · rintro (⟨tabled, keyed, found⟩ | unlisted)
    · rw [tabled, Option.bind_some, keyed, Option.bind_some, found, Option.elim_some]
    · cases tabled : rule.transforms.get? property with
      | none => rfl
      | some table =>
          cases keyed : value.lookupKey? with
          | none => rfl
          | some key =>
              rw [Option.bind_some, Option.bind_some,
                Entries.get?_eq_none (unlisted table key tabled keyed), Option.elim_none]
  · rintro rfl
    cases tabled : rule.transforms.get? property with
    | none => exact .kept fun table _ here => by cases tabled.symm.trans here
    | some table =>
        cases keyed : value.lookupKey? with
        | none => exact .kept fun _ key _ here => by cases keyed.symm.trans here
        | some key =>
            rw [Option.bind_some, Option.bind_some]
            cases found : table.get? key with
            | some text => exact .listed tabled keyed found
            | none =>
                refine .kept fun table' key' tabled' keyed' member => ?_
                obtain rfl := Option.some.inj (tabled.symm.trans tabled')
                obtain rfl := Option.some.inj (keyed.symm.trans keyed')
                obtain ⟨text, here⟩ := Entries.exists_get?_eq member
                cases found.symm.trans here

/-! ## All properties -/

/-- No property of a resource is lost. -/
structure KeepsProperties (rule : Rule) (properties : Entries Value) : Prop where
  count : (rule.apply properties).length = properties.length
  /-- Each arrives under the name and with the value that it is to have. -/
  holds : ∀ property value, (property, value) ∈ properties → ∃ name replacement,
    rule.Renames property name ∧ rule.Replaces property value replacement ∧
      (rule.apply properties).get? name = some replacement
  /-- One that the rule does not mention arrives as it is. -/
  untouched : ∀ property value, (property, value) ∈ properties →
    property ∉ rule.renames.keys → property ∉ rule.transforms.keys →
    (rule.apply properties).get? property = some value

theorem map_fst_arguments (rule : Rule) (properties : Entries Value) :
    (properties.map fun entry => (rule.renamed entry.1, rule.transformed entry.1 entry.2)).map
      (·.1) = properties.keys.map rule.renamed := by
  rw [Entries.keys, List.map_map, List.map_map]
  rfl

/-- There are as many arguments as properties just when no two of these come to one name. -/
theorem length_apply_eq_iff {properties : Entries Value} :
    (rule.apply properties).length = properties.length ↔
      (properties.keys.map rule.renamed).Nodup := by
  rw [← map_fst_arguments, ← Entries.length_ofPairs_eq_iff, List.length_map]
  rfl

/-- Where names stay apart each property arrives with its own value. -/
theorem get?_apply_of_mem {properties : Entries Value}
    (apart : (properties.keys.map rule.renamed).Nodup) (held : (property, value) ∈ properties) :
    (rule.apply properties).get? (rule.renamed property) =
      some (rule.transformed property value) := by
  rw [← map_fst_arguments] at apart
  have whole : rule.apply properties = properties.map fun entry =>
      (rule.renamed entry.1, rule.transformed entry.1 entry.2) := Entries.ofPairs_of_nodup apart
  rw [whole]
  exact Entries.get?_of_mem apart (List.mem_map.mpr ⟨_, held, rfl⟩)

/-- No property of a resource is lost exactly if no two of them come to one name. -/
theorem keepsProperties_iff {properties : Entries Value} (distinct : properties.keys.Nodup) :
    rule.KeepsProperties properties ↔
      ∀ property ∈ properties.keys, ∀ other ∈ properties.keys, ∀ name,
        rule.Renames property name → rule.Renames other name → property = other := by
  simp only [renames_iff]
  constructor
  · intro keeps property member other member' name same same'
    have nodup := length_apply_eq_iff.mp keeps.count
    exact List.inj_on_of_nodup_map nodup member member' (same.trans same'.symm)
  · intro apart
    have nodup : (properties.keys.map rule.renamed).Nodup :=
      distinct.map_on fun property member other member' same =>
        apart property member other member' _ same rfl
    refine ⟨length_apply_eq_iff.mpr nodup, fun property value held => ?_, ?_⟩
    · exact ⟨_, _, renames_iff.mpr rfl, replaces_iff.mpr rfl, get?_apply_of_mem nodup held⟩
    · intro property value held unnamed untabled
      have name : rule.renamed property = property := renames_iff.mp (.kept unnamed)
      have same : rule.transformed property value = value := by
        refine replaces_iff.mp (.kept fun table _ tabled => ?_)
        rw [Entries.get?_eq_none untabled] at tabled
        cases tabled
      have arrives := get?_apply_of_mem nodup held
      rwa [name, same] at arrives

/-- A rule that renames two properties and replaces values of one of them. -/
def databaseRule : Rule :=
  Rule.plain "mysql_database" "community.mysql.mysql_db" |>.rename "database_name" "name"
    |>.rename "action" "state" |>.transform "action" [("create", "present"), ("drop", "absent")]

/-- Properties that come to names of their own. -/
def databaseProperties : Entries Value :=
  [("database_name", .str "app"), ("encoding", .str "utf8"), ("action", .sym "Create")]

/-- All three arrive. -/
theorem keepsProperties_databaseProperties :
    databaseProperties.keys.Nodup ∧ databaseRule.KeepsProperties databaseProperties := by
  have distinct : databaseProperties.keys.Nodup := by decide
  refine ⟨distinct, (keepsProperties_iff distinct).mpr ?_⟩
  simp only [renames_iff]
  have apart : ∀ property ∈ databaseProperties.keys, ∀ other ∈ databaseProperties.keys,
      databaseRule.renamed property = databaseRule.renamed other → property = other := by
    decide
  exact fun property member other member' name same same' =>
    apart property member other member' (same.trans same'.symm)

/-- The value that is looked up in lower case is replaced. -/
example : databaseRule.apply databaseProperties =
    [("name", .str "app"), ("encoding", .str "utf8"), ("state", .str "present")] := by
  rfl

/-- A rule that renames a property to a name that another one has. -/
def takingRule : Rule :=
  Rule.plain "mysql_database" "community.mysql.mysql_db" |>.rename "database_name" "name"

/-- The property with the name that is taken is not mentioned by the rule. -/
def takenProperties : Entries Value :=
  [("name", .str "main"), ("database_name", .str "app")]

/-- It loses its value, and one of the two is lost. -/
theorem not_keepsProperties_takenProperties :
    takenProperties.keys.Nodup ∧ ¬ takingRule.KeepsProperties takenProperties := by
  refine ⟨by decide, fun keeps => ?_⟩
  have one : (takingRule.apply takenProperties).length = 1 := by decide
  exact absurd (one.symm.trans keeps.count) (by decide)

end Rolewright.Mapping.Rule
