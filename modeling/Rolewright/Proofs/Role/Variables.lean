/-
# A variable for every attribute

The defaults of a role have one variable for each name that the attributes of a cookbook are folded
to, so attributes whose names fold to the same one are not told apart: of several the last one
counts. That every attribute arrives with its own value therefore turns on the names alone
(`carriesDefaults_iff`). What the folding forgets is the case of letters, and which character
stands where it is no letter or digit (`variableName_eq_iff`).
-/

import Rolewright.Proofs.Entries
import Rolewright.Proofs.Role.Defaults

namespace Rolewright

open Recipe

namespace Role

/-! ## Names that fold to one variable -/

/-- Characters that no variable tells apart: a letter or a digit and the same one in either case, or
two characters that are neither. -/
def FoldAlike (a b : Char) : Prop :=
  a.isAlphanum = b.isAlphanum ∧ (a.isAlphanum = true → a.toLower = b.toLower)

instance : DecidableRel FoldAlike :=
  fun _ _ => inferInstanceAs (Decidable (_ ∧ (_ → _)))

/-- Names that no variable tells apart. -/
def NamesAlike (a b : String) : Prop :=
  List.Forall₂ FoldAlike a.toList b.toList

instance : DecidableRel NamesAlike :=
  fun a b => inferInstanceAs (Decidable (List.Forall₂ FoldAlike a.toList b.toList))

/-- No letter and no digit becomes an underscore. -/
theorem toLower_ne_underscore {c : Char} (letter : c.isAlphanum = true) : c.toLower ≠ '_' :=
  toLower_ne letter rfl (Nat.le_refl _)

theorem variableChar_eq_iff {a b : Char} : variableChar a = variableChar b ↔ FoldAlike a b := by
  unfold variableChar FoldAlike
  cases first : a.isAlphanum <;> cases second : b.isAlphanum
  · simp
  · simpa using (toLower_ne_underscore second).symm
  · simpa using toLower_ne_underscore first
  · simp

/-- Two names have one variable just when they agree character by character, up to the case of
letters and up to which other character stands beside letters and digits. -/
theorem variableName_eq_iff {a b : String} : variableName a = variableName b ↔ NamesAlike a b := by
  rw [variableName, variableName, String.ofList_inj, NamesAlike, ← List.forall₂_eq_eq_eq,
    List.forall₂_map_left_iff, List.forall₂_map_right_iff]
  simp only [variableChar_eq_iff]

/-! ## Defaults -/

/-- The defaults of a role have a variable for each attribute of the cookbook, with its own
value. -/
structure CarriesDefaults (role : Role) (cookbook : Cookbook) : Prop where
  written : (role.complete cookbook).get? defaultsPath =
    some ("---\n" ++ Yaml.render (.obj (defaults cookbook.attributeDefaults)))
  own : ∀ path value, (path, value) ∈ cookbook.attributeDefaults →
    (defaults cookbook.attributeDefaults).get? (variableName path) = some (data value)
  count : (defaults cookbook.attributeDefaults).length = cookbook.attributeDefaults.length

/-- There are as many variables as attributes just when the names of the attributes fold to
different ones. -/
theorem length_defaults_eq_iff {attributes : Entries Value} :
    (defaults attributes).length = attributes.length ↔
      (attributes.keys.map variableName).Nodup := by
  have names : (attributes.map fun pair => (variableName pair.1, data pair.2)).map (·.1) =
      attributes.keys.map variableName := by
    rw [Entries.keys, List.map_map, List.map_map]
    rfl
  rw [← names, ← Entries.length_ofPairs_eq_iff, List.length_map]
  rfl

/-- Every attribute of a cookbook reaches the role that is completed, in a variable of its own and
with its own value, just when no two attributes have names that no variable tells apart. -/
theorem carriesDefaults_iff {cookbook : Cookbook} (some : cookbook.attributeDefaults ≠ [])
    {role : Role} (free : role.get? defaultsPath = none) :
    CarriesDefaults role cookbook ↔
      ∀ path ∈ cookbook.attributeDefaults.keys, ∀ other ∈ cookbook.attributeDefaults.keys,
        NamesAlike path other → path = other := by
  have distinct : cookbook.attributeDefaults.keys.Nodup := cookbook.nodup_keys_attributeDefaults
  constructor
  · intro carries path member other member' alike
    have nodup := length_defaults_eq_iff.mp carries.count
    exact List.inj_on_of_nodup_map nodup member member' (variableName_eq_iff.mpr alike)
  · intro apart
    have injective : ∀ path ∈ cookbook.attributeDefaults.keys,
        ∀ other ∈ cookbook.attributeDefaults.keys,
          variableName path = variableName other → path = other :=
      fun path member other member' same =>
        apart path member other member' (variableName_eq_iff.mp same)
    refine ⟨get?_complete_defaultsPath some free, fun path value held => ?_, ?_⟩
    · have member : path ∈ cookbook.attributeDefaults.keys := List.mem_map.mpr ⟨_, held, rfl⟩
      exact get?_defaults_of_unique distinct (Entries.get?_of_mem distinct held)
        fun other member' same => injective other member' path member same
    · exact length_defaults_eq_iff.mpr (List.Nodup.map_on injective distinct)

/-- A cookbook with some attributes and nothing else. -/
def attributesOnly (source : String) : Cookbook where
  name := "web"
  path := "web"
  metadata := Cookbook.Metadata.empty
  recipes := []
  attributeFiles := [SourceFile.extract "attributes/default.rb" [] source.toList]
  templates := []
  files := []
  customResources := []
  libraries := []

/-- Two attributes of which one is part of the path of the other. -/
def nestedAttributes : Cookbook :=
  attributesOnly "default['a']['b'] = 1\ndefault['a'] = 2\n"

/-- Names that differ in more than case and punctuation stay apart. -/
theorem carriesDefaults_nestedAttributes :
    nestedAttributes.attributeDefaults ≠ [] ∧ Role.empty.get? defaultsPath = none ∧
      CarriesDefaults .empty nestedAttributes := by
  have keys : nestedAttributes.attributeDefaults.keys = ["a.b", "a"] := by decide +kernel
  have some : nestedAttributes.attributeDefaults ≠ [] := by
    intro none
    rw [none] at keys
    cases keys
  refine ⟨some, rfl, (carriesDefaults_iff some rfl).mpr ?_⟩
  rw [keys]
  decide

/-- Two attributes whose names differ in a hyphen. -/
def hyphenatedAttributes : Cookbook :=
  attributesOnly "default['a-b'] = 1\ndefault['a_b'] = 2\n"

/-- They become one variable. -/
theorem not_carriesDefaults_hyphenatedAttributes :
    hyphenatedAttributes.attributeDefaults ≠ [] ∧ Role.empty.get? defaultsPath = none ∧
      ¬ CarriesDefaults .empty hyphenatedAttributes := by
  have two : hyphenatedAttributes.attributeDefaults.length = 2 := by decide +kernel
  have one : (defaults hyphenatedAttributes.attributeDefaults).length = 1 := by decide +kernel
  refine ⟨List.ne_nil_of_length_eq_add_one two, rfl, fun carries => ?_⟩
  exact absurd (one.symm.trans (carries.count.trans two)) (by decide)

end Role

end Rolewright
