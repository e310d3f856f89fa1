/-
# One variable for an attribute

Where a recipe assigns an attribute and where it refers to one, the name of the variable is made by
the same rule from the same path: the file that assigns it has the attribute under its path, the
defaults of the role have its variable, and a reference becomes a template of this variable
(`namesVariable_of_isKey`). Before the path of a reference stands `node.`, which is taken off
once, so that an attribute whose own first key is `node` keeps it.
-/

import Rolewright.Proofs.Entries
import Rolewright.Proofs.Recipe.AttributeRows
import Rolewright.Proofs.Role.Completion

namespace Rolewright

open Text Recipe

namespace Entries

variable {α : Type}

theorem get?_putMissing (entries : Entries α) (key other : String) (value : α) :
    (entries.putMissing key value).get? other =
      (entries.get? other).or (get? [(key, value)] other) := by
  rw [putMissing, get?]
  split
  · rename_i taken
    by_cases same : key = other
    · subst same
      obtain ⟨old, found⟩ := Option.isSome_iff_exists.mp taken
      rw [found, Option.some_or]
    · rw [if_neg same, get?, Option.or_none]
  · rename_i free
    rw [get?_put]
    by_cases same : key = other
    · subst same
      rw [if_pos rfl, if_pos rfl, Option.not_isSome_iff_eq_none.mp free, Option.none_or]
    · rw [if_neg same, if_neg same, get?, Option.or_none]

/-- Of several values for a key the first one is put where only missing ones are. -/
theorem get?_foldl_putMissing (pairs : List (String × α)) (entries : Entries α) (key : String) :
    (pairs.foldl (fun merged (key, value) => merged.putMissing key value) entries).get? key =
      (entries.get? key).or (get? pairs key) := by
  induction pairs generalizing entries with
  | nil => exact Option.or_none.symm
  | cons pair pairs ih =>
      rw [List.foldl_cons, ih, get?_putMissing, Option.or_assoc, ← get?_append]
      rfl

theorem nodup_keys_foldl_putMissing (pairs : List (String × α)) {entries : Entries α}
    (distinct : entries.keys.Nodup) :
    (pairs.foldl (fun merged (key, value) => merged.putMissing key value) entries).keys.Nodup := by
  induction pairs generalizing entries with
  | nil => exact distinct
  | cons pair pairs ih =>
      refine ih ?_
      dsimp only [putMissing]
      split
      · exact distinct
      · exact nodup_keys_put distinct _ _

end Entries

namespace Cookbook

/-- The default of an attribute is the first that the files of a cookbook assign. -/
theorem get?_attributeDefaults (cookbook : Cookbook) (path : String) :
    cookbook.attributeDefaults.get? path =
      Entries.get? ((cookbook.attributeFiles ++ cookbook.recipes).flatMap (·.attributes)) path :=
  (Entries.get?_foldl_putMissing _ [] path).trans (Option.none_or ..)

theorem nodup_keys_attributeDefaults (cookbook : Cookbook) :
    cookbook.attributeDefaults.keys.Nodup :=
  Entries.nodup_keys_foldl_putMissing _ List.nodup_nil

/-- An attribute that one of the files assigns has a default. -/
theorem isSome_get?_attributeDefaults {cookbook : Cookbook} {f : SourceFile} {path : String}
    (member : f ∈ cookbook.attributeFiles ++ cookbook.recipes)
    (assigned : (f.attributes.get? path).isSome) :
    (cookbook.attributeDefaults.get? path).isSome := by
  obtain ⟨value, found⟩ := Option.isSome_iff_exists.mp assigned
  rw [get?_attributeDefaults]
  exact Entries.isSome_get?_of_mem (List.mem_flatMap.mpr ⟨f, member, Entries.mem_of_get? found⟩)

end Cookbook

namespace Role

/-! ## Names -/

/-- A reference becomes a template of the variable that its path has without `node.`. -/
theorem data_reference (path : String) :
    data (.ref ("node." ++ path)) =
      .str ("\x7b\x7b " ++ variableName path ++ " \x7d\x7d") := by
  have bare : withoutPrefix "node.".toList ("node." ++ path).toList = path.toList := by
    rw [String.toList_append, withoutPrefix, afterPrefix?_append, Option.getD_some]
  rw [data, reference, bare, String.ofList_toList]

/-- The variable of a name has the data of the last attribute that has it. -/
theorem get?_defaults (attributes : Entries Value) (name : String) :
    (defaults attributes).get? name =
      ((attributes.filter fun (path, _) => variableName path = name).getLast?).map
        fun (_, value) => data value := by
  rw [defaults, Entries.get?_ofPairs, List.filter_map, List.getLast?_map, Option.map_map]
  rfl

theorem isSome_get?_defaults {attributes : Entries Value} {path : String} {value : Value}
    (found : attributes.get? path = some value) :
    ((defaults attributes).get? (variableName path)).isSome :=
  Entries.isSome_get?_ofPairs (List.mem_map.mpr ⟨_, Entries.mem_of_get? found, rfl⟩)

/-- A variable that only one attribute has holds the data of this attribute. -/
theorem get?_defaults_of_unique {attributes : Entries Value} (distinct : attributes.keys.Nodup)
    {path : String} {value : Value} (found : attributes.get? path = some value)
    (unique : ∀ other ∈ attributes.keys, variableName other = variableName path → other = path) :
    (defaults attributes).get? (variableName path) = some (data value) := by
  have some := isSome_get?_defaults found
  rw [get?_defaults] at some ⊢
  obtain ⟨⟨other, last⟩, here⟩ := Option.isSome_iff_exists.mp (Option.isSome_map.symm.trans some)
  obtain ⟨member, same⟩ := List.mem_filter.mp (List.mem_of_getLast? here)
  obtain rfl := unique other (List.mem_map.mpr ⟨_, member, rfl⟩) (of_decide_eq_true same)
  rw [Entries.get?_of_mem distinct member] at found
  rw [here, Option.map_some, Option.some.inj found]

/-- A role without defaults gets those of the cookbook, if it has any. -/
theorem get?_complete_defaultsPath {cookbook : Cookbook} (some : cookbook.attributeDefaults ≠ [])
    {role : Role} (free : role.get? defaultsPath = none) :
    (role.complete cookbook).get? defaultsPath =
      .some ("---\n" ++ Yaml.render (.obj (defaults cookbook.attributeDefaults))) := by
  have nonempty : cookbook.attributeDefaults.isEmpty = false := List.isEmpty_eq_false_iff.mpr some
  have other : ¬ metaPath = defaultsPath := by decide
  rw [get?_complete, free, Option.none_or, supplements]
  simp only [nonempty, Bool.false_eq_true, if_false, List.cons_append, List.nil_append,
    Entries.get?, other, if_true]

/-! ## Definitions and uses -/

/-- Definitions and uses of the attribute with these keys name the same variable. -/
structure NamesVariable (keys : List String) : Prop where
  /-- An assignment is read as one to the path of the keys, whatever is assigned. -/
  read : ∀ {target tail value : List Char}, SpellsTarget isBlank keys target →
    assigned? tail = some value →
    attributeAssignment? (target ++ tail) = some (attributePath keys, value)
  /-- A line that assigns is the one finding of this attribute, and its file has the attribute. -/
  stored : ∀ {source target value : List Char} {line : Line}, SpellsTarget isBlank keys target →
    Assigns source line target value →
    (∀ (o : Origin) guards, o.lineFindings guards line =
      [.attribute (attributePath keys) (argumentValue line value)]) ∧
    ∀ file types,
      ((SourceFile.extract file types source).attributes.get? (attributePath keys)).isSome
  /-- On a row of its own a literal is assigned, and nothing else, unless it is the symbol that
  opens a block. -/
  alone : ∀ {target value : List Char}, SpellsTarget (· == ' ') keys target →
    IsLiteral value ∨ value = symbolDo → ∀ file types indent,
    (SourceFile.extract file types (indentedRows indent [assigning target value])).attributes =
      [(attributePath keys, Value.parse value)] ↔ value ≠ symbolDo
  /-- A reference is a template of the variable. -/
  used : ∀ {use : List Char}, Value.SpellsUse keys use →
    data (Value.parse use) = .str ("\x7b\x7b " ++ variableName (attributePath keys) ++ " \x7d\x7d")
  /-- The defaults of a role that is completed have the variable, with the value of the attribute if
  no other has this variable. -/
  completed : ∀ {cookbook : Cookbook} {f : SourceFile} {role : Role},
    f ∈ cookbook.attributeFiles ++ cookbook.recipes →
    (f.attributes.get? (attributePath keys)).isSome → role.get? defaultsPath = none →
    ∃ value, cookbook.attributeDefaults.get? (attributePath keys) = some value ∧
      (role.complete cookbook).get? defaultsPath =
        some ("---\n" ++ Yaml.render (.obj (defaults cookbook.attributeDefaults))) ∧
      ((defaults cookbook.attributeDefaults).get? (variableName (attributePath keys))).isSome ∧
      ((∀ other ∈ cookbook.attributeDefaults.keys,
          variableName other = variableName (attributePath keys) → other = attributePath keys) →
        (defaults cookbook.attributeDefaults).get? (variableName (attributePath keys)) =
          some (data value))

/-- However an assignment to an attribute and a reference to it are written, the assignment is
stored under one path, and the reference becomes a template of the variable that the defaults have
for this path. On a row of its own the assignment of every literal but one symbol is stored. -/
theorem namesVariable_of_isKey (keys : List String) (some : keys ≠ [])
    (named : ∀ key ∈ keys, Value.IsKey key) : NamesVariable keys where
  read spelled given := attributeAssignment?_eq spelled named some given
  stored spelled assigns :=
    ⟨assigns.lineFindings_eq spelled named some, assigns.isSome_get? spelled named some⟩
  alone {target value} spelled given file types indent := by
    constructor
    · rintro stored rfl
      rw [attributes_extract_symbolDo spelled named some] at stored
      cases stored
    · intro other
      have literal : IsLiteral value := given.resolve_right other
      exact attributes_extract_assignmentRows file types indent
        [⟨keys, target, value, some, named, spelled, literal⟩]
  used use := by
    rw [Value.parse_of_spellsUse use named some, data_reference, attributePath]
  completed {cookbook f role} member assigned free := by
    obtain ⟨value, found⟩ := Option.isSome_iff_exists.mp
      (Cookbook.isSome_get?_attributeDefaults member assigned)
    have nonempty : cookbook.attributeDefaults ≠ [] := by
      intro none
      rw [none] at found
      cases found
    refine ⟨value, found, get?_complete_defaultsPath nonempty free, isSome_get?_defaults found, ?_⟩
    exact get?_defaults_of_unique cookbook.nodup_keys_attributeDefaults found

/-- For instance for an attribute with two keys. -/
theorem namesVariable_of_two_keys :
    (["nginx", "port"] ≠ [] ∧ ∀ key ∈ ["nginx", "port"], Value.IsKey key) ∧
      NamesVariable ["nginx", "port"] := by
  have named : ∀ key ∈ ["nginx", "port"], Value.IsKey key := by
    simp only [List.forall_mem_cons]
    exact ⟨⟨by decide, by decide⟩, ⟨by decide, by decide⟩, nofun⟩
  exact ⟨⟨nofun, named⟩, namesVariable_of_isKey ["nginx", "port"] nofun named⟩

end Role

end Rolewright
