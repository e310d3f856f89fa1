/-
# What completing a role adds

Completing a role only adds files. A path that the role has keeps its content, every other path
gets what the cookbook has for it, and of several files for one path the first counts
(`get?_complete`). Since the files of a cookbook do not depend on the role, nothing is left to add
after that.

`completion_complete` says so without the order in which files are added: by what the parts of a
cookbook become in a role (`Supplement`).
-/

import Rolewright.Proofs.Entries
import Rolewright.Proofs.Role.Files
import Rolewright.Role.Assembly

namespace Rolewright

namespace Role

/-- Roles with the same files are the same. -/
theorem ext_get? {role other : Role} (same : ∀ path, role.get? path = other.get? path) :
    role = other := by
  have nodup (role : Role) : (Entries.keys role.files).Nodup :=
    Entries.nodup_of_increasing role.increasing
  have held (role : Role) (file : String × String) :
      file ∈ role.files ↔ role.get? file.1 = some file.2 :=
    ⟨Entries.get?_of_mem (nodup role), Entries.mem_of_get?⟩
  have perm : other.files.Perm role.files :=
    (List.perm_ext_iff_of_nodup (nodup other).of_map (nodup role).of_map).mpr fun file => by
      rw [held, held, same]
  refine eq_of_files_eq (Entries.eq_of_perm role.increasing perm ?_).symm
  exact other.increasing.imp fun before after => String.lt_irrefl _ (String.lt_trans before after)

/-- Files that are added where their paths are free come after those that are there. -/
theorem get?_foldl_insertMissing (files : List (String × String)) (role : Role) (path : String) :
    (files.foldl (fun role (path, content) => role.insertMissing path content) role).get? path =
      (role.get? path).or (Entries.get? files path) := by
  induction files generalizing role with
  | nil => exact (Option.or_none).symm
  | cons file files ih =>
      rw [List.foldl_cons, ih, get?_insertMissing, Entries.get?]
      cases taken : role.get? path with
      | some content =>
          rw [if_neg (fun both => by rw [← both.2, both.1] at taken; cases taken), Option.some_or,
            Option.some_or]
      | none =>
          by_cases same : file.1 = path
          · rw [if_pos ⟨same ▸ taken, same⟩, if_pos same, Option.some_or, Option.none_or]
          · rw [if_neg (fun both => same both.2), if_neg same]

/-- A completed role has its own files first and those of the cookbook second. -/
theorem get?_complete (role : Role) (cookbook : Cookbook) (path : String) :
    (role.complete cookbook).get? path =
      (role.get? path).or (Entries.get? (supplements cookbook) path) :=
  get?_foldl_insertMissing _ _ _

/-- What the parts of a cookbook become in a role: where a file stands, and what it holds. -/
inductive Supplement (cookbook : Cookbook) : String → String → Prop where
  | metadata : Supplement cookbook metaPath (Yaml.render (metadata cookbook))
  | defaults (some : cookbook.attributeDefaults ≠ []) :
      Supplement cookbook defaultsPath
        ("---\n" ++ Yaml.render (.obj (defaults cookbook.attributeDefaults)))
  | template {asset : Cookbook.Asset} {content : String} (member : asset ∈ cookbook.templates)
      (text : asset.content = some content) :
      Supplement cookbook (templatePath asset.path) content
  | file {asset : Cookbook.Asset} {content : String} (member : asset ∈ cookbook.files)
      (text : asset.content = some content) : Supplement cookbook (filePath asset.path) content
  | readme : Supplement cookbook readmePath (readme cookbook)

theorem mem_supplements_iff (cookbook : Cookbook) (path content : String) :
    (path, content) ∈ supplements cookbook ↔ Supplement cookbook path content := by
  have assets (place : String → String) (found : List Cookbook.Asset) :
      (path, content) ∈ (found.filterMap fun asset =>
          asset.content.map fun content => (place asset.path, content)) ↔
        ∃ asset ∈ found, asset.content = some content ∧ place asset.path = path := by
    simp only [List.mem_filterMap, Option.map_eq_some_iff, Prod.mk.injEq]
    constructor
    · rintro ⟨asset, member, _, text, rfl, rfl⟩
      exact ⟨asset, member, text, rfl⟩
    · rintro ⟨asset, member, text, rfl⟩
      exact ⟨asset, member, content, text, rfl, rfl⟩
  simp only [supplements, List.mem_append, assets, List.mem_singleton, Prod.mk.injEq]
  constructor
  · rintro ((((⟨rfl, rfl⟩ | defaults) | ⟨asset, member, text, rfl⟩) |
      ⟨asset, member, text, rfl⟩) | ⟨rfl, rfl⟩)
    · exact .metadata
    · by_cases none : cookbook.attributeDefaults.isEmpty
      · rw [if_pos none] at defaults
        cases defaults
      · rw [if_neg none, List.mem_singleton, Prod.mk.injEq] at defaults
        obtain ⟨rfl, rfl⟩ := defaults
        exact .defaults (mt List.isEmpty_iff.mpr none)
    · exact .template member text
    · exact .file member text
    · exact .readme
  · rintro (_ | some | ⟨member, text⟩ | ⟨member, text⟩ | _)
    · exact .inl (.inl (.inl (.inl ⟨rfl, rfl⟩)))
    · refine .inl (.inl (.inl (.inr ?_)))
      rw [if_neg (mt List.isEmpty_iff.mp some), List.mem_singleton]
    · exact .inl (.inl (.inr ⟨_, member, text, rfl⟩))
    · exact .inl (.inr ⟨_, member, text, rfl⟩)
    · exact .inr ⟨rfl, rfl⟩

/-- How a role and the role that completes it belong together. -/
structure Completion (cookbook : Cookbook) (role result : Role) : Prop where
  kept : ∀ path content, role.get? path = some content → result.get? path = some content
  /-- A file that was not there is one that the cookbook has for its path. -/
  added : ∀ path content, role.get? path = none → result.get? path = some content →
    Supplement cookbook path content
  /-- Wherever the cookbook has a file for a path there is a file. -/
  whole : ∀ path content, Supplement cookbook path content → result.contains path = true

/-- Completing a role adds what the cookbook has and the role lacks, always metadata and a
description, and touches nothing else. Completing it again changes nothing. -/
theorem completion_complete (role : Role) (cookbook : Cookbook) :
    Completion cookbook role (role.complete cookbook) ∧
      (role.complete cookbook).contains metaPath = true ∧
      (role.complete cookbook).contains readmePath = true ∧
      (role.complete cookbook).complete cookbook = role.complete cookbook := by
  have completion : Completion cookbook role (role.complete cookbook) := by
    refine ⟨fun path content taken => ?_, fun path content free found => ?_,
      fun path content supplement => ?_⟩
    · rw [get?_complete, taken, Option.some_or]
    · rw [get?_complete, free, Option.none_or] at found
      exact (mem_supplements_iff cookbook path content).mp (Entries.mem_of_get? found)
    · have listed := (mem_supplements_iff cookbook path content).mpr supplement
      rw [contains, get?_complete, Option.isSome_or, Entries.isSome_get?_of_mem listed,
        Bool.or_true]
  refine ⟨completion, completion.whole _ _ .metadata, completion.whole _ _ .readme, ?_⟩
  refine ext_get? fun path => ?_
  rw [get?_complete, get?_complete, Option.or_assoc, Option.or_self]

end Role

end Rolewright
