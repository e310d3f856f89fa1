/-
# Roles that pass the check

A role is sound (`IsSound`) if it has the required files, all its YAML files are documents, the
files of tasks and handlers are lists, and every task in them, at any depth, is a proper one. The
check of a role finds nothing in some roles that are not: it passes over items in the sections of a
task that are no mappings, over a second way of calling something, and over sections and
notifications behind a tag. `isSound_of_roleRead_iff` says that these are the only gaps. A local tag
on a key or a list does not count here, as it does not where the check looks for mappings and the
keys in them.
-/

import Rolewright.Proofs.Check.Findings

namespace Rolewright

namespace Yaml

/-- A value that a map has under a key, tagged or not. -/
def Holds (y : Yaml) (name : String) (value : Yaml) : Prop :=
  ∃ entries key, y.asMap? = some entries ∧ (key, value) ∈ entries ∧ key.asText? = some name

/-- What is found under a name is held there. -/
theorem holds_of_field? {y value : Yaml} {name : String} (found : y.field? name = some value) :
    y.Holds name value := by
  obtain ⟨entries, isMap, found⟩ := Option.bind_eq_some_iff.mp found
  obtain ⟨⟨key, other⟩, member, same⟩ := List.exists_of_findSome?_eq_some found
  cases key with
  | str text =>
      dsimp only at same
      split at same
      · rename_i named
        cases same
        exact ⟨entries, _, isMap, member, congrArg some named⟩
      · cases same
  | null | bool | int | float | seq | map | tagged => cases same

end Yaml

namespace Check

open Relation

/-! ## Tasks and handlers of a role -/

/-- An item of a list under a section of a task. -/
inductive Encloses (task inner : Yaml) : Prop where
  | item {name : String} {value : Yaml} {items : List Yaml} (isSection : name ∈ blockSections)
      (holds : task.Holds name value) (isList : value.untagged = .seq items)
      (member : inner ∈ items)

/-- A task that the check looks into encloses what is found. -/
theorem Shows.encloses {task inner : Yaml} (shows : Shows task inner) : Encloses task inner := by
  obtain ⟨isSection, holds, member⟩ := shows
  exact .item isSection (Yaml.holds_of_field? holds) rfl member

/-- A text under a key of a map, or in a list there. -/
def Names (y : Yaml) (key text : String) : Prop :=
  ∃ value, y.Holds key value ∧ text ∈ texts value.untagged

/-- The texts that are read from a key are named there. -/
theorem names_of_mem_texts {y : Yaml} {key text : String}
    (member : text ∈ ((y.field? key).map texts).getD []) : Names y key text := by
  cases found : y.field? key with
  | none =>
      rw [found] at member
      cases member
  | some value =>
      rw [found] at member
      refine ⟨value, Yaml.holds_of_field? found, ?_⟩
      cases value with
      | str | seq => exact member
      | null | bool | int | float | map | tagged => cases member

section Role

variable (read : Reader) (role : Role)

/-- An item of a list that a file in a directory holds. -/
def IsItem (inDirectory : String → Prop) (item : Yaml) : Prop :=
  ∃ path content items, (path, content) ∈ role.files ∧ isYamlFile path = true ∧
    inDirectory path ∧ read content.toList = .ok (.seq items) ∧ item ∈ items

/-- A task of a role, at any depth. -/
def IsTask (task : Yaml) : Prop :=
  ∃ item, IsItem read role HoldsTasks item ∧ ReflTransGen Encloses item task

/-- A task of a role that the check comes to. -/
def IsSeen (task : Yaml) : Prop :=
  ∃ item, IsItem read role HoldsTasks item ∧ ReflTransGen Shows item task

/-- What can be notified: the name of a handler, or a topic that it listens to. -/
def IsHandler (target : String) : Prop :=
  ∃ item, IsItem read role (isBelow "handlers/" · = true) item ∧
    (Names item "name" target ∨ Names item "listen" target)

/-- A mapping that has a block or else a name and one thing to call, whose modules have full names,
and whose notifications have handlers. -/
structure IsProper (task : Yaml) : Prop where
  isMap : task.asMap?.isSome = true
  called : "block" ∈ task.keys ∨ "name" ∈ task.keys ∧ (calls task).length = 1
  dotted : ∀ key ∈ task.keys, isModule key = true → '.' ∈ key.toList
  handled : ∀ target, Names task "notify" target → IsHandler read role target

/-- What a role should be. -/
structure IsSound : Prop where
  required : ∀ path ∈ requiredFiles, role.contains path = true
  parses : ∀ path content, (path, content) ∈ role.files → isYamlFile path = true →
    ∃ document, read content.toList = .ok document
  lists : ∀ path content document, (path, content) ∈ role.files → isYamlFile path = true →
    HoldsTasks path → read content.toList = .ok document →
      document = .null ∨ ∃ items, document = .seq items
  proper : ∀ task, IsTask read role task → IsProper read role task

/-- What the check of a role does not look at is in order all the same. -/
structure IsGapless : Prop where
  maps : ∀ task, IsSeen read role task → task.asMap?.isSome = true
  single : ∀ task, IsSeen read role task → "block" ∈ task.keys ∨ (calls task).length ≤ 1
  handled : ∀ task, IsSeen read role task → ∀ target, Names task "notify" target →
    target ∉ targets task → IsHandler read role target
  unseen : ∀ task, IsTask read role task → ¬ IsSeen read role task → IsProper read role task

end Role

section Passed

variable {read : Reader} {role : Role}

/-- Every task that the check sees is one. -/
theorem IsSeen.isTask {task : Yaml} (seen : IsSeen read role task) : IsTask read role task := by
  obtain ⟨item, isItem, reaches⟩ := seen
  exact ⟨item, isItem, ReflTransGen.mono (fun _ _ => Shows.encloses) _ _ reaches⟩

/-- Every handler that the check knows is one. -/
theorem Known.isHandler {target : String} (known : Known read role target) :
    IsHandler read role target := by
  obtain ⟨⟨path, content⟩, member, named⟩ := known
  obtain ⟨yaml, handlers, items, reads, item, inside, named⟩ :=
    mem_handlers_fileFindings_iff.mp named
  refine ⟨item, ⟨path, content, items, member, yaml, handlers, reads, inside⟩, ?_⟩
  obtain ⟨key, isKey, member⟩ := List.mem_flatMap.mp named
  rcases List.mem_cons.mp isKey with rfl | isListen
  · exact .inl (names_of_mem_texts member)
  · rw [List.mem_singleton.mp isListen] at member
    exact .inr (names_of_mem_texts member)

/-- A file with tasks holds nothing or a list that passes. -/
theorem vetted_of_roleRead (passes : roleRead read role = []) {path content : String}
    (member : (path, content) ∈ role.files) (yaml : isYamlFile path = true) :
    ∃ document, read content.toList = .ok document ∧
      (HoldsTasks path → Vetted (Known read role) document) := by
  have files := (roleRead_eq_nil_iff.mp passes).2
  exact pass_fileFindings_iff.mp (files (path, content) member) yaml

/-- Where the check of a role finds nothing, the mappings that it comes to are in order. -/
theorem IsSeen.regular {task : Yaml} (seen : IsSeen read role task)
    (passes : roleRead read role = []) (isMap : task.asMap?.isSome = true) :
    Regular (Known read role) task := by
  obtain ⟨item, ⟨path, content, items, member, yaml, tasks, reads, inside⟩, reaches⟩ := seen
  obtain ⟨document, same, vetted⟩ := vetted_of_roleRead passes member yaml
  cases reads.symm.trans same
  cases vetted tasks with
  | seq _ regular => exact regular item inside task reaches isMap

/-- A task that the check sees and passes is proper, if there are no gaps. -/
theorem IsSeen.isProper {task : Yaml} (seen : IsSeen read role task)
    (passes : roleRead read role = []) (gapless : IsGapless read role) :
    IsProper read role task := by
  have isMap := gapless.maps task seen
  have regular := seen.regular passes isMap
  refine ⟨isMap, ?_, regular.dotted, fun target names => ?_⟩
  · rcases regular.called with block | ⟨named, some⟩
    · exact .inl block
    · refine (gapless.single task seen).imp id fun atMost => ⟨named, ?_⟩
      have atLeast := List.length_pos_iff.mpr some
      omega
  · by_cases found : target ∈ targets task
    · exact (regular.handled target found).isHandler
    · exact gapless.handled task seen target names found

/-- Where the check finds nothing, a role is sound exactly if it has none of the gaps. -/
theorem isSound_iff_isGapless (passes : roleRead read role = []) :
    IsSound read role ↔ IsGapless read role := by
  constructor
  · intro sound
    refine ⟨fun task seen => (sound.proper task seen.isTask).isMap, fun task seen => ?_,
      fun task seen target names _ => (sound.proper task seen.isTask).handled target names,
      fun task isTask _ => sound.proper task isTask⟩
    exact (sound.proper task seen.isTask).called.imp id fun called => Nat.le_of_eq called.2
  · intro gapless
    refine ⟨(roleRead_eq_nil_iff.mp passes).1, fun path content member yaml => ?_,
      fun path content document member yaml tasks reads => ?_, fun task isTask => ?_⟩
    · obtain ⟨document, reads, -⟩ := vetted_of_roleRead passes member yaml
      exact ⟨document, reads⟩
    · obtain ⟨_, same, vetted⟩ := vetted_of_roleRead passes member yaml
      cases reads.symm.trans same
      cases vetted tasks with
      | null => exact .inl rfl
      | seq => exact .inr ⟨_, rfl⟩
    · by_cases seen : IsSeen read role task
      · exact seen.isProper passes gapless
      · exact gapless.unseen task isTask seen

/-- That a role in which the check finds nothing is sound holds just of those roles in which
nothing is wrong with what the check does not look at. -/
theorem isSound_of_roleRead_iff (read : Reader) (role : Role) :
    (roleRead read role = [] → IsSound read role) ↔
      (roleRead read role = [] → IsGapless read role) :=
  imp_congr_right isSound_iff_isGapless

end Passed

/-- Tasks of which one has a word in its block, where a task should be. -/
def strayTasks : String := "- name: Set up\n  block:\n  - restart\n"

/-- A role with these tasks. -/
def strayRole : Role :=
  .ofList [("meta/main.yml", "galaxy_info:\n  role_name: web\n"), ("tasks/main.yml", strayTasks)]

/-- Whether the only task of a list has a block of a single text. -/
def hasStrayText : Yaml → Bool
  | .seq [task] => match task.field? "block" with
    | some (.seq [.str _]) => true
    | _ => false
  | _ => false

/-- A section with a text in it in place of a task is one of these gaps. -/
theorem exists_of_hasStrayText {document : Yaml} (stray : hasStrayText document = true) :
    ∃ task text, document = .seq [task] ∧ task.field? "block" = some (.seq [.str text]) := by
  unfold hasStrayText at stray
  split at stray
  · rename_i task
    split at stray
    · rename_i text block
      exact ⟨task, text, rfl, block⟩
    · cases stray
  · cases stray

theorem read_strayTasks : ∃ task text, Yaml.read strayTasks.toList = .ok (.seq [task]) ∧
    task.field? "block" = some (.seq [.str text]) := by
  have stray : (Yaml.read strayTasks.toList).toOption.any hasStrayText = true := by
    decide +kernel
  cases reads : Yaml.read strayTasks.toList with
  | error fault =>
      rw [reads] at stray
      cases stray
  | ok document =>
      rw [reads] at stray
      obtain ⟨task, text, rfl, block⟩ := exists_of_hasStrayText stray
      exact ⟨task, text, rfl, block⟩

/-- The check of a role finds nothing wrong with a word among the tasks of a block. -/
theorem not_isSound_strayRole :
    Check.role strayRole = [] ∧ ¬ IsSound Yaml.read strayRole := by
  refine ⟨by decide +kernel, fun sound => ?_⟩
  have file : ("tasks/main.yml", strayTasks) ∈ strayRole.files := by decide +kernel
  obtain ⟨task, text, reads, block⟩ := read_strayTasks
  have item : IsItem Yaml.read strayRole HoldsTasks task :=
    ⟨_, _, _, file, by decide, .inl (by decide), reads, .head _⟩
  have inside : Shows task (.str text) := .item (by decide) block (.head _)
  have proper := sound.proper (.str text) ⟨task, item, .single inside.encloses⟩
  exact nomatch proper.isMap

end Check

end Rolewright
