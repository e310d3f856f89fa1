/-
# When the check of a role finds nothing

The findings on a role are appended from those on its files, on the tasks of a file and on the tasks
inside those. To find nothing and to send notifications to known handlers only is kept by appending
(`Findings.pass_append`), so a role passes just when all its parts do, each looked at by itself:
`pass_taskFindings_iff` for the tasks inside a task, `pass_fileFindings_iff` for those of a file and
`roleRead_eq_nil_iff` for the files of a role. No statement here depends on the places that findings
name, nor on what reads the documents.
-/

import Mathlib.Logic.Basic
import Mathlib.Logic.Relation
import Rolewright.Check.Tasks

namespace Rolewright

namespace Yaml

/-- The texts of the keys of a map. -/
def keys (y : Yaml) : List String :=
  (y.asMap?.getD []).filterMap fun entry => entry.1.asText?

end Yaml

namespace Check

open Relation

/-- Whether a key of a task says what the task calls. -/
def isCall (key : String) : Bool :=
  isModule key || key == "action" || key == "local_action"

/-- The keys by which a task calls something. -/
def calls (task : Yaml) : List String :=
  task.keys.filter isCall

/-- The handlers that a task notifies, as far as the check looks. -/
def targets (task : Yaml) : List String :=
  ((task.field? "notify").map texts).getD []

/-- An item of a list under a section of a task, as the check finds it. -/
inductive Shows (task inner : Yaml) : Prop where
  | item {name : String} {items : List Yaml} (isSection : name ∈ blockSections)
      (holds : task.field? name = some (.seq items)) (member : inner ∈ items)

/-- What the check asks of a task that is a mapping. -/
structure Regular (known : String → Prop) (task : Yaml) : Prop where
  called : "block" ∈ task.keys ∨ "name" ∈ task.keys ∧ calls task ≠ []
  single : (task.keys.filter isModule).length ≤ 1
  dotted : ∀ key ∈ task.keys, isModule key = true → '.' ∈ key.toList
  handled : ∀ target ∈ targets task, known target

/-- A task inside another is smaller. -/
theorem Shows.sizeOf_lt {task inner : Yaml} (shows : Shows task inner) :
    sizeOf inner < sizeOf task := by
  obtain ⟨-, holds, member⟩ := shows
  have whole := Yaml.sizeOf_field? holds
  have part := List.sizeOf_lt_of_mem member
  simp only [Yaml.seq.sizeOf_spec] at whole
  omega

/-! ## Findings that are appended -/

/-- Findings without a diagnostic, with notifications of known handlers only. -/
structure Findings.Pass (known : String → Prop) (found : Findings) : Prop where
  quiet : found.diagnostics = []
  handled : ∀ n ∈ found.notifications, known n.target

section Pass

variable {known : String → Prop}

theorem Findings.pass_none : Findings.none.Pass known :=
  ⟨rfl, List.forall_mem_nil _⟩

theorem Findings.pass_append {a b : Findings} :
    (a ++ b).Pass known ↔ a.Pass known ∧ b.Pass known := by
  constructor
  · rintro ⟨quiet, handled⟩
    obtain ⟨first, second⟩ := List.append_eq_nil_iff.mp quiet
    obtain ⟨early, late⟩ := List.forall_mem_append.mp handled
    exact ⟨⟨first, early⟩, second, late⟩
  · rintro ⟨⟨first, early⟩, second, late⟩
    exact ⟨List.append_eq_nil_iff.mpr ⟨first, second⟩, List.forall_mem_append.mpr ⟨early, late⟩⟩

theorem Findings.pass_foldl {all : List Findings} {start : Findings} :
    (all.foldl (· ++ ·) start).Pass known ↔ start.Pass known ∧ ∀ found ∈ all, found.Pass known := by
  induction all generalizing start with
  | nil => exact (and_iff_left (List.forall_mem_nil _)).symm
  | cons found all ih => rw [List.foldl_cons, ih, pass_append, List.forall_mem_cons, and_assoc]

/-! ## Tasks -/

theorem unless_eq_nil_iff {α : Type} {c : Prop} [Decidable c] {a : α} :
    (if c then [] else [a]) = [] ↔ c := by
  split <;> simp [*]

/-- A task calls something by its modules or by one of two keywords. -/
theorem calls_ne_nil_iff {keys : List String} : keys.filter isCall ≠ [] ↔
    (!(keys.filter isModule).isEmpty || keys.contains "action" ||
      keys.contains "local_action") = true := by
  simp only [isCall, ne_eq, List.filter_eq_nil_iff, not_forall, not_not, Bool.or_eq_true,
    beq_iff_eq, Bool.not_eq_true', List.isEmpty_eq_false_iff, List.contains_iff_mem]
  constructor
  · rintro ⟨key, member, (module | rfl) | rfl⟩
    · exact .inl (.inl ⟨key, member, module⟩)
    · exact .inl (.inr member)
    · exact .inr member
  · rintro ((⟨key, member, module⟩ | member) | member)
    · exact ⟨key, member, .inl (.inl module)⟩
    · exact ⟨_, member, .inl (.inr rfl)⟩
    · exact ⟨_, member, .inr rfl⟩

/-- Whether the keys of a task are in order does not depend on the place of the task. -/
theorem keyDiagnostics_eq_nil_iff {location : String} {keys : List String} :
    keyDiagnostics location keys = [] ↔
      ("block" ∈ keys ∨ "name" ∈ keys ∧ keys.filter isCall ≠ []) ∧
        (keys.filter isModule).length ≤ 1 ∧
          ∀ key ∈ keys, isModule key = true → '.' ∈ key.toList := by
  unfold keyDiagnostics
  dsimp only
  rw [List.append_eq_nil_iff, List.append_eq_nil_iff, List.append_eq_nil_iff, unless_eq_nil_iff,
    unless_eq_nil_iff, unless_eq_nil_iff, List.map_eq_nil_iff, List.filter_eq_nil_iff,
    calls_ne_nil_iff]
  simp only [Bool.or_eq_true, List.contains_iff_mem, ← or_and_left, and_assoc, List.mem_filter,
    Bool.not_eq_true', Bool.not_eq_false, and_imp]

theorem pass_ownFindings_iff {location : String} {task : Yaml} :
    (ownFindings location task).Pass known ↔
      (task.asMap?.isSome = true → Regular known task) := by
  unfold ownFindings
  cases found : task.asMap? with
  | none => exact iff_of_true Findings.pass_none nofun
  | some entries =>
      have keys : (entries.filterMap fun entry => entry.1.asText?) = task.keys := by
        rw [Yaml.keys, found, Option.getD_some]
      rw [Option.isSome_some, forall_prop_of_true rfl]
      dsimp only
      rw [keys]
      constructor
      · rintro ⟨quiet, handled⟩
        obtain ⟨called, single, dotted⟩ := keyDiagnostics_eq_nil_iff.mp quiet
        exact ⟨called, single, dotted, fun target member =>
          handled ⟨target, location⟩ (List.mem_map_of_mem member)⟩
      · rintro ⟨called, single, dotted, handled⟩
        exact ⟨keyDiagnostics_eq_nil_iff.mpr ⟨called, single, dotted⟩,
          List.forall_mem_map.mpr handled⟩

/-- Every item of a list is counted. -/
theorem exists_mem_zipIdx {items : List Yaml} {item : Yaml} (member : item ∈ items) :
    ∃ i, (item, i) ∈ items.zipIdx := by
  rw [← List.zipIdx_map_fst 0 items, List.mem_map] at member
  obtain ⟨⟨_, i⟩, counted, rfl⟩ := member
  exact ⟨i, counted⟩

/-- The findings on the tasks in the lists under the sections of a task. -/
def innerFindings (location : String) (task : Yaml) : List Findings :=
  blockSections.flatMap fun name =>
    match task.field? name with
    | some (.seq items) => items.zipIdx.map fun (item, i) =>
        taskFindings (numbered (location ++ "/" ++ name) i) item
    | _ => []

theorem taskFindings_eq (location : String) (task : Yaml) : taskFindings location task =
    (innerFindings location task).foldl (· ++ ·) (ownFindings location task) := by
  rw [taskFindings, innerFindings]
  refine congrArg (List.foldl _ _) (congrArg (List.flatMap · _) (funext fun name => ?_))
  split
  · rename_i items holds
    rw [holds]
    dsimp only
    conv => rhs; rw [← items.attach_map_subtype_val, List.zipIdx_map, List.map_map]
    rfl
  · rename_i other
    split
    · rename_i items holds
      exact (other items holds).elim
    · rfl

theorem forall_innerFindings_iff {location : String} {task : Yaml} {p : Findings → Prop} :
    (∀ found ∈ innerFindings location task, p found) ↔
      ∀ name ∈ blockSections, ∀ items, task.field? name = some (.seq items) →
        ∀ item ∈ items.zipIdx,
          p (taskFindings (numbered (location ++ "/" ++ name) item.2) item.1) := by
  rw [innerFindings, List.forall_mem_flatMap]
  refine forall₂_congr fun name _ => ?_
  split
  · rename_i items holds
    rw [List.forall_mem_map]
    refine ⟨fun all others same => ?_, fun all => all items holds⟩
    cases holds.symm.trans same
    exact all
  · rename_i other
    exact iff_of_true (List.forall_mem_nil _) fun items holds => absurd holds (other items)

/-- A task passes just when all tasks that the check finds inside it are in order. -/
theorem pass_taskFindings_iff (location : String) (task : Yaml) :
    (taskFindings location task).Pass known ↔
      ∀ inner, ReflTransGen Shows task inner → inner.asMap?.isSome = true →
        Regular known inner := by
  rw [taskFindings_eq, Findings.pass_foldl, pass_ownFindings_iff, forall_innerFindings_iff]
  constructor
  · rintro ⟨own, inside⟩ inner reaches
    rcases reaches.cases_head with rfl | ⟨next, ⟨isSection, holds, member⟩, reaches⟩
    · exact own
    · have smaller := Shows.sizeOf_lt ⟨isSection, holds, member⟩
      obtain ⟨i, counted⟩ := exists_mem_zipIdx member
      have passes := inside _ isSection _ holds _ counted
      exact (pass_taskFindings_iff _ _).mp passes inner reaches
  · intro all
    refine ⟨all task .refl, fun name isSection items holds item member => ?_⟩
    have shows : Shows task item.1 := ⟨isSection, holds, List.fst_mem_of_mem_zipIdx member⟩
    have smaller := shows.sizeOf_lt
    exact (pass_taskFindings_iff _ _).mpr fun inner reaches => all inner (.head shows reaches)
termination_by sizeOf task

/-! ## Files -/

/-- The documents that the check of tasks passes: lists of mappings, in which it finds no task that
is out of order. -/
inductive Vetted (known : String → Prop) : Yaml → Prop where
  | null : Vetted known .null
  | seq {items : List Yaml} (maps : ∀ item ∈ items, item.asMap?.isSome = true)
      (regular : ∀ item ∈ items, ∀ inner, ReflTransGen Shows item inner →
        inner.asMap?.isSome = true → Regular known inner) : Vetted known (.seq items)

theorem shape_eq_nil_iff {path : String} {items : List Yaml} :
    (taskList path (.seq items)).2 = [] ↔ ∀ item ∈ items, item.asMap?.isSome = true := by
  simp only [taskList, List.map_eq_nil_iff, List.filter_eq_nil_iff, Bool.not_eq_true,
    Option.isNone_eq_false_iff]
  refine ⟨fun all item member => ?_, fun all entry member =>
    all entry.1 (List.fst_mem_of_mem_zipIdx member)⟩
  obtain ⟨i, counted⟩ := exists_mem_zipIdx member
  exact all (item, i) counted

/-- The tasks of a list that are looked at are the mappings in it. -/
theorem map_snd_taskList (path : String) (items : List Yaml) :
    (taskList path (.seq items)).1.map (·.2) = items.filter fun item => item.asMap?.isSome := by
  rw [taskList, List.map_map]
  exact List.zipIdx_map_fst 0 _

theorem forall_mem_taskList_iff {path : String} {items : List Yaml} {p : Yaml → Prop} :
    (∀ task ∈ (taskList path (.seq items)).1, p task.2) ↔
      ∀ item ∈ items, item.asMap?.isSome = true → p item := by
  rw [← List.forall_mem_map (f := Prod.snd) (P := p), map_snd_taskList]
  simp only [List.mem_filter, and_imp]

theorem pass_shape_iff {shape : List Diagnostic} :
    Findings.Pass known ⟨shape, []⟩ ↔ shape = [] :=
  ⟨fun pass => pass.quiet, fun none => ⟨none, List.forall_mem_nil _⟩⟩

theorem pass_taskList_iff {path : String} {document : Yaml} :
    (((taskList path document).1.map fun (location, task) =>
        taskFindings location task).foldl (· ++ ·)
          (⟨(taskList path document).2, []⟩ : Findings)).Pass known ↔
      Vetted known document := by
  rw [Findings.pass_foldl, pass_shape_iff, List.forall_mem_map]
  simp only [pass_taskFindings_iff]
  cases document with
  | null => exact iff_of_true ⟨rfl, List.forall_mem_nil _⟩ .null
  | seq items =>
      rw [shape_eq_nil_iff, forall_mem_taskList_iff (p := fun task => ∀ inner,
        ReflTransGen Shows task inner → inner.asMap?.isSome = true → Regular known inner)]
      constructor
      · rintro ⟨maps, regular⟩
        exact .seq maps fun item member => regular item member (maps item member)
      · intro vetted
        cases vetted with
        | seq maps regular => exact ⟨maps, fun item member _ => regular item member⟩
  | bool | int | float | str | map | tagged =>
      exact iff_of_false (fun both => List.cons_ne_nil _ _ both.1) nofun

/-- Whether the tasks of a file are looked at. -/
def HoldsTasks (path : String) : Prop :=
  isBelow "tasks/" path = true ∨ isBelow "handlers/" path = true

/-- The check of a file passes over it just when it lies in neither directory. -/
theorem holdsTasks_iff {path : String} :
    HoldsTasks path ↔ ¬ (!isBelow "handlers/" path && !isBelow "tasks/" path) = true := by
  rw [HoldsTasks]
  cases isBelow "tasks/" path <;> simp

theorem pass_fileFindings_iff {read : Reader} {path content : String} :
    (fileFindings read path content).findings.Pass known ↔
      (isYamlFile path = true → ∃ document, read content.toList = .ok document ∧
        (HoldsTasks path → Vetted known document)) := by
  unfold fileFindings
  cases isYamlFile path with
  | false => exact iff_of_true Findings.pass_none nofun
  | true =>
      rw [forall_prop_of_true rfl, if_neg (by decide)]
      cases read content.toList with
      | error fault =>
          refine iff_of_false (fun pass => ?_) (fun ⟨_, same, _⟩ => nomatch same)
          exact List.cons_ne_nil _ _ pass.quiet
      | ok document =>
          have only : (∃ other, Except.ok (ε := Yaml.Fault) document = .ok other ∧
              (HoldsTasks path → Vetted known other)) ↔ (HoldsTasks path → Vetted known document) :=
            ⟨fun ⟨_, same, vetted⟩ => Except.ok.inj same ▸ vetted, fun vetted => ⟨_, rfl, vetted⟩⟩
          rw [only]
          dsimp only
          split
          · rename_i elsewhere
            exact iff_of_true Findings.pass_none fun holds =>
              absurd elsewhere (holdsTasks_iff.mp holds)
          · rename_i here
            rw [forall_prop_of_true (holdsTasks_iff.mpr here)]
            exact pass_taskList_iff

/-- Only a mapping names a handler. -/
theorem isSome_of_mem_handlerNames {item : Yaml} {target : String}
    (named : target ∈ handlerNames item) : item.asMap?.isSome = true := by
  obtain ⟨key, -, member⟩ := List.mem_flatMap.mp named
  cases found : item.asMap? with
  | some entries => rfl
  | none =>
      rw [Yaml.field?, found, Option.bind_none, Option.map_none, Option.getD_none] at member
      cases member

/-- The handlers of a file are those that the items of its list name. -/
theorem mem_handlers_fileFindings_iff {read : Reader} {path content target : String} :
    target ∈ (fileFindings read path content).handlers ↔
      isYamlFile path = true ∧ isBelow "handlers/" path = true ∧
        ∃ items, read content.toList = .ok (.seq items) ∧
          ∃ item ∈ items, target ∈ handlerNames item := by
  unfold fileFindings
  cases isYamlFile path with
  | false => exact iff_of_false List.not_mem_nil (fun both => nomatch both.1)
  | true =>
      rw [and_iff_right rfl, if_neg (by decide)]
      cases read content.toList with
      | error fault =>
          exact iff_of_false List.not_mem_nil (fun ⟨_, _, same, _⟩ => nomatch same)
      | ok document =>
          cases isBelow "handlers/" path with
          | false =>
              dsimp only
              refine iff_of_false ?_ (fun both => nomatch both.1)
              split <;> exact List.not_mem_nil
          | true =>
              rw [and_iff_right rfl]
              dsimp only
              rw [if_neg (by simp), if_pos rfl]
              cases document with
              | seq items =>
                  have only : (∃ others, Except.ok (ε := Yaml.Fault) (Yaml.seq items) =
                        .ok (.seq others) ∧ ∃ item ∈ others, target ∈ handlerNames item) ↔
                      ∃ item ∈ items, target ∈ handlerNames item :=
                    ⟨fun ⟨_, same, named⟩ => by cases same; exact named,
                      fun named => ⟨items, rfl, named⟩⟩
                  rw [only]
                  change target ∈ (taskList path (.seq items)).1.flatMap (handlerNames ·.2) ↔ _
                  rw [← List.flatMap_map Prod.snd handlerNames, map_snd_taskList, List.mem_flatMap]
                  exact exists_congr fun item => ⟨fun ⟨member, named⟩ =>
                    ⟨(List.mem_filter.mp member).1, named⟩, fun ⟨member, named⟩ =>
                    ⟨List.mem_filter.mpr ⟨member, isSome_of_mem_handlerNames named⟩, named⟩⟩
              | null | bool | int | float | str | map | tagged =>
                  exact iff_of_false List.not_mem_nil (fun ⟨_, same, _⟩ => nomatch same)

end Pass

/-! ## Roles -/

/-- The handlers that the check of a role finds. -/
def Known (read : Reader) (role : Role) (target : String) : Prop :=
  ∃ file ∈ role.files, target ∈ (fileFindings read file.1 file.2).handlers

theorem known_iff {read : Reader} {role : Role} {target : String} : Known read role target ↔
    target ∈ (role.files.map fun file => fileFindings read file.1 file.2).flatMap
      (·.handlers) := by
  simp only [Known, List.mem_flatMap, List.mem_map, exists_exists_and_eq_and]

/-- The check of a role finds nothing just when no required file is missing and all files pass. -/
theorem roleRead_eq_nil_iff {read : Reader} {role : Role} : roleRead read role = [] ↔
    (∀ path ∈ requiredFiles, role.contains path = true) ∧
      ∀ file ∈ role.files, (fileFindings read file.1 file.2).findings.Pass (Known read role) := by
  have listed (names : List String) (target : String) :
      ¬ (!names.contains target) = true ↔ target ∈ names := by simp
  unfold roleRead
  dsimp only
  rw [List.append_eq_nil_iff, List.append_eq_nil_iff, List.map_eq_nil_iff, List.map_eq_nil_iff,
    List.filter_eq_nil_iff, List.filter_eq_nil_iff, and_assoc]
  refine and_congr ?_ ?_
  · simp
  · constructor
    · rintro ⟨quiet, handled⟩
      have pass : Findings.Pass (Known read role) _ := ⟨quiet, fun n member =>
        known_iff.mpr ((listed _ _).mp (handled n member))⟩
      intro file member
      exact (Findings.pass_foldl.mp pass).2 _
        (List.mem_map_of_mem (List.mem_map_of_mem member))
    · intro files
      have start : Findings.none.Pass (Known read role) := Findings.pass_none
      have pass := Findings.pass_foldl.mpr
        ⟨start, List.forall_mem_map.mpr (List.forall_mem_map.mpr files)⟩
      exact ⟨pass.quiet, fun n member =>
        (listed _ _).mpr (known_iff.mp (pass.handled n member))⟩

end Check

end Rolewright
