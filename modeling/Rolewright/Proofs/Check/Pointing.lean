/-
# What a finding points at

A finding on a task should stand at the place of the task: the number of the item in the list of
its file, and the steps from there into blocks. The check counts the items that are mappings only,
and so a task that stands behind an item that is none gets too small a number. `pointsAtTasks_iff`
says that nothing else goes wrong: the findings of a role point at the tasks that they are about,
and each task has its findings at its place, just when no task behind such an item gives rise to a
finding.
-/

import Rolewright.Proofs.Check.Findings
import Rolewright.Proofs.Check.TaskPlaces
import Rolewright.Proofs.Role.Files

namespace Rolewright.Check

/-! ## What the check says about a task -/

/-- The finding on a notification that no handler takes. -/
def lost (n : Notification) : Diagnostic :=
  .error "notify[missing-handler]"
    ("notify target '" ++ n.target ++ "' matches no handler name or listen") n.location

/-- The finding on an item of a list of tasks that is no mapping. -/
def stray (location : String) : Diagnostic :=
  .error "schema[tasks]" "each task must be a mapping" location

/-- A finding among others, or one on a notification among them. -/
def Findings.Reports (known : String → Prop) (d : Diagnostic) (found : Findings) : Prop :=
  d ∈ found.diagnostics ∨ ∃ n ∈ found.notifications, ¬ known n.target ∧ d = lost n

/-- An item that is found in a task by steps: each a section, and the number of an item in the list
there. -/
inductive Descends : Yaml → List (String × Nat) → Yaml → Prop where
  | here {task : Yaml} : Descends task [] task
  | into {task next inner : Yaml} {name : String} {index : Nat} {items : List Yaml}
      {steps : List (String × Nat)} (isSection : name ∈ blockSections)
      (holds : task.field? name = some (.seq items)) (item : items[index]? = some next)
      (rest : Descends next steps inner) : Descends task ((name, index) :: steps) inner

/-- The findings about an item, which stands in the list of a file or in that of a section. -/
inductive Concerns (known : String → Prop) (location : String) (inner : Yaml) (d : Diagnostic) :
    List (String × Nat) → Prop where
  | stray (isNone : inner.asMap? = none) (same : d = stray location) :
      Concerns known location inner d []
  | own {steps : List (String × Nat)} (reports : (ownFindings location inner).Reports known d) :
      Concerns known location inner d steps

/-- Nothing is wrong with a task and with those inside it. -/
def InOrder (known : String → Prop) (item : Yaml) : Prop :=
  ∀ steps inner, Descends item steps inner → inner.asMap?.isSome = true → Regular known inner

section Role

variable (read : Reader) (role : Role)

/-- A file of tasks or handlers that holds a list. -/
def IsTaskFile (path : String) (items : List Yaml) : Prop :=
  ∃ content, (path, content) ∈ role.files ∧ isYamlFile path = true ∧ HoldsTasks path ∧
    read content.toList = .ok (.seq items)

/-- The findings of the check point at the tasks that they are about. -/
structure PointsAtTasks : Prop where
  /-- What is found at a place is about the item there. -/
  there : ∀ path items, IsTaskFile read role path items → ∀ index steps, AreSteps steps →
    ∀ d ∈ roleRead read role, d.location = some (taskPlace path index steps) →
      ∃ item inner, items[index]? = some item ∧ Descends item steps inner ∧
        Concerns (Known read role) (taskPlace path index steps) inner d steps
  /-- What there is to say about an item is found at its place. -/
  told : ∀ path items, IsTaskFile read role path items → ∀ index item, items[index]? = some item →
    ∀ steps inner, Descends item steps inner →
      ∀ d, Concerns (Known read role) (taskPlace path index steps) inner d steps →
        d ∈ roleRead read role

/-- Each task behind an item that is no mapping is in order. -/
def OrderedBehindStrays : Prop :=
  ∀ path items, IsTaskFile read role path items →
    ∀ before item after, items = before ++ item :: after →
      (∃ other ∈ before, other.asMap? = none) → item.asMap?.isSome = true →
        InOrder (Known read role) item

end Role

/-! ## Findings that are gathered -/

section Reports

variable {known : String → Prop} {d : Diagnostic}

theorem Findings.not_reports_none : ¬ Findings.none.Reports known d := by
  rintro (member | ⟨n, member, -⟩) <;> cases member

theorem Findings.reports_append {a b : Findings} :
    (a ++ b).Reports known d ↔ a.Reports known d ∨ b.Reports known d := by
  have parts : (a ++ b).Reports known d ↔ d ∈ a.diagnostics ++ b.diagnostics ∨
      ∃ n ∈ a.notifications ++ b.notifications, ¬ known n.target ∧ d = lost n := Iff.rfl
  rw [parts]
  simp only [Findings.Reports, List.mem_append, or_and_right, exists_or]
  exact or_or_or_comm

theorem Findings.reports_foldl {all : List Findings} {start : Findings} :
    (all.foldl (· ++ ·) start).Reports known d ↔
      start.Reports known d ∨ ∃ found ∈ all, found.Reports known d := by
  induction all generalizing start with
  | nil => simp
  | cons found all ih =>
      rw [List.foldl_cons, ih, reports_append, or_assoc]
      simp only [List.mem_cons, or_and_right, exists_or, exists_eq_left]

theorem Findings.reports_shape_iff {shape : List Diagnostic} :
    Findings.Reports known d ⟨shape, []⟩ ↔ d ∈ shape :=
  or_iff_left fun ⟨_, member, _⟩ => List.not_mem_nil member

/-- To say nothing is to pass. -/
theorem Findings.pass_iff_forall_not_reports {found : Findings} :
    found.Pass known ↔ ∀ d, ¬ found.Reports known d := by
  constructor
  · rintro ⟨quiet, handled⟩ d (member | ⟨n, member, unknown, -⟩)
    · rw [quiet] at member
      cases member
    · exact unknown (handled n member)
  · intro silent
    refine ⟨List.eq_nil_iff_forall_not_mem.mpr fun d member => silent d (.inl member),
      fun n member => by_contra fun unknown => silent (lost n) (.inr ⟨n, member, unknown, rfl⟩)⟩

/-- The findings on the keys of a task are at its place, and begin with other words than the finding
on an item that is no mapping. -/
theorem of_mem_keyDiagnostics {location : String} {keys : List String}
    (member : d ∈ keyDiagnostics location keys) :
    d.location = some location ∧ d.message.toList.head? ≠ some 'e' := by
  unfold keyDiagnostics at member
  simp only [List.mem_append, List.mem_ite_nil_left, List.mem_singleton, List.mem_map] at member
  rcases member with ((⟨-, rfl⟩ | ⟨-, rfl⟩) | ⟨-, rfl⟩) | ⟨name, -, rfl⟩
  · exact ⟨rfl, by simp [Diagnostic.warning]⟩
  · exact ⟨rfl, by simp [Diagnostic.error]⟩
  · exact ⟨rfl, by simp [Diagnostic.error, String.toList_append]⟩
  · exact ⟨rfl, by simp [Diagnostic.warning, String.toList_append]⟩

/-- So are the findings on a task itself. -/
theorem of_reports_ownFindings {location : String} {task : Yaml}
    (reports : (ownFindings location task).Reports known d) :
    d.location = some location ∧ d.message.toList.head? ≠ some 'e' := by
  unfold ownFindings at reports
  cases found : task.asMap? with
  | none =>
      rw [found] at reports
      exact absurd reports Findings.not_reports_none
  | some entries =>
      rw [found] at reports
      rcases reports with member | ⟨n, member, -, rfl⟩
      · exact of_mem_keyDiagnostics member
      · obtain ⟨target, -, rfl⟩ := List.mem_map.mp member
        exact ⟨rfl, by simp [lost, Diagnostic.error, String.toList_append]⟩

/-- Only on a mapping there are such findings. -/
theorem isSome_of_reports_ownFindings {location : String} {task : Yaml}
    (reports : (ownFindings location task).Reports known d) : task.asMap?.isSome = true := by
  unfold ownFindings at reports
  cases found : task.asMap? with
  | none =>
      rw [found] at reports
      exact absurd reports Findings.not_reports_none
  | some entries => rfl

/-! ## Tasks -/

theorem Descends.areSteps {task inner : Yaml} {steps : List (String × Nat)}
    (descends : Descends task steps inner) : AreSteps steps := by
  induction descends with
  | here => exact List.forall_mem_nil _
  | into isSection _ _ _ ih => exact List.forall_mem_cons.mpr ⟨isSection, ih⟩

/-- Steps lead into mappings only. -/
theorem Descends.isSome {task inner : Yaml} {steps : List (String × Nat)}
    (descends : Descends task steps inner) (isMap : inner.asMap?.isSome = true) :
    task.asMap?.isSome = true := by
  cases descends with
  | here => exact isMap
  | into _ holds _ _ =>
      obtain ⟨entries, found, -⟩ := Option.bind_eq_some_iff.mp holds
      rw [found, Option.isSome_some]

theorem exists_innerFindings_iff {location : String} {task : Yaml} {p : Findings → Prop} :
    (∃ found ∈ innerFindings location task, p found) ↔
      ∃ name ∈ blockSections, ∃ items, task.field? name = some (.seq items) ∧
        ∃ index item, items[index]? = some item ∧
          p (taskFindings (numbered (location ++ "/" ++ name) index) item) := by
  have none : (∀ found ∈ innerFindings location task, ¬ p found) ↔ _ := forall_innerFindings_iff
  have some := not_congr none
  simp only [not_forall, not_not, exists_prop] at some
  rw [some]
  refine exists_congr fun name => and_congr_right fun _ => exists_congr fun items =>
    and_congr_right fun _ => ?_
  constructor
  · rintro ⟨⟨item, index⟩, member, holds⟩
    exact ⟨index, item, List.mem_zipIdx_iff_getElem?.mp member, holds⟩
  · rintro ⟨index, item, there, holds⟩
    exact ⟨(item, index), List.mem_zipIdx_iff_getElem?.mpr there, holds⟩

/-- A step into a block is written after the place. -/
theorem numbered_append_stepsText (location name : String) (index : Nat)
    (steps : List (String × Nat)) :
    numbered (location ++ "/" ++ name) index ++ stepsText steps =
      location ++ stepsText ((name, index) :: steps) := by
  simp only [numbered, stepsText, String.append_assoc]

/-- The findings on a task are those on the items inside it, each at its place. -/
theorem reports_taskFindings_iff (location : String) (task : Yaml) :
    (taskFindings location task).Reports known d ↔
      ∃ steps inner, Descends task steps inner ∧
        (ownFindings (location ++ stepsText steps) inner).Reports known d := by
  rw [taskFindings_eq, Findings.reports_foldl, exists_innerFindings_iff]
  constructor
  · rintro (own | ⟨name, isSection, items, holds, index, item, there, inside⟩)
    · exact ⟨[], task, .here, by rwa [stepsText, String.append_empty]⟩
    · have smaller := Shows.sizeOf_lt ⟨isSection, holds, List.mem_of_getElem? there⟩
      obtain ⟨steps, inner, descends, own⟩ := (reports_taskFindings_iff _ item).mp inside
      rw [numbered_append_stepsText] at own
      exact ⟨(name, index) :: steps, inner, .into isSection holds there descends, own⟩
  · rintro ⟨steps, inner, descends, own⟩
    cases descends with
    | here => exact .inl (by rwa [stepsText, String.append_empty] at own)
    | @into _ item _ name index items steps isSection holds there rest =>
        have smaller := Shows.sizeOf_lt ⟨isSection, holds, List.mem_of_getElem? there⟩
        rw [← numbered_append_stepsText] at own
        exact .inr ⟨name, isSection, items, holds, index, item, there,
          (reports_taskFindings_iff _ item).mpr ⟨steps, inner, rest, own⟩⟩
termination_by sizeOf task

/-- A task is in order just when nothing is found in it, wherever it stands. -/
theorem inOrder_iff (place : List (String × Nat) → String) {task : Yaml} :
    InOrder known task ↔ ∀ steps inner, Descends task steps inner →
      ∀ d, ¬ (ownFindings (place steps) inner).Reports known d := by
  refine forall_congr' fun steps => forall_congr' fun inner => imp_congr_right fun _ => ?_
  exact pass_ownFindings_iff.symm.trans Findings.pass_iff_forall_not_reports

/-! ## Files -/

/-- How many of some items are mappings. -/
def countMaps (items : List Yaml) : Nat :=
  items.countP fun item => item.asMap?.isSome

/-- They are fewer than the items just when one of these is none. -/
theorem countMaps_lt_length_iff {items : List Yaml} :
    countMaps items < items.length ↔ ∃ other ∈ items, other.asMap? = none := by
  have least : countMaps items ≤ items.length := List.countP_le_length
  rw [Nat.lt_iff_le_and_ne, and_iff_right least, countMaps, Ne, List.countP_eq_length]
  simp only [not_forall, Option.not_isSome_iff_eq_none, exists_prop]

theorem getElem?_eq_some_iff_split {items : List Yaml} {index : Nat} {item : Yaml} :
    items[index]? = some item ↔ ∃ before after, items = before ++ item :: after ∧
      before.length = index := by
  constructor
  · intro there
    obtain ⟨inside, rfl⟩ := List.getElem?_eq_some_iff.mp there
    exact ⟨items.take index, items.drop (index + 1),
      by rw [← List.drop_eq_getElem_cons, List.take_append_drop],
      List.length_take_of_le (Nat.le_of_lt inside)⟩
  · rintro ⟨before, after, rfl, rfl⟩
    rw [List.getElem?_append_right (Nat.le_refl _), Nat.sub_self, List.getElem?_cons_zero]

/-- A task stands in the list of those looked at behind the mappings before it. -/
theorem mem_taskList_iff {path place : String} {items : List Yaml} {task : Yaml} :
    (place, task) ∈ (taskList path (.seq items)).1 ↔
      ∃ before after, items = before ++ task :: after ∧ task.asMap?.isSome = true ∧
        place = numbered path (countMaps before) := by
  simp only [taskList, List.mem_map, Prod.exists, Prod.mk.injEq, List.mem_zipIdx_iff_getElem?]
  constructor
  · rintro ⟨other, index, there, same, rfl⟩
    obtain ⟨kept, others, split, rfl⟩ := getElem?_eq_some_iff_split.mp there
    obtain ⟨early, rest, rfl, isKept, found⟩ := List.filter_eq_append_iff.mp split
    obtain ⟨skipped, after, rfl, skips, isMap, -⟩ := List.filter_eq_cons_iff.mp found
    refine ⟨early ++ skipped, after, (List.append_assoc ..).symm, isMap, ?_⟩
    rw [← same, countMaps, List.countP_append, List.countP_eq_zero.mpr skips, Nat.add_zero,
      List.countP_eq_length_filter, isKept]
  · rintro ⟨before, after, rfl, isMap, rfl⟩
    refine ⟨task, countMaps before, ?_, rfl, rfl⟩
    rw [List.filter_append, List.filter_cons_of_pos (by exact isMap), countMaps,
      List.countP_eq_length_filter, List.getElem?_append_right (Nat.le_refl _), Nat.sub_self,
      List.getElem?_cons_zero]

theorem mem_shape_iff {path : String} {items : List Yaml} :
    d ∈ (taskList path (.seq items)).2 ↔ ∃ index item, items[index]? = some item ∧
      item.asMap? = none ∧ d = stray (numbered path index) := by
  simp only [taskList, List.mem_map, List.mem_filter, Prod.exists, List.mem_zipIdx_iff_getElem?,
    Option.isNone_iff_eq_none, and_assoc]
  constructor
  · rintro ⟨item, index, there, isNone, same⟩
    exact ⟨index, item, there, isNone, same.symm⟩
  · rintro ⟨index, item, there, isNone, same⟩
    exact ⟨item, index, there, isNone, same.symm⟩

/-- What the check gathers from a file with a list. -/
def listFindings (path : String) (items : List Yaml) : Findings :=
  ((taskList path (.seq items)).1.map fun (location, task) =>
    taskFindings location task).foldl (· ++ ·) ⟨(taskList path (.seq items)).2, []⟩

/-- It is about the items that are no mappings, each at its place, and about the tasks, each at the
place that it would have among the mappings alone. -/
theorem reports_listFindings_iff {path : String} {items : List Yaml} :
    (listFindings path items).Reports known d ↔
      (∃ index item, items[index]? = some item ∧ item.asMap? = none ∧
        d = stray (numbered path index)) ∨
      ∃ before task after, items = before ++ task :: after ∧
        ∃ steps inner, Descends task steps inner ∧
          (ownFindings (taskPlace path (countMaps before) steps) inner).Reports known d := by
  rw [listFindings, Findings.reports_foldl, Findings.reports_shape_iff, mem_shape_iff]
  refine or_congr_right ⟨?_, ?_⟩
  · rintro ⟨found, gathered, reports⟩
    obtain ⟨⟨place, task⟩, member, rfl⟩ := List.mem_map.mp gathered
    obtain ⟨before, after, rfl, -, rfl⟩ := mem_taskList_iff.mp member
    exact ⟨before, task, after, rfl, (reports_taskFindings_iff _ task).mp reports⟩
  · rintro ⟨before, task, after, rfl, steps, inner, descends, own⟩
    have isMap := descends.isSome (isSome_of_reports_ownFindings own)
    have member : (numbered path (countMaps before), task) ∈
        (taskList path (.seq (before ++ task :: after))).1 :=
      mem_taskList_iff.mpr ⟨before, after, rfl, isMap, rfl⟩
    exact ⟨_, List.mem_map_of_mem member,
      (reports_taskFindings_iff _ task).mpr ⟨steps, inner, descends, own⟩⟩

theorem taskPlace_nil (path : String) (index : Nat) :
    taskPlace path index [] = numbered path index :=
  String.append_empty

theorem location_of_reports_listFindings {path : String} {items : List Yaml}
    (reports : (listFindings path items).Reports known d) :
    ∃ index steps, AreSteps steps ∧ d.location = some (taskPlace path index steps) := by
  rcases reports_listFindings_iff.mp reports with
    ⟨index, item, -, -, rfl⟩ | ⟨before, task, after, -, steps, inner, descends, own⟩
  · exact ⟨index, [], List.forall_mem_nil _, congrArg some (taskPlace_nil path index).symm⟩
  · exact ⟨_, steps, descends.areSteps, (of_reports_ownFindings own).1⟩

theorem findings_fileFindings {read : Reader} {path content : String} {items : List Yaml}
    (yaml : isYamlFile path = true) (tasks : HoldsTasks path)
    (reads : read content.toList = .ok (.seq items)) :
    (fileFindings read path content).findings = listFindings path items := by
  unfold fileFindings
  simp only [yaml, reads, if_neg (holdsTasks_iff.mp tasks)]
  rfl

/-- What is found in a file without a list of tasks is at its path or at one of its lines. -/
theorem location_of_reports_fileFindings {read : Reader} {path content : String}
    (reports : (fileFindings read path content).findings.Reports known d) :
    isYamlFile path = true ∧
      ((HoldsTasks path ∧ ∃ items, read content.toList = .ok (.seq items)) ∨
        d.location = some path ∨
        ∃ line : Nat, d.location = some (path ++ ":" ++ toString line)) := by
  unfold fileFindings at reports
  cases yaml : isYamlFile path with
  | false =>
      rw [yaml] at reports
      exact absurd reports Findings.not_reports_none
  | true =>
      refine ⟨rfl, ?_⟩
      rw [yaml, if_neg (by decide)] at reports
      cases reads : read content.toList with
      | error fault =>
          rw [reads] at reports
          have same := List.mem_singleton.mp (Findings.reports_shape_iff.mp reports)
          cases located : fault.line with
          | none => exact .inr (.inl (by rw [same, located]; rfl))
          | some line => exact .inr (.inr ⟨line, by rw [same, located]; rfl⟩)
      | ok document =>
          rw [reads] at reports
          dsimp only at reports
          split at reports
          · exact absurd reports Findings.not_reports_none
          · rename_i here
            have holds := holdsTasks_iff.mpr here
            cases document with
            | seq items => exact .inl ⟨holds, items, rfl⟩
            | null => exact absurd reports Findings.not_reports_none
            | bool | int | float | str | map | tagged =>
                have same := List.mem_singleton.mp (Findings.reports_shape_iff.mp reports)
                exact .inr (.inl (by rw [same]; rfl))

/-! ## Roles -/

/-- What the check of a role finds is found in a file of it, if no file is missing. -/
theorem mem_roleRead_iff {read : Reader} {role : Role} : d ∈ roleRead read role ↔
    (∃ path ∈ requiredFiles, role.contains path = false ∧
      d = .error "required-file[missing]" (path ++ " is missing") path) ∨
    ∃ file ∈ role.files,
      (fileFindings read file.1 file.2).findings.Reports (Known read role) d := by
  have gathered : (∃ file ∈ role.files,
        (fileFindings read file.1 file.2).findings.Reports (Known read role) d) ↔
      (((role.files.map fun file => fileFindings read file.1 file.2).map
        (·.findings)).foldl (· ++ ·) Findings.none).Reports (Known read role) d := by
    rw [Findings.reports_foldl, or_iff_right Findings.not_reports_none]
    simp only [List.mem_map, exists_exists_and_eq_and]
  rw [gathered]
  unfold roleRead Findings.Reports
  simp only [List.mem_append, List.mem_map, List.mem_filter, or_assoc, and_assoc, known_iff,
    Bool.not_eq_true', List.contains_eq_mem, decide_eq_false_iff_not, lost, @eq_comm _ d]

end Reports

section Theorem

variable {read : Reader} {role : Role}

/-- A path of a role has one text. -/
theorem IsTaskFile.unique {path : String} {items others : List Yaml}
    (file : IsTaskFile read role path items) (other : IsTaskFile read role path others) :
    items = others := by
  obtain ⟨content, member, -, -, reads⟩ := file
  obtain ⟨content', member', -, -, reads'⟩ := other
  have distinct := Entries.nodup_of_increasing role.increasing
  have same := (Entries.get?_of_mem distinct member).symm.trans
    (Entries.get?_of_mem distinct member')
  cases same
  cases reads.symm.trans reads'
  rfl

/-- What is found in the list of a file is found in the role. -/
theorem IsTaskFile.mem_roleRead {path : String} {items : List Yaml} {d : Diagnostic}
    (file : IsTaskFile read role path items)
    (reports : (listFindings path items).Reports (Known read role) d) : d ∈ roleRead read role := by
  obtain ⟨content, member, yaml, tasks, reads⟩ := file
  refine mem_roleRead_iff.mpr (.inr ⟨(path, content), member, ?_⟩)
  rwa [findings_fileFindings yaml tasks reads]

/-- What is found at the place of a task is found in the list of its file. -/
theorem IsTaskFile.reports_of_mem_roleRead {path : String} {items : List Yaml} {d : Diagnostic}
    (file : IsTaskFile read role path items) {index : Nat} {steps : List (String × Nat)}
    (areSteps : AreSteps steps) (found : d ∈ roleRead read role)
    (located : d.location = some (taskPlace path index steps)) :
    (listFindings path items).Reports (Known read role) d := by
  obtain ⟨-, -, yaml, -, -⟩ := id file
  rcases mem_roleRead_iff.mp found with
    ⟨missing, isRequired, -, rfl⟩ | ⟨⟨other, content⟩, member, reports⟩
  · have isYaml : ∀ path ∈ requiredFiles, isYamlFile path = true := by decide
    exact absurd (Option.some.inj located).symm (taskPlace_ne_path (isYaml missing isRequired))
  · obtain ⟨yaml', ⟨tasks, others, reads⟩ | whole | ⟨line, part⟩⟩ :=
      location_of_reports_fileFindings reports
    · rw [findings_fileFindings yaml' tasks reads] at reports
      obtain ⟨index', steps', areSteps', located'⟩ := location_of_reports_listFindings reports
      have same := Option.some.inj (located.symm.trans located')
      obtain ⟨rfl, -, -⟩ := taskPlace_inj yaml yaml' areSteps areSteps' same
      rwa [file.unique ⟨content, member, yaml', tasks, reads⟩]
    · exact absurd (Option.some.inj (located.symm.trans whole)) (taskPlace_ne_path yaml')
    · exact absurd (Option.some.inj (located.symm.trans part)) taskPlace_ne_line

/-- Where something is found in a task, the task is not in order. -/
theorem not_inOrder {known : String → Prop} {task inner : Yaml} {steps : List (String × Nat)}
    (descends : Descends task steps inner) {location : String} {d : Diagnostic}
    (reports : (ownFindings location inner).Reports known d) : ¬ InOrder known task :=
  fun inOrder => (inOrder_iff fun _ => location).mp inOrder steps inner descends d reports

/-- What is found in a task is found at its place, as all before it are mappings. -/
theorem countMaps_eq_length (ordered : OrderedBehindStrays read role) {path : String}
    {before after : List Yaml} {task inner : Yaml} {steps : List (String × Nat)}
    (file : IsTaskFile read role path (before ++ task :: after))
    (descends : Descends task steps inner) {location : String} {d : Diagnostic}
    (reports : (ownFindings location inner).Reports (Known read role) d) :
    countMaps before = before.length := by
  have isMap := descends.isSome (isSome_of_reports_ownFindings reports)
  have all : ¬ countMaps before < before.length := fun fewer =>
    not_inOrder descends reports
      (ordered path _ file before task after rfl (countMaps_lt_length_iff.mp fewer) isMap)
  exact Nat.le_antisymm List.countP_le_length (Nat.le_of_not_lt all)

theorem pointsAtTasks_of_ordered (ordered : OrderedBehindStrays read role) :
    PointsAtTasks read role := by
  constructor
  · intro path items file index steps areSteps d found located
    have yaml : isYamlFile path = true := by
      obtain ⟨-, -, yaml, -, -⟩ := file
      exact yaml
    have reports := file.reports_of_mem_roleRead areSteps found located
    rcases reports_listFindings_iff.mp reports with
      ⟨index', item, there, isNone, rfl⟩ | ⟨before, task, after, rfl, steps', inner, descends, own⟩
    · have same := (Option.some.inj located).symm.trans (taskPlace_nil path index').symm
      obtain ⟨-, rfl, rfl⟩ := taskPlace_inj yaml yaml areSteps (List.forall_mem_nil _) same
      exact ⟨item, item, there, .here, .stray isNone (by rw [taskPlace_nil])⟩
    · have located' := (of_reports_ownFindings own).1
      have same := Option.some.inj (located.symm.trans located')
      obtain ⟨-, rfl, rfl⟩ := taskPlace_inj yaml yaml areSteps descends.areSteps same
      have length := countMaps_eq_length ordered file descends own
      have there : (before ++ task :: after)[countMaps before]? = some task :=
        getElem?_eq_some_iff_split.mpr ⟨before, after, rfl, length.symm⟩
      exact ⟨task, inner, there, descends, .own own⟩
  · intro path items file index item there steps inner descends d concerns
    refine file.mem_roleRead (reports_listFindings_iff.mpr ?_)
    cases concerns with
    | stray isNone same =>
        cases descends with
        | here => exact .inl ⟨index, item, there, isNone, taskPlace_nil path index ▸ same⟩
    | own own =>
        obtain ⟨before, after, rfl, rfl⟩ := getElem?_eq_some_iff_split.mp there
        have length := countMaps_eq_length ordered file descends own
        exact .inr ⟨before, item, after, rfl, steps, inner, descends, length ▸ own⟩

/-- Where something is wrong with a task, something is found in it. -/
theorem exists_reports {known : String → Prop} {task : Yaml} (wrong : ¬ InOrder known task)
    (place : List (String × Nat) → String) :
    ∃ steps inner d, Descends task steps inner ∧
      (ownFindings (place steps) inner).Reports known d := by
  rw [inOrder_iff place] at wrong
  simp only [not_forall, not_not] at wrong
  obtain ⟨steps, inner, descends, d, reports⟩ := wrong
  exact ⟨steps, inner, d, descends, reports⟩

/-- If what is found at a place is about the item there, then a task behind an item that is no
mapping is in order, if the tasks before it are: what would be found in it would be told of an item
before it that is no mapping, or of a task behind one. -/
theorem ordered_of_pointsAtTasks (points : PointsAtTasks read role) :
    OrderedBehindStrays read role := by
  intro path items file before
  induction known : before.length using Nat.strong_induction_on generalizing before with
  | _ length ih =>
  subst known
  rintro item after rfl stray -
  by_contra wrong
  obtain ⟨steps, inner, d, descends, own⟩ :=
    exists_reports wrong (taskPlace path (countMaps before))
  have found := file.mem_roleRead (reports_listFindings_iff.mpr
    (.inr ⟨before, item, after, rfl, steps, inner, descends, own⟩))
  obtain ⟨task, inner', there, descends', concerns⟩ := points.there path _ file (countMaps before)
    steps descends.areSteps d found (of_reports_ownFindings own).1
  -- The place is that of a task before the item, as one before it is not counted.
  rw [List.getElem?_append_left (countMaps_lt_length_iff.mpr stray)] at there
  obtain ⟨early, late, rfl, length⟩ := getElem?_eq_some_iff_split.mp there
  cases concerns with
  | stray _ same =>
      exact (of_reports_ownFindings own).2 (by simp [same, Check.stray, Diagnostic.error])
  | own own' =>
      have isMap := descends'.isSome (isSome_of_reports_ownFindings own')
      -- One of the items before that task is not counted either.
      have behind : ∃ stray ∈ early, stray.asMap? = none := by
        refine countMaps_lt_length_iff.mp ?_
        rw [countMaps, List.countP_append, List.countP_cons_of_pos (by exact isMap)] at length
        rw [countMaps]
        omega
      exact not_inOrder descends' own' (ih early.length (by simp) early rfl task
        (late ++ item :: after) (by simp) behind isMap)

/-- The findings of a role point at the tasks that they are about just when each task behind an item
that is no mapping is in order. -/
theorem pointsAtTasks_iff (read : Reader) (role : Role) :
    PointsAtTasks read role ↔ OrderedBehindStrays read role :=
  ⟨ordered_of_pointsAtTasks, pointsAtTasks_of_ordered⟩

end Theorem

/-- Tasks of which the first one is a word. -/
def mixedTasks : String := "- restart\n- package:\n    name: httpd\n"

/-- A role with these tasks. -/
def mixedRole : Role :=
  .ofList [("meta/main.yml", "galaxy_info:\n  role_name: web\n"), ("tasks/main.yml", mixedTasks)]

/-- Whether the first item of a list is a text. -/
def beginsWithText : Yaml → Bool
  | .seq (.str _ :: _) => true
  | _ => false

theorem read_mixedTasks :
    ∃ text rest, Yaml.read mixedTasks.toList = .ok (.seq (.str text :: rest)) := by
  have begins : (Yaml.read mixedTasks.toList).toOption.any beginsWithText = true := by
    decide +kernel
  cases reads : Yaml.read mixedTasks.toList with
  | error fault =>
      rw [reads] at begins
      cases begins
  | ok document =>
      rw [reads] at begins
      change beginsWithText document = true at begins
      unfold beginsWithText at begins
      split at begins
      · exact ⟨_, _, rfl⟩
      · cases begins

/-- That the second item has no name is found at the first one, which is a word. -/
theorem not_pointsAtTasks_mixedRole :
    Diagnostic.warning "name[missing]" "all tasks should be named" "tasks/main.yml#1" ∈
        Check.role mixedRole ∧
      ¬ PointsAtTasks Yaml.read mixedRole := by
  have found : Diagnostic.warning "name[missing]" "all tasks should be named" "tasks/main.yml#1" ∈
      Check.role mixedRole := by
    decide +kernel
  refine ⟨found, fun points => ?_⟩
  have member : ("tasks/main.yml", mixedTasks) ∈ mixedRole.files := by decide +kernel
  obtain ⟨text, rest, reads⟩ := read_mixedTasks
  obtain ⟨item, inner, there, descends, concerns⟩ := points.there "tasks/main.yml" _
    ⟨mixedTasks, member, by decide, .inl (by decide), reads⟩ 0 [] (List.forall_mem_nil _) _ found
    (by decide)
  cases there
  cases descends with
  | here =>
      cases concerns with
      | stray _ same => cases same
      | own own => cases isSome_of_reports_ownFindings own

end Rolewright.Check
