/-
# Where the templates and files of a cookbook go

Completing a role puts the templates and the static files of the cookbook at the paths that are
made of theirs. These paths are not always different ones: the directory for all platforms is taken
off, and one ending of templates becomes another one (`templatePath_eq_iff`). What is put at one
path first stays there, so a text gets lost just when another one is meant for the same path
(`keepsAssets_iff`).
-/

import Rolewright.Proofs.Role.Completion

namespace Rolewright

open Text Cookbook

namespace Role

/-! ## The paths of templates -/

/-- A template has the ending that becomes another one, and a second one has this other already. -/
def IsRenamedTo (path other : String) : Prop :=
  ∃ stem, withoutDefault path = stem ++ ".erb" ∧ withoutDefault other = stem ++ ".j2"

/-- Two templates go to one path. -/
def MeetAsTemplates (path other : String) : Prop :=
  withoutDefault path = withoutDefault other ∨ IsRenamedTo path other ∨ IsRenamedTo other path

theorem templatePath_of_erb {path stem : String} (bare : withoutDefault path = stem ++ ".erb") :
    templatePath path = "templates/" ++ (stem ++ ".j2") := by
  have ending : beforeSuffix? ".erb".toList (withoutDefault path).toList = some stem.toList := by
    rw [bare, String.toList_append]
    exact List.isSuffixOf?_eq_some_iff_append_eq.mpr rfl
  rw [templatePath]
  simp only [ending, String.ofList_toList, String.append_assoc]

theorem templatePath_of_other {path : String}
    (other : ∀ stem, withoutDefault path ≠ stem ++ ".erb") :
    templatePath path = "templates/" ++ withoutDefault path := by
  have ending : beforeSuffix? ".erb".toList (withoutDefault path).toList = none := by
    cases found : beforeSuffix? ".erb".toList (withoutDefault path).toList with
    | none => rfl
    | some stem =>
        have split : stem ++ ".erb".toList = (withoutDefault path).toList :=
          List.isSuffixOf?_eq_some_iff_append_eq.mp found
        refine absurd (String.toList_inj.mp ?_) (other (String.ofList stem))
        rw [String.toList_append, String.toList_ofList, split]
  rw [templatePath]
  simp only [ending, String.ofList_toList]

/-- Two templates stand in one place of a role just when one of them has the path of the other,
whatever directory for all platforms and whichever of two endings it has. -/
theorem templatePath_eq_iff {path other : String} :
    templatePath path = templatePath other ↔ MeetAsTemplates path other := by
  have apart (stem stem' : String) : stem ++ ".j2" ≠ stem' ++ ".erb" := by
    intro same
    have last := congrArg (fun text => text.toList.getLast?) same
    simp [String.toList_append] at last
  have renamed {path other : String} (renamed : IsRenamedTo path other) :
      templatePath path = templatePath other := by
    obtain ⟨stem, first, second⟩ := renamed
    have ending (stem' : String) : withoutDefault other ≠ stem' ++ ".erb" :=
      second ▸ apart stem stem'
    rw [templatePath_of_erb first, templatePath_of_other ending, second]
  constructor
  · intro same
    by_cases first : ∃ stem, withoutDefault path = stem ++ ".erb" <;>
      by_cases second : ∃ stem, withoutDefault other = stem ++ ".erb"
    · obtain ⟨stem, first⟩ := first
      obtain ⟨stem', second⟩ := second
      rw [templatePath_of_erb first, templatePath_of_erb second, String.append_right_inj,
        String.append_left_inj] at same
      exact .inl (by rw [first, second, same])
    · obtain ⟨stem, first⟩ := first
      rw [templatePath_of_erb first, templatePath_of_other (not_exists.mp second),
        String.append_right_inj] at same
      exact .inr (.inl ⟨stem, first, same.symm⟩)
    · obtain ⟨stem, second⟩ := second
      rw [templatePath_of_other (not_exists.mp first), templatePath_of_erb second,
        String.append_right_inj] at same
      exact .inr (.inr ⟨stem, second, same⟩)
    · rw [templatePath_of_other (not_exists.mp first), templatePath_of_other (not_exists.mp second),
        String.append_right_inj] at same
      exact .inl same
  · rintro (same | forwards | backwards)
    · rw [templatePath, templatePath, same]
    · exact renamed forwards
    · exact (renamed backwards).symm

theorem filePath_eq_iff {path other : String} :
    filePath path = filePath other ↔ withoutDefault path = withoutDefault other :=
  String.append_right_inj _

/-! ## What stands where -/

theorem head?_templatePath (path : String) : (templatePath path).toList.head? = some 't' := by
  unfold templatePath
  dsimp only
  split <;> simp [String.toList_append]

theorem head?_filePath (path : String) : (filePath path).toList.head? = some 'f' := by
  simp [filePath, String.toList_append]

section Completed

variable {role : Role} {cookbook : Cookbook}

/-- Nothing but templates is meant for a path of templates. -/
theorem supplement_templatePath_iff {path content : String} :
    Supplement cookbook (templatePath path) content ↔
      ∃ asset ∈ cookbook.templates, asset.content = some content ∧
        templatePath asset.path = templatePath path := by
  have head := head?_templatePath path
  constructor
  · intro supplement
    generalize place : templatePath path = there at supplement head
    cases supplement with
    | metadata | defaults | readme => cases head
    | template member text => exact ⟨_, member, text, rfl⟩
    | file =>
        rw [head?_filePath] at head
        cases head
  · rintro ⟨asset, member, text, same⟩
    exact same ▸ .template member text

/-- Nothing but static files is meant for a path of static files. -/
theorem supplement_filePath_iff {path content : String} :
    Supplement cookbook (filePath path) content ↔
      ∃ asset ∈ cookbook.files, asset.content = some content ∧
        filePath asset.path = filePath path := by
  have head := head?_filePath path
  constructor
  · intro supplement
    generalize place : filePath path = there at supplement head
    cases supplement with
    | metadata | defaults | readme => cases head
    | template =>
        rw [head?_templatePath] at head
        cases head
    | file member text => exact ⟨_, member, text, rfl⟩
  · rintro ⟨asset, member, text, same⟩
    exact same ▸ .file member text

/-- What stands in a completed role at a path that was free is meant for this path. -/
theorem supplement_of_get? {path content : String} (free : role.contains path = false)
    (found : (role.complete cookbook).get? path = some content) :
    Supplement cookbook path content := by
  have none : role.get? path = none :=
    Option.isNone_iff_eq_none.mp (Option.isSome_eq_false_iff.mp free)
  rw [get?_complete, none, Option.none_or] at found
  exact (mem_supplements_iff cookbook path content).mp (Entries.mem_of_get? found)

/-- Where something is meant for a path something stands. -/
theorem exists_get?_of_supplement (role : Role) {path content : String}
    (supplement : Supplement cookbook path content) :
    ∃ held, (role.complete cookbook).get? path = some held := by
  have listed := (mem_supplements_iff cookbook path content).mpr supplement
  rw [get?_complete, ← Option.isSome_iff_exists, Option.isSome_or,
    Entries.isSome_get?_of_mem listed, Bool.or_true]

end Completed

/-! ## What is kept -/

/-- Each of some templates or files that is a text stands in a role at the path it goes to, unless
another role had a file there. -/
def Keeps (place : String → String) (assets : List Asset) (before role : Role) : Prop :=
  ∀ asset ∈ assets, ∀ content, asset.content = some content →
    role.get? (place asset.path) = some content ∨ before.contains (place asset.path) = true

/-- Of some templates or files those that go to one path have one text, unless a role has a file
there. -/
def Agree (place : String → String) (meet : String → String → Prop) (assets : List Asset)
    (role : Role) : Prop :=
  ∀ asset ∈ assets, ∀ other ∈ assets, ∀ content text,
    asset.content = some content → other.content = some text →
      role.contains (place asset.path) = false → meet asset.path other.path → content = text

/-- All templates and static files of a cookbook are in the role that is completed. -/
structure KeepsAssets (role : Role) (cookbook : Cookbook) : Prop where
  templates : Keeps templatePath cookbook.templates role (role.complete cookbook)
  files : Keeps filePath cookbook.files role (role.complete cookbook)

/-- Assets are kept just when those that go to one path agree, if nothing else goes there. -/
theorem keeps_complete_iff {role : Role} {cookbook : Cookbook} {place : String → String}
    {meet : String → String → Prop} {assets : List Asset}
    (meets : ∀ path other, place path = place other ↔ meet path other)
    (meant : ∀ path content, Supplement cookbook (place path) content ↔
      ∃ asset ∈ assets, asset.content = some content ∧ place asset.path = place path) :
    Keeps place assets role (role.complete cookbook) ↔ Agree place meet assets role := by
  constructor
  · intro keeps asset member other member' content text isText isText' free meet
    have same : place asset.path = place other.path := (meets _ _).mpr meet
    have first := (keeps asset member content isText).resolve_right (by simp [free])
    have second := (keeps other member' text isText').resolve_right (by simp [← same, free])
    rw [same, second] at first
    exact (Option.some.inj first).symm
  · intro agree asset member content isText
    cases taken : role.contains (place asset.path) with
    | true => exact .inr rfl
    | false =>
        have supplement := (meant asset.path content).mpr ⟨asset, member, isText, rfl⟩
        obtain ⟨held, found⟩ := exists_get?_of_supplement role supplement
        obtain ⟨other, member', isText', same⟩ := (meant _ _).mp (supplement_of_get? taken found)
        have equal := agree asset member other member' content held isText isText' taken
          ((meets _ _).mp same.symm)
        exact .inl (equal ▸ found)

/-- Completing a role loses no template and no static file just when those that go to one path have
one text, wherever the role itself has no file. -/
theorem keepsAssets_iff (role : Role) (cookbook : Cookbook) :
    KeepsAssets role cookbook ↔
      Agree templatePath MeetAsTemplates cookbook.templates role ∧
        Agree filePath (fun path other => withoutDefault path = withoutDefault other)
          cookbook.files role := by
  have templates : Keeps templatePath cookbook.templates role (role.complete cookbook) ↔
      Agree templatePath MeetAsTemplates cookbook.templates role :=
    keeps_complete_iff (fun _ _ => templatePath_eq_iff) fun _ _ => supplement_templatePath_iff
  have files : Keeps filePath cookbook.files role (role.complete cookbook) ↔
      Agree filePath (fun path other => withoutDefault path = withoutDefault other)
        cookbook.files role :=
    keeps_complete_iff (fun _ _ => filePath_eq_iff) fun _ _ => supplement_filePath_iff
  constructor
  · intro keeps
    exact ⟨templates.mp keeps.templates, files.mp keeps.files⟩
  · rintro ⟨agree, agree'⟩
    exact ⟨templates.mpr agree, files.mpr agree'⟩

/-- A cookbook with one template for all platforms and another one of the same name beside it. -/
def doubledTemplate : Cookbook where
  name := "web"
  path := "web"
  metadata := Metadata.empty
  recipes := []
  attributeFiles := []
  templates := [⟨"default/motd.erb", some "one\n"⟩, ⟨"motd.erb", some "two\n"⟩]
  files := []
  customResources := []
  libraries := []

/-- The paths in the cookbook are different ones, and yet the second text is lost. -/
theorem not_keepsAssets_doubledTemplate :
    (doubledTemplate.templates.map (·.path)).Nodup ∧
      (doubledTemplate.files.map (·.path)).Nodup ∧ ¬ KeepsAssets .empty doubledTemplate := by
  refine ⟨by decide, by decide, fun keeps => ?_⟩
  have first : (Role.empty.complete doubledTemplate).get? (templatePath "motd.erb") =
      some "one\n" := by decide +kernel
  rcases keeps.templates _ (.tail _ (.head _)) "two\n" rfl with kept | there
  · rw [first] at kept
    exact absurd (Option.some.inj kept) (by decide)
  · cases there

end Role

end Rolewright
