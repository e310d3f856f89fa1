/-
# A cookbook by itself and through the directory around it

An input may be the directory of a cookbook or the directory around it. What is loaded is decided by
the place (`load_eq`); the path shows in the name of a cookbook whose metadata give none, and, when
it starts with a single dot, in how the files are told.

A path of the cookbook and one of the directory around it, where no other cookbook is, give the same
cookbook except in three cases (`loadsAlike_iff`): the metadata are no text, which is read strictly
from one path and leniently from the other; they give no name, and the path of the cookbook ends in
none; or that path starts with a single dot, and the cookbook has files which are then told with
steps too many.
-/

import Rolewright.Cookbook.Collection
import Rolewright.Proofs.Disk.Searches
import Rolewright.Proofs.Text.Utf8

namespace Rolewright

namespace Recipe

/-- What gathering never changes: the path of a file and its text. -/
def SourceFile.origin (f : SourceFile) : String × String :=
  (f.file, f.source)

theorem Gathering.origin_flush (o : Origin) (g : Gathering) :
    (g.flush o).origin = g.found.origin := by
  unfold flush
  split <;> rfl

theorem Gathering.origin_add (o : Origin) (g : Gathering) (f : Finding) :
    (g.add o f).found.origin = g.found.origin := by
  match f with
  | .declared _ | .attribute _ _ | .variable _ _ | .included _ => exact g.origin_flush o
  | .unknown _ _ _ =>
      simp only [add]
      split
      · split
        · rfl
        · exact g.origin_flush o
      · rfl

/-- A source file is told by the path under which it is read, and keeps its text. -/
theorem SourceFile.origin_extract (file : String) (types : List String) (source : List Char) :
    (extract file types source).origin = (file, String.ofList source) := by
  have kept (o : Origin) (findings : List Finding) (g : Gathering) :
      (findings.foldl (Gathering.add o) g).found.origin = g.found.origin := by
    induction findings generalizing g with
    | nil => rfl
    | cons f findings ih => exact (ih _).trans (g.origin_add o f)
  exact (Gathering.origin_flush _ _).trans (kept _ _ _)

theorem SourceFile.file_extract (file : String) (types : List String) (source : List Char) :
    (extract file types source).file = file :=
  congrArg Prod.fst (origin_extract file types source)

theorem SourceFile.source_extract (file : String) (types : List String) (source : List Char) :
    (extract file types source).source = String.ofList source :=
  congrArg Prod.snd (origin_extract file types source)

end Recipe

namespace Cookbook

open Disk Rolewright.Path Recipe Text

/-! ## What stands at a place -/

/-- The directories of a cookbook whose Ruby files are read. -/
def scriptDirectories : List String := ["resources", "recipes", "attributes", "libraries"]

/-- The directories of a cookbook all of whose files are taken. -/
def assetDirectories : List String := ["templates", "files"]

/-- The Ruby files directly in a directory: their names and their bytes. -/
def scriptsAt (d : Disk) (place : List String) : List (String × List UInt8) :=
  (d.filesBelow place).filterMap fun (names, bytes) =>
    match names with
    | [name] => if ".rb".toList.isSuffixOf name.toList then some (name, bytes) else none
    | _ => none

/-- The Ruby files of a directory, as told behind the steps that a path keeps. -/
def scripts (d : Disk) (place : List String) (kept : Option (List Component))
    (directory : String) : List (String × List Char) :=
  (scriptsAt d (place ++ [directory])).map fun (file, bytes) =>
    (ofComponents (kept.getD [] ++ [.name directory, .name file]), lenientText bytes)

/-- The files below a directory, as told behind the steps that a path keeps. -/
def assetsTold (d : Disk) (place : List String) (kept : Option (List Component))
    (directory : String) : List Asset :=
  (d.filesBelow (place ++ [directory])).map fun (names, bytes) =>
    ⟨ofComponents ((kept.map (· ++ [.name directory])).getD [] ++ names.map .name),
      (decode? bytes).map String.ofList⟩

/-- The cookbook at a place, given the bytes of its metadata, as found under a path: with the name
of the directory in case it has none of its own, and the steps that the path keeps. -/
def standing (d : Disk) (place : List String) (bytes : List UInt8) (path directory : String)
    (kept : Option (List Component)) : Cookbook :=
  let metadata := Metadata.parse (lenientText bytes)
  let name := metadata.properName?.getD directory
  let customResources := (scripts d place kept "resources").map fun (file, text) =>
    CustomResource.parse name file text
  let types := customResources.map (·.name)
  { name
    path
    metadata
    recipes := (scripts d place kept "recipes").map fun (file, text) =>
      SourceFile.extract file types text
    attributeFiles := (scripts d place kept "attributes").map fun (file, text) =>
      SourceFile.extract file types text
    templates := assetsTold d place kept "templates"
    files := assetsTold d place kept "files"
    customResources
    libraries := (scripts d place kept "libraries").map fun (file, _) => file }

theorem isOrdinary_directory : ∀ directory ∈ scriptDirectories ++ assetDirectories,
    IsOrdinary directory ∧ checkName directory = .ok () := by
  decide +kernel

variable {d : Disk} {place : List String} {path : String} {bytes : List UInt8}

theorem mem_scriptsAt_iff (table : d.IsTable) {file : String} :
    (file, bytes) ∈ scriptsAt d place ↔
      d.at? (place ++ [file]) = some (.file bytes) ∧
        ".rb".toList.isSuffixOf file.toList = true := by
  simp only [scriptsAt, List.mem_filterMap, Prod.exists]
  constructor
  · rintro ⟨names, other, member, read⟩
    split at read
    · split at read
      · rename_i ruby
        cases read
        exact ⟨((mem_filesBelow_iff table).mp member).2, ruby⟩
      · cases read
    · cases read
  · rintro ⟨there, ruby⟩
    exact ⟨[file], bytes, (mem_filesBelow_iff table).mpr ⟨by simp, there⟩, if_pos ruby⟩

/-- What stands on a disk bears ordinary names. -/
theorem isOrdinary_of_at? (table : d.IsTable)
    (ordinary : ∀ entry ∈ d.nodes, ∀ name ∈ entry.1, IsOrdinary name) {node : DiskNode}
    (there : d.at? place = some node) : ∀ name ∈ place, IsOrdinary name := by
  intro name member
  have moves : place ≠ [] := List.ne_nil_of_mem member
  exact ordinary _ ((mem_nodes_iff table moves node).mpr there) name member

/-! ## Loading -/

/-- The path of the metadata leads to them. -/
theorem resolve_metadata (tree : d.IsTree) (opens : d.resolve path = .ok place)
    (metadata : d.at? (place ++ ["metadata.rb"]) = some (.file bytes)) :
    d.resolve (join path "metadata.rb") = .ok (place ++ ["metadata.rb"]) :=
  resolve_join opens (tree.directory_of_below (by simp) metadata) (by decide +kernel)
    (by decide +kernel)

section Loading

variable (tree : d.IsTree) (ordinary : ∀ entry ∈ d.nodes, ∀ name ∈ entry.1, IsOrdinary name)
  (opens : d.resolve path = .ok place) {node : DiskNode} {name : String}
  (holds : d.at? (place ++ [name]) = some node)
include tree opens holds

theorem filesIn_join {directory : String}
    (known : directory ∈ scriptDirectories ++ assetDirectories) :
    d.filesIn (join path directory) = d.filesBelow (place ++ [directory]) := by
  obtain ⟨named, fits⟩ := isOrdinary_directory directory known
  exact filesIn_eq tree
    (resolve_join opens (tree.directory_of_below (by simp) holds) named fits)

include ordinary

/-- The Ruby files of a directory, told from the path of the cookbook. -/
theorem map_rubyFiles {α : Type} (f : String → List Char → α) {directory : String}
    (known : directory ∈ scriptDirectories ++ assetDirectories) :
    ((rubyFiles d path directory).map fun found =>
        f (relative path found.1) (lenientText found.2)) =
      (scripts d place (kept? path) directory).map fun told => f told.1 told.2 := by
  have named := (isOrdinary_directory directory known).1
  have searched : rubyFiles d path directory =
      (scriptsAt d (place ++ [directory])).map fun (file, bytes) =>
        (found path [directory, file], bytes) := by
    rw [rubyFiles, filesIn_join tree opens holds known, scriptsAt, List.map_filterMap]
    congr 1
    funext ⟨names, bytes⟩
    match names with
    | [] => rfl
    | [file] => cases ruby : ".rb".toList.isSuffixOf file.toList <;> simp
    | _ :: _ :: _ => rfl
  rw [searched, scripts, List.map_map, List.map_map]
  refine List.map_congr_left fun ⟨file, bytes⟩ member => ?_
  have there := ((mem_scriptsAt_iff tree.table).mp member).1
  have all : ∀ name ∈ [directory, file], IsOrdinary name := by
    have inside := isOrdinary_of_at? tree.table ordinary there
    simp only [List.mem_append, List.mem_singleton] at inside
    simpa using ⟨named, inside file (.inr rfl)⟩
  show f (relative path (found path [directory, file])) _ = _
  rw [relative_found path all (by simp)]
  rfl

theorem assets_eq {directory : String}
    (known : directory ∈ scriptDirectories ++ assetDirectories) :
    assets d path directory = assetsTold d place (kept? path) directory := by
  have named := (isOrdinary_directory directory known).1
  rw [assets, filesIn_join tree opens holds known, assetsTold]
  refine List.map_congr_left fun ⟨names, bytes⟩ member => ?_
  obtain ⟨-, there⟩ := (mem_filesBelow_iff tree.table).mp member
  have all : ∀ name ∈ names, IsOrdinary name := fun name inside =>
    isOrdinary_of_at? tree.table ordinary there name (List.mem_append_right _ inside)
  show Asset.mk (relative (join path directory) (found path (directory :: names))) _ = _
  rw [relative_join_found path all named]

end Loading

/-- Any path of a cookbook loads what stands at the place to which it leads. -/
theorem load_eq (tree : d.IsTree)
    (ordinary : ∀ entry ∈ d.nodes, ∀ name ∈ entry.1, IsOrdinary name)
    (opens : d.resolve path = .ok place)
    (metadata : d.at? (place ++ ["metadata.rb"]) = some (.file bytes)) :
    load d path = .ok (standing d place bytes path (directoryName path) (kept? path)) := by
  have opensMetadata := resolve_metadata tree opens metadata
  have read (directory : String) (known : directory ∈ scriptDirectories ++ assetDirectories)
      {α : Type} (f : String → List Char → α) :=
    map_rubyFiles tree ordinary opens metadata f known
  have taken (directory : String) (known : directory ∈ scriptDirectories ++ assetDirectories) :=
    assets_eq tree ordinary opens metadata known
  simp only [load, (isFile_iff opensMetadata).mpr ⟨bytes, metadata⟩, if_true, accessing,
    read_eq opensMetadata metadata, Except.mapError, Except.map, bind, Except.bind, sourceFiles,
    taken "templates" (by decide), taken "files" (by decide)]
  have resources := read "resources" (by decide)
    (CustomResource.parse ((Metadata.parse (lenientText bytes)).properName?.getD
      (directoryName path)))
  have sources (directory : String) (known : directory ∈ scriptDirectories ++ assetDirectories)
      (types : List String) := read directory known fun file text =>
    SourceFile.extract file types text
  have libraries := read "libraries" (by decide) fun file _ => file
  simp only [resources, sources "recipes" (by decide), sources "attributes" (by decide),
    libraries]
  rfl

/-! ## Inputs -/

/-- An input with one cookbook gives that cookbook, unless another one is picked. -/
theorem loadInput_eq_ok_iff {input name : String} {c : Cookbook} {only : List String}
    {cookbooks : List Cookbook} (located : locateInput d input = .ok [⟨name, path⟩])
    (loads : load d path = .ok c) :
    loadInput d input only = .ok cookbooks ↔
      (∀ picked ∈ only, picked = name) ∧ cookbooks = [c] := by
  simp only [loadInput, located, bind, Except.bind, List.isEmpty_cons, Bool.false_eq_true, if_false,
    checkPicked]
  cases missed : only.find? fun picked =>
      !([⟨name, path⟩] : List Location).any (·.name == picked) with
  | some picked =>
      have absent := List.find?_some missed
      have member := List.mem_of_find?_eq_some missed
      refine iff_of_false nofun fun ⟨all, _⟩ => ?_
      obtain rfl := all picked member
      exact absurd absent (by simp)
  | none =>
      have all : ∀ picked ∈ only, picked = name := fun picked member => by
        have there := List.find?_eq_none.mp missed picked member
        have same : name = picked := by simpa using there
        exact same.symm
      have picks : (only.isEmpty || only.contains name) = true := by
        cases only with
        | nil => rfl
        | cons picked rest => simp [all picked (.head _)]
      have loaded : [(⟨name, path⟩ : Location)].mapM (fun l => load d l.path) = .ok [c] := by
        rw [List.mapM_cons, loads]
        rfl
      rw [List.filter_cons_of_pos (by simpa using picks), List.filter_nil]
      exact (show _ = _ ↔ _ from loaded.symm ▸
        ⟨fun same => ⟨all, (Except.ok.inj same).symm⟩, fun ⟨_, same⟩ => same ▸ rfl⟩)

/-- Whether two inputs come to the same cookbook: one loads exactly when the other does, and then
both give a single cookbook, the same but for the path of its directory. -/
structure Agree (ours theirs : Except Failure (List Cookbook)) : Prop where
  succeeds : (∃ cookbooks, ours = .ok cookbooks) ↔ ∃ cookbooks, theirs = .ok cookbooks
  same : ∀ cookbooks others, ours = .ok cookbooks → theirs = .ok others →
    ∃ c other : Cookbook, cookbooks = [c] ∧ others = [other] ∧ { c with path := other.path } = other

/-- Whether two inputs come to the same cookbook, whichever cookbooks are picked. -/
def LoadsAlike (d : Disk) (input other : String) : Prop :=
  ∀ only, Agree (loadInput d input only) (loadInput d other only)

/-- A directory that holds metadata, inside one in which and below which no other metadata are, with
a path of each. -/
structure IsLone (d : Disk) (parent own : String) (place : List String) (name : String)
    (bytes : List UInt8) : Prop where
  tree : d.IsTree
  ordinary : ∀ entry ∈ d.nodes, ∀ name ∈ entry.1, IsOrdinary name
  /-- The empty path leads nowhere. -/
  spelled : parent ≠ "" ∧ own ≠ ""
  around : d.resolve parent = .ok place
  opens : d.resolve own = .ok (place ++ [name])
  metadata : d.at? (place ++ [name, "metadata.rb"]) = some (.file bytes)
  alone : ∀ names other, d.at? (place ++ names ++ ["metadata.rb"]) = some (.file other) →
    names = [name]

/-- What it takes for a path of a cookbook to tell all that a path of the directory around it
tells. -/
structure TellsAll (d : Disk) (own : String) (place : List String) (bytes : List UInt8) : Prop where
  /-- The metadata are text. -/
  readable : (decode? bytes).isSome
  /-- The name is in the metadata or in the path. -/
  named : (Metadata.parse (lenientText bytes)).properName?.isSome ∨ (fileName? own).isSome
  /-- Behind a single dot there is no file to be told from one of the directories of assets. -/
  assets : (components own).head? = some .here → ∀ directory ∈ assetDirectories,
    ∀ names ≠ [], ∀ other, d.at? (place ++ directory :: names) ≠ some (.file other)
  /-- Nor a Ruby file, unless the path is the dot. -/
  scripts : (components own).head? = some .here → components own ≠ [.here] →
    ∀ directory ∈ scriptDirectories, ∀ file other,
      d.at? (place ++ [directory, file]) = some (.file other) →
        ".rb".toList.isSuffixOf file.toList = false

section Lone

variable {parent own : String} {name : String} (lone : IsLone d parent own place name bytes)
include lone

theorem IsLone.isOrdinary : IsOrdinary name :=
  isOrdinary_of_at? lone.tree.table lone.ordinary lone.metadata name (by simp)

theorem IsLone.metadata_append :
    d.at? (place ++ [name] ++ ["metadata.rb"]) = some (.file bytes) := by
  simpa using lone.metadata

/-- From its own path the cookbook is loaded if its metadata are text. -/
theorem IsLone.loadInput_own (only : List String) (cookbooks : List Cookbook) :
    loadInput d own only = .ok cookbooks ↔
      (decode? bytes).isSome ∧
        (∀ picked ∈ only, picked =
          ((Metadata.parse (lenientText bytes)).properName?).getD ((fileName? own).getD "")) ∧
        cookbooks = [standing d (place ++ [name]) bytes own (directoryName own) (kept? own)] := by
  have opensMetadata := resolve_metadata lone.tree lone.opens lone.metadata_append
  have isFile := (isFile_iff opensMetadata).mpr ⟨bytes, lone.metadata_append⟩
  have reads : d.readText (join own "metadata.rb") =
      (decode? bytes).elim (.error .notText) .ok := by
    simp only [Disk.readText, read_eq opensMetadata lone.metadata_append, bind, Except.bind]
    cases decode? bytes <;> rfl
  have loads := load_eq lone.tree lone.ordinary lone.opens lone.metadata_append
  cases strict : decode? bytes with
  | none =>
      have located : ∃ failure, locateInput d own = .error failure := by
        rw [strict] at reads
        exact ⟨_, by simp only [locateInput, isFile, if_true, reads]; rfl⟩
      obtain ⟨failure, located⟩ := located
      refine iff_of_false ?_ nofun
      simp only [loadInput, located]
      nofun
  | some text =>
      have located : locateInput d own =
          .ok [⟨((Metadata.parse (lenientText bytes)).properName?).getD ((fileName? own).getD ""),
            own⟩] := by
        rw [strict] at reads
        rw [lenientText, decodeLenient_of_decode? strict]
        simp only [locateInput, isFile, if_true, reads]
        rfl
      rw [loadInput_eq_ok_iff located loads]
      simp

/-- Where the cookbook is found from a path of the directory around it. -/
theorem IsLone.exists_locate : ∃ path,
    locate d parent =
      .ok [⟨((Metadata.parse (lenientText bytes)).properName?).getD name, path⟩] ∧
    d.resolve path = .ok (place ++ [name]) ∧ directoryName path = name ∧ kept? path = none := by
  have named := lone.isOrdinary
  have ends : EndsIn (found parent [name, "metadata.rb"])
      (components (searchRoot parent) ++ [.name name]) "metadata.rb" := by
    rw [found_eq_join]
    exact endsIn_join (searchRoot parent) [name] "metadata.rb"
      (List.forall_mem_cons.mpr ⟨named, by decide +kernel⟩)
  have steps := ends.components_directoryOf
  have own : directoryName (directoryOf (found parent [name, "metadata.rb"])) = name := by
    rw [directoryName, fileName?, steps, List.getLast?_concat]
    rfl
  refine ⟨directoryOf (found parent [name, "metadata.rb"]), ?_, ?_, own, ?_⟩
  · have directory : d.at? place = some .directory :=
      lone.tree.directory_of_below (List.cons_ne_nil _ _) lone.metadata
    have isDirectory : d.isDirectory parent = true := by
      simp [isDirectory, node?, lone.around, directory]
    have holders : (d.filesIn parent).filter (fun (names, _) =>
        names.getLast? = some "metadata.rb") = [([name, "metadata.rb"], bytes)] := by
      rw [filesIn_eq lone.tree lone.around]
      refine List.perm_singleton.mp ((List.perm_ext_iff_of_nodup
        ((nodup_filesBelow lone.tree.table place).filter _) (List.nodup_singleton _)).mpr ?_)
      rintro ⟨names, other⟩
      rw [List.mem_filter, mem_filesBelow_iff lone.tree.table, List.mem_singleton]
      constructor
      · rintro ⟨⟨-, there⟩, last⟩
        obtain ⟨front, rfl⟩ := List.getLast?_eq_some_iff.mp (of_decide_eq_true last)
        obtain rfl := lone.alone front other (by simpa using there)
        have same := there.symm.trans lone.metadata
        cases same
        rfl
      · rintro same
        cases same
        exact ⟨⟨by simp, lone.metadata⟩, rfl⟩
    rw [locate, isDirectory]
    simp only [holders]
    simp [own]
  · show d.Leads d.working _ _
    rw [steps]
    refine (leads_searchRoot lone.around).append (leads_cons_iff.mpr ⟨_, walk_eq_ok_iff.mpr
      ⟨?_, ?_, rfl⟩, leads_nil_iff.mpr rfl⟩)
    · exact lone.tree.directory_of_below (List.cons_ne_nil _ _) lone.metadata
    · rintro other same
      cases same
      exact lone.tree.checkName_eq_ok lone.metadata _ (by simp)
  · refine kept?_eq_none_iff.mpr fun here => ?_
    have member := List.mem_of_head? here
    rw [steps, List.mem_append] at member
    simp [here_not_mem_searchRoot] at member

/-- From a path of the directory around it the cookbook is always loaded. -/
theorem IsLone.exists_loadInput_parent : ∃ path, ∀ (only : List String) (cookbooks : List Cookbook),
    loadInput d parent only = .ok cookbooks ↔
      (∀ picked ∈ only, picked =
        ((Metadata.parse (lenientText bytes)).properName?).getD name) ∧
        cookbooks = [standing d (place ++ [name]) bytes path name none] := by
  obtain ⟨path, located, opens, own, unkept⟩ := lone.exists_locate
  have directory : d.at? place = some .directory :=
    lone.tree.directory_of_below (List.cons_ne_nil _ _) lone.metadata
  have isFile : d.isFile (join parent "metadata.rb") = false := by
    rw [← Bool.not_eq_true, isFile_iff (resolve_join lone.around directory (by decide +kernel)
      (by decide +kernel))]
    rintro ⟨other, there⟩
    have names := lone.alone [] other (by simpa using there)
    cases names
  have loads := load_eq lone.tree lone.ordinary opens lone.metadata_append
  rw [own, unkept] at loads
  refine ⟨path, fun only cookbooks => loadInput_eq_ok_iff ?_ loads⟩
  rw [locateInput, if_neg (by simp [isFile]), located]

/-- The name under which the cookbook is found is the same exactly if the metadata or the path tell
it. -/
theorem IsLone.name_eq_iff :
    ((Metadata.parse (lenientText bytes)).properName?).getD ((fileName? own).getD "") =
        ((Metadata.parse (lenientText bytes)).properName?).getD name ↔
      (Metadata.parse (lenientText bytes)).properName?.isSome ∨ (fileName? own).isSome := by
  cases (Metadata.parse (lenientText bytes)).properName? with
  | some told => simp
  | none =>
      cases last : fileName? own with
      | some told => simp [eq_of_fileName? lone.opens last]
      | none => simp [lone.isOrdinary.nonempty.symm]

end Lone

/-! ## How the files are told -/

/-- Steps in front of the files of a directory show exactly if there are files. -/
theorem assetsTold_eq_iff (table : d.IsTable) (steps : List Component) (directory : String) :
    assetsTold d place (some steps) directory = assetsTold d place none directory ↔
      ∀ names ≠ [], ∀ other, d.at? (place ++ directory :: names) ≠ some (.file other) := by
  rw [assetsTold, assetsTold, List.map_inj_left]
  constructor
  · intro same names moves other there
    have told := same (names, other) ((mem_filesBelow_iff table).mpr ⟨moves, by simpa using there⟩)
    exact ofComponents_append_ne (by simp) (by simpa using moves) (congrArg Asset.path told)
  · rintro none ⟨names, other⟩ member
    obtain ⟨moves, there⟩ := (mem_filesBelow_iff table).mp member
    exact absurd (by simpa using there) (none names moves other)

/-- Steps in front of the Ruby files of a directory show if there are any. -/
theorem no_script_of_map_fst_eq (table : d.IsTable) {steps : List Component} (moves : steps ≠ [])
    {directory : String}
    (same : (scripts d place (some steps) directory).map Prod.fst =
      (scripts d place none directory).map Prod.fst)
    {file : String} {other : List UInt8}
    (there : d.at? (place ++ [directory, file]) = some (.file other)) :
    ".rb".toList.isSuffixOf file.toList = false := by
  by_contra ruby
  rw [scripts, scripts, List.map_map, List.map_map, List.map_inj_left] at same
  have told := same (file, other) ((mem_scriptsAt_iff table).mpr
    ⟨by simpa using there, by simpa using ruby⟩)
  exact ofComponents_append_ne moves (by simp) told

theorem scripts_eq_of_no_script (table : d.IsTable) (steps : List Component) {directory : String}
    (none : ∀ file other, d.at? (place ++ [directory, file]) = some (.file other) →
      ".rb".toList.isSuffixOf file.toList = false) :
    scripts d place (some steps) directory = scripts d place Option.none directory := by
  refine List.map_congr_left fun ⟨file, other⟩ member => ?_
  obtain ⟨there, ruby⟩ := (mem_scriptsAt_iff table).mp member
  rw [none file other (by simpa using there)] at ruby
  cases ruby

/-- A cookbook is told alike from two paths, one of which keeps no steps, exactly if there is
nothing that the other one tells with steps too many. -/
theorem standing_eq_iff (table : d.IsTable) (bytes : List UInt8) (own path directory : String) :
    { standing d place bytes own directory (kept? own) with path } =
        standing d place bytes path directory none ↔
      ((components own).head? = some .here → ∀ directory ∈ assetDirectories,
        ∀ names ≠ [], ∀ other, d.at? (place ++ directory :: names) ≠ some (.file other)) ∧
      ((components own).head? = some .here → components own ≠ [.here] →
        ∀ directory ∈ scriptDirectories, ∀ file other,
          d.at? (place ++ [directory, file]) = some (.file other) →
            ".rb".toList.isSuffixOf file.toList = false) := by
  cases kept : kept? own with
  | none =>
      have moving := kept?_eq_none_iff.mp kept
      exact iff_of_true rfl ⟨fun here => absurd here moving, fun here => absurd here moving⟩
  | some steps =>
      have behind := components_of_kept? kept
      simp only [behind, List.head?_cons, true_imp_iff, List.cons.injEq, true_and, ne_eq]
      constructor
      · intro same
        refine ⟨?_, fun moves directory member file other there => ?_⟩
        · simp only [assetDirectories, List.forall_mem_cons, List.not_mem_nil, false_imp_iff,
            implies_true, and_true]
          exact ⟨(assetsTold_eq_iff table steps _).mp (congrArg Cookbook.templates same),
            (assetsTold_eq_iff table steps _).mp (congrArg Cookbook.files same)⟩
        · refine no_script_of_map_fst_eq table moves ?_ there
          have resources := congrArg (fun c => c.customResources.map (·.file)) same
          have recipes := congrArg (fun c => c.recipes.map (·.file)) same
          have attributes := congrArg (fun c => c.attributeFiles.map (·.file)) same
          have libraries := congrArg Cookbook.libraries same
          simp only [standing, List.map_map, Function.comp_def, SourceFile.file_extract,
            CustomResource.parse] at resources recipes attributes libraries
          simp only [scriptDirectories, List.mem_cons, List.not_mem_nil, or_false] at member
          rcases member with rfl | rfl | rfl | rfl
          · exact resources
          · exact recipes
          · exact attributes
          · exact libraries
      · rintro ⟨noAsset, noScript⟩
        have assets : ∀ directory ∈ assetDirectories,
            assetsTold d place (some steps) directory = assetsTold d place none directory :=
          fun directory member => (assetsTold_eq_iff table steps _).mpr (noAsset directory member)
        have read : ∀ directory ∈ scriptDirectories,
            scripts d place (some steps) directory = scripts d place none directory := by
          intro directory member
          by_cases still : steps = []
          · rw [still]
            rfl
          · exact scripts_eq_of_no_script table steps (noScript still directory member)
        simp only [standing, assets "templates" (by decide), assets "files" (by decide),
          read "resources" (by decide), read "recipes" (by decide), read "attributes" (by decide),
          read "libraries" (by decide)]

theorem standing_congr (path : String) {directory other : String} {kept : Option (List Component)}
    (same : (Metadata.parse (lenientText bytes)).properName?.getD directory =
      (Metadata.parse (lenientText bytes)).properName?.getD other) :
    standing d place bytes path directory kept = standing d place bytes path other kept := by
  simp only [standing, same]

/-- A path of a cookbook and one of the directory around it, in which there is no other, come to the
same cookbook exactly if the first tells all that the second tells. -/
theorem loadsAlike_iff {parent own name : String} (lone : IsLone d parent own place name bytes) :
    LoadsAlike d own parent ↔ TellsAll d own (place ++ [name]) bytes := by
  obtain ⟨path, ofParent⟩ := lone.exists_loadInput_parent
  have ofOwn := lone.loadInput_own
  -- Once the name is told, the two cookbooks differ at most in how their files are.
  have told (named : (Metadata.parse (lenientText bytes)).properName?.isSome ∨
      (fileName? own).isSome) :
      standing d (place ++ [name]) bytes own (directoryName own) (kept? own) =
        standing d (place ++ [name]) bytes own name (kept? own) := by
    refine standing_congr own ?_
    rcases named with inside | last
    · obtain ⟨text, given⟩ := Option.isSome_iff_exists.mp inside
      rw [given]
      rfl
    · obtain ⟨text, given⟩ := Option.isSome_iff_exists.mp last
      rw [directoryName, given, Option.getD_some, eq_of_fileName? lone.opens given]
  constructor
  · intro alike
    have named : (Metadata.parse (lenientText bytes)).properName?.isSome ∨
        (fileName? own).isSome := by
      refine lone.name_eq_iff.mp (Eq.symm ?_)
      obtain ⟨cookbooks, loads⟩ :=
        (alike [((Metadata.parse (lenientText bytes)).properName?).getD name]).succeeds.mpr
          ⟨_, (ofParent _ _).mpr ⟨by simp, rfl⟩⟩
      exact ((ofOwn _ _).mp loads).2.1 _ (.head _)
    obtain ⟨cookbooks, loads⟩ := (alike []).succeeds.mpr ⟨_, (ofParent _ _).mpr ⟨nofun, rfl⟩⟩
    obtain ⟨readable, -, rfl⟩ := (ofOwn _ _).mp loads
    obtain ⟨c, other, one, another, same⟩ :=
      (alike []).same _ _ loads ((ofParent _ _).mpr ⟨nofun, rfl⟩)
    cases one
    cases another
    rw [told named] at same
    obtain ⟨assets, scripts⟩ := (standing_eq_iff lone.tree.table bytes own path name).mp same
    exact ⟨readable, named, assets, scripts⟩
  · intro ⟨readable, named, assets, scripts⟩ only
    have names := lone.name_eq_iff.mpr named
    have same := (standing_eq_iff lone.tree.table bytes own path name).mpr ⟨assets, scripts⟩
    refine ⟨?_, fun cookbooks others loads loadsToo => ?_⟩
    · simp only [ofOwn, ofParent, names, readable, true_and]
      simp
    · obtain ⟨-, -, rfl⟩ := (ofOwn _ _).mp loads
      obtain ⟨-, rfl⟩ := (ofParent _ _).mp loadsToo
      exact ⟨_, _, rfl, rfl, told named ▸ same⟩

/-- A directory that holds one cookbook, with the metadata and a recipe. -/
def singleDisk (metadata : List UInt8) : Disk :=
  ⟨[(["cbs"], .directory), (["cbs", "web"], .directory),
    (["cbs", "web", "metadata.rb"], .file metadata),
    (["cbs", "web", "recipes"], .directory),
    (["cbs", "web", "recipes", "default.rb"], .file (encode "package 'a'\n".toList))], []⟩

theorem forall_name_singleDisk (metadata : List UInt8) {holds : String → Prop}
    (each : ∀ name ∈ ["cbs", "web", "metadata.rb", "recipes", "default.rb"], holds name) :
    ∀ entry ∈ (singleDisk metadata).nodes, ∀ name ∈ entry.1, holds name := by
  simp only [List.forall_mem_cons] at each
  simp [singleDisk, each]

theorem isTree_singleDisk (metadata : List UInt8) : (singleDisk metadata).IsTree := by
  refine ⟨?_, ?_, ?_, rfl⟩
  · simp [IsTable, singleDisk]
  · simp only [singleDisk, List.forall_mem_cons]
    exact ⟨rfl, rfl, rfl, rfl, rfl, nofun⟩
  · exact forall_name_singleDisk metadata (by decide +kernel)

/-- Whatever its metadata are, it is the only cookbook there. -/
theorem isLone_singleDisk (metadata : List UInt8) :
    IsLone (singleDisk metadata) "cbs" "cbs/web" ["cbs"] "web" metadata where
  tree := isTree_singleDisk metadata
  ordinary := forall_name_singleDisk metadata (by decide +kernel)
  spelled := by decide
  around := rfl
  opens := rfl
  metadata := rfl
  alone names other there := by
    have member := (mem_nodes_iff (isTree_singleDisk metadata).table (by simp) _).mpr there
    simp only [singleDisk, List.mem_cons, Prod.mk.injEq, reduceCtorEq, and_false, false_or,
      List.not_mem_nil, or_false] at member
    rcases member with ⟨same, -⟩ | ⟨same, -⟩
    · exact List.append_cancel_right (List.cons.inj same).2
    · have last : (["cbs"] ++ names ++ ["metadata.rb"]).getLast? = some "metadata.rb" :=
        List.getLast?_concat
      rw [same] at last
      simp at last

theorem loadsAlike_of_plain_path :
    let metadata := encode "version '1.0.0'\n".toList
    IsLone (singleDisk metadata) "cbs" "cbs/web" ["cbs"] "web" metadata ∧
      LoadsAlike (singleDisk metadata) "cbs/web" "cbs" := by
  intro metadata
  have lone := isLone_singleDisk metadata
  refine ⟨lone, (loadsAlike_iff lone).mpr ⟨by decide +kernel, .inr (by decide +kernel), ?_, ?_⟩⟩
  · exact fun here => absurd here (by decide +kernel)
  · exact fun here => absurd here (by decide +kernel)

/-- Metadata with a byte that is no text are read from the path of the directory around, and not
from that of the cookbook. -/
theorem not_loadsAlike_broken_metadata :
    let metadata := encode "name 'web'\n#".toList ++ [0xFF, 0x0A]
    IsLone (singleDisk metadata) "cbs" "cbs/web" ["cbs"] "web" metadata ∧
      ¬ LoadsAlike (singleDisk metadata) "cbs/web" "cbs" := by
  intro metadata
  have lone := isLone_singleDisk metadata
  refine ⟨lone, fun alike => ?_⟩
  obtain ⟨path, ofParent⟩ := lone.exists_loadInput_parent
  obtain ⟨cookbooks, loads⟩ := (alike []).succeeds.mpr ⟨_, (ofParent _ _).mpr ⟨nofun, rfl⟩⟩
  exact absurd ((lone.loadInput_own _ _).mp loads).1 (by decide +kernel)

end Cookbook

end Rolewright
