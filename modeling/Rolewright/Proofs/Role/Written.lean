/-
# Roles that are written and read again

A file of a role is written under a name beside its own, and that name may belong to another file of
the role. Files are written in the order of their paths, and the name with something added to it
comes later in this order, so nothing that was written before stands there
(`Path.not_prefix_of_lt`). A directory that held nothing then holds the files of the role
(`Role.exists_writeFiles`), whatever order a search reports them in, and both the role and its
fingerprint can be read back from it.
-/

import Mathlib.Data.String.Basic
import Rolewright.Proofs.Disk.Contents
import Rolewright.Proofs.Role.Files
import Rolewright.Proofs.Text.Utf8
import Rolewright.Role.Stored
import Rolewright.Role.Written

namespace Rolewright

namespace Path

/-- Whether a disk takes the names of a path, and the one that its file waits under. A name has at
most 255 bytes, and the file waits under a name of four bytes more. -/
@[mk_iff]
structure IsShort (path : String) : Prop where
  directories : ∀ name ∈ (names path).dropLast, name.utf8ByteSize ≤ 255
  file : ∀ name ∈ (names path).getLast?, name.utf8ByteSize ≤ 251

instance (path : String) : Decidable (IsShort path) :=
  decidable_of_iff _ (isShort_iff path).symm

theorem mem_of_mem_pieces {cs piece : List Char} {c : Char} (part : piece ∈ pieces cs)
    (member : c ∈ piece) : c ∈ cs := by
  induction cs generalizing piece with
  | nil =>
      rw [pieces, List.mem_singleton] at part
      rw [part] at member
      exact member
  | cons d cs ih =>
      rw [pieces] at part
      split at part
      · rcases List.mem_cons.mp part with rfl | later
        · cases member
        · exact .tail _ (ih later member)
      · obtain ⟨rest, split⟩ := exists_pieces_eq cs
        rw [split] at part ih
        rcases List.mem_cons.mp part with rfl | later
        · rcases List.mem_cons.mp member with rfl | inside
          · exact .head _
          · exact .tail _ (ih (.head _) inside)
        · exact .tail _ (ih (.tail _ later) member)

theorem not_mem_of_mem_names {path name : String} {c : Char} (part : name ∈ names path)
    (absent : c ∉ path.toList) : c ∉ name.toList := by
  obtain ⟨piece, member, rfl⟩ := List.mem_map.mp part
  rw [String.toList_ofList]
  exact fun inside => absent (mem_of_mem_pieces member inside)

/-- Names of which one is continued, and others after them, continue the text of the names. -/
theorem intercalate_append_cons (front : List String) (name rest : String)
    (others : List String) :
    String.intercalate "/" (front ++ (name ++ rest) :: others) =
      String.intercalate "/" (front ++ [name]) ++ String.intercalate "/" (rest :: others) := by
  by_cases none : front = []
  · simp [none]
  · rw [String.intercalate_append_of_ne_nil none (List.cons_ne_nil _ _),
      String.intercalate_append_of_ne_nil none (List.cons_ne_nil _ _),
      String.intercalate_cons_append, String.intercalate_singleton, String.append_assoc]
    simp [String.append_assoc]

/-- A text does not come after the texts that continue it. -/
theorem not_append_lt (path text : String) : ¬ path ++ text < path := by
  rw [String.lt_iff_toList_lt, String.toList_append]
  exact List.not_lt.mpr List.le_append_left

/-- A path that comes earlier than another one stands neither where the other one waits nor below
that. -/
theorem not_prefix_of_lt {earlier path : String} (before : earlier < path) {front : List String}
    {name : String} (split : names path = front ++ [name]) :
    ¬ front ++ [name ++ ".tmp"] <+: names earlier := by
  rintro ⟨others, whole⟩
  have later : earlier = path ++ String.intercalate "/" (".tmp" :: others) := by
    rw [← intercalate_names earlier, ← whole, List.append_assoc, List.singleton_append,
      intercalate_append_cons, ← split, intercalate_names]
  exact not_append_lt path _ (later ▸ before)

/-- The path that a file waits under has the names of its own, but for the last of them. -/
theorem names_append_tmp {path : String} {front : List String} {name : String}
    (split : names path = front ++ [name])
    (ordinary : ∀ n ∈ front ++ [name], IsOrdinary n) :
    names (path ++ ".tmp") = front ++ [name ++ ".tmp"] := by
  have longer : ∀ n ∈ front ++ [name ++ ".tmp"], IsOrdinary n := by
    intro n member
    rcases List.mem_append.mp member with before | last
    · exact ordinary n (List.mem_append_left _ before)
    · rw [List.mem_singleton.mp last]
      exact isOrdinary_append_tmp (ordinary name (by simp))
  have text : path ++ ".tmp" = String.intercalate "/" (front ++ [name ++ ".tmp"]) := by
    rw [intercalate_append_cons, ← split, intercalate_names, String.intercalate_singleton]
  rw [text, names, pieces_intercalate longer (by simp), map_ofList_map_toList]

/-- A short path of ordinary names leads to a file below any directory. -/
theorem exists_isBelow (base : String) {path : String}
    (ordinary : ∀ name ∈ names path, IsOrdinary name) (noNull : '\x00' ∉ path.toList)
    (short : IsShort path) :
    ∃ front name, names path = front ++ [name] ∧ Disk.IsBelow base (join base path) front name ∧
      Disk.checkName (name ++ ".tmp") = .ok () := by
  obtain ⟨front, name, split⟩ :=
    (List.eq_nil_or_concat (names path)).resolve_left (names_ne_nil path)
  rw [List.concat_eq_append] at split
  have fitting : ∀ n ∈ front ++ [name], '\x00' ∉ n.toList := fun n member =>
    not_mem_of_mem_names (split ▸ member) noNull
  have directories := short.directories
  have file := short.file
  rw [split, List.dropLast_concat] at directories
  rw [split, List.getLast?_concat] at file
  have shorter : name.utf8ByteSize ≤ 251 := file name rfl
  refine ⟨front, name, split, ⟨?_, ?_, ?_⟩, ?_⟩
  · rw [← intercalate_names path, split]
    exact endsIn_join base front name (split ▸ ordinary)
  · exact fun n member =>
      Disk.checkName_eq_ok_iff.mpr ⟨fitting n (by simp [member]), directories n member⟩
  · exact Disk.checkName_eq_ok_iff.mpr
      ⟨fitting name (by simp), Nat.le_trans shorter (by decide)⟩
  · refine Disk.checkName_eq_ok_iff.mpr ⟨?_, ?_⟩
    · rw [String.toList_append, List.mem_append]
      exact not_or.mpr ⟨fitting name (by simp), by decide⟩
    · rw [String.utf8ByteSize_append]
      exact Nat.add_le_add_right shorter 4

end Path

namespace Role

/-- The files of a role have paths that can stand below one directory beside its records: ordinary
names put together, of which none is that of the records, and no path leads through another. -/
@[mk_iff]
structure IsWellFormed (role : Role) : Prop where
  ordinary : ∀ path ∈ role.paths, ∀ name ∈ Path.names path, Path.IsOrdinary name
  noBackslash : ∀ path ∈ role.paths, '\\' ∉ path.toList
  noNull : ∀ path ∈ role.paths, '\x00' ∉ path.toList
  unreserved : ∀ path ∈ role.paths, Fingerprint.recordDirectory ∉ Path.names path
  apart : ∀ path ∈ role.paths, ∀ other ∈ role.paths,
    Path.names path <+: Path.names other → path = other

instance (role : Role) : Decidable role.IsWellFormed :=
  decidable_of_iff _ (isWellFormed_iff role).symm

/-- A file of a role as a directory holds it. -/
def held (file : String × String) : List String × List UInt8 :=
  (Path.names file.1, Text.encode file.2.toList)

variable {role : Role} {d : Disk} {base : String} {place : List String}

theorem fst_mem_paths {file : String × String} (member : file ∈ role.files) :
    file.1 ∈ role.paths :=
  List.mem_map.mpr ⟨file, member, rfl⟩

/-- Writing the files of a role where nothing is leaves these files there. -/
theorem exists_writeFiles (wellFormed : role.IsWellFormed)
    (short : ∀ path ∈ role.paths, Path.IsShort path) {written rest : List (String × String)}
    (split : role.files = written ++ rest)
    (holds : d.Holds base place (written.map held) (Disk.Holds.waysTo (written.map held))) :
    ∃ after, (writeFiles base rest).Does d () after ∧
      after.Holds base place (role.files.map held) (Disk.Holds.waysTo (role.files.map held)) := by
  induction rest generalizing d written with
  | nil =>
      rw [List.append_nil] at split
      exact ⟨d, DiskWork.does_pure () d, split ▸ holds⟩
  | cons file rest ih =>
      obtain ⟨path, content⟩ := file
      have inRole : (path, content) ∈ role.files := by simp [split]
      have known : path ∈ role.paths := fst_mem_paths inRole
      obtain ⟨front, name, names, below, longer⟩ := Path.exists_isBelow base
        (wellFormed.ordinary path known) (wellFormed.noNull path known) (short path known)
      have earlier : ∀ file ∈ written, file.1 ∈ role.paths ∧ file.1 < path := by
        intro file member
        have increasing := role.increasing
        rw [split] at increasing
        exact ⟨fst_mem_paths (by simp [split, member]),
          (List.pairwise_append.mp increasing).2.2 file member (path, content) (.head _)⟩
      have differs : ∀ file ∈ written, file.1 ≠ path := fun file member same =>
        String.lt_irrefl path (same ▸ (earlier file member).2)
      have apart : ∀ other ∈ written.map held,
          ¬ other.1 <+: front ++ [name] ∧ ¬ front ++ [name] <+: other.1 := by
        intro other member
        obtain ⟨file, before, rfl⟩ := List.mem_map.mp member
        have inRole := (earlier file before).1
        rw [← names]
        constructor
        · exact fun within => differs file before (wellFormed.apart _ inRole _ known within)
        · exact fun within => differs file before (wellFormed.apart _ known _ inRole within).symm
      have waiting : ∀ other ∈ written.map held, ¬ front ++ [name ++ ".tmp"] <+: other.1 := by
        intro other member
        obtain ⟨file, before, rfl⟩ := List.mem_map.mp member
        exact Path.not_prefix_of_lt (earlier file before).2 names
      obtain ⟨mid, replaces, holding⟩ := holds.exists_replace below longer apart waiting content
      have same : written.map held ++ [(front ++ [name], Text.encode content.toList)] =
          (written ++ [(path, content)]).map held := by
        rw [List.map_append, ← names]
        rfl
      rw [same] at holding
      obtain ⟨after, writes, holding⟩ := ih (List.append_cons .. ▸ split) holding
      exact ⟨after, replaces.bind writes, holding⟩

/-- Files are written only where their names are short enough to be waited under. -/
theorem utf8ByteSize_le_of_writeFiles {files : List (String × String)} {after : Disk}
    (does : (writeFiles base files).Does d () after)
    (ordinary : ∀ file ∈ files, ∀ name ∈ Path.names file.1, Path.IsOrdinary name) :
    ∀ file ∈ files, ∀ name ∈ (Path.names file.1).getLast?, name.utf8ByteSize ≤ 251 := by
  induction files generalizing d with
  | nil => exact nofun
  | cons file files ih =>
      obtain ⟨path, content⟩ := file
      obtain ⟨_, mid, replaces, writes⟩ := does.exists_of_bind
      obtain ⟨first, others⟩ := List.forall_mem_cons.mp ordinary
      refine List.forall_mem_cons.mpr ⟨fun name last => ?_, ih writes others⟩
      obtain ⟨front, split⟩ := List.getLast?_eq_some_iff.mp last
      have ends := Path.endsIn_join base front name (split ▸ first)
      rw [← split, Path.intercalate_names] at ends
      exact replaces.utf8ByteSize_le ends

/-! ## Reading back -/

/-- Files that a directory holds beside those of a role, in its directory for records. -/
structure AreRecords (records : List (List String × List UInt8)) : Prop where
  distinct : records.Nodup
  inside : ∀ record ∈ records, ∃ name, record.1 = [Fingerprint.recordDirectory, name] ∧
    Path.IsOrdinary name

section Reading

variable {records : List (List String × List UInt8)} {ways : List (List String)}

theorem nodup_map_held (role : Role) : (role.files.map held).Nodup := by
  have paths := Entries.nodup_of_increasing role.increasing
  have same : (role.files.map held).map (·.1) = (role.files.map (·.1)).map Path.names := by
    simp [held, Function.comp_def]
  have names : ((role.files.map held).map (·.1)).Nodup := by
    rw [same]
    exact paths.map fun _ _ => Path.names_injective
  exact names.of_map _

theorem nodup_held (wellFormed : role.IsWellFormed) (areRecords : AreRecords records) :
    (role.files.map held ++ records).Nodup := by
  refine List.nodup_append.mpr ⟨nodup_map_held role, areRecords.distinct, ?_⟩
  rintro file ofRole record ofRecords rfl
  obtain ⟨file, member, rfl⟩ := List.mem_map.mp ofRole
  obtain ⟨name, same, -⟩ := areRecords.inside _ ofRecords
  refine wellFormed.unreserved file.1 (fst_mem_paths member) ?_
  rw [show Path.names file.1 = [Fingerprint.recordDirectory, name] from same]
  exact .head _

theorem filesBelow_perm (wellFormed : role.IsWellFormed) (areRecords : AreRecords records)
    (holds : d.Holds base place (role.files.map held ++ records) ways) :
    (d.filesBelow place).Perm (role.files.map held ++ records) := by
  refine holds.filesBelow_perm (nodup_held wellFormed areRecords) ?_
  intro file member
  rcases List.mem_append.mp member with ofRole | ofRecords
  · obtain ⟨file, -, rfl⟩ := List.mem_map.mp ofRole
    exact Path.names_ne_nil file.1
  · obtain ⟨name, same, -⟩ := areRecords.inside file ofRecords
    rw [same]
    exact List.cons_ne_nil _ _

/-- What a fingerprint covers of a directory are the files of the role in it. -/
theorem covered_perm (wellFormed : role.IsWellFormed) (areRecords : AreRecords records)
    (holds : d.Holds base place (role.files.map held ++ records) ways) :
    ((d.filesBelow place).filter fun file =>
      !file.1.dropLast.contains Fingerprint.recordDirectory).Perm (role.files.map held) := by
  have kept : ∀ file ∈ role.files.map held,
      !file.1.dropLast.contains Fingerprint.recordDirectory := by
    intro file member
    obtain ⟨file, inRole, rfl⟩ := List.mem_map.mp member
    have absent := wellFormed.unreserved file.1 (fst_mem_paths inRole)
    have dropped : Fingerprint.recordDirectory ∉ (held file).1.dropLast := fun inside =>
      absent (List.dropLast_subset _ inside)
    simpa using dropped
  have left : ∀ record ∈ records,
      ¬ !record.1.dropLast.contains Fingerprint.recordDirectory := by
    intro record member
    obtain ⟨name, same, -⟩ := areRecords.inside record member
    simp [same]
  have perm := (filesBelow_perm wellFormed areRecords holds).filter fun file =>
    !file.1.dropLast.contains Fingerprint.recordDirectory
  rwa [List.filter_append, List.filter_eq_self.mpr kept, List.filter_eq_nil_iff.mpr left,
    List.append_nil] at perm

/-- The fingerprint of a directory is that of the role in it. -/
theorem ofDirectory_of_perm (resolves : d.resolve base = .ok place)
    (start : d.at? place = some .directory)
    (perm : ((d.filesBelow place).filter fun file =>
      !file.1.dropLast.contains Fingerprint.recordDirectory).Perm (role.files.map held)) :
    Fingerprint.ofDirectory d base = .ok (Fingerprint.ofRole role) := by
  have covered := perm.map fun file =>
    (String.intercalate "/" file.1, Fingerprint.ofBytes file.2)
  have entries : (role.files.map held).map (fun file =>
        (String.intercalate "/" file.1, Fingerprint.ofBytes file.2)) =
      role.files.map fun file => (file.1, Fingerprint.ofText file.2) := by
    rw [List.map_map]
    refine List.map_congr_left fun file _ => ?_
    simp [held, Path.intercalate_names, Fingerprint.ofText]
  rw [entries] at covered
  have increasing : (role.files.map fun file =>
      (file.1, Fingerprint.ofText file.2)).Pairwise fun a b => a.1 < b.1 :=
    List.pairwise_map.mpr role.increasing
  rw [Fingerprint.ofDirectory, resolves]
  dsimp only [accessing, Except.mapError, bind, Except.bind]
  rw [start]
  dsimp only
  exact congrArg (fun entries => Except.ok (Fingerprint.ofEntries entries))
    (Entries.sorted_eq_of_perm increasing covered)

theorem ofDirectory_eq (wellFormed : role.IsWellFormed) (areRecords : AreRecords records)
    (holds : d.Holds base place (role.files.map held ++ records) ways) :
    Fingerprint.ofDirectory d base = .ok (Fingerprint.ofRole role) :=
  ofDirectory_of_perm holds.opens holds.start (covered_perm wellFormed areRecords holds)

/-- The path of a file is found again, unless the search starts from a path with a single dot in
front. -/
theorem storedPath?_names (base : String) {path : String}
    (ordinary : ∀ name ∈ Path.names path, Path.IsOrdinary name)
    (noBackslash : '\\' ∉ path.toList)
    (unreserved : Fingerprint.recordDirectory ∉ Path.names path) :
    storedPath? base (Path.names path) =
      if (Path.components base).head? = some .here then none else some path := by
  have first : ((Path.names path).map Component.name).head? ≠
      some (.name Fingerprint.recordDirectory) := by
    rw [List.head?_map]
    intro same
    obtain ⟨name, head, reserved⟩ := Option.map_eq_some_iff.mp same
    cases reserved
    exact unreserved (List.mem_of_head? head)
  have same : (path.map fun c => if c = '\\' then '/' else c) = path := by
    rw [← String.toList_inj, String.toList_map]
    refine (List.map_congr_left fun c member => ?_).trans (List.map_id _)
    apply if_neg
    rintro rfl
    exact noBackslash member
  rw [storedPath?, Path.relative?_found base ordinary (Path.names_ne_nil path)]
  split
  · rfl
  · simp only [Option.bind_eq_bind, Option.bind_some, if_neg first, Path.ofComponents_names,
      Path.intercalate_names, same]

theorem isOrdinary_recordDirectory : Path.IsOrdinary Fingerprint.recordDirectory :=
  ⟨by decide, by decide, by decide, by decide⟩

/-- A record is no file of a role. -/
theorem storedFile?_record (base : String) {name : String} (ordinary : Path.IsOrdinary name)
    (bytes : List UInt8) :
    storedFile? base ([Fingerprint.recordDirectory, name], bytes) = none := by
  have names : ∀ n ∈ [Fingerprint.recordDirectory, name], Path.IsOrdinary n := by
    simp [ordinary, isOrdinary_recordDirectory]
  rw [storedFile?, storedPath?, Path.relative?_found base names (List.cons_ne_nil _ _)]
  split
  · rfl
  · rfl

/-- The files of a role are read from the directory that they were written to, unless its path is
written with a single dot in front. -/
theorem filterMap_storedFile? (wellFormed : role.IsWellFormed) (base : String) :
    (role.files.map held).filterMap (storedFile? base) =
      if (Path.components base).head? = some .here then [] else role.files := by
  have file : ∀ file ∈ role.files, storedFile? base (held file) =
      if (Path.components base).head? = some .here then none else some file := by
    intro file member
    have known := fst_mem_paths member
    rw [storedFile?, held, storedPath?_names base (wellFormed.ordinary _ known)
      (wellFormed.noBackslash _ known) (wellFormed.unreserved _ known)]
    split
    · rfl
    · simp [Text.decode?_encode]
  rw [List.filterMap_map]
  refine (List.filterMap_congr file).trans ?_
  split
  · exact List.filterMap_none _
  · exact List.filterMap_some

/-- A role is read from the directory that it was written to, unless its path is written with a
single dot in front. Nothing is read then. -/
theorem stored_eq (wellFormed : role.IsWellFormed) (areRecords : AreRecords records)
    (holds : d.Holds base place (role.files.map held ++ records) ways) :
    stored d base =
      .ok (if (Path.components base).head? = some .here then .empty else role) := by
  have left : records.filterMap (storedFile? base) = [] := by
    refine List.filterMap_eq_nil_iff.mpr fun record member => ?_
    obtain ⟨names, bytes⟩ := record
    obtain ⟨name, rfl, ordinary⟩ := areRecords.inside _ member
    exact storedFile?_record base ordinary bytes
  have perm := (filesBelow_perm wellFormed areRecords holds).filterMap (storedFile? base)
  rw [List.filterMap_append, left, List.append_nil, filterMap_storedFile? wellFormed base] at perm
  have resolves : d.resolve base = .ok place := holds.opens
  have directory : d.isDirectory base = true := by
    simp [Disk.isDirectory, Disk.node?, resolves, holds.start]
  rw [stored, if_pos directory, Disk.filesIn, if_pos directory, resolves]
  refine congrArg Except.ok (ofList_eq_of_perm (perm.trans (.of_eq ?_)))
  split
  · rfl
  · rfl

end Reading

end Role

end Rolewright
