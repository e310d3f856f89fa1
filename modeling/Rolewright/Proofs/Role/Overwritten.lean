/-
# Roles written over what is there

A role may be written where another one was. Of what stood there before, writing its files
replaces what stands under their names and under the names that they wait under (`Role.Replaces`),
and nothing else (`Role.rewrites_of_writeFiles`). What a fingerprint covers of a directory are its
files outside the directory for records (`Disk.roleFiles`).
-/

import Rolewright.Proofs.Disk.Effects
import Rolewright.Proofs.Role.Written

namespace Rolewright

namespace Disk

variable {d after : Disk} {directory : String}

/-- The files below a directory, without those in a directory for records. -/
def roleFiles (d : Disk) (directory : String) : List (List String × List UInt8) :=
  (d.filesBelow (d.target directory)).filter fun file =>
    !file.1.dropLast.contains Fingerprint.recordDirectory

theorem nodup_roleFiles (tree : d.IsTree) (directory : String) : (d.roleFiles directory).Nodup :=
  (nodup_filesBelow tree.table _).filter _

theorem mem_roleFiles_iff (tree : d.IsTree) {names : List String} {bytes : List UInt8} :
    (names, bytes) ∈ d.roleFiles directory ↔
      (names ≠ [] ∧ Fingerprint.recordDirectory ∉ names.dropLast) ∧
        d.at? (d.target directory ++ names) = some (.file bytes) := by
  rw [roleFiles, List.mem_filter, mem_filesBelow_iff tree.table]
  simp only [List.contains_eq_mem, Bool.not_eq_true', decide_eq_false_iff_not]
  tauto

end Disk

namespace Role

/-- The paths of a role are put together of names that stand for themselves, and none of them is
that of the directory for records. -/
@[mk_iff]
structure IsPlaced (role : Role) : Prop where
  ordinary : ∀ path ∈ role.paths, ∀ name ∈ Path.names path, Path.IsOrdinary name
  unreserved : ∀ path ∈ role.paths, Fingerprint.recordDirectory ∉ Path.names path

instance (role : Role) : Decidable role.IsPlaced :=
  decidable_of_iff _ (isPlaced_iff role).symm

theorem IsWellFormed.isPlaced {role : Role} (wellFormed : role.IsWellFormed) : role.IsPlaced :=
  ⟨wellFormed.ordinary, wellFormed.unreserved⟩

variable {role : Role} {d after : Disk} {base : String} {place names : List String}
  {files : List (String × String)}

theorem IsPlaced.of_mem_held (placed : role.IsPlaced) {file : List String × List UInt8}
    (member : file ∈ role.files.map held) :
    file.1 ≠ [] ∧ Fingerprint.recordDirectory ∉ file.1 := by
  obtain ⟨file, inRole, rfl⟩ := List.mem_map.mp member
  exact ⟨Path.names_ne_nil file.1, placed.unreserved file.1 (fst_mem_paths inRole)⟩

/-- Whether writing some files replaces what stands under some names: those of a file, or those that
a file waits under. -/
def Replaces (files : List (String × String)) (names : List String) : Prop :=
  ∃ file ∈ files, names = Path.names file.1 ∨ names = Path.names (file.1 ++ ".tmp")

instance (files : List (String × String)) (names : List String) :
    Decidable (Replaces files names) :=
  inferInstanceAs (Decidable (∃ file ∈ files, _))

theorem replaces_of_mem_held {file : List String × List UInt8} (member : file ∈ files.map held) :
    Replaces files file.1 := by
  obtain ⟨file, own, rfl⟩ := List.mem_map.mp member
  exact ⟨file, own, .inl rfl⟩

theorem replaces_cons_iff {file : String × String} :
    Replaces (file :: files) names ↔
      (names = Path.names file.1 ∨ names = Path.names (file.1 ++ ".tmp")) ∨
        Replaces files names :=
  List.exists_mem_cons_iff ..

/-- What writing files below a place makes of a disk. -/
structure Rewrites (files : List (String × String)) (place : List String) (d after : Disk) :
    Prop where
  further : d.Extends after
  below : ∀ names bytes, after.at? (place ++ names) = some (.file bytes) ↔
    (names, bytes) ∈ files.map held ∨
      ¬ Replaces files names ∧ d.at? (place ++ names) = some (.file bytes)
  beyond : ∀ q, ¬ place <+: q → ∀ bytes,
    after.at? q = some (.file bytes) ↔ d.at? q = some (.file bytes)

theorem rewrites_nil (tree : d.IsTree) (place : List String) : Rewrites [] place d d where
  further := tree.extends_self
  below names bytes := by simp [Replaces]
  beyond q _ bytes := Iff.rfl

/-- Writing one file below a directory. -/
theorem rewrites_of_replace (tree : d.IsTree) {path content : String}
    (ordinary : ∀ name ∈ Path.names path, Path.IsOrdinary name)
    (does : (DiskWork.replace (Path.join base path) content).Does d () after) :
    Rewrites [(path, content)] (d.target base) d after := by
  obtain ⟨front, name, split⟩ :=
    (List.eq_nil_or_concat (Path.names path)).resolve_left (Path.names_ne_nil path)
  rw [List.concat_eq_append] at split
  have ends := Path.endsIn_join base front name (split ▸ ordinary)
  rw [← split, Path.intercalate_names] at ends
  have waiting := Path.names_append_tmp split (split ▸ ordinary)
  obtain ⟨further, files⟩ := does.of_replace tree ends
  simp only [Disk.follow_names_below, List.append_assoc, ← split, ← waiting] at files
  refine ⟨further, fun names bytes => ?_, fun q outside bytes => ?_⟩
  · rw [files]
    simp only [ne_eq, List.append_cancel_left_eq, Replaces, held, List.map_cons, List.map_nil,
      List.mem_singleton, Prod.mk.injEq, exists_eq_left, not_or, and_assoc]
  · have apart (names : List String) : q ≠ d.target base ++ names :=
      fun same => outside (same ▸ List.prefix_append _ _)
    simp [files, apart]

/-- A file that is written before others is not replaced by them. -/
theorem not_replaces_of_lt {path : String} (later : ∀ file ∈ files, path < file.1) :
    ¬ Replaces files (Path.names path) := by
  rintro ⟨file, member, same | waiting⟩
  · exact String.lt_irrefl path (Path.names_injective same ▸ later file member)
  · have before := later file member
    rw [Path.names_injective waiting] at before
    exact Path.not_append_lt _ _ before

/-- Writing a file, and then others whose paths come later. -/
theorem Rewrites.cons {mid : Disk} {file : String × String}
    (first : Rewrites [file] place d mid) (rest : Rewrites files place mid after)
    (later : ∀ other ∈ files, file.1 < other.1) : Rewrites (file :: files) place d after where
  further := first.further.trans rest.further
  below names bytes := by
    have alone : Replaces [file] names ↔
        names = Path.names file.1 ∨ names = Path.names (file.1 ++ ".tmp") := by
      simp [Replaces]
    rw [rest.below, first.below, alone, replaces_cons_iff]
    simp only [List.map_cons, List.map_nil, List.mem_cons, List.not_mem_nil, or_false]
    by_cases replaced : Replaces files names
    · have other : (names, bytes) ≠ held file := by
        intro same
        rw [show names = Path.names file.1 from congrArg Prod.fst same] at replaced
        exact not_replaces_of_lt later replaced
      simp [replaced, other]
    · simp only [replaced, not_false_eq_true, true_and, or_false]
      exact or_left_comm.trans or_assoc.symm
  beyond q outside bytes := (rest.beyond q outside bytes).trans (first.beyond q outside bytes)

/-- Writing the files of a role below a directory replaces what stands under their names and the
names that they wait under, and nothing else. -/
theorem rewrites_of_writeFiles (tree : d.IsTree)
    (ordinary : ∀ file ∈ files, ∀ name ∈ Path.names file.1, Path.IsOrdinary name)
    (increasing : files.Pairwise fun a b => a.1 < b.1)
    (does : (writeFiles base files).Does d () after) :
    Rewrites files (d.target base) d after := by
  induction files generalizing d with
  | nil =>
      obtain rfl : d = after := congrArg Prod.snd does
      exact rewrites_nil tree _
  | cons file files ih =>
      obtain ⟨path, content⟩ := file
      obtain ⟨_, mid, replaces, writes⟩ := does.exists_of_bind
      obtain ⟨here, others⟩ := List.forall_mem_cons.mp ordinary
      obtain ⟨later, increasing⟩ := List.pairwise_cons.mp increasing
      have first := rewrites_of_replace tree here replaces
      have rest := ih first.further.tree others increasing writes
      rw [first.further.target_eq] at rest
      exact first.cons rest later

end Role

end Rolewright
