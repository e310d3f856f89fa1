/-
# What writing changes

Whatever stands on a disk, work on one file of it changes little: the disk stays a tree with the
directories that it had (`Disk.Extends`), and at all places but two there are the same files as
before. A text that is written through another name is then the file of its place, and nothing is
left under that name (`DiskWork.Does.of_replace`). Nothing is said here of whether the work
succeeds.
-/

import Rolewright.Proofs.Disk.Contents

namespace Rolewright

namespace Disk

variable {d mid after : Disk} {place q : List String} {name moved path source : String}
  {bytes content : List UInt8} {front : List Component}

/-- A later state of a disk: a tree with the same directories and more. -/
structure Extends (d after : Disk) : Prop where
  tree : after.IsTree
  working : after.working = d.working
  stay : ∀ q, d.at? q = some .directory → after.at? q = some .directory

theorem IsTree.extends_self (tree : d.IsTree) : d.Extends d :=
  ⟨tree, rfl, fun _ there => there⟩

theorem Extends.trans (first : d.Extends mid) (second : mid.Extends after) : d.Extends after :=
  ⟨second.tree, second.working.trans first.working, fun q there =>
    second.stay q (first.stay q there)⟩

theorem Extends.leads {steps : List Component} {goal : List String} (further : d.Extends after)
    (leads : d.Leads place steps goal) : after.Leads place steps goal :=
  leads.mono further.stay

theorem Extends.target_eq (further : d.Extends after) (path : String) :
    after.target path = d.target path := by
  rw [target_eq_follow, target_eq_follow, further.working]

/-- The place of names below that of a path. -/
theorem follow_names_below (d : Disk) (path : String) (names : List String) :
    follow d.working (Path.components path ++ names.map .name) = d.target path ++ names := by
  rw [follow_append, follow_names, target_eq_follow]

/-! ## Single places -/

/-- The files after one was put at a place. -/
theorem at?_set_file (nonempty : place ≠ []) :
    (d.set place (.file content)).at? q = some (.file bytes) ↔
      q = place ∧ bytes = content ∨ q ≠ place ∧ d.at? q = some (.file bytes) := by
  rw [at?_set d nonempty]
  by_cases same : q = place
  · simp [same, eq_comm]
  · simp [same]

/-- A file that is put in a directory, in the place of no directory. -/
theorem IsTree.extends_set_file (tree : d.IsTree) (directory : d.at? place = some .directory)
    (fits : checkName name = .ok ()) (other : d.at? (place ++ [name]) ≠ some .directory)
    (bytes : List UInt8) : d.Extends (d.set (place ++ [name]) (.file bytes)) := by
  have nonempty : place ++ [name] ≠ [] := by simp
  have stay (q : List String) (there : d.at? q = some .directory) :
      (d.set (place ++ [name]) (.file bytes)).at? q = some .directory := by
    rw [at?_set d nonempty, if_neg ?_]
    · exact there
    · rintro rfl
      exact other there
  refine ⟨⟨isTable_set tree.table _ _, ?_, ?_, stay _ tree.working⟩, rfl, stay⟩
  · intro entry member
    rcases List.mem_cons.mp member with rfl | before
    · rw [List.dropLast_concat]
      exact stay place directory
    · exact stay _ (tree.above entry (List.mem_of_mem_filter before))
  · intro entry member
    rcases List.mem_cons.mp member with rfl | before
    · intro n inside
      rcases List.mem_append.mp inside with above | last
      · exact checkName_eq_ok_iff.mp (tree.checkName_eq_ok directory n above)
      · rw [List.mem_singleton.mp last]
        exact checkName_eq_ok_iff.mp fits
    · exact tree.named entry (List.mem_of_mem_filter before)

/-- A file that is taken away. -/
theorem IsTree.extends_remove_file (tree : d.IsTree) (there : d.at? place = some (.file bytes)) :
    d.Extends (d.remove place) := by
  have stay (q : List String) (directory : d.at? q = some .directory) :
      (d.remove place).at? q = some .directory := at?_remove_directory there directory
  exact ⟨⟨isTable_remove tree.table _,
    fun entry member => stay _ (tree.above entry (List.mem_of_mem_filter member)),
    fun entry member => tree.named entry (List.mem_of_mem_filter member), stay _ tree.working⟩,
    rfl, stay⟩

/-! ## Single operations -/

/-- Making the directories on a way makes and takes no files. -/
theorem at?_file_of_makeAlong {steps : List Component} {made : Disk}
    (makes : d.makeAlong place steps = .ok made) :
    made.at? q = some (.file bytes) ↔ d.at? q = some (.file bytes) := by
  induction steps generalizing d place with
  | nil =>
      obtain rfl := Except.ok.inj makes
      exact Iff.rfl
  | cons step steps ih =>
      cases step with
      | root => exact ih makes
      | here => exact ih makes
      | parent => exact ih makes
      | name name =>
          have nonempty : place ++ [name] ≠ [] := by simp
          rcases makeAlong_name_cases makes with ⟨-, makes⟩ | ⟨vacant, -, makes⟩
          · exact ih makes
          · refine (ih makes).trans ?_
            rw [at?_set d nonempty]
            split
            · rename_i same
              simp [same, vacant]
            · exact Iff.rfl

/-- A path that ends in a name denotes the place of this name in the directory before it. -/
theorem eq_of_resolve (ends : Path.EndsIn path front name) (resolves : d.resolve path = .ok place) :
    d.at? (follow d.working front) = some .directory ∧ checkName name = .ok () ∧
      place = follow d.working front ++ [name] := by
  have leads : d.Leads d.working (Path.components path) place := resolves
  rw [ends.components, leads_append_iff] at leads
  obtain ⟨above, leads, last⟩ := leads
  obtain ⟨_, walks, arrives⟩ := leads_cons_iff.mp last
  obtain ⟨directory, fits, moved⟩ := walk_eq_ok_iff.mp walks
  rw [leads.follow_eq]
  exact ⟨directory, fits name rfl, (leads_nil_iff.mp arrives).symm.trans moved.symm⟩

/-- A file that is written is at its place, and replaces no directory there. -/
theorem extends_of_write (tree : d.IsTree) (ends : Path.EndsIn path front name)
    (writes : d.write path content = .ok after) :
    d.Extends after ∧ ∀ q bytes, after.at? q = some (.file bytes) ↔
      q = follow d.working front ++ [name] ∧ bytes = content ∨
      q ≠ follow d.working front ++ [name] ∧ d.at? q = some (.file bytes) := by
  rw [write] at writes
  cases resolves : d.resolve path with
  | error cause =>
      rw [resolves] at writes
      cases writes
  | ok place =>
      obtain ⟨directory, fits, rfl⟩ := eq_of_resolve ends resolves
      rw [resolves] at writes
      dsimp only [bind, Except.bind] at writes
      split at writes
      · cases writes
      · rename_i other
        rw [ends.namesDirectory] at writes
        obtain rfl := Except.ok.inj writes
        exact ⟨tree.extends_set_file directory fits other content,
          fun q bytes => at?_set_file (by simp)⟩

/-- A file that is moved to another name in its directory replaces no directory there. -/
theorem extends_of_rename (tree : d.IsTree) (ends : Path.EndsIn path front name)
    (sourceEnds : Path.EndsIn source front moved) (renames : d.rename source path = .ok after) :
    d.Extends after ∧ ∃ content, d.at? (follow d.working front ++ [moved]) = some (.file content) ∧
      ∀ q bytes, after.at? q = some (.file bytes) ↔
        q = follow d.working front ++ [name] ∧ bytes = content ∨
        q ≠ follow d.working front ++ [name] ∧ q ≠ follow d.working front ++ [moved] ∧
          d.at? q = some (.file bytes) := by
  have target : d.target source = follow d.working front ++ [moved] := by
    rw [target_eq_follow, sourceEnds.components, follow_append]
    rfl
  have notHere : some name.toList ≠ some ['.'] := mt Option.some.inj ends.ordinary.toList_ne_dot
  have nonempty : some name.toList ≠ some [] := mt Option.some.inj ends.ordinary.toList_ne_nil
  rw [rename] at renames
  cases resolves : d.resolve path with
  | error cause =>
      rw [resolves] at renames
      cases renames
  | ok place =>
      obtain ⟨directory, fits, rfl⟩ := eq_of_resolve ends resolves
      rw [resolves] at renames
      dsimp only [bind, Except.bind] at renames
      rw [ends.last, if_neg notHere, target] at renames
      dsimp only [pure, Except.pure] at renames
      split at renames
      · cases renames
      · rename_i content there other
        rw [if_neg nonempty] at renames
        obtain rfl := Except.ok.inj renames
        have removing := tree.extends_remove_file there
        have vacant : (d.remove (follow d.working front ++ [moved])).at?
            (follow d.working front ++ [name]) ≠ some .directory := by
          rw [at?_remove d (by simp)]
          split
          · simp
          · exact other
        refine ⟨removing.trans (removing.tree.extends_set_file (removing.stay _ directory) fits
          vacant content), content, there, fun q bytes => ?_⟩
        rw [at?_set_file (by simp), at?_remove d (by simp)]
        by_cases same : q = follow d.working front ++ [moved]
        · simp [same]
        · simp [same]
      · cases renames

end Disk

/-! ## Work -/

namespace DiskWork

open Disk

variable {d after : Disk} {path content name : String} {front : List Component}

/-- Making a directory leaves a way to it. -/
theorem Does.of_makeDirectories (tree : d.IsTree)
    (does : (makeDirectories path).Does d () after) :
    d.Extends after ∧ after.resolve path = .ok (d.target path) ∧
      after.at? (d.target path) = some .directory ∧
      ∀ q bytes, after.at? q = some (.file bytes) ↔ d.at? q = some (.file bytes) := by
  have makes : d.makeAlong d.working (Path.components path) = .ok after := does.of_change
  have made := made_of_makeAlong tree tree.working makes
  have resolves : after.resolve path = .ok (d.target path) := by
    rw [resolve, made.working]
    exact made.leads
  exact ⟨⟨made.tree, made.working, made.stay⟩, resolves, made.directory,
    fun q bytes => at?_file_of_makeAlong makes⟩

/-- A text that is written through another name is then at its place, whatever stood there, and
nothing is left under the other name. -/
theorem Does.of_replace (tree : d.IsTree) (ends : Path.EndsIn path front name)
    (does : (replace path content).Does d () after) :
    d.Extends after ∧ ∀ q bytes, after.at? q = some (.file bytes) ↔
      q = follow d.working front ++ [name] ∧ bytes = Text.encode content.toList ∨
      q ≠ follow d.working front ++ [name] ∧ q ≠ follow d.working front ++ [name ++ ".tmp"] ∧
        d.at? q = some (.file bytes) := by
  obtain ⟨_, made, makes, does⟩ := does.exists_of_bind
  obtain ⟨_, written, writes, renames⟩ := does.exists_of_bind
  obtain ⟨making, -, -, unchanged⟩ := makes.of_makeDirectories tree
  obtain ⟨writing, added⟩ := extends_of_write making.tree ends.waitingPath writes.of_change
  obtain ⟨moving, content, there, moved⟩ :=
    extends_of_rename writing.tree ends ends.waitingPath renames.of_change
  simp only [writing.working, making.working, unchanged] at added there moved
  obtain ⟨-, rfl⟩ := ((added _ _).mp there).resolve_right fun other => other.1 rfl
  refine ⟨making.trans (writing.trans moving), fun q bytes => (moved q bytes).trans ?_⟩
  refine or_congr Iff.rfl (and_congr_right fun _ => and_congr_right fun other => ?_)
  simp [added, other]

/-- A text that is added to a file changes no other file. -/
theorem Does.of_append (tree : d.IsTree) (ends : Path.EndsIn path front name)
    (does : (append path content).Does d () after) :
    d.Extends after ∧ ∀ q ≠ follow d.working front ++ [name], ∀ bytes,
      after.at? q = some (.file bytes) ↔ d.at? q = some (.file bytes) := by
  obtain ⟨_, made, makes, does⟩ := does.exists_of_bind
  obtain ⟨making, -, -, unchanged⟩ := makes.of_makeDirectories tree
  obtain ⟨writing, added⟩ := extends_of_write making.tree ends does.of_change
  simp only [making.working, unchanged] at added
  refine ⟨making.trans writing, fun q other bytes => (added q bytes).trans ?_⟩
  simp [other]

end DiskWork

end Rolewright
