/-
# Searches by any path

What a search finds depends on the place where it starts, and how it writes what it finds depends on
how the path of that place is written. The steps of a path that starts with a single dot cannot be
taken off again from what is found, since a search leaves out the dot (`relative_found`).
-/

import Mathlib.Data.List.Induction
import Rolewright.Proofs.Disk.Contents

namespace Rolewright

namespace Path

/-- A name below a base. -/
theorem components_join_name (base : String) {name : String} (ordinary : IsOrdinary name) :
    components (join base name) = components base ++ [.name name] := by
  have whole := components_join base (List.forall_mem_singleton.mpr ordinary)
    (List.cons_ne_nil name [])
  rwa [String.intercalate_singleton] at whole

/-! ## What is left of a path that was found -/

/-- The steps that stay in front of the files of a directory, for a path of it that starts with a
single dot. -/
def kept? (path : String) : Option (List Component) :=
  if (components path).head? = some .here then some (components (Disk.searchRoot path)) else none

theorem kept?_eq_none_iff {path : String} :
    kept? path = none ↔ (components path).head? ≠ some .here := by
  simp [kept?]

/-- A path that does not start with a single dot is searched as it is. -/
theorem components_searchRoot_of_kept? {path : String} (unkept : kept? path = none) :
    components (Disk.searchRoot path) = components path := by
  rcases components_eq_searchRoot path with same | behind
  · exact same.symm
  · exact absurd (by rw [behind, List.head?_cons]) (kept?_eq_none_iff.mp unkept)

/-- A path that starts with a single dot has the steps it keeps behind that dot. -/
theorem components_of_kept? {path : String} {steps : List Component}
    (kept : kept? path = some steps) : components path = .here :: steps := by
  unfold kept? at kept
  split at kept
  · rename_i here
    obtain rfl := Option.some.inj kept
    rcases components_eq_searchRoot path with same | behind
    · exact absurd (same ▸ List.mem_of_head? here) (here_not_mem_searchRoot path)
    · exact behind
  · cases kept

section

variable (path : String) {names : List String} (ordinary : ∀ name ∈ names, IsOrdinary name)
include ordinary

theorem components_found (nonempty : names ≠ []) :
    components (Disk.found path names) =
      components (Disk.searchRoot path) ++ names.map .name := by
  rw [found_eq_join, components_join _ ordinary nonempty]

/-- What is found from a path, as told from that path. -/
theorem relative_found (nonempty : names ≠ []) :
    relative path (Disk.found path names) =
      ofComponents ((kept? path).getD [] ++ names.map .name) := by
  rw [relative, relative?_found path ordinary nonempty, kept?]
  split
  · rw [Option.getD_none, components_found path ordinary nonempty, Option.getD_some]
  · rfl

/-- What is found from a path below a directory there, as told from that directory. -/
theorem relative_join_found {directory : String} (named : IsOrdinary directory) :
    relative (join path directory) (Disk.found path (directory :: names)) =
      ofComponents (((kept? path).map (· ++ [.name directory])).getD [] ++ names.map .name) := by
  have all : ∀ name ∈ directory :: names, IsOrdinary name :=
    List.forall_mem_cons.mpr ⟨named, ordinary⟩
  have whole := components_found path all (List.cons_ne_nil _ _)
  rw [relative, relative?, components_join_name path named, whole]
  cases kept : kept? path with
  | none =>
      have split : (components path ++ [Component.name directory]).isPrefixOf?
          (components path ++ (directory :: names).map Component.name) =
            some (names.map Component.name) :=
        List.isPrefixOf?_eq_some_iff_append_eq.mpr (by simp)
      rw [components_searchRoot_of_kept? kept, split]
      rfl
  | some steps =>
      have behind := components_of_kept? kept
      have absent := here_not_mem_searchRoot path
      have none : (components path ++ [Component.name directory]).isPrefixOf?
          (components (Disk.searchRoot path) ++ (directory :: names).map Component.name) =
            none := by
        refine Option.eq_none_iff_forall_ne_some.mpr fun rest prefixed => ?_
        have split := List.isPrefixOf?_eq_some_iff_append_eq.mp prefixed
        have member : Component.here ∈
            components (Disk.searchRoot path) ++ (directory :: names).map Component.name :=
          split ▸ by simp [behind]
        simp [absent] at member
      have same : components (Disk.searchRoot path) = steps := by
        rw [kept?, behind, List.head?_cons, if_pos rfl] at kept
        exact Option.some.inj kept
      rw [none, same]
      simp

end

theorem ofComponents_cons (step : Component) {steps : List Component} (nonempty : steps ≠ []) :
    ofComponents (step :: steps) = step.text ++ "/" ++ ofComponents steps := by
  obtain ⟨next, rest, rfl⟩ := List.exists_cons_of_ne_nil nonempty
  exact String.intercalate_cons_cons

/-- Steps in front make another path. -/
theorem ofComponents_append_ne {front steps : List Component} (moves : front ≠ [])
    (nonempty : steps ≠ []) : ofComponents (front ++ steps) ≠ ofComponents steps := by
  have longer (front : List Component) :
      (ofComponents steps).length ≤ (ofComponents (front ++ steps)).length := by
    induction front with
    | nil => exact Nat.le_refl _
    | cons step front ih =>
        rw [List.cons_append, ofComponents_cons step (by simp [nonempty])]
        simp only [String.length_append]
        omega
  obtain ⟨step, rest, rfl⟩ := List.exists_cons_of_ne_nil moves
  intro same
  have lengths := congrArg String.length same
  rw [List.cons_append, ofComponents_cons step (by simp [nonempty])] at lengths
  simp only [String.length_append] at lengths
  have bound := longer rest
  have slash : "/".length = 1 := rfl
  omega

end Path

namespace Disk

variable {d : Disk} {path : String} {place names : List String} {name : String}

/-! ## Where paths lead -/

/-- What something lies below is a directory. -/
theorem IsTree.directory_of_below (tree : d.IsTree) {node : DiskNode} (moves : names ≠ [])
    (there : d.at? (place ++ names) = some node) : d.at? place = some .directory := by
  induction names using List.reverseRecOn generalizing node with
  | nil => exact absurd rfl moves
  | append_singleton front last ih =>
      have above := tree.directory_above there
      rw [← List.append_assoc, List.dropLast_concat] at above
      by_cases first : front = []
      · rwa [first, List.append_nil] at above
      · exact ih first above

/-- A name behind a path leads to what bears it in the directory there. -/
theorem resolve_join (opens : d.resolve path = .ok place)
    (directory : d.at? place = some .directory) (ordinary : Path.IsOrdinary name)
    (fits : checkName name = .ok ()) : d.resolve (Path.join path name) = .ok (place ++ [name]) := by
  have last : d.Leads place [.name name] (place ++ [name]) :=
    leads_cons_iff.mpr ⟨_, walk_eq_ok_iff.mpr ⟨directory, by simp [fits], rfl⟩,
      leads_nil_iff.mpr rfl⟩
  show d.Leads d.working _ _
  rw [Path.components_join_name path ordinary]
  exact Leads.append opens last

/-- A search starts from the place to which the path leads. -/
theorem leads_searchRoot (opens : d.resolve path = .ok place) :
    d.Leads d.working (Path.components (searchRoot path)) place := by
  have leads : d.Leads d.working (Path.components path) place := opens
  rcases Path.components_eq_searchRoot path with same | behind
  · rwa [← same]
  · rw [behind] at leads
    obtain ⟨next, step, leads⟩ := leads_cons_iff.mp leads
    have stays : d.working = next := (walk_eq_ok_iff.mp step).2.2
    rwa [← stays] at leads

/-- The last name of a path is that of the place to which it leads. -/
theorem eq_of_fileName? (opens : d.resolve path = .ok (place ++ [name])) {last : String}
    (ends : Path.fileName? path = some last) : last = name := by
  have leads : d.Leads d.working (Path.components path) (place ++ [name]) := opens
  unfold Path.fileName? at ends
  split at ends
  · rename_i text final
    obtain rfl := Option.some.inj ends
    obtain ⟨front, split⟩ := List.getLast?_eq_some_iff.mp final
    rw [split] at leads
    obtain ⟨next, -, step⟩ := leads_append_iff.mp leads
    have goal : next ++ [text] = place ++ [name] := step.follow_eq
    exact List.singleton_inj.mp (List.append_inj' goal rfl).2
  · cases ends

theorem isFile_iff (opens : d.resolve path = .ok place) :
    d.isFile path = true ↔ ∃ bytes, d.at? place = some (.file bytes) := by
  simp only [isFile, node?, opens]
  split
  · rename_i bytes there
    exact iff_of_true rfl ⟨bytes, there⟩
  · rename_i none
    exact iff_of_false nofun fun ⟨bytes, there⟩ => none bytes there

theorem read_eq (opens : d.resolve path = .ok place) {bytes : List UInt8}
    (there : d.at? place = some (.file bytes)) : d.read path = .ok bytes := by
  simp only [read, opens, bind, Except.bind, there]
  rfl

/-- A search finds what lies below the place where it starts. -/
theorem filesIn_eq (tree : d.IsTree) (opens : d.resolve path = .ok place) :
    d.filesIn path = d.filesBelow place := by
  rw [filesIn]
  split
  · rw [opens]
  · rename_i elsewhere
    refine (List.eq_nil_iff_forall_not_mem.mpr fun ⟨names, bytes⟩ member => elsewhere ?_).symm
    obtain ⟨moves, there⟩ := (mem_filesBelow_iff tree.table).mp member
    rw [isDirectory, node?, opens]
    exact beq_iff_eq.mpr (tree.directory_of_below moves there)

end Disk

end Rolewright
