/-
# Roles from lists of files

A role keeps its files in the order of their paths. Where no path comes twice, the order in which
files come is therefore lost: any two lists of the same files give one role.
-/

import Mathlib.Data.List.Nodup
import Rolewright.Role.Basic

namespace Rolewright

namespace Entries

variable {α : Type} {entries others : Entries α}

theorem nodup_of_increasing (increasing : entries.Pairwise fun a b => a.1 < b.1) :
    (entries.map (·.1)).Nodup := by
  rw [List.Nodup, List.pairwise_map]
  refine increasing.imp ?_
  intro a b before same
  rw [same] at before
  exact String.lt_irrefl _ before

/-- There is one way to put entries with different keys in the order of their keys. -/
theorem eq_of_perm (increasing : entries.Pairwise fun a b => a.1 < b.1)
    (perm : others.Perm entries) (ordered : others.Pairwise fun a b => ¬ b.1 < a.1) :
    others = entries := by
  have same : entries.Pairwise fun a b => ¬ b.1 < a.1 :=
    increasing.imp fun before after => String.lt_irrefl _ (String.lt_trans before after)
  refine perm.eq_of_pairwise ?_ ordered same
  intro a b first second notAfter notBefore
  have key : a.1 = b.1 := Role.eq_of_not_lt notBefore notAfter
  exact List.inj_on_of_nodup_map (nodup_of_increasing increasing) (perm.subset first) second key

/-- Sorting entries with different keys undoes any change of their order. -/
theorem sorted_eq_of_perm (increasing : entries.Pairwise fun a b => a.1 < b.1)
    (perm : others.Perm entries) : sorted others = entries := by
  refine eq_of_perm increasing ((List.mergeSort_perm _ _).trans perm) ?_
  have ordered := @List.pairwise_mergeSort _ (fun a b : String × α => !decide (b.1 < a.1)) ?_ ?_
    others
  · exact ordered.imp fun notAfter => by simpa using notAfter
  · intro a b c first second
    simp only [Bool.not_eq_true', decide_eq_false_iff_not, String.not_lt] at first second ⊢
    exact String.le_trans first second
  · intro a b
    simp only [Bool.or_eq_true, Bool.not_eq_true', decide_eq_false_iff_not, String.not_lt]
    exact String.le_total a.1 b.1

end Entries

namespace Role

/-- A file that is placed under a path of its own stands among the others. -/
theorem perm_place {path : String} (content : String) {files : List (String × String)}
    (fresh : path ∉ files.map (·.1)) :
    (place path content files).Perm ((path, content) :: files) := by
  induction files with
  | nil => exact .refl _
  | cons file rest ih =>
      obtain ⟨p, c⟩ := file
      rw [List.map_cons, List.mem_cons, not_or] at fresh
      rw [place]
      split
      · exact .refl _
      · split
        · exact ((ih fresh.2).cons _).trans (.swap _ _ _)
        · rename_i notBelow notAbove
          exact absurd (eq_of_not_lt notBelow notAbove) fresh.1

/-- Files under new paths, each path once, are added to those that are there. -/
theorem foldl_insert_perm (files : List (String × String)) (role : Role)
    (distinct : (files.map (·.1)).Nodup) (fresh : ∀ file ∈ files, file.1 ∉ role.paths) :
    (files.foldl (fun role (path, content) => role.insert path content) role).files.Perm
      (files ++ role.files) := by
  induction files generalizing role with
  | nil => exact .refl _
  | cons file files ih =>
      obtain ⟨path, content⟩ := file
      obtain ⟨alone, distinct⟩ := List.nodup_cons.mp distinct
      obtain ⟨new, fresh⟩ := List.forall_mem_cons.mp fresh
      have placed := perm_place content new
      have rest := ih (role.insert path content) distinct fun file member taken => by
        have inserted := (placed.map (·.1)).mem_iff.mp taken
        rcases List.mem_cons.mp inserted with same | before
        · exact alone (List.mem_map.mpr ⟨file, member, same⟩)
        · exact fresh file member before
      exact rest.trans ((placed.append_left files).trans List.perm_middle)

theorem eq_of_files_eq {role other : Role} (same : role.files = other.files) : role = other := by
  cases role
  cases other
  cases same
  rfl

/-- The files of a role, in any order, give the role. -/
theorem ofList_eq_of_perm {files : List (String × String)} {role : Role}
    (perm : files.Perm role.files) : ofList files = role := by
  have distinct : (files.map (·.1)).Nodup :=
    (perm.map (·.1)).nodup_iff.mpr (Entries.nodup_of_increasing role.increasing)
  have added := foldl_insert_perm files empty distinct fun _ _ => List.not_mem_nil
  rw [show empty.files = [] from rfl, List.append_nil] at added
  refine eq_of_files_eq (Entries.eq_of_perm role.increasing (added.trans perm) ?_)
  exact (ofList files).increasing.imp fun before after =>
    String.lt_irrefl _ (String.lt_trans before after)

end Role

end Rolewright
