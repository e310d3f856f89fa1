/-
# Where paths lead

A path denotes a file by its steps: repeated slashes, single dots and a slash at the end are ways of
spelling that lead to the same place. Here are the paths that lead down from the directory they
start in, by names only, and the one plain spelling that each of them has.
-/

import Rolewright.Path

namespace Rolewright.Path

/-- The pieces of a path are its parts between slashes. -/
theorem pieces_eq_splitOn (cs : List Char) : pieces cs = cs.splitOn '/' := by
  induction cs with
  | nil => rfl
  | cons c cs ih =>
      rw [pieces, ih, List.splitOn_cons_eq_if_modifyHead]
      by_cases slash : c = '/'
      · simp [slash]
      · simp only [slash, if_false, beq_iff_eq]
        cases split : cs.splitOn '/' with
        | nil => exact absurd split (List.splitOn_ne_nil '/' cs)
        | cons piece rest => rfl

/-- The first piece ends before the first slash. -/
theorem exists_pieces_eq (cs : List Char) :
    ∃ rest, pieces cs = cs.takeWhile (· ≠ '/') :: rest := by
  induction cs with
  | nil => exact ⟨[], rfl⟩
  | cons c cs ih =>
      obtain ⟨rest, split⟩ := ih
      rw [pieces]
      by_cases slash : c = '/'
      · exact ⟨pieces cs, by simp [slash]⟩
      · exact ⟨rest, by simp [slash, split]⟩

theorem slash_not_mem_of_mem_pieces {cs piece : List Char} (member : piece ∈ pieces cs) :
    '/' ∉ piece := by
  induction cs generalizing piece with
  | nil =>
      rw [pieces, List.mem_singleton] at member
      simp [member]
  | cons c cs ih =>
      rw [pieces] at member
      split at member
      · rcases List.mem_cons.mp member with rfl | later
        · exact List.not_mem_nil
        · exact ih later
      · rename_i different
        obtain ⟨rest, split⟩ := exists_pieces_eq cs
        rw [split] at member ih
        rcases List.mem_cons.mp member with rfl | later
        · rw [List.mem_cons, not_or]
          exact ⟨Ne.symm different, ih (.head _)⟩
        · exact ih (.tail _ later)

/-! ## Names -/

/-- A name of an entry of a directory, and of none but that directory. -/
structure IsOrdinary (name : String) : Prop where
  nonempty : name ≠ ""
  notHere : name ≠ "."
  notParent : name ≠ ".."
  noSlash : '/' ∉ name.toList

/-- Only an empty piece and a single dot stand for no step. -/
theorem component?_eq_none_iff {piece : List Char} :
    component? piece = none ↔ piece = [] ∨ piece = ['.'] := by
  unfold component?
  split
  · rename_i still
    exact iff_of_true rfl still
  · rename_i moving
    split
    · exact iff_of_false nofun moving
    · exact iff_of_false nofun moving

/-- A piece without slashes stands for nothing, for the parent or for an ordinary name. -/
theorem component?_eq_some {piece : List Char} {c : Component} (noSlash : '/' ∉ piece)
    (found : component? piece = some c) :
    c = .parent ∨ ∃ name, c = .name name ∧ name.toList = piece ∧ IsOrdinary name := by
  unfold component? at found
  split at found
  · cases found
  · rename_i some
    split at found
    · exact .inl (Option.some.inj found).symm
    · rename_i notParent
      refine .inr ⟨String.ofList piece, (Option.some.inj found).symm, String.toList_ofList, ?_⟩
      have spelled {text : String} (same : String.ofList piece = text) : piece = text.toList := by
        rw [← same, String.toList_ofList]
      exact
        { nonempty := fun same => some (.inl (spelled same))
          notHere := fun same => some (.inr (spelled same))
          notParent := fun same => notParent (spelled same)
          noSlash := by rwa [String.toList_ofList] }

/-- An ordinary name stands for itself. -/
theorem component?_of_isOrdinary {name : String} (ordinary : IsOrdinary name) :
    component? name.toList = some (.name name) := by
  have differs {text : String} (other : name ≠ text) : name.toList ≠ text.toList := fun same =>
    other (String.toList_inj.mp same)
  have notEmpty : name.toList ≠ [] := differs ordinary.nonempty
  have notHere : name.toList ≠ ['.'] := differs ordinary.notHere
  have notParent : name.toList ≠ ['.', '.'] := differs ordinary.notParent
  simp [component?, notEmpty, notHere, notParent]

theorem filterMap_component? {names : List String} (ordinary : ∀ name ∈ names, IsOrdinary name) :
    (names.map String.toList).filterMap component? = names.map .name := by
  induction names with
  | nil => rfl
  | cons name names ih =>
      obtain ⟨first, others⟩ := List.forall_mem_cons.mp ordinary
      rw [List.map_cons, List.filterMap_cons_some (component?_of_isOrdinary first), ih others,
        List.map_cons]

/-- Pieces of which none stands for the parent stand for ordinary names. -/
theorem exists_names {pieces : List (List Char)} (noSlash : ∀ piece ∈ pieces, '/' ∉ piece)
    (noParent : .parent ∉ pieces.filterMap component?) :
    ∃ names : List String, pieces.filterMap component? = names.map .name ∧
      ∀ name ∈ names, IsOrdinary name := by
  induction pieces with
  | nil => exact ⟨[], rfl, nofun⟩
  | cons piece pieces ih =>
      obtain ⟨first, others⟩ := List.forall_mem_cons.mp noSlash
      cases found : component? piece with
      | none =>
          rw [List.filterMap_cons_none found] at noParent ⊢
          exact ih others noParent
      | some c =>
          rw [List.filterMap_cons_some found, List.mem_cons, not_or] at noParent
          obtain ⟨names, same, ordinary⟩ := ih others noParent.2
          rcases component?_eq_some first found with rfl | ⟨name, rfl, -, leading⟩
          · exact absurd rfl noParent.1
          · exact ⟨name :: names, by rw [List.filterMap_cons_some found, same, List.map_cons],
              List.forall_mem_cons.mpr ⟨leading, ordinary⟩⟩

/-! ## Ways down -/

/-- The steps of a path that move. Below one directory, paths with the same such steps denote the
same file. -/
def steps (path : String) : List Component :=
  (components path).filter (· ≠ .here)

/-- A path spelled by its steps and nothing else. -/
def plain (path : String) : String :=
  ofComponents (steps path)

/-- Whether a path leads down from the directory it starts in along some names, and by at least
one. -/
structure LeadsDown (path : String) (names : List String) : Prop where
  moves : names ≠ []
  steps : steps path = names.map .name
  ordinary : ∀ name ∈ names, IsOrdinary name

theorem filter_map_name (names : List String) :
    (names.map Component.name).filter (· ≠ .here) = names.map .name := by
  apply List.filter_eq_self.mpr
  intro c member
  obtain ⟨name, -, rfl⟩ := List.mem_map.mp member
  rfl

/-- Names put together with slashes fall into the same names again. -/
theorem pieces_ofComponents {names : List String} (moves : names ≠ [])
    (ordinary : ∀ name ∈ names, IsOrdinary name) :
    pieces (ofComponents (names.map .name)).toList = names.map String.toList := by
  have texts : (names.map Component.name).map Component.text = names := by
    rw [List.map_map]
    exact List.map_id _
  rw [pieces_eq_splitOn, ofComponents, texts, String.toList_intercalate]
  apply List.splitOn_intercalate
  · intro piece member
    obtain ⟨name, inNames, rfl⟩ := List.mem_map.mp member
    exact (ordinary name inNames).noSlash
  · simpa using moves

/-- A relative path that does not start with a single dot has no steps but those of its pieces. -/
theorem components_eq_filterMap {path : String} (relative : isAbsolute path = false)
    (moving : (pieces path.toList).head? ≠ some ['.']) :
    components path = (pieces path.toList).filterMap component? := by
  simp [components, relative, moving]

/-- Something stands before the first slash of a relative path. -/
theorem takeWhile_ne_nil {path : String} (nonempty : path ≠ "")
    (relative : isAbsolute path = false) : path.toList.takeWhile (· ≠ '/') ≠ [] := by
  obtain ⟨c, cs, spelled⟩ := List.exists_cons_of_ne_nil fun none =>
    nonempty (String.toList_inj.mp (none : path.toList = "".toList))
  have notSlash : c ≠ '/' := by
    rw [isAbsolute, spelled, List.head?_cons, beq_eq_false_iff_ne] at relative
    exact fun slash => relative (congrArg some slash)
  rw [spelled, List.takeWhile_cons_of_pos (by simpa using notSlash)]
  exact List.cons_ne_nil _ _

/-- A relative path without references to a parent leads down, unless it is empty or starts with a
single dot. Its first name is all that stands before the first slash. -/
theorem exists_leadsDown {path : String} (nonempty : path ≠ "")
    (relative : isAbsolute path = false)
    (moving : (pieces path.toList).head? ≠ some ['.']) (noParent : .parent ∉ components path) :
    ∃ names, LeadsDown path names ∧
      names.head?.map String.toList = some (path.toList.takeWhile (· ≠ '/')) := by
  have parts := components_eq_filterMap relative moving
  rw [parts] at noParent
  obtain ⟨names, same, ordinary⟩ :=
    exists_names (fun piece => slash_not_mem_of_mem_pieces) noParent
  obtain ⟨rest, split⟩ := exists_pieces_eq path.toList
  have notEmpty := takeWhile_ne_nil nonempty relative
  have notHere : path.toList.takeWhile (· ≠ '/') ≠ ['.'] := fun here =>
    moving (by rw [split, List.head?_cons, here])
  rw [split] at same noParent
  have member : path.toList.takeWhile (· ≠ '/') ∈ pieces path.toList := by
    rw [split]
    exact .head _
  have noSlash := slash_not_mem_of_mem_pieces member
  -- The first piece moves, so it stands for the first name; the parent is excluded.
  cases found : component? (path.toList.takeWhile (· ≠ '/')) with
  | none =>
      rcases component?_eq_none_iff.mp found with none | here
      · exact absurd none notEmpty
      · exact absurd here notHere
  | some c =>
      rw [List.filterMap_cons_some found] at same noParent
      rcases component?_eq_some noSlash found with rfl | ⟨first, rfl, spelled, -⟩
      · exact absurd (.head _) noParent
      · obtain ⟨name, others, rfl⟩ : ∃ name others, names = name :: others := by
          cases names with
          | nil => cases same
          | cons name others => exact ⟨name, others, rfl⟩
        obtain rfl : first = name := Component.name.inj (List.cons.inj same).1
        refine ⟨first :: others, ⟨List.cons_ne_nil _ _, ?_, ordinary⟩, congrArg some spelled⟩
        rw [steps, parts, split, List.filterMap_cons_some found, same, filter_map_name]

/-- The way down along some names. -/
theorem leadsDown_ofComponents {names : List String} (moves : names ≠ [])
    (ordinary : ∀ name ∈ names, IsOrdinary name) :
    LeadsDown (ofComponents (names.map .name)) names := by
  have split := pieces_ofComponents moves ordinary
  obtain ⟨first, rest, rfl⟩ := List.exists_cons_of_ne_nil moves
  have leading : IsOrdinary first := ordinary first (.head _)
  have relative : isAbsolute (ofComponents ((first :: rest).map .name)) = false := by
    obtain ⟨_, start⟩ := exists_pieces_eq (ofComponents ((first :: rest).map .name)).toList
    rw [split, List.map_cons] at start
    have spelled := (List.cons.inj start).1
    rw [isAbsolute, beq_eq_false_iff_ne]
    intro slash
    obtain ⟨tail, path⟩ := List.head?_eq_some_iff.mp slash
    rw [path, List.takeWhile_cons_of_neg (by simp)] at spelled
    exact leading.nonempty (String.toList_inj.mp spelled)
  have moving : (pieces (ofComponents ((first :: rest).map .name)).toList).head? ≠ some ['.'] := by
    rw [split, List.map_cons, List.head?_cons]
    exact fun same => leading.notHere (String.toList_inj.mp (Option.some.inj same))
  refine ⟨moves, ?_, ordinary⟩
  rw [steps, components_eq_filterMap relative moving, split, filterMap_component? ordinary,
    filter_map_name]

/-- Two ways down with the same plain spelling have the same names. -/
theorem eq_of_plain_eq {p q : String} {names others : List String} (down : LeadsDown p names)
    (otherDown : LeadsDown q others) (same : plain p = plain q) : names = others := by
  rw [plain, plain, down.steps, otherDown.steps] at same
  have split : pieces (ofComponents (names.map .name)).toList =
      pieces (ofComponents (others.map .name)).toList := by rw [same]
  rw [pieces_ofComponents down.moves down.ordinary,
    pieces_ofComponents otherDown.moves otherDown.ordinary] at split
  apply (List.map_inj_right ?_).mp split
  intro name other texts
  exact String.toList_inj.mp texts

end Rolewright.Path
