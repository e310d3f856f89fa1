/-
# Ways on a disk

Steps lead from a place to a place, and making the directories on a way is what lets them do so. On
a disk where everything lies in a directory, `made_of_makeAlong` says that a way can be gone once it
was made, and `makeAlong_of_leads` that making a way which can be gone changes nothing.
-/

import Mathlib.Data.List.Nodup
import Mathlib.Tactic.MkIffOfInductiveProp
import Rolewright.Disk.Basic

namespace Rolewright.Disk

/-! ## Single places -/

theorem at?_nil (d : Disk) : d.at? [] = some .directory := rfl

theorem at?_of_ne_nil {place : List String} (nonempty : place ≠ []) (d : Disk) :
    d.at? place = d.nodes.lookup place := by
  rw [at?, if_neg (by simpa using nonempty)]

theorem lookup_filter_ne (nodes : List (List String × DiskNode)) (place other : List String) :
    (nodes.filter fun entry => entry.1 != place).lookup other =
      if other = place then none else nodes.lookup other := by
  induction nodes with
  | nil => simp
  | cons entry nodes ih =>
      obtain ⟨key, node⟩ := entry
      by_cases same : key = place
      · rw [List.filter_cons_of_neg (by simpa using same), ih, List.lookup_cons]
        grind
      · rw [List.filter_cons_of_pos (by simpa using same), List.lookup_cons, ih, List.lookup_cons]
        grind

/-- What stands where after a node was put at a place. -/
theorem at?_set (d : Disk) {place : List String} (nonempty : place ≠ []) (node : DiskNode)
    (other : List String) :
    (d.set place node).at? other = if other = place then some node else d.at? other := by
  by_cases root : other = []
  · rw [root, at?_nil, at?_nil, if_neg (Ne.symm nonempty)]
  · rw [at?_of_ne_nil root, at?_of_ne_nil root, set, List.lookup_cons, lookup_filter_ne]
    grind

/-- What stands where after a place was cleared. -/
theorem at?_remove (d : Disk) {place : List String} (nonempty : place ≠ [])
    (other : List String) :
    (d.remove place).at? other = if other = place then none else d.at? other := by
  by_cases root : other = []
  · rw [root, at?_nil, at?_nil, if_neg (Ne.symm nonempty)]
  · rw [at?_of_ne_nil root, at?_of_ne_nil root, remove, lookup_filter_ne]

/-- The same below a common place. -/
theorem at?_set_append (d : Disk) {place names : List String} (nonempty : place ++ names ≠ [])
    (node : DiskNode) (others : List String) :
    (d.set (place ++ names) node).at? (place ++ others) =
      if others = names then some node else d.at? (place ++ others) := by
  simp only [at?_set d nonempty, List.append_cancel_left_eq]

theorem at?_remove_append (d : Disk) {place names : List String} (nonempty : place ++ names ≠ [])
    (others : List String) :
    (d.remove (place ++ names)).at? (place ++ others) =
      if others = names then none else d.at? (place ++ others) := by
  simp only [at?_remove d nonempty, List.append_cancel_left_eq]

theorem ne_nil_of_at?_file {d : Disk} {place : List String} {bytes : List UInt8}
    (there : d.at? place = some (.file bytes)) : place ≠ [] := by
  rintro rfl
  cases there

/-- Directories stay where a file is taken away. -/
theorem at?_remove_directory {d : Disk} {place q : List String} {bytes : List UInt8}
    (there : d.at? place = some (.file bytes)) (directory : d.at? q = some .directory) :
    (d.remove place).at? q = some .directory := by
  rw [at?_remove d (ne_nil_of_at?_file there), if_neg ?_]
  · exact directory
  · rintro rfl
    rw [there] at directory
    cases directory

/-- No place has two nodes. -/
def IsTable (d : Disk) : Prop :=
  (d.nodes.map (·.1)).Nodup

theorem isTable_remove {d : Disk} (table : d.IsTable) (place : List String) :
    (d.remove place).IsTable :=
  (List.filter_sublist.map _).nodup table

theorem isTable_set {d : Disk} (table : d.IsTable) (place : List String) (node : DiskNode) :
    (d.set place node).IsTable := by
  refine List.nodup_cons.mpr ⟨?_, isTable_remove table place⟩
  simp

theorem mem_iff_lookup_eq {nodes : List (List String × DiskNode)}
    (distinct : (nodes.map (·.1)).Nodup) (place : List String) (node : DiskNode) :
    (place, node) ∈ nodes ↔ nodes.lookup place = some node := by
  induction nodes with
  | nil => simp
  | cons entry nodes ih =>
      obtain ⟨key, other⟩ := entry
      obtain ⟨fresh, distinct⟩ := List.nodup_cons.mp distinct
      rw [List.mem_cons, List.lookup_cons, ih distinct, Prod.mk.injEq]
      by_cases same : place = key
      · have absent : nodes.lookup key ≠ some node := fun there =>
          fresh (List.mem_map.mpr ⟨_, (ih distinct).mpr (same ▸ there), same⟩)
        simp [same, absent, eq_comm]
      · simp [same, beq_false_of_ne same]

/-- On a table, the entries say what stands where. -/
theorem mem_nodes_iff {d : Disk} (table : d.IsTable) {place : List String}
    (nonempty : place ≠ []) (node : DiskNode) :
    (place, node) ∈ d.nodes ↔ d.at? place = some node := by
  rw [at?_of_ne_nil nonempty, mem_iff_lookup_eq table]

/-! ## Ways -/

/-- Where steps lead to from a place, whether or not anything is there. -/
def follow (place : List String) (steps : List Component) : List String :=
  steps.foldl
    (fun place step =>
      match step with
      | .root => []
      | .here => place
      | .parent => place.dropLast
      | .name name => place ++ [name])
    place

theorem target_eq_follow (d : Disk) (path : String) :
    d.target path = follow d.working (Path.components path) := rfl

theorem follow_append (place : List String) (steps others : List Component) :
    follow place (steps ++ others) = follow (follow place steps) others :=
  List.foldl_append

theorem follow_names (place names : List String) :
    follow place (names.map .name) = place ++ names := by
  induction names generalizing place with
  | nil => exact (List.append_nil place).symm
  | cons name names ih => exact (ih (place ++ [name])).trans (List.append_cons ..).symm

/-- A name that a file may have is short enough and has no character that ends a name. -/
theorem checkName_eq_ok_iff {name : String} :
    checkName name = .ok () ↔ '\x00' ∉ name.toList ∧ name.utf8ByteSize ≤ 255 := by
  rw [checkName]
  by_cases null : '\x00' ∈ name.toList
  · simp [null]
  · by_cases long : 255 < name.utf8ByteSize
    · simp [null, long]
    · simp [null, long, Nat.not_lt.mp long]

/-- Whether steps can be gone from a place, and where they lead. -/
def Leads (d : Disk) (place : List String) (steps : List Component) (goal : List String) : Prop :=
  steps.foldlM d.walk place = .ok goal

section Ways

variable {d d' : Disk} {place next goal : List String} {step : Component}
  {steps others : List Component}

theorem walk_eq_ok_iff :
    d.walk place step = .ok next ↔
      d.at? place = some .directory ∧ (∀ name, step = .name name → checkName name = .ok ()) ∧
        follow place [step] = next := by
  unfold walk
  match d.at? place with
  | none => simp
  | some (.file bytes) => simp
  | some .directory =>
    match step with
    | .root => simp [follow]
    | .here => simp [follow]
    | .parent => simp [follow]
    | .name name =>
      cases check : checkName name with
      | error cause => simp [Except.map, check]
      | ok _ => simp [Except.map, check, follow]

theorem leads_nil_iff : d.Leads place [] goal ↔ place = goal := by
  rw [Leads, List.foldlM_nil]
  exact ⟨Except.ok.inj, congrArg Except.ok⟩

theorem leads_cons_iff :
    d.Leads place (step :: steps) goal ↔
      ∃ next, d.walk place step = .ok next ∧ d.Leads next steps goal := by
  rw [Leads, List.foldlM_cons]
  cases d.walk place step with
  | error cause => exact iff_of_false nofun (by rintro ⟨next, walks, -⟩; cases walks)
  | ok next =>
      constructor
      · exact fun leads => ⟨next, rfl, leads⟩
      · rintro ⟨other, same, leads⟩
        cases same
        exact leads

/-- A way in two parts. -/
theorem leads_append_iff :
    d.Leads place (steps ++ others) goal ↔
      ∃ next, d.Leads place steps next ∧ d.Leads next others goal := by
  induction steps generalizing place with
  | nil => simp [leads_nil_iff]
  | cons step steps ih =>
      simp only [List.cons_append, leads_cons_iff, ih]
      grind

theorem Leads.append (leads : d.Leads place steps next) (further : d.Leads next others goal) :
    d.Leads place (steps ++ others) goal :=
  leads_append_iff.mpr ⟨next, leads, further⟩

theorem Leads.follow_eq (leads : d.Leads place steps goal) : follow place steps = goal := by
  induction steps generalizing place with
  | nil => exact leads_nil_iff.mp leads
  | cons step steps ih =>
      obtain ⟨next, walks, leads⟩ := leads_cons_iff.mp leads
      have moved : follow place [step] = next := (walk_eq_ok_iff.mp walks).2.2
      rw [← List.singleton_append, follow_append, moved]
      exact ih leads

/-- A way stays open while its directories stay. -/
theorem Leads.mono (leads : d.Leads place steps goal)
    (stay : ∀ q, d.at? q = some .directory → d'.at? q = some .directory) :
    d'.Leads place steps goal := by
  induction steps generalizing place with
  | nil => exact leads_nil_iff.mpr (leads_nil_iff.mp leads)
  | cons step steps ih =>
      obtain ⟨next, walks, leads⟩ := leads_cons_iff.mp leads
      obtain ⟨directory, fit, moved⟩ := walk_eq_ok_iff.mp walks
      exact leads_cons_iff.mpr
        ⟨next, walk_eq_ok_iff.mpr ⟨stay place directory, fit, moved⟩, ih leads⟩

/-- Names lead down where there are directories before each of them. -/
theorem leads_names {names : List String} (fit : ∀ name ∈ names, checkName name = .ok ())
    (directories : ∀ way, way <+: names → way ≠ names → d.at? (place ++ way) = some .directory) :
    d.Leads place (names.map .name) (place ++ names) := by
  induction names generalizing place with
  | nil => exact leads_nil_iff.mpr (List.append_nil place).symm
  | cons name names ih =>
      obtain ⟨first, others⟩ := List.forall_mem_cons.mp fit
      refine leads_cons_iff.mpr ⟨place ++ [name], walk_eq_ok_iff.mpr ⟨?_, ?_, rfl⟩, ?_⟩
      · simpa using directories [] List.nil_prefix (fun same => nomatch same)
      · rintro n same
        cases same
        exact first
      · rw [List.append_cons place name names]
        refine ih others fun way within whole => ?_
        rw [← List.append_cons place name way]
        exact directories (name :: way) (List.cons_prefix_cons.mpr ⟨rfl, within⟩) fun same =>
          whole (List.cons.inj same).2

/-! ## Making ways -/

/-- A disk on which every entry lies in a directory, under names that files may have. -/
@[mk_iff]
structure IsTree (d : Disk) : Prop where
  table : d.IsTable
  above : ∀ entry ∈ d.nodes, d.at? entry.1.dropLast = some .directory
  named : ∀ entry ∈ d.nodes, ∀ name ∈ entry.1,
    '\x00' ∉ name.toList ∧ name.utf8ByteSize ≤ 255
  working : d.at? d.working = some .directory

instance (d : Disk) : Decidable d.IsTable :=
  inferInstanceAs (Decidable (List.Nodup _))

instance (d : Disk) : Decidable d.IsTree :=
  decidable_of_iff _ (isTree_iff d).symm

/-- What stands at a place lies in a directory. -/
theorem IsTree.directory_above (tree : d.IsTree) {node : DiskNode}
    (there : d.at? place = some node) : d.at? place.dropLast = some .directory := by
  by_cases root : place = []
  · rw [root]
    rfl
  · exact tree.above _ ((mem_nodes_iff tree.table root node).mpr there)

theorem IsTree.checkName_eq_ok (tree : d.IsTree) {node : DiskNode}
    (there : d.at? place = some node) : ∀ name ∈ place, checkName name = .ok () := by
  intro name member
  have root : place ≠ [] := List.ne_nil_of_mem member
  exact checkName_eq_ok_iff.mpr
    (tree.named _ ((mem_nodes_iff tree.table root node).mpr there) name member)

/-- Directories stay where one is made. -/
theorem at?_set_directory (nonempty : place ≠ []) {q : List String}
    (there : d.at? q = some .directory) :
    (d.set place .directory).at? q = some .directory := by
  rw [at?_set d nonempty]
  split
  · rfl
  · exact there

/-- A directory that is made in another one. -/
theorem IsTree.set_directory (tree : d.IsTree) (directory : d.at? place = some .directory)
    {name : String} (fit : '\x00' ∉ name.toList ∧ name.utf8ByteSize ≤ 255) :
    (d.set (place ++ [name]) .directory).IsTree := by
  have nonempty : place ++ [name] ≠ [] := by simp
  refine ⟨isTable_set tree.table _ _, ?_, ?_, at?_set_directory nonempty tree.working⟩
  · intro entry member
    rcases List.mem_cons.mp member with rfl | before
    · rw [List.dropLast_concat]
      exact at?_set_directory nonempty directory
    · exact at?_set_directory nonempty (tree.above entry (List.mem_of_mem_filter before))
  · intro entry member
    rcases List.mem_cons.mp member with rfl | before
    · intro n inside
      rcases List.mem_append.mp inside with above | last
      · have root : place ≠ [] := List.ne_nil_of_mem above
        exact tree.named _ ((mem_nodes_iff tree.table root _).mpr directory) n above
      · rw [List.mem_singleton.mp last]
        exact fit
    · exact tree.named entry (List.mem_of_mem_filter before)

/-- What making a way leaves: a tree with the same directories and more, on which the way leads to
one. -/
structure Made (d : Disk) (place : List String) (steps : List Component) (made : Disk) : Prop where
  tree : made.IsTree
  working : made.working = d.working
  stay : ∀ q, d.at? q = some .directory → made.at? q = some .directory
  leads : made.Leads place steps (follow place steps)
  directory : made.at? (follow place steps) = some .directory

theorem Made.cons {made : Disk} (start : d.at? place = some .directory)
    (fit : ∀ name, step = .name name → checkName name = .ok ())
    (rest : d.Made (follow place [step]) steps made) : d.Made place (step :: steps) made where
  tree := rest.tree
  working := rest.working
  stay := rest.stay
  leads := leads_cons_iff.mpr
    ⟨_, walk_eq_ok_iff.mpr ⟨rest.stay place start, fit, rfl⟩, rest.leads⟩
  directory := rest.directory

/-- To make a step is to find a directory with the name, or to make one where there is nothing. -/
theorem makeAlong_name_cases {name : String} {made : Disk}
    (makes : d.makeAlong place (.name name :: steps) = .ok made) :
    (d.at? (place ++ [name]) = some .directory ∧
        d.makeAlong (place ++ [name]) steps = .ok made) ∨
      (d.at? (place ++ [name]) = none ∧ checkName name = .ok () ∧
        (d.set (place ++ [name]) .directory).makeAlong (place ++ [name]) steps = .ok made) := by
  rw [makeAlong] at makes
  split at makes
  · rename_i there
    exact .inl ⟨there, makes⟩
  · cases makes
  · rename_i vacant
    cases check : checkName name with
    | error cause =>
        rw [check] at makes
        cases makes
    | ok _ =>
        rw [check] at makes
        exact .inr ⟨vacant, rfl, makes⟩

/-- A way that was made can be gone. -/
theorem made_of_makeAlong {made : Disk} (tree : d.IsTree)
    (start : d.at? place = some .directory) (makes : d.makeAlong place steps = .ok made) :
    d.Made place steps made := by
  induction steps generalizing d place with
  | nil =>
      obtain rfl := Except.ok.inj makes
      exact ⟨tree, rfl, fun _ there => there, leads_nil_iff.mpr rfl, start⟩
  | cons step steps ih =>
      cases step with
      | root => exact (ih tree d.at?_nil makes).cons start nofun
      | here => exact (ih tree start makes).cons start nofun
      | parent =>
          exact (ih tree (tree.directory_above start) makes).cons start nofun
      | name name =>
          have nonempty : place ++ [name] ≠ [] := by simp
          rcases makeAlong_name_cases makes with ⟨there, makes⟩ | ⟨-, check, makes⟩
          · have fit := tree.checkName_eq_ok there name (by simp)
            exact (ih tree there makes).cons start fun n same => Component.name.inj same ▸ fit
          · have there : (d.set (place ++ [name]) .directory).at? (place ++ [name]) =
                some .directory := by rw [at?_set d nonempty, if_pos rfl]
            have stepped := tree.set_directory start (checkName_eq_ok_iff.mp check)
            have rest := ih stepped there makes
            refine Made.cons start (fun n same => Component.name.inj same ▸ check) ?_
            exact ⟨rest.tree, rest.working,
              fun q before => rest.stay q (at?_set_directory nonempty before),
              rest.leads, rest.directory⟩

/-- Making a way in two parts. -/
theorem makeAlong_append {made : Disk} (makes : d.makeAlong place steps = .ok made) :
    d.makeAlong place (steps ++ others) = made.makeAlong (follow place steps) others := by
  induction steps generalizing d place with
  | nil =>
      obtain rfl := Except.ok.inj makes
      rfl
  | cons step steps ih =>
      cases step with
      | root => exact ih makes
      | here => exact ih makes
      | parent => exact ih makes
      | name name =>
          rw [List.cons_append, makeAlong]
          rcases makeAlong_name_cases makes with ⟨there, makes⟩ | ⟨vacant, check, makes⟩
          · rw [there]
            exact ih makes
          · rw [vacant, check]
            exact ih makes

theorem Leads.directory_start (leads : d.Leads place steps goal)
    (directory : d.at? goal = some .directory) : d.at? place = some .directory := by
  cases steps with
  | nil =>
      obtain rfl := leads_nil_iff.mp leads
      exact directory
  | cons step steps =>
      obtain ⟨next, walks, -⟩ := leads_cons_iff.mp leads
      exact (walk_eq_ok_iff.mp walks).1

/-- Making a way that can be gone changes nothing. -/
theorem makeAlong_of_leads (leads : d.Leads place steps goal)
    (directory : d.at? goal = some .directory) : d.makeAlong place steps = .ok d := by
  induction steps generalizing place with
  | nil => rfl
  | cons step steps ih =>
      obtain ⟨next, walks, further⟩ := leads_cons_iff.mp leads
      obtain ⟨-, -, rfl⟩ := walk_eq_ok_iff.mp walks
      cases step with
      | root => exact ih further
      | here => exact ih further
      | parent => exact ih further
      | name name =>
          have there : d.at? (place ++ [name]) = some .directory :=
            further.directory_start directory
          rw [makeAlong, there]
          exact ih further

end Ways

end Rolewright.Disk
