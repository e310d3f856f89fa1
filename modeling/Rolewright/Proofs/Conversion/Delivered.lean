/-
# Delivered roles

The role of a session is written below an empty directory, with the records of the session beside
it. The directory of the role then holds the files of the role and two records. What is reported as
its fingerprint is that of the role in memory, and reading the directory gives that role
(`Concluded.exists_delivery`). A search drops a single dot in front of the path that it starts from,
and its files are then looked for in vain below that path (`Concluded.exists_delivery_of_here`).
-/

import Rolewright.Conversion.Delivery
import Rolewright.Proofs.Role.Written

namespace Rolewright

namespace Role

/-! ## The name of the directory -/

/-- A variable name has no characters but letters in lower case, digits and underscores. -/
theorem variableChar_ne {d : Char} (other : d.isAlphanum = false) (low : d.toNat < '_'.toNat)
    (c : Char) : variableChar c ≠ d := by
  unfold variableChar
  split
  · rename_i letter
    exact toLower_ne letter other (Nat.le_of_lt low)
  · rintro rfl
    exact Nat.lt_irrefl _ low

theorem not_mem_variableName {d : Char} (other : d.isAlphanum = false)
    (low : d.toNat < '_'.toNat) (cookbook : String) : d ∉ (variableName cookbook).toList := by
  rw [variableName, String.toList_ofList]
  intro member
  obtain ⟨c, -, same⟩ := List.mem_map.mp member
  exact variableChar_ne other low c same

/-- The names that lead from the directory below which roles are written to that of a role. -/
def directoryNames (cookbook : String) : List String :=
  if variableName cookbook = "" then [] else [variableName cookbook]

theorem eq_of_mem_directoryNames {cookbook name : String}
    (member : name ∈ directoryNames cookbook) : name = variableName cookbook := by
  rw [directoryNames] at member
  split at member
  · cases member
  · exact List.mem_singleton.mp member

/-- The directory of a role is that below which roles are written, or one step below it. -/
theorem components_directoryFor (root cookbook : String) :
    Path.components (Delivery.directoryFor root cookbook) =
      Path.components root ++ (directoryNames cookbook).map .name := by
  have noSlash : '/' ∉ (variableName cookbook).toList := not_mem_variableName rfl (by decide) _
  have noDot : '.' ∉ (variableName cookbook).toList := not_mem_variableName rfl (by decide) _
  have single : Path.pieces (variableName cookbook).toList = [(variableName cookbook).toList] := by
    rw [Path.pieces_eq_splitOn, List.splitOn_eq_singleton noSlash]
  have differs {text : String} (dot : '.' ∈ text.toList) : variableName cookbook ≠ text := by
    rintro rfl
    exact noDot dot
  have relative : Path.lead (Path.pieces (variableName cookbook).toList) = [] := by
    have notHere : (variableName cookbook).toList ≠ ['.'] := fun here =>
      noDot (here ▸ List.mem_singleton_self _)
    simp [single, Path.lead, notHere]
  have steps := Path.components_join_of_relative root relative
  rw [single] at steps
  rw [Delivery.directoryFor, steps, directoryNames]
  by_cases none : variableName cookbook = ""
  · rw [if_pos none, none]
    rfl
  · have ordinary : Path.IsOrdinary (variableName cookbook) :=
      ⟨none, differs (by decide), differs (by decide), noSlash⟩
    rw [if_neg none, List.filterMap_cons_some (Path.component?_of_isOrdinary ordinary)]
    rfl

theorem exists_components_directoryFor (root : String) {cookbook : String}
    (short : (variableName cookbook).utf8ByteSize ≤ 255) :
    ∃ names : List String,
      Path.components (Delivery.directoryFor root cookbook) =
        Path.components root ++ names.map .name ∧
      ∀ name ∈ names, Disk.checkName name = .ok () := by
  refine ⟨_, components_directoryFor root cookbook, fun name member => ?_⟩
  rw [eq_of_mem_directoryNames member]
  exact Disk.checkName_eq_ok_iff.mpr ⟨not_mem_variableName rfl (by decide) _, short⟩

/-- The path of that directory starts with a single dot where the path below which it lies does. -/
theorem head?_components_directoryFor (root : String) {cookbook : String}
    (short : (variableName cookbook).utf8ByteSize ≤ 255) :
    (Path.components (Delivery.directoryFor root cookbook)).head? = some .here ↔
      (Path.components root).head? = some .here := by
  obtain ⟨names, steps, -⟩ := exists_components_directoryFor root short
  rw [steps, List.head?_append]
  cases (Path.components root).head? with
  | none =>
      rw [Option.none_or, List.head?_map]
      cases names.head? with
      | none => exact Iff.rfl
      | some name => simp
  | some step => exact Iff.rfl

end Role

namespace Disk

/-- A directory that is there or can be made, and holds nothing. -/
structure IsVacant (d : Disk) (root : String) : Prop where
  /-- The empty path names no directory. -/
  named : root ≠ ""
  empty : ∃ made, d.makeDirectories root = .ok made ∧
    ∀ entry ∈ made.nodes, d.target root <+: entry.1 → entry.1 = d.target root

variable {d : Disk} {root base path : String} {place : List String}

/-- A vacant directory, once it is made, holds no files and no directories. -/
theorem IsVacant.exists_holds (vacant : d.IsVacant root) (tree : d.IsTree) :
    ∃ made, d.makeDirectories root = .ok made ∧ made.Holds root (d.target root) [] [] := by
  obtain ⟨made, makes, empty⟩ := vacant.empty
  have way := made_of_makeAlong tree tree.working makes
  have directory : made.at? (d.target root) = some .directory := way.directory
  have nothing : ∀ names ≠ [], made.at? (d.target root ++ names) = none := by
    intro names moves
    cases there : made.at? (d.target root ++ names) with
    | none => rfl
    | some node =>
        have entry := (mem_nodes_iff way.tree.table (by simp [moves]) node).mpr there
        exact absurd (List.append_right_eq_self.mp (empty _ entry (List.prefix_append _ _))) moves
  refine ⟨made, makes, way.tree.table, ?_, ?_, ?_⟩
  · rw [way.working]
    exact way.leads
  · intro names bytes
    by_cases still : names = []
    · rw [still, List.append_nil, directory]
      exact iff_of_false nofun nofun
    · rw [nothing names still]
      exact iff_of_false nofun nofun
  · intro names
    by_cases still : names = []
    · rw [still, List.append_nil, directory]
      exact iff_of_true rfl (.inl rfl)
    · rw [nothing names still]
      refine iff_of_false nofun ?_
      rintro (none | ⟨way, member, -⟩)
      · exact still none
      · cases member

/-- A directory at the end of the only way below a base holds nothing. -/
theorem Holds.atEnd {names : List String} (holds : d.Holds base place [] [names])
    (steps : Path.components path = Path.components base ++ names.map .name)
    (fit : ∀ name ∈ names, checkName name = .ok ()) :
    d.Holds path (place ++ names) [] [] := by
  refine ⟨holds.table, ?_, ?_, ?_⟩
  · rw [steps]
    refine holds.opens.append (leads_names fit fun way within _ => ?_)
    exact (holds.directory way).mpr (.inr ⟨names, .head _, within⟩)
  · intro further bytes
    rw [List.append_assoc, holds.file]
    exact iff_of_false nofun nofun
  · intro further
    rw [List.append_assoc, holds.directory]
    constructor
    · rintro (none | ⟨way, member, within⟩)
      · exact .inl (List.append_eq_nil_iff.mp none).2
      · rw [List.mem_singleton.mp member] at within
        exact .inl (List.append_right_eq_self.mp (within.eq_of_length_le (by simp)))
    · rintro (rfl | ⟨way, member, -⟩)
      · exact .inr ⟨names, .head _, by simp⟩
      · cases member

/-- The directory of a role is made below a vacant one, and holds nothing. -/
theorem IsVacant.exists_makeDirectories (vacant : d.IsVacant root) (tree : d.IsTree)
    {cookbook : String} (short : (Role.variableName cookbook).utf8ByteSize ≤ 255) :
    ∃ made place, d.makeDirectories (Delivery.directoryFor root cookbook) = .ok made ∧
      made.Holds (Delivery.directoryFor root cookbook) place [] [] := by
  obtain ⟨names, steps, fit⟩ := Role.exists_components_directoryFor root short
  obtain ⟨upper, makesRoot, holdsRoot⟩ := vacant.exists_holds tree
  obtain ⟨made, makes, holds⟩ := holdsRoot.exists_makeAlong (.inl rfl : IsOnWay [] []) fit nofun
  refine ⟨made, _, ?_, holds.atEnd steps fit⟩
  rw [makeDirectories, steps, makeAlong_append makesRoot]
  simpa [target_eq_follow] using makes

end Disk

namespace Concluded

open Delivery

variable {c : Concluded} {root directory : String} {role : Role} {d : Disk} {place : List String}

/-- The records of a session as a directory holds them. -/
def records (c : Concluded) : List (List String × List UInt8) :=
  [([Fingerprint.recordDirectory, "history.json"], Text.encode c.record.pretty.toList),
    ([Fingerprint.recordDirectory, "events.jsonl"], Text.encode (eventRows c).toList)]

theorem isOrdinary_history : Path.IsOrdinary "history.json" :=
  ⟨by decide, by decide, by decide, by decide⟩

theorem isOrdinary_events : Path.IsOrdinary "events.jsonl" :=
  ⟨by decide, by decide, by decide, by decide⟩

theorem areRecords_records (c : Concluded) : Role.AreRecords c.records where
  distinct := by simp [records]
  inside := by
    intro record member
    simp only [records, List.mem_cons, List.not_mem_nil, or_false] at member
    rcases member with rfl | rfl
    · exact ⟨"history.json", rfl, isOrdinary_history⟩
    · exact ⟨"events.jsonl", rfl, isOrdinary_events⟩

/-- The path of a record. -/
theorem isBelow_recordPath (directory : String) {name : String} (ordinary : Path.IsOrdinary name)
    (fits : Disk.checkName name = .ok ()) :
    Disk.IsBelow directory (recordPath directory name) [Fingerprint.recordDirectory] name := by
  have ends := Path.endsIn_join (Path.join directory Fingerprint.recordDirectory) [] name
    (by simpa using ordinary)
  have steps := Path.components_join directory
    (List.forall_mem_singleton.mpr Role.isOrdinary_recordDirectory) (List.cons_ne_nil _ _)
  rw [String.intercalate_singleton] at steps
  rw [List.nil_append, String.intercalate_singleton, steps, List.map_nil, List.append_nil] at ends
  refine ⟨ends, ?_, fits⟩
  intro n member
  rw [List.mem_singleton.mp member]
  rfl

/-- A record stands neither on the way to a file of a role nor below one. -/
theorem apart_record (wellFormed : role.IsWellFormed) {other : List String × List UInt8}
    (member : other ∈ role.files.map Role.held) (name : String) :
    ¬ other.1 <+: [Fingerprint.recordDirectory] ++ [name] ∧
      ¬ [Fingerprint.recordDirectory] ++ [name] <+: other.1 := by
  obtain ⟨file, inRole, rfl⟩ := List.mem_map.mp member
  have unreserved := wellFormed.unreserved file.1 (Role.fst_mem_paths inRole)
  constructor
  · intro within
    obtain ⟨first, rest, split⟩ := List.exists_cons_of_ne_nil (Path.names_ne_nil file.1)
    have same : Path.names file.1 <+: [Fingerprint.recordDirectory] ++ [name] := within
    rw [split, List.singleton_append, List.cons_prefix_cons] at same
    rw [split, same.1] at unreserved
    exact unreserved (.head _)
  · exact fun within => unreserved (within.subset (.head _))

theorem apart_names :
    ¬ [Fingerprint.recordDirectory] ++ ["history.json"] <+:
        [Fingerprint.recordDirectory] ++ ["events.jsonl"] ∧
      ¬ [Fingerprint.recordDirectory] ++ ["events.jsonl"] <+:
        [Fingerprint.recordDirectory] ++ ["history.json"] := by decide

/-- Writing the records of a session beside a role leaves both there. -/
theorem exists_records (c : Concluded) (wellFormed : role.IsWellFormed)
    (holds : d.Holds directory place (role.files.map Role.held)
      (Disk.Holds.waysTo (role.files.map Role.held))) :
    ∃ mid after,
      (DiskWork.replace (recordPath directory "history.json") c.record.pretty).Does d () mid ∧
      (DiskWork.append (recordPath directory "events.jsonl") (eventRows c)).Does mid () after ∧
      after.Holds directory place (role.files.map Role.held ++ c.records)
        (Disk.Holds.waysTo (role.files.map Role.held ++ c.records)) := by
  obtain ⟨mid, replaces, withHistory⟩ := holds.exists_replace
    (isBelow_recordPath directory isOrdinary_history rfl) rfl
    (fun other member => apart_record wellFormed member _)
    (fun other member => (apart_record wellFormed member _).2) c.record.pretty
  obtain ⟨after, appends, withEvents⟩ := withHistory.exists_append
    (isBelow_recordPath directory isOrdinary_events rfl)
    (fun other member => by
      rcases List.mem_append.mp member with ofRole | history
      · exact apart_record wellFormed ofRole _
      · rw [List.mem_singleton.mp history]
        exact apart_names)
    (eventRows c)
  rw [List.append_assoc] at withEvents
  exact ⟨mid, after, replaces, appends, withEvents⟩

/-- What a session that made a role leaves in the directory of the role. -/
theorem exists_delivered (tree : d.IsTree) (vacant : d.IsVacant root)
    (made : c.outcome.role? = some role) (nonempty : role.files ≠ [])
    (wellFormed : role.IsWellFormed) (short : ∀ path ∈ role.paths, Path.IsShort path)
    (named : (Role.variableName c.cookbook).utf8ByteSize ≤ 255) :
    ∃ after place, (c.deliver root).Does d
        ⟨directoryFor root c.cookbook, role.size, some (Fingerprint.ofRole role)⟩ after ∧
      after.Holds (directoryFor root c.cookbook) place (role.files.map Role.held ++ c.records)
        (Disk.Holds.waysTo (role.files.map Role.held ++ c.records)) := by
  obtain ⟨start, place, makes, empty⟩ := vacant.exists_makeDirectories tree named
  have nothing : start.Holds (directoryFor root c.cookbook) place
      (([] : List (String × String)).map Role.held)
      (Disk.Holds.waysTo (([] : List (String × String)).map Role.held)) := empty
  obtain ⟨written, writes, withRole⟩ := Role.exists_writeFiles wellFormed short rfl nothing
  obtain ⟨mid, after, replaces, appends, withRecords⟩ := exists_records c wellFormed withRole
  have fingerprint := Role.ofDirectory_eq wellFormed (areRecords_records c) withRecords
  have consults : (DiskWork.consult fun d =>
      Fingerprint.ofDirectory d (directoryFor root c.cookbook)).Does after
        (Fingerprint.ofRole role) after := DiskWork.does_consult fingerprint
  have full : role.isEmpty = false := by simpa [Role.isEmpty] using nonempty
  refine ⟨after, place, ?_, withRecords⟩
  unfold Concluded.deliver
  rw [made, Option.getD_some]
  dsimp only
  rw [full, if_neg Bool.false_ne_true]
  refine DiskWork.Does.bind (DiskWork.does_change makes) ?_
  refine DiskWork.Does.bind writes ?_
  refine DiskWork.Does.bind replaces ?_
  refine DiskWork.Does.bind appends ?_
  refine DiskWork.Does.bind (consults.map some) ?_
  exact DiskWork.does_pure _ _

/-- What is delivered of a session that made a role. -/
theorem exists_delivery (tree : d.IsTree) (vacant : d.IsVacant root)
    (made : c.outcome.role? = some role) (nonempty : role.files ≠ [])
    (wellFormed : role.IsWellFormed) (short : ∀ path ∈ role.paths, Path.IsShort path)
    (named : (Role.variableName c.cookbook).utf8ByteSize ≤ 255) :
    ∃ delivery after, (c.deliver root).Does d delivery after ∧
      delivery.directory = directoryFor root c.cookbook ∧
      delivery.fingerprint = some (Fingerprint.ofRole role) ∧
      ((Path.components root).head? ≠ some .here →
        Role.stored after delivery.directory = .ok role) := by
  obtain ⟨after, place, does, holds⟩ :=
    exists_delivered tree vacant made nonempty wellFormed short named
  refine ⟨_, after, does, rfl, rfl, fun plain => ?_⟩
  rw [Role.stored_eq wellFormed (areRecords_records c) holds,
    if_neg (mt (Role.head?_components_directoryFor root named).mp plain)]

/-- A role in which one file waits where another one stands, delivered from a directory that holds
something else. -/
theorem exists_delivery_of_waiting :
    let role : Role :=
      ⟨[("a", "first"), ("a.tmp", "second"), ("tasks/main.yml", "- ping:\n")], by decide⟩
    let c : Concluded := ⟨"My-Web", .succeeded role, [], []⟩
    let d : Disk := ⟨[(["srv"], .directory), (["srv", "notes"], .file [104, 105])], ["srv"]⟩
    d.IsTree ∧ d.IsVacant "out/roles" ∧ c.outcome.role? = some role ∧ role.files ≠ [] ∧
      role.IsWellFormed ∧ (∀ path ∈ role.paths, Path.IsShort path) ∧
      (Role.variableName c.cookbook).utf8ByteSize ≤ 255 ∧
      ∃ delivery after, (c.deliver "out/roles").Does d delivery after ∧
        delivery.directory = "out/roles/my_web" ∧
        delivery.fingerprint = some (Fingerprint.ofRole role) ∧
        Role.stored after delivery.directory = .ok role := by
  intro role c d
  have tree : d.IsTree := by decide +kernel
  have vacant : d.IsVacant "out/roles" :=
    ⟨by decide, _, rfl, by decide +kernel⟩
  have wellFormed : role.IsWellFormed := by decide +kernel
  have short : ∀ path ∈ role.paths, Path.IsShort path := by decide +kernel
  have named : (Role.variableName c.cookbook).utf8ByteSize ≤ 255 := by decide +kernel
  have nonempty : role.files ≠ [] := List.cons_ne_nil _ _
  obtain ⟨delivery, after, does, directory, fingerprint, stored⟩ :=
    exists_delivery tree vacant (c := c) rfl nonempty wellFormed short named
  have place : directoryFor "out/roles" c.cookbook = "out/roles/my_web" := by decide +kernel
  exact ⟨tree, vacant, rfl, nonempty, wellFormed, short, named, delivery, after, does,
    directory.trans place, fingerprint, stored (by decide +kernel)⟩

/-- A session is delivered only where the names of its files are short enough to be waited under. -/
theorem utf8ByteSize_le_of_deliver {delivery : Delivery} {after : Disk}
    (does : (c.deliver root).Does d delivery after) (made : c.outcome.role? = some role)
    (ordinary : ∀ path ∈ role.paths, ∀ name ∈ Path.names path, Path.IsOrdinary name) :
    ∀ path ∈ role.paths, ∀ name ∈ (Path.names path).getLast?, name.utf8ByteSize ≤ 251 := by
  unfold Concluded.deliver at does
  rw [made, Option.getD_some] at does
  obtain ⟨_, _, -, does⟩ := does.exists_of_bind
  obtain ⟨_, _, writes, -⟩ := does.exists_of_bind
  exact List.forall_mem_map.mpr
    (Role.utf8ByteSize_le_of_writeFiles writes (List.forall_mem_map.mp ordinary))

/-- A role that is delivered below a path with a single dot in front is not read back: reading finds
no file and gives an empty role without a word. That is a defect, since reading is to pass over the
records and what is no text, and nothing else. -/
theorem exists_delivery_of_here (tree : d.IsTree) (vacant : d.IsVacant root)
    (made : c.outcome.role? = some role) (nonempty : role.files ≠ [])
    (wellFormed : role.IsWellFormed) (short : ∀ path ∈ role.paths, Path.IsShort path)
    (named : (Role.variableName c.cookbook).utf8ByteSize ≤ 255)
    (here : (Path.components root).head? = some .here) :
    ∃ delivery after, (c.deliver root).Does d delivery after ∧
      Role.stored after delivery.directory = .ok .empty := by
  obtain ⟨after, place, does, holds⟩ :=
    exists_delivered tree vacant made nonempty wellFormed short named
  refine ⟨_, after, does, ?_⟩
  rw [Role.stored_eq wellFormed (areRecords_records c) holds,
    if_pos ((Role.head?_components_directoryFor root named).mpr here)]

/-- A name of 252 bytes is one a file may have, and no file of that name is ever delivered. A role
of a short name is delivered below any path, and not read back below one with a dot in front. -/
theorem not_delivered_of_long_name_and_not_stored_of_here :
    let name := String.ofList (List.replicate 252 'a')
    let long : Role := ⟨[(name, "")], List.pairwise_singleton _ _⟩
    let short : Role := ⟨[("a", "")], List.pairwise_singleton _ _⟩
    let c (role : Role) : Concluded := ⟨"web", .succeeded role, [], []⟩
    Disk.empty.IsTree ∧ Disk.empty.IsVacant "out" ∧ Disk.empty.IsVacant "./out" ∧
      long.IsWellFormed ∧ short.IsWellFormed ∧
      (∀ delivery after, ¬ ((c long).deliver "out").Does Disk.empty delivery after) ∧
      ∃ delivery after, ((c short).deliver "./out").Does Disk.empty delivery after ∧
        Role.stored after delivery.directory = .ok .empty := by
  intro name long short c
  have absent {d : Char} (different : d ≠ 'a') : d ∉ name.toList := by
    rw [show name.toList = List.replicate 252 'a' from String.toList_ofList]
    exact fun member => different (List.eq_of_mem_replicate member)
  have differs {text : String} (dot : '.' ∈ text.toList) : name ≠ text := by
    intro same
    exact absent (by decide) (same ▸ dot)
  have size : name.utf8ByteSize = 252 := by decide +kernel
  have nonempty : name ≠ "" := by
    intro same
    rw [same] at size
    cases size
  have ordinary : Path.IsOrdinary name :=
    ⟨nonempty, differs (by decide), differs (by decide), absent (by decide)⟩
  have names : Path.names name = [name] := Path.names_of_noSlash (absent (by decide))
  have wellFormed : long.IsWellFormed := by
    refine ⟨?_, ?_, ?_, ?_, ?_⟩
    · exact List.forall_mem_singleton.mpr (names ▸ List.forall_mem_singleton.mpr ordinary)
    · exact List.forall_mem_singleton.mpr (absent (by decide))
    · exact List.forall_mem_singleton.mpr (absent (by decide))
    · rw [show long.paths = [name] from rfl, List.forall_mem_singleton, names,
        List.mem_singleton]
      exact (differs (by decide)).symm
    · intro path member other otherMember _
      exact (List.mem_singleton.mp member).trans (List.mem_singleton.mp otherMember).symm
  have tree : Disk.empty.IsTree := by decide +kernel
  have vacant : Disk.empty.IsVacant "out" := ⟨by decide, _, rfl, by decide +kernel⟩
  have vacantHere : Disk.empty.IsVacant "./out" := ⟨by decide, _, rfl, by decide +kernel⟩
  have wellFormedShort : short.IsWellFormed := by decide +kernel
  refine ⟨tree, vacant, vacantHere, wellFormed, wellFormedShort, fun delivery after does => ?_, ?_⟩
  · have bound := utf8ByteSize_le_of_deliver does rfl wellFormed.ordinary name (.head _) name
      (by rw [names]; rfl)
    rw [size] at bound
    exact absurd bound (by decide)
  · exact exists_delivery_of_here tree vacantHere rfl (List.cons_ne_nil _ _) wellFormedShort
      (by decide +kernel) (by decide +kernel) (by decide +kernel)

end Concluded

end Rolewright
