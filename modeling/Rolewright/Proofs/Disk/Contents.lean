/-
# What a directory holds

A directory holds files, and directories on the ways to them. Each operation on a file below it
changes what it holds at one place: a directory that is missing is made, a file is written where
nothing was, a file is moved to where nothing was. From these steps come the two ways in which files
are written, through another name (`Holds.exists_replace`) and at once (`Holds.exists_append`), and
what a search finds afterwards (`Holds.filesBelow_perm`).
-/

import Rolewright.Proofs.Disk.Paths
import Rolewright.Proofs.Disk.Places

namespace Rolewright

namespace Disk

/-- Whether some names lead along one of some ways, or nowhere. -/
def IsOnWay (ways : List (List String)) (names : List String) : Prop :=
  names = [] ∨ ∃ way ∈ ways, names <+: way

theorem IsOnWay.of_prefix {ways : List (List String)} {names others : List String}
    (onWay : IsOnWay ways names) (within : others <+: names) : IsOnWay ways others := by
  rcases onWay with rfl | ⟨way, member, further⟩
  · exact .inl (List.prefix_nil.mp within)
  · exact .inr ⟨way, member, within.trans further⟩

theorem isOnWay_append_singleton {ways : List (List String)} {way names : List String} :
    IsOnWay (ways ++ [way]) names ↔ IsOnWay ways names ∨ names <+: way := by
  simp only [IsOnWay, List.mem_append, List.mem_singleton]
  grind

/-- What a disk holds below a directory: some files, and directories on some ways and nowhere
else. -/
structure Holds (d : Disk) (base : String) (place : List String)
    (files : List (List String × List UInt8)) (ways : List (List String)) : Prop where
  table : d.IsTable
  opens : d.Leads d.working (Path.components base) place
  file : ∀ names bytes, d.at? (place ++ names) = some (.file bytes) ↔ (names, bytes) ∈ files
  directory : ∀ names, d.at? (place ++ names) = some .directory ↔ IsOnWay ways names

namespace Holds

variable {d : Disk} {base : String} {place : List String}
  {files : List (List String × List UInt8)} {ways : List (List String)} {names front : List String}
  {bytes : List UInt8}

theorem start (holds : d.Holds base place files ways) : d.at? place = some .directory := by
  simpa using (holds.directory []).mpr (.inl rfl)

/-- Nothing stands where no file is and no way leads. -/
theorem at?_eq_none (holds : d.Holds base place files ways) (fresh : names ∉ files.map (·.1))
    (offWay : ¬ IsOnWay ways names) : d.at? (place ++ names) = none := by
  cases there : d.at? (place ++ names) with
  | none => rfl
  | some node =>
      cases node with
      | directory => exact absurd ((holds.directory names).mp there) offWay
      | file bytes =>
          exact absurd (List.mem_map.mpr ⟨_, (holds.file names bytes).mp there, rfl⟩) fresh

/-- Only the places on the ways count. -/
theorem congr_ways {others : List (List String)} (holds : d.Holds base place files ways)
    (same : ∀ names, IsOnWay ways names ↔ IsOnWay others names) :
    d.Holds base place files others :=
  ⟨holds.table, holds.opens, holds.file, fun names => (holds.directory names).trans (same names)⟩

/-! ## Single places -/

/-- A file is put where nothing stands. -/
theorem set_file (holds : d.Holds base place files ways) (fresh : names ∉ files.map (·.1))
    (offWay : ¬ IsOnWay ways names) (bytes : List UInt8) :
    (d.set (place ++ names) (.file bytes)).Holds base place (files ++ [(names, bytes)]) ways := by
  have moves : names ≠ [] := fun none => offWay (.inl none)
  have nonempty : place ++ names ≠ [] := by simp [moves]
  have clear := holds.at?_eq_none fresh offWay
  refine ⟨isTable_set holds.table _ _, holds.opens.mono ?_, ?_, ?_⟩
  · intro q there
    rw [at?_set d nonempty, if_neg ?_]
    · exact there
    · rintro rfl
      rw [clear] at there
      cases there
  · intro other read
    rw [at?_set_append d nonempty, List.mem_append, ← holds.file]
    split
    · rename_i same
      rw [same, clear]
      simp [eq_comm]
    · rename_i different
      simp [different]
  · intro other
    rw [at?_set_append d nonempty]
    split
    · rename_i same
      rw [same]
      exact iff_of_false nofun offWay
    · exact holds.directory other

/-- A directory is made where nothing stands, in one that is there. -/
theorem set_directory (holds : d.Holds base place files ways) {name : String}
    (onWay : IsOnWay ways front) (fresh : front ++ [name] ∉ files.map (·.1))
    (offWay : ¬ IsOnWay ways (front ++ [name])) :
    (d.set (place ++ (front ++ [name])) .directory).Holds base place files
      (ways ++ [front ++ [name]]) := by
  have nonempty : place ++ (front ++ [name]) ≠ [] := by simp
  refine ⟨isTable_set holds.table _ _, holds.opens.mono fun q => at?_set_directory nonempty, ?_, ?_⟩
  · intro other read
    rw [at?_set_append d nonempty, ← holds.file]
    split
    · rename_i same
      rw [same, holds.at?_eq_none fresh offWay]
      exact iff_of_false nofun nofun
    · exact Iff.rfl
  · intro other
    rw [at?_set_append d nonempty, isOnWay_append_singleton,
      List.prefix_concat_iff]
    split
    · rename_i same
      exact iff_of_true rfl (.inr (.inl same))
    · rename_i different
      rw [holds.directory]
      constructor
      · exact .inl
      · rintro (there | same | within)
        · exact there
        · exact absurd same different
        · exact onWay.of_prefix within

/-- The file that was put last is taken away. -/
theorem remove_file (holds : d.Holds base place (files ++ [(names, bytes)]) ways)
    (fresh : names ∉ files.map (·.1)) :
    (d.remove (place ++ names)).Holds base place files ways := by
  have there : d.at? (place ++ names) = some (.file bytes) := (holds.file names bytes).mpr (by simp)
  have nonempty := ne_nil_of_at?_file there
  refine ⟨isTable_remove holds.table _,
    holds.opens.mono fun q directory => at?_remove_directory there directory, ?_, ?_⟩
  · intro other read
    rw [at?_remove_append d nonempty]
    split
    · rename_i same
      rw [same]
      exact iff_of_false nofun fun member => fresh (List.mem_map.mpr ⟨_, member, rfl⟩)
    · rename_i different
      rw [holds.file]
      simp [different]
  · intro other
    rw [← holds.directory, at?_remove_append d nonempty]
    split
    · rename_i same
      rw [same, there]
      exact iff_of_false nofun nofun
    · exact Iff.rfl

/-! ## Operations on a path below a directory -/

/-- The directories on a way below are there once they were made, and no others. -/
theorem exists_makeAlong (holds : d.Holds base place files ways) (onWay : IsOnWay ways front)
    (fit : ∀ name ∈ names, checkName name = .ok ())
    (clear : ∀ file ∈ files, ¬ file.1 <+: front ++ names) :
    ∃ made, d.makeAlong (place ++ front) (names.map .name) = .ok made ∧
      made.Holds base place files (ways ++ [front ++ names]) := by
  induction names generalizing d front ways with
  | nil =>
      refine ⟨d, rfl, holds.congr_ways fun others => ?_⟩
      rw [List.append_nil, isOnWay_append_singleton]
      exact ⟨.inl, fun there => there.elim id onWay.of_prefix⟩
  | cons name names ih =>
      obtain ⟨first, others⟩ := List.forall_mem_cons.mp fit
      rw [List.append_cons front name names] at clear ⊢
      have within : front ++ [name] <+: front ++ [name] ++ names := List.prefix_append _ _
      rw [List.map_cons, makeAlong, List.append_assoc]
      cases there : d.at? (place ++ (front ++ [name])) with
      | some node =>
          cases node with
          | file bytes => exact absurd within (clear _ ((holds.file _ _).mp there))
          | directory => exact ih holds ((holds.directory _).mp there) others clear
      | none =>
          have offWay : ¬ IsOnWay ways (front ++ [name]) := by
            rw [← holds.directory, there]
            exact (Option.some_ne_none _).symm
          have fresh : front ++ [name] ∉ files.map (·.1) := by
            intro taken
            obtain ⟨file, member, same⟩ := List.mem_map.mp taken
            exact clear file member (same ▸ within)
          have stepped := holds.set_directory onWay fresh offWay
          obtain ⟨made, makes, holding⟩ :=
            ih stepped (isOnWay_append_singleton.mpr (.inr List.prefix_rfl)) others clear
          refine ⟨made, ?_, holding.congr_ways fun others => ?_⟩
          · simp only [first]
            exact makes
          · rw [isOnWay_append_singleton, isOnWay_append_singleton, isOnWay_append_singleton,
              or_assoc]
            refine or_congr_right ⟨?_, .inr⟩
            rintro (before | whole)
            · exact before.trans within
            · exact whole

end Holds

/-- Whether a path below a base leads along some names to one that a file may have. -/
structure IsBelow (base path : String) (front : List String) (name : String) : Prop where
  ends : Path.EndsIn path (Path.components base ++ front.map .name) name
  fit : ∀ n ∈ front, checkName n = .ok ()
  fits : checkName name = .ok ()

/-- The path beside it, where the longer name is one that a file may have. -/
theorem IsBelow.waitingPath {base path : String} {front : List String} {name : String}
    (below : IsBelow base path front name) (fits : checkName (name ++ ".tmp") = .ok ()) :
    IsBelow base (DiskWork.waitingPath path) front (name ++ ".tmp") :=
  ⟨below.ends.waitingPath, below.fit, fits⟩

namespace Holds

variable {d : Disk} {base path : String} {place : List String}
  {files : List (List String × List UInt8)} {ways : List (List String)} {front : List String}
  {name : String}

theorem resolve (holds : d.Holds base place files ways) (below : IsBelow base path front name)
    (onWay : IsOnWay ways front) : d.resolve path = .ok (place ++ (front ++ [name])) := by
  have leads : d.Leads place ((front ++ [name]).map .name) (place ++ (front ++ [name])) := by
    refine leads_names ?_ fun way within whole => ?_
    · intro n member
      rcases List.mem_append.mp member with before | last
      · exact below.fit n before
      · rw [List.mem_singleton.mp last]
        exact below.fits
    · rw [holds.directory]
      rcases List.prefix_concat_iff.mp within with same | before
      · exact absurd same whole
      · exact onWay.of_prefix before
  rw [Disk.resolve, below.ends.components, List.append_assoc]
  have := holds.opens.append leads
  simpa [Leads] using this

/-- The directories on the way to a file are made where no file stands on it. -/
theorem exists_makeDirectories (holds : d.Holds base place files ways)
    (below : IsBelow base path front name) (clear : ∀ file ∈ files, ¬ file.1 <+: front) :
    ∃ made, d.makeDirectories (directoryOf path) = .ok made ∧
      made.Holds base place files (ways ++ [front]) := by
  have reached : d.makeAlong d.working (Path.components base) = .ok d :=
    makeAlong_of_leads holds.opens holds.start
  obtain ⟨made, makes, holding⟩ :=
    holds.exists_makeAlong (.inl rfl : IsOnWay ways []) below.fit clear
  refine ⟨made, ?_, holding⟩
  rw [makeDirectories, below.ends.components_directoryOf, makeAlong_append reached,
    holds.opens.follow_eq]
  simpa using makes

/-- A file is written where nothing stands, in a directory that is there. -/
theorem exists_write (holds : d.Holds base place files ways) (below : IsBelow base path front name)
    (onWay : IsOnWay ways front) (fresh : front ++ [name] ∉ files.map (·.1))
    (offWay : ¬ IsOnWay ways (front ++ [name])) (bytes : List UInt8) :
    ∃ after, d.write path bytes = .ok after ∧
      after.Holds base place (files ++ [(front ++ [name], bytes)]) ways := by
  refine ⟨_, ?_, holds.set_file fresh offWay bytes⟩
  rw [write, holds.resolve below onWay]
  dsimp only [bind, Except.bind]
  rw [holds.at?_eq_none fresh offWay, below.ends.namesDirectory]
  rfl

/-- A file is moved to another name in its directory, where nothing stands. -/
theorem exists_rename {source moved : String} {bytes : List UInt8}
    (holds : d.Holds base place (files ++ [(front ++ [moved], bytes)]) ways)
    (sourceBelow : IsBelow base source front moved) (below : IsBelow base path front name)
    (onWay : IsOnWay ways front) (apart : name ≠ moved)
    (vacated : front ++ [moved] ∉ files.map (·.1)) (fresh : front ++ [name] ∉ files.map (·.1))
    (offWay : ¬ IsOnWay ways (front ++ [name])) :
    ∃ after, d.rename source path = .ok after ∧
      after.Holds base place (files ++ [(front ++ [name], bytes)]) ways := by
  have there : d.at? (place ++ (front ++ [moved])) = some (.file bytes) :=
    (holds.file _ _).mpr (by simp)
  have target : d.target source = place ++ (front ++ [moved]) := by
    rw [target_eq_follow, sourceBelow.ends.components, List.append_assoc, follow_append,
      holds.opens.follow_eq]
    simpa using follow_names place (front ++ [moved])
  have clear : d.at? (place ++ (front ++ [name])) = none :=
    holds.at?_eq_none (by simp [fresh, apart]) offWay
  have notHere : some name.toList ≠ some ['.'] :=
    mt Option.some.inj below.ends.ordinary.toList_ne_dot
  have nonempty : some name.toList ≠ some [] :=
    mt Option.some.inj below.ends.ordinary.toList_ne_nil
  refine ⟨_, ?_, (holds.remove_file vacated).set_file fresh offWay bytes⟩
  rw [rename, holds.resolve below onWay]
  dsimp only [bind, Except.bind]
  rw [clear, target, there, below.ends.last, if_neg notHere]
  exact if_neg nonempty

end Holds

end Disk

/-! ## Work that succeeds -/

namespace DiskWork

variable {α β : Type} {d mid after : Disk}

/-- Whether work that starts on a disk ends with an answer, and on which disk. -/
def Does (work : DiskWork α) (d : Disk) (answer : α) (after : Disk) : Prop :=
  work.run d = (.ok answer, after)

theorem does_pure (answer : α) (d : Disk) : Does (pure answer) d answer d := rfl

theorem Does.bind {work : DiskWork α} {next : α → DiskWork β} {answer : α} {result : β}
    (first : work.Does d answer mid) (second : (next answer).Does mid result after) :
    (work >>= next).Does d result after := by
  change ExceptT.bindCont next (work.run d).1 (work.run d).2 = _
  rw [first]
  exact second

/-- Work in two parts ends well only if both parts do. -/
theorem Does.exists_of_bind {work : DiskWork α} {next : α → DiskWork β} {result : β}
    (does : (work >>= next).Does d result after) :
    ∃ answer mid, work.Does d answer mid ∧ (next answer).Does mid result after := by
  unfold Does at does ⊢
  change ExceptT.bindCont next (work.run d).1 (work.run d).2 = _ at does
  rcases runs : work.run d with ⟨answer, mid⟩
  rw [runs] at does
  cases answer with
  | error failure => cases does
  | ok answer => exact ⟨answer, mid, rfl, does⟩

theorem Does.map {work : DiskWork α} {answer : α} (f : α → β) (does : work.Does d answer after) :
    (f <$> work).Does d (f answer) after := by
  rw [map_eq_pure_bind]
  exact does.bind (does_pure (f answer) after)

theorem does_get (d : Disk) : (get : DiskWork Disk).Does d d d := rfl

theorem does_change {path : String} {operation : Disk → Except OsError Disk}
    (succeeds : operation d = .ok after) : (change path operation).Does d () after := by
  refine (does_get d).bind ?_
  rw [succeeds]
  rfl

theorem Does.of_change {path : String} {operation : Disk → Except OsError Disk}
    (does : (change path operation).Does d () after) : operation d = .ok after := by
  obtain ⟨now, same, reads, does⟩ := does.exists_of_bind
  cases reads
  cases runs : operation d with
  | error cause =>
      rw [runs] at does
      cases does
  | ok disk =>
      rw [runs] at does
      cases does
      rfl

theorem does_consult {question : Disk → Except Failure α} {answer : α}
    (answered : question d = .ok answer) : (consult question).Does d answer d := by
  refine (does_get d).bind ?_
  rw [answered]
  rfl

theorem Does.of_consult {question : Disk → Except Failure α} {answer : α}
    (does : (consult question).Does d answer after) : question d = .ok answer ∧ after = d := by
  obtain ⟨now, same, reads, does⟩ := does.exists_of_bind
  cases reads
  cases answers : question d with
  | error failure =>
      rw [answers] at does
      cases does
  | ok other =>
      rw [answers] at does
      cases does
      exact ⟨rfl, rfl⟩

/-- A text is written only where the name that it waits under is one a file may have. -/
theorem Does.utf8ByteSize_le {path content name : String} {front : List Component}
    (does : (replace path content).Does d () after) (ends : Path.EndsIn path front name) :
    name.utf8ByteSize ≤ 251 := by
  obtain ⟨_, made, -, does⟩ := does.exists_of_bind
  obtain ⟨_, written, writes, -⟩ := does.exists_of_bind
  have wrote := writes.of_change
  rw [Disk.write] at wrote
  cases resolves : made.resolve (waitingPath path) with
  | error cause =>
      rw [resolves] at wrote
      cases wrote
  | ok place =>
      have leads : made.Leads made.working (Path.components (waitingPath path)) place := resolves
      rw [ends.waitingPath.components, Disk.leads_append_iff] at leads
      obtain ⟨_, -, last⟩ := leads
      obtain ⟨_, walks, -⟩ := Disk.leads_cons_iff.mp last
      have fits := (Disk.walk_eq_ok_iff.mp walks).2.1 _ rfl
      have short := (Disk.checkName_eq_ok_iff.mp fits).2
      rw [String.utf8ByteSize_append] at short
      exact Nat.le_of_add_le_add_right short

end DiskWork

namespace Disk.Holds

variable {d : Disk} {base path : String} {place : List String}
  {files : List (List String × List UInt8)} {front : List String} {name : String}

open DiskWork

/-- The directories on the ways to some files. -/
def waysTo (files : List (List String × List UInt8)) : List (List String) :=
  files.map (·.1.dropLast)

theorem waysTo_append (files : List (List String × List UInt8)) (front : List String)
    (name : String) (bytes : List UInt8) :
    waysTo (files ++ [(front ++ [name], bytes)]) = waysTo files ++ [front] := by
  simp [waysTo]

/-- Names that no file is at or below are those of no file, and on no way. -/
theorem not_mem_map (beyond : ∀ file ∈ files, ¬ front ++ [name] <+: file.1) :
    front ++ [name] ∉ files.map (·.1) := by
  intro taken
  obtain ⟨file, member, same⟩ := List.mem_map.mp taken
  exact beyond file member (same ▸ List.prefix_rfl)

theorem not_isOnWay (beyond : ∀ file ∈ files, ¬ front ++ [name] <+: file.1) :
    ¬ IsOnWay (waysTo files ++ [front]) (front ++ [name]) := by
  rw [isOnWay_append_singleton]
  rintro ((none | ⟨way, member, within⟩) | within)
  · simp at none
  · obtain ⟨file, written, rfl⟩ := List.mem_map.mp member
    exact beyond file written (within.trans (List.dropLast_prefix file.1))
  · exact absurd within.length_le (by simp)

/-- The directories on the way to a new file are made. -/
theorem exists_does_makeDirectories (holds : d.Holds base place files (waysTo files))
    (below : IsBelow base path front name)
    (apart : ∀ file ∈ files, ¬ file.1 <+: front ++ [name] ∧ ¬ front ++ [name] <+: file.1) :
    ∃ made, (DiskWork.makeDirectories (directoryOf path)).Does d () made ∧
      made.Holds base place files (waysTo files ++ [front]) := by
  obtain ⟨made, makes, holding⟩ := holds.exists_makeDirectories below fun file member within =>
    (apart file member).1 (within.trans (List.prefix_append front [name]))
  exact ⟨made, does_change makes, holding⟩

/-- A text is written where nothing stands, through another name. No file that was written before
may stand at or below that name. -/
theorem exists_replace (holds : d.Holds base place files (waysTo files))
    (below : IsBelow base path front name) (longer : checkName (name ++ ".tmp") = .ok ())
    (apart : ∀ file ∈ files, ¬ file.1 <+: front ++ [name] ∧ ¬ front ++ [name] <+: file.1)
    (waiting : ∀ file ∈ files, ¬ front ++ [name ++ ".tmp"] <+: file.1) (content : String) :
    ∃ after, (replace path content).Does d () after ∧
      after.Holds base place (files ++ [(front ++ [name], Text.encode content.toList)])
        (waysTo (files ++ [(front ++ [name], Text.encode content.toList)])) := by
  have beyond := fun file member => (apart file member).2
  have different : name ≠ name ++ ".tmp" := by
    intro same
    simpa using congrArg String.length same
  have onWay : IsOnWay (waysTo files ++ [front]) front :=
    isOnWay_append_singleton.mpr (.inr List.prefix_rfl)
  obtain ⟨made, makes, holding⟩ := holds.exists_does_makeDirectories below apart
  obtain ⟨written, writes, withWaiting⟩ := holding.exists_write (below.waitingPath longer) onWay
    (not_mem_map waiting) (not_isOnWay waiting) (Text.encode content.toList)
  obtain ⟨after, renames, withFile⟩ := withWaiting.exists_rename (below.waitingPath longer) below
    onWay different (not_mem_map waiting) (not_mem_map beyond) (not_isOnWay beyond)
  rw [waysTo_append]
  refine ⟨after, ?_, withFile⟩
  unfold DiskWork.replace
  refine makes.bind ?_
  exact Does.bind (does_change writes) (does_change renames)

/-- A text is added where nothing stands. -/
theorem exists_append (holds : d.Holds base place files (waysTo files))
    (below : IsBelow base path front name)
    (apart : ∀ file ∈ files, ¬ file.1 <+: front ++ [name] ∧ ¬ front ++ [name] <+: file.1)
    (content : String) :
    ∃ after, (DiskWork.append path content).Does d () after ∧
      after.Holds base place (files ++ [(front ++ [name], Text.encode content.toList)])
        (waysTo (files ++ [(front ++ [name], Text.encode content.toList)])) := by
  have beyond := fun file member => (apart file member).2
  have onWay : IsOnWay (waysTo files ++ [front]) front :=
    isOnWay_append_singleton.mpr (.inr List.prefix_rfl)
  obtain ⟨made, makes, holding⟩ := holds.exists_does_makeDirectories below apart
  have nothing : made.read path = .error .notFound := by
    rw [read, holding.resolve below onWay]
    dsimp only [bind, Except.bind]
    rw [holding.at?_eq_none (not_mem_map beyond) (not_isOnWay beyond)]
    rfl
  obtain ⟨after, writes, withFile⟩ := holding.exists_write below onWay
    (not_mem_map beyond) (not_isOnWay beyond) (Text.encode content.toList)
  rw [waysTo_append]
  refine ⟨after, ?_, withFile⟩
  unfold DiskWork.append
  refine makes.bind (does_change ?_)
  rw [nothing]
  exact writes

/-! ## Searches -/

/-- An entry of a disk as a file below a place, if it is one. -/
def fileBelow? (place : List String) (entry : List String × DiskNode) :
    Option (List String × List UInt8) :=
  match entry.2, place.isPrefixOf? entry.1 with
  | .file bytes, some rest => if rest.isEmpty then none else some (rest, bytes)
  | _, _ => none

theorem fileBelow?_eq_some_iff {entry : List String × DiskNode}
    {file : List String × List UInt8} :
    fileBelow? place entry = some file ↔
      file.1 ≠ [] ∧ entry = (place ++ file.1, .file file.2) := by
  obtain ⟨path, node⟩ := entry
  obtain ⟨rest, bytes⟩ := file
  rw [fileBelow?]
  cases node with
  | directory => simp
  | file others =>
      cases within : place.isPrefixOf? path with
      | none =>
          refine iff_of_false nofun ?_
          rintro ⟨-, same⟩
          rw [(Prod.mk.inj same).1, List.isPrefixOf?_eq_some_iff_append_eq.mpr rfl] at within
          cases within
      | some names =>
          obtain rfl := List.isPrefixOf?_eq_some_iff_append_eq.mp within
          cases names with
          | nil => simp +contextual [eq_comm]
          | cons name names =>
              dsimp only
              rw [if_neg (by simp), Option.some.injEq, Prod.mk.injEq, Prod.mk.injEq,
                List.append_cancel_left_eq, DiskNode.file.injEq]
              constructor
              · rintro ⟨rfl, same⟩
                exact ⟨List.cons_ne_nil _ _, rfl, same⟩
              · exact And.right

theorem filesBelow_perm_filterMap (d : Disk) (place : List String) :
    (d.filesBelow place).Perm (d.nodes.filterMap (fileBelow? place)) := by
  have whole : d.filesBelow place =
      (d.nodes.filterMap (fileBelow? place)).mergeSort fun a b => pathOrder a.1 b.1 := rfl
  rw [whole]
  exact List.mergeSort_perm _ _

end Disk.Holds

namespace Disk

open Holds

variable {d : Disk} {base : String} {place : List String}

/-- A search finds no file twice. -/
theorem nodup_filesBelow (table : d.IsTable) (place : List String) :
    (d.filesBelow place).Nodup := by
  refine (filesBelow_perm_filterMap d place).nodup_iff.mpr ((table.of_map _).filterMap ?_)
  intro entry other file same otherSame
  rw [(fileBelow?_eq_some_iff.mp same).2, (fileBelow?_eq_some_iff.mp otherSame).2]

/-- A search finds the files that stand below a place. -/
theorem mem_filesBelow_iff (table : d.IsTable) {names : List String} {bytes : List UInt8} :
    (names, bytes) ∈ d.filesBelow place ↔
      names ≠ [] ∧ d.at? (place ++ names) = some (.file bytes) := by
  rw [(filesBelow_perm_filterMap d place).mem_iff]
  simp only [List.mem_filterMap, fileBelow?_eq_some_iff]
  constructor
  · rintro ⟨_, member, moving, rfl⟩
    exact ⟨moving, (mem_nodes_iff table (by simp [moving]) _).mp member⟩
  · rintro ⟨moving, there⟩
    exact ⟨_, (mem_nodes_iff table (by simp [moving]) _).mpr there, moving, rfl⟩

/-- A search finds the files that a directory holds. -/
theorem Holds.filesBelow_perm {files : List (List String × List UInt8)}
    {ways : List (List String)} (holds : d.Holds base place files ways) (distinct : files.Nodup)
    (moves : ∀ file ∈ files, file.1 ≠ []) : (d.filesBelow place).Perm files := by
  refine (List.perm_ext_iff_of_nodup (nodup_filesBelow holds.table place) distinct).mpr ?_
  rintro ⟨names, bytes⟩
  rw [mem_filesBelow_iff holds.table, holds.file]
  exact ⟨And.right, fun member => ⟨moves _ member, member⟩⟩

end Disk

end Rolewright
