/-
# Roles side by side

The roles of all sessions are written below one directory, each into a directory of its own, which
is named after the cookbook. Names that differ may give one directory, and then a role is written
over another one, or beside its files. Each directory holds the files of its session and no others
just when every file that lies there is one of that session (`Concluded.Suits`), whichever session
it was written for. What a whole report leaves follows from what one delivery does
(`Concluded.Delivered.keeps`) by induction on the sessions (`deliveredAll_of_run`).
-/

import Rolewright.Command.Conversion
import Rolewright.Proofs.Conversion.Rerun

namespace Rolewright

/-! ## Jobs -/

namespace Job

variable {α β : Type} {console after : Console}

/-- A job in two parts does the second where the first ends well. -/
theorem run_bind (job : Job α) (next : α → Job β) (console : Console) :
    (job >>= next).run console =
      match job.run console with
      | (.ok answer, mid) => (next answer).run mid
      | (.error failure, mid) => (.error failure, mid) := by
  change (ExceptT.bindCont next (job.run console).1 : StateM Console _) (job.run console).2 = _
  rcases job.run console with ⟨answer | failure, mid⟩
  · rfl
  · rfl

theorem exists_of_bind {job : Job α} {next : α → Job β} {result : β}
    (runs : (job >>= next).run console = (.ok result, after)) :
    ∃ answer mid, job.run console = (.ok answer, mid) ∧
      (next answer).run mid = (.ok result, after) := by
  rw [run_bind] at runs
  split at runs
  · rename_i answer mid first
    exact ⟨answer, mid, first, runs⟩
  · cases runs

/-- A job that works on the disk does this work, and nothing else. -/
theorem run_work (work : DiskWork α) (console : Console) :
    (Job.work work).run console =
      ((work.run console.disk).1, { console with disk := (work.run console.disk).2 }) := by
  have reads : (get : Job Console).run console = (.ok console, console) := rfl
  rw [Job.work, run_bind, reads]
  dsimp only
  rcases work.run console.disk with ⟨failure | answer, disk⟩
  · rfl
  · rfl

theorem does_of_work {work : DiskWork α} {answer : α}
    (runs : (Job.work work).run console = (.ok answer, after)) :
    work.Does console.disk answer after.disk := by
  rw [run_work] at runs
  obtain ⟨same, rfl⟩ := Prod.mk.inj runs
  exact Prod.ext same rfl

/-- A job that is seen to end well. -/
theorem exists_run {job : Job Unit} (ok : (job.run console).1.toBool = true) :
    ∃ after, job.run console = (.ok (), after) := by
  cases runs : (job.run console).1 with
  | error failure =>
      rw [runs] at ok
      cases ok
  | ok answer => exact ⟨_, Prod.ext runs rfl⟩

/-- Printing leaves the disk as it is. -/
theorem run_printAll (lines : List String) (console : Console) :
    (printAll lines).run console =
      (.ok (), { console with printed := console.printed ++ lines }) := by
  induction lines generalizing console with
  | nil =>
      rw [List.append_nil]
      rfl
  | cons line lines ih =>
      change (printAll lines).run { console with printed := console.printed ++ [line] } = _
      rw [ih, List.append_assoc, List.singleton_append]

end Job

namespace Disk

/-- The place of the directory of a role. -/
theorem target_directoryFor (d : Disk) (root cookbook : String) :
    d.target (Delivery.directoryFor root cookbook) =
      d.target root ++ Role.directoryNames cookbook := by
  rw [target_eq_follow, Role.components_directoryFor, follow_names_below]

end Disk

/-! ## One delivery -/

namespace Concluded

open Delivery Fingerprint Role

/-- The files of the role of a session, as they stand below the directory for all roles. -/
def outputFiles (c : Concluded) : List (List String × List UInt8) :=
  (c.produced.files.map held).map fun file => (directoryNames c.cookbook ++ file.1, file.2)

/-- Whether each file of another session that lies in the directory of this one is a file of this
one, too. -/
def Suits (c other : Concluded) : Prop :=
  ∀ file ∈ other.outputFiles, directoryNames c.cookbook <+: file.1 → file ∈ c.outputFiles

variable {c other : Concluded} {root : String} {d after : Disk} {delivery : Delivery}
  {names rest : List String} {bytes : List UInt8}

theorem mem_outputFiles_iff :
    (names, bytes) ∈ c.outputFiles ↔
      ∃ rest, names = directoryNames c.cookbook ++ rest ∧
        (rest, bytes) ∈ c.produced.files.map held := by
  simp only [outputFiles, List.mem_map (l := c.produced.files.map held), Prod.exists,
    Prod.mk.injEq]
  constructor
  · rintro ⟨rest, _, member, rfl, rfl⟩
    exact ⟨rest, rfl, member⟩
  · rintro ⟨rest, rfl, member⟩
    exact ⟨rest, bytes, member, rfl, rfl⟩

theorem append_mem_outputFiles_iff :
    (directoryNames c.cookbook ++ rest, bytes) ∈ c.outputFiles ↔
      (rest, bytes) ∈ c.produced.files.map held := by
  simp [mem_outputFiles_iff]

theorem recordDirectory_not_mem_directoryNames (cookbook : String) :
    recordDirectory ∉ directoryNames cookbook := by
  intro member
  have dot : '.' ∈ (variableName cookbook).toList :=
    eq_of_mem_directoryNames member ▸ List.mem_cons_self
  exact not_mem_variableName rfl (by decide) cookbook dot

/-- A file of a role lies in no directory for records. -/
theorem unreserved_of_mem_outputFiles (placed : c.produced.IsPlaced)
    (member : (names, bytes) ∈ c.outputFiles) : recordDirectory ∉ names := by
  obtain ⟨rest, rfl, held⟩ := mem_outputFiles_iff.mp member
  rw [List.mem_append, not_or]
  exact ⟨recordDirectory_not_mem_directoryNames _, (placed.of_mem_held held).2⟩

namespace Delivered

variable (delivered : c.Delivered root d delivery after)

include delivered

theorem target_eq : d.target delivery.directory = d.target root ++ directoryNames c.cookbook := by
  rw [delivered.directory, Disk.target_directoryFor]

/-- The files of a role are there when it is delivered. -/
theorem at?_of_mem (placed : c.produced.IsPlaced) (member : (names, bytes) ∈ c.outputFiles) :
    after.at? (d.target root ++ names) = some (.file bytes) := by
  have unreserved := unreserved_of_mem_outputFiles placed member
  obtain ⟨rest, rfl, held⟩ := mem_outputFiles_iff.mp member
  rw [← List.append_assoc, ← delivered.target_eq]
  refine (delivered.below rest ?_ bytes).mpr (.inl held)
  rintro name rfl
  exact unreserved (by simp)

/-- A file stays where it is, if it does not lie in the directory of the role, or is one of its
files. -/
theorem keeps (placed : c.produced.IsPlaced)
    (there : d.at? (d.target root ++ names) = some (.file bytes))
    (suits : directoryNames c.cookbook <+: names → (names, bytes) ∈ c.outputFiles) :
    after.at? (d.target root ++ names) = some (.file bytes) := by
  by_cases within : directoryNames c.cookbook <+: names
  · exact delivered.at?_of_mem placed (suits within)
  · refine (delivered.beyond _ ?_ bytes).mpr there
    rw [delivered.target_eq]
    exact fun prefixed => within ((List.prefix_append_right_inj _).mp prefixed)

/-- What lies outside the directories for records is a file of the role, or was there before. -/
theorem mem_or_at? (covered : recordDirectory ∉ names.dropLast)
    (there : after.at? (d.target root ++ names) = some (.file bytes)) :
    (names, bytes) ∈ c.outputFiles ∨ d.at? (d.target root ++ names) = some (.file bytes) := by
  by_cases within : directoryNames c.cookbook <+: names
  · obtain ⟨rest, rfl⟩ := within
    rw [append_mem_outputFiles_iff]
    rw [← List.append_assoc, ← delivered.target_eq] at there ⊢
    refine ((delivered.below rest ?_ bytes).mp there).imp_right And.right
    rintro name rfl
    refine covered ?_
    rw [List.dropLast_append_of_ne_nil (List.cons_ne_nil _ _)]
    simp
  · refine .inr ((delivered.beyond _ ?_ bytes).mp there)
    rw [delivered.target_eq]
    exact fun prefixed => within ((List.prefix_append_right_inj _).mp prefixed)

end Delivered

/-! ## All deliveries -/

/-- What the deliveries of several sessions make of a disk. -/
structure DeliveredAll (sessions : List Concluded) (root : String) (d after : Disk) : Prop where
  further : d.Extends after
  directory : ∀ c ∈ sessions,
    after.at? (d.target root ++ directoryNames c.cookbook) = some .directory
  /-- What lies outside the directories for records is a file of a role, or was there before. -/
  origin : ∀ names bytes, recordDirectory ∉ names.dropLast →
    after.at? (d.target root ++ names) = some (.file bytes) →
      (∃ c ∈ sessions, (names, bytes) ∈ c.outputFiles) ∨
        d.at? (d.target root ++ names) = some (.file bytes)
  /-- A file of a role, or of the disk, stays if each session in whose directory it lies has it. -/
  keeps : ∀ names bytes,
    (∃ c ∈ sessions, (names, bytes) ∈ c.outputFiles) ∨
      d.at? (d.target root ++ names) = some (.file bytes) →
    (∀ c ∈ sessions, directoryNames c.cookbook <+: names → (names, bytes) ∈ c.outputFiles) →
      after.at? (d.target root ++ names) = some (.file bytes)

theorem deliveredAll_nil (tree : d.IsTree) (root : String) : DeliveredAll [] root d d where
  further := tree.extends_self
  directory := nofun
  origin _ _ _ there := .inr there
  keeps _ _ there _ := there.resolve_left nofun

/-- One more delivery before others. -/
theorem Delivered.cons {mid : Disk} {sessions : List Concluded}
    (first : c.Delivered root d delivery mid) (placed : c.produced.IsPlaced)
    (others : DeliveredAll sessions root mid after) :
    DeliveredAll (c :: sessions) root d after := by
  obtain ⟨further, directory, origin, keeps⟩ := others
  simp only [first.further.target_eq] at directory origin keeps
  refine ⟨first.further.trans further, ?_, ?_, ?_⟩
  · refine List.forall_mem_cons.mpr ⟨further.stay _ ?_, directory⟩
    rw [← first.target_eq]
    exact first.start
  · intro names bytes covered there
    rcases origin names bytes covered there with ⟨other, member, own⟩ | before
    · exact .inl ⟨other, .tail _ member, own⟩
    · exact (first.mem_or_at? covered before).imp_left fun own => ⟨c, .head _, own⟩
  · intro names bytes there suits
    obtain ⟨here, later⟩ := List.forall_mem_cons.mp suits
    refine keeps names bytes ?_ later
    rcases there with ⟨other, member, own⟩ | before
    · rcases List.mem_cons.mp member with rfl | member
      · exact .inr (first.at?_of_mem placed own)
      · exact .inl ⟨other, member, own⟩
    · exact .inr (first.keeps placed before here)

namespace DeliveredAll

variable {sessions : List Concluded} (delivered : DeliveredAll sessions root d after)

include delivered

/-- The files of a directory, by their names from the directory for all roles. -/
theorem mem_roleFiles_iff :
    (rest, bytes) ∈ after.roleFiles (directoryFor root c.cookbook) ↔
      (rest ≠ [] ∧ recordDirectory ∉ rest.dropLast) ∧
        after.at? (d.target root ++ (directoryNames c.cookbook ++ rest)) = some (.file bytes) := by
  rw [Disk.mem_roleFiles_iff delivered.further.tree, Disk.target_directoryFor,
    delivered.further.target_eq, List.append_assoc]

/-- Each directory holds the files of its session and no others, if they suit it. -/
theorem perm_roleFiles (placed : ∀ c ∈ sessions, c.produced.IsPlaced)
    (empty : ∀ names bytes, d.at? (d.target root ++ names) ≠ some (.file bytes))
    (member : c ∈ sessions) (suits : ∀ other ∈ sessions, c.Suits other)
    (suited : ∀ other ∈ sessions, other.Suits c) :
    (after.roleFiles (directoryFor root c.cookbook)).Perm (c.produced.files.map held) := by
  refine (List.perm_ext_iff_of_nodup (Disk.nodup_roleFiles delivered.further.tree _)
    (nodup_map_held _)).mpr ?_
  rintro ⟨rest, bytes⟩
  rw [delivered.mem_roleFiles_iff, ← append_mem_outputFiles_iff]
  constructor
  · rintro ⟨⟨moving, covered⟩, there⟩
    have outside : recordDirectory ∉ (directoryNames c.cookbook ++ rest).dropLast := by
      rw [List.dropLast_append_of_ne_nil moving, List.mem_append, not_or]
      exact ⟨recordDirectory_not_mem_directoryNames _, covered⟩
    obtain ⟨other, among, own⟩ :=
      (delivered.origin _ _ outside there).resolve_right (empty _ _)
    exact suits other among _ own (List.prefix_append _ _)
  · intro own
    have held := append_mem_outputFiles_iff.mp own
    obtain ⟨moving, unreserved⟩ := (placed c member).of_mem_held held
    refine ⟨⟨moving, fun inside => unreserved (List.dropLast_subset _ inside)⟩, ?_⟩
    refine delivered.keeps _ _ (.inl ⟨c, member, own⟩) fun other among within => ?_
    exact suited other among _ own within

/-- A session suits another one where both directories hold the files of their sessions and no
others. -/
theorem suits_of_perm (placed : other.produced.IsPlaced) (member : c ∈ sessions)
    (own : (after.roleFiles (directoryFor root c.cookbook)).Perm (c.produced.files.map held))
    (theirs : (after.roleFiles (directoryFor root other.cookbook)).Perm
      (other.produced.files.map held)) : c.Suits other := by
  rintro ⟨names, bytes⟩ file ⟨rest, split⟩
  have unreserved := unreserved_of_mem_outputFiles placed file
  have there : after.at? (d.target root ++ names) = some (.file bytes) := by
    obtain ⟨others, rfl, held⟩ := mem_outputFiles_iff.mp file
    exact (delivered.mem_roleFiles_iff.mp (theirs.mem_iff.mpr held)).2
  obtain rfl : directoryNames c.cookbook ++ rest = names := split
  refine append_mem_outputFiles_iff.mpr (own.mem_iff.mp (delivered.mem_roleFiles_iff.mpr
    ⟨⟨?_, ?_⟩, there⟩))
  · rintro rfl
    rw [List.append_nil, delivered.directory c member] at there
    cases there
  · exact fun inside => unreserved (List.mem_append_right _ (List.dropLast_subset _ inside))

end DeliveredAll

/-- Sessions suit each other where their cookbooks have names that give different directories. -/
theorem suits_of_ne (named : variableName c.cookbook ≠ "")
    (otherNamed : variableName other.cookbook ≠ "")
    (differ : variableName c.cookbook ≠ variableName other.cookbook) : c.Suits other := by
  rintro ⟨names, bytes⟩ file within
  obtain ⟨rest, rfl, -⟩ := mem_outputFiles_iff.mp file
  rw [directoryNames, directoryNames, if_neg named, if_neg otherNamed, List.singleton_append,
    List.cons_prefix_cons] at within
  exact absurd within.1 differ

theorem suits_self (c : Concluded) : c.Suits c :=
  fun _ own _ => own

end Concluded

namespace Command

variable {output : String} {session : Concluded} {sessions : List Concluded}
  {console written : Console}

/-- The first of several sessions is delivered before the others. -/
theorem exists_of_deliverAll_cons
    (delivers : (deliverAll output (session :: sessions)).run console = (.ok (), written)) :
    ∃ delivery mid, (session.deliver output).Does console.disk delivery mid.disk ∧
      (deliverAll output sessions).run mid = (.ok (), written) := by
  obtain ⟨delivery, mid, works, rest⟩ := Job.exists_of_bind delivers
  obtain ⟨_, later, prints, rest⟩ := Job.exists_of_bind rest
  rw [Job.run_printAll] at prints
  obtain ⟨-, rfl⟩ := Prod.mk.inj prints
  have does := Job.does_of_work works
  exact ⟨delivery, { mid with printed := mid.printed ++ deliveryLines session delivery }, does,
    rest⟩

/-- What is summed up after the last delivery changes nothing on the disk. -/
theorem disk_reportSessions
    (delivers : (deliverAll output sessions).run console = (.ok (), written)) :
    ((reportSessions output sessions).run console).2.disk = written.disk := by
  rw [reportSessions, Job.run_bind, delivers]
  dsimp only
  split
  · rfl
  · rfl

theorem deliveredAll_of_run (tree : console.disk.IsTree)
    (placed : ∀ c ∈ sessions, c.produced.IsPlaced)
    (delivers : (deliverAll output sessions).run console = (.ok (), written)) :
    Concluded.DeliveredAll sessions output console.disk written.disk := by
  induction sessions generalizing console with
  | nil =>
      obtain rfl : console = written := congrArg Prod.snd delivers
      exact Concluded.deliveredAll_nil tree output
  | cons session sessions ih =>
      obtain ⟨here, later⟩ := List.forall_mem_cons.mp placed
      obtain ⟨delivery, mid, does, rest⟩ := exists_of_deliverAll_cons delivers
      have first := Concluded.delivered_of_does tree here does
      exact first.cons here (ih first.further.tree later rest)

/-- Where no files are below the directory for all roles, a report that delivers every session
leaves in each directory the files of its session and no others just when each file that was
written there for some session is one of that session. Names of cookbooks need not differ for that,
and it is not enough that they do. -/
theorem separate_reportSessions_iff (tree : console.disk.IsTree)
    (empty : ∀ entry ∈ console.disk.nodes, console.disk.target output <+: entry.1 →
      entry.2 = .directory)
    (placed : ∀ c ∈ sessions, c.produced.IsPlaced)
    (delivers : (deliverAll output sessions).run console = (.ok (), written)) :
    (∀ c ∈ sessions, (((reportSessions output sessions).run console).2.disk.roleFiles
        (Delivery.directoryFor output c.cookbook)).Perm (c.produced.files.map Role.held)) ↔
      ∀ c ∈ sessions, ∀ other ∈ sessions, c.Suits other := by
  have delivered := deliveredAll_of_run tree placed delivers
  have vacant (names : List String) (bytes : List UInt8) :
      console.disk.at? (console.disk.target output ++ names) ≠ some (.file bytes) := by
    intro there
    have moving : console.disk.target output ++ names ≠ [] := by
      intro root
      rw [root] at there
      cases there
    have entry := (Disk.mem_nodes_iff tree.table moving _).mpr there
    cases empty _ entry (List.prefix_append _ _)
  rw [disk_reportSessions delivers]
  constructor
  · intro exact c member other among
    exact delivered.suits_of_perm (placed other among) member (exact c member) (exact other among)
  · intro suits c member
    exact delivered.perm_roleFiles placed vacant member (suits c member)
      fun other among => suits other among c member

open Concluded in
theorem separate_reportSessions_of_two_directories :
    let sessions := [converted "my-web" widerRole, converted "data" narrowerRole]
    let console : Console := ⟨Disk.empty, [], []⟩
    console.disk.IsTree ∧
      (∀ entry ∈ console.disk.nodes, console.disk.target "out" <+: entry.1 →
        entry.2 = .directory) ∧
      (∀ c ∈ sessions, c.produced.IsPlaced) ∧
      ∃ written, (deliverAll "out" sessions).run console = (.ok (), written) ∧
        ∀ c ∈ sessions, (((reportSessions "out" sessions).run console).2.disk.roleFiles
          (Delivery.directoryFor "out" c.cookbook)).Perm (c.produced.files.map Role.held) := by
  intro sessions console
  have placed : ∀ c ∈ sessions, c.produced.IsPlaced := by decide +kernel
  have empty : ∀ entry ∈ console.disk.nodes, console.disk.target "out" <+: entry.1 →
      entry.2 = .directory := nofun
  obtain ⟨written, delivers⟩ : ∃ written,
      (deliverAll "out" sessions).run console = (.ok (), written) :=
    Job.exists_run (by decide +kernel)
  refine ⟨isTree_empty, empty, placed, written, delivers,
    (separate_reportSessions_iff isTree_empty empty placed delivers).mpr ?_⟩
  have apart : (converted "my-web" widerRole).Suits (converted "data" narrowerRole) :=
    suits_of_ne (by decide +kernel) (by decide +kernel) (by decide +kernel)
  have apart' : (converted "data" narrowerRole).Suits (converted "my-web" widerRole) :=
    suits_of_ne (by decide +kernel) (by decide +kernel) (by decide +kernel)
  simp [sessions, apart, apart', suits_self]

open Concluded in
/-- No directory holds the files of one role and no others, and those of another one and no
others. -/
theorem not_separate_of_directoryFor_eq {c other : Concluded} {d : Disk}
    (same : Delivery.directoryFor output c.cookbook = Delivery.directoryFor output other.cookbook)
    (differ : c.produced.files.length ≠ other.produced.files.length) :
    ¬ ∀ session ∈ [c, other], (d.roleFiles (Delivery.directoryFor output session.cookbook)).Perm
      (session.produced.files.map Role.held) := by
  intro exact
  obtain ⟨own, exact⟩ := List.forall_mem_cons.mp exact
  have theirs := List.forall_mem_singleton.mp exact
  rw [← same] at theirs
  have length := (own.symm.trans theirs).length_eq
  rw [List.length_map, List.length_map] at length
  exact differ length

open Concluded in
/-- Two cookbooks whose names differ in a character that no directory keeps. -/
theorem not_separate_reportSessions :
    let sessions := [converted "a-b" widerRole, converted "a_b" narrowerRole]
    let console : Console := ⟨Disk.empty, [], []⟩
    (sessions.Pairwise fun c other => c.cookbook ≠ other.cookbook) ∧
      (∀ c ∈ sessions, c.produced.IsWellFormed) ∧
      (∃ written, (deliverAll "out" sessions).run console = (.ok (), written)) ∧
      ¬ ∀ c ∈ sessions, (((reportSessions "out" sessions).run console).2.disk.roleFiles
        (Delivery.directoryFor "out" c.cookbook)).Perm (c.produced.files.map Role.held) := by
  intro sessions console
  have delivers : ∃ written, (deliverAll "out" sessions).run console = (.ok (), written) :=
    Job.exists_run (by decide +kernel)
  exact ⟨by decide +kernel, by decide +kernel, delivers,
    not_separate_of_directoryFor_eq (by decide +kernel) (by decide +kernel)⟩

end Command

end Rolewright
