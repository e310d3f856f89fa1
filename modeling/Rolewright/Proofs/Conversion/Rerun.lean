/-
# Deliveries over earlier ones

A session is delivered whatever stands in its directory. The files of its role are there afterwards,
and so are all files of earlier runs that none of these replaces; a fingerprint covers both. The
directory is therefore that of the new role, and the reported fingerprint that of the role in
memory, just when every file that was there is one that the new role replaces
(`Concluded.exactly_delivered_iff`).
-/

import Rolewright.Proofs.Conversion.Delivered
import Rolewright.Proofs.Role.Overwritten

namespace Rolewright

/-- Work that is seen to end well. -/
theorem DiskWork.exists_does {α : Type} {work : DiskWork α} {d : Disk}
    (ok : (work.run d).1.toBool = true) : ∃ answer, work.Does d answer (work.run d).2 := by
  cases runs : (work.run d).1 with
  | error failure =>
      rw [runs] at ok
      cases ok
  | ok answer => exact ⟨answer, Prod.ext runs rfl⟩

namespace Concluded

open Delivery Fingerprint

/-- The role that is written for a session: that of its outcome, or one without files. -/
def produced (c : Concluded) : Role :=
  c.outcome.role?.getD .empty

/-- What a delivery makes of a disk. The files of the role replace what was there, the records stand
in their directory, and everything else stays. -/
structure Delivered (c : Concluded) (root : String) (d : Disk) (delivery : Delivery)
    (after : Disk) : Prop where
  further : d.Extends after
  directory : delivery.directory = directoryFor root c.cookbook
  resolves : after.resolve delivery.directory = .ok (d.target delivery.directory)
  start : after.at? (d.target delivery.directory) = some .directory
  /-- No fingerprint is reported of a role without files, and else that of the directory. -/
  silent : c.produced.files = [] → delivery.fingerprint = none
  fingerprint : c.produced.files ≠ [] →
    ∃ text, ofDirectory after delivery.directory = .ok text ∧ delivery.fingerprint = some text
  below : ∀ names, (∀ name, names ≠ [recordDirectory, name]) → ∀ bytes,
    after.at? (d.target delivery.directory ++ names) = some (.file bytes) ↔
      (names, bytes) ∈ c.produced.files.map Role.held ∨
        ¬ Role.Replaces c.produced.files names ∧
          d.at? (d.target delivery.directory ++ names) = some (.file bytes)
  beyond : ∀ q, ¬ d.target delivery.directory <+: q → ∀ bytes,
    after.at? q = some (.file bytes) ↔ d.at? q = some (.file bytes)

variable {c : Concluded} {root : String} {role : Role} {d after : Disk} {delivery : Delivery}

/-- What is reported of the files that were written for a session. -/
theorem reported_of_does {directory : String} {size : Nat}
    (does : (if role.isEmpty = true then do
        let fingerprint ← pure none
        pure ⟨directory, size, fingerprint⟩
      else do
        let fingerprint ← some <$> DiskWork.consult fun d => ofDirectory d directory
        pure ⟨directory, size, fingerprint⟩ : DiskWork Delivery).Does d delivery after) :
    after = d ∧ delivery.directory = directory ∧
      (role.files = [] → delivery.fingerprint = none) ∧
      (role.files ≠ [] → ∃ text, ofDirectory d directory = .ok text ∧
        delivery.fingerprint = some text) := by
  by_cases none : role.files = []
  · have empty : role.isEmpty = true := List.isEmpty_iff.mpr none
    rw [if_pos empty] at does
    cases does
    exact ⟨rfl, rfl, fun _ => rfl, fun some => absurd none some⟩
  · have full : role.isEmpty ≠ true := mt List.isEmpty_iff.mp none
    rw [if_neg full, map_eq_pure_bind] at does
    obtain ⟨_, _, prints, returns⟩ := does.exists_of_bind
    obtain ⟨text, _, consults, wraps⟩ := prints.exists_of_bind
    obtain ⟨printed, rfl⟩ := consults.of_consult
    cases wraps
    cases returns
    exact ⟨rfl, rfl, fun some => absurd some none, fun _ => ⟨text, printed, rfl⟩⟩

/-- Keeping the records of a session changes nothing but files in the directory for records. -/
theorem kept_beside_records {noted : Disk} {directory history events : String} (tree : d.IsTree)
    (replaces : (DiskWork.replace (recordPath directory "history.json") history).Does d () noted)
    (appends : (DiskWork.append (recordPath directory "events.jsonl") events).Does noted () after) :
    d.Extends after ∧ ∀ q, (∀ name, q ≠ d.target directory ++ [recordDirectory, name]) →
      ∀ bytes, after.at? q = some (.file bytes) ↔ d.at? q = some (.file bytes) := by
  obtain ⟨noting, noted⟩ := replaces.of_replace tree
    (isBelow_recordPath directory isOrdinary_history rfl).ends
  obtain ⟨telling, told⟩ := appends.of_append noting.tree
    (isBelow_recordPath directory isOrdinary_events rfl).ends
  simp only [noting.working, Disk.follow_names_below, List.append_assoc, List.singleton_append]
    at noted told
  refine ⟨noting.trans telling, fun q apart bytes => ?_⟩
  rw [told q (apart _), noted]
  simp [apart]

theorem delivered_of_does (tree : d.IsTree) (placed : c.produced.IsPlaced)
    (does : (c.deliver root).Does d delivery after) : c.Delivered root d delivery after := by
  unfold Concluded.deliver at does
  obtain ⟨_, made, makes, does⟩ := does.exists_of_bind
  obtain ⟨_, written, writes, does⟩ := does.exists_of_bind
  obtain ⟨_, noted, replaces, does⟩ := does.exists_of_bind
  obtain ⟨_, told, appends, does⟩ := does.exists_of_bind
  obtain ⟨rfl, same, silent, fingerprint⟩ := reported_of_does does
  rw [← same] at makes writes replaces appends fingerprint
  obtain ⟨making, resolves, start, unchanged⟩ := makes.of_makeDirectories tree
  have writing := Role.rewrites_of_writeFiles making.tree
    (List.forall_mem_map.mp placed.ordinary) c.produced.increasing writes
  obtain ⟨recording, kept⟩ := kept_beside_records writing.further.tree replaces appends
  have later := writing.further.trans recording
  rw [writing.further.target_eq, making.target_eq] at kept
  rw [making.target_eq] at writing
  refine ⟨making.trans later, same, ?_, later.stay _ start, silent, fingerprint, ?_, ?_⟩
  · have leads : made.Leads made.working (Path.components delivery.directory) _ := resolves
    rw [Disk.resolve, later.working]
    exact later.leads leads
  · intro names apart bytes
    have beside (name : String) : d.target delivery.directory ++ names ≠
        d.target delivery.directory ++ [recordDirectory, name] :=
      fun same => apart name (List.append_cancel_left same)
    rw [kept _ beside, writing.below, unchanged]
  · intro q outside bytes
    have beside (name : String) : q ≠ d.target delivery.directory ++ [recordDirectory, name] :=
      fun same => outside (same ▸ List.prefix_append _ _)
    rw [kept q beside, writing.beyond q outside, unchanged]

/-! ## The directory of a role -/

namespace Delivered

/-- What a delivery leaves in the directory of its role: the files of the role, and all earlier ones
that none of these replaces. -/
theorem mem_roleFiles_iff (delivered : c.Delivered root d delivery after) (tree : d.IsTree)
    (placed : c.produced.IsPlaced) {file : List String × List UInt8} :
    file ∈ after.roleFiles delivery.directory ↔
      file ∈ c.produced.files.map Role.held ∨
        ¬ Role.Replaces c.produced.files file.1 ∧ file ∈ d.roleFiles delivery.directory := by
  obtain ⟨names, bytes⟩ := file
  rw [Disk.mem_roleFiles_iff delivered.further.tree, Disk.mem_roleFiles_iff tree,
    delivered.further.target_eq]
  by_cases covered : names ≠ [] ∧ recordDirectory ∉ names.dropLast
  · have apart (name : String) : names ≠ [recordDirectory, name] := by
      rintro rfl
      exact covered.2 (.head _)
    simp only [delivered.below names apart, covered, not_false_eq_true, ne_eq, and_self, true_and]
  · have other : (names, bytes) ∉ c.produced.files.map Role.held := by
      intro member
      obtain ⟨some, unreserved⟩ := placed.of_mem_held member
      exact covered ⟨some, fun inside => unreserved (List.dropLast_subset _ inside)⟩
    simp [covered, other]

/-- The directory holds the files of the role and no others just when the role replaces whatever
file was there. -/
theorem perm_roleFiles_iff (delivered : c.Delivered root d delivery after) (tree : d.IsTree)
    (placed : c.produced.IsPlaced) :
    (after.roleFiles delivery.directory).Perm (c.produced.files.map Role.held) ↔
      ∀ file ∈ d.roleFiles delivery.directory, Role.Replaces c.produced.files file.1 := by
  rw [List.perm_ext_iff_of_nodup (Disk.nodup_roleFiles delivered.further.tree _)
    (Role.nodup_map_held _)]
  simp only [delivered.mem_roleFiles_iff tree placed]
  constructor
  · intro exact file before
    by_contra stays
    exact stays (Role.replaces_of_mem_held ((exact file).mp (.inr ⟨stays, before⟩)))
  · intro all file
    exact ⟨fun there => there.resolve_right fun stale => stale.1 (all file stale.2), .inl⟩

/-- The fingerprint of a directory that holds the files of the role and no others. -/
theorem fingerprint_eq (delivered : c.Delivered root d delivery after)
    (nonempty : c.produced.files ≠ [])
    (perm : (after.roleFiles delivery.directory).Perm (c.produced.files.map Role.held)) :
    delivery.fingerprint = some (ofRole c.produced) := by
  obtain ⟨text, printed, same⟩ := delivered.fingerprint nonempty
  rw [Disk.roleFiles, delivered.further.target_eq] at perm
  rw [Role.ofDirectory_of_perm delivered.resolves delivered.start perm] at printed
  rw [same, Except.ok.inj printed]

end Delivered

/-- Whatever was written before, a delivery leaves the files of its role and no others in the
directory of the role, and reports the fingerprint of the role, just when the role has files and
replaces each file that was there. Every other file stays, and the fingerprint covers it. -/
theorem exactly_delivered_iff (tree : d.IsTree) (made : c.outcome.role? = some role)
    (placed : role.IsPlaced) (does : (c.deliver root).Does d delivery after) :
    (after.roleFiles (directoryFor root c.cookbook)).Perm (role.files.map Role.held) ∧
        delivery.fingerprint = some (ofRole role) ↔
      role.files ≠ [] ∧
        ∀ file ∈ d.roleFiles (directoryFor root c.cookbook), Role.Replaces role.files file.1 := by
  have same : c.produced = role := by rw [produced, made, Option.getD_some]
  rw [← same] at placed ⊢
  have delivered := delivered_of_does tree placed does
  rw [← delivered.directory, delivered.perm_roleFiles_iff tree placed]
  constructor
  · rintro ⟨all, printed⟩
    refine ⟨fun none => ?_, all⟩
    rw [delivered.silent none] at printed
    cases printed
  · rintro ⟨nonempty, all⟩
    have perm := (delivered.perm_roleFiles_iff tree placed).mpr all
    exact ⟨all, delivered.fingerprint_eq nonempty perm⟩

/-- A role of two files of tasks. -/
def widerRole : Role :=
  ⟨[("tasks/main.yml", "- include_tasks: user.yml\n"), ("tasks/user.yml", "- user:\n")], by decide⟩

/-- The same with one of the files. -/
def narrowerRole : Role :=
  ⟨[("tasks/main.yml", "- user:\n")], List.pairwise_singleton _ _⟩

/-- A session that made a role. -/
def converted (cookbook : String) (role : Role) : Concluded :=
  ⟨cookbook, .succeeded role, [], []⟩

theorem delivered_converted {cookbook : String} (tree : d.IsTree) (placed : role.IsPlaced)
    (does : ((converted cookbook role).deliver root).Does d delivery after) :
    (converted cookbook role).Delivered root d delivery after :=
  delivered_of_does (c := converted cookbook role) tree placed does

/-- Three runs, one after the other. -/
theorem exists_deliveries :
    ∃ delivery₁ d₁ delivery₂ d₂ delivery₃ d₃,
      ((converted "web" narrowerRole).deliver "out").Does Disk.empty delivery₁ d₁ ∧
      ((converted "web" widerRole).deliver "out").Does d₁ delivery₂ d₂ ∧
      ((converted "web" narrowerRole).deliver "out").Does d₂ delivery₃ d₃ := by
  have ok : ((do
      let first ← (converted "web" narrowerRole).deliver "out"
      let second ← (converted "web" widerRole).deliver "out"
      let third ← (converted "web" narrowerRole).deliver "out"
      return (first, second, third) : DiskWork _).run Disk.empty).1.toBool = true := by
    decide +kernel
  obtain ⟨_, does⟩ := DiskWork.exists_does ok
  obtain ⟨delivery₁, d₁, first, does⟩ := does.exists_of_bind
  obtain ⟨delivery₂, d₂, second, does⟩ := does.exists_of_bind
  obtain ⟨delivery₃, d₃, third, -⟩ := does.exists_of_bind
  exact ⟨delivery₁, d₁, delivery₂, d₂, delivery₃, d₃, first, second, third⟩

theorem isTree_empty : Disk.empty.IsTree := by decide +kernel

theorem roleFiles_empty (directory : String) : Disk.empty.roleFiles directory = [] := by
  refine List.eq_nil_iff_forall_not_mem.mpr fun file member => ?_
  obtain ⟨names, bytes⟩ := file
  obtain ⟨covered, there⟩ := (Disk.mem_roleFiles_iff isTree_empty).mp member
  rw [Disk.at?_of_ne_nil (by simp [covered])] at there
  cases there

/-- A run over one that left fewer files. -/
theorem exactly_delivered_widerRole :
    ∃ delivery₁ d₁ delivery₂ d₂,
      ((converted "web" narrowerRole).deliver "out").Does Disk.empty delivery₁ d₁ ∧ d₁.IsTree ∧
      (converted "web" widerRole).outcome.role? = some widerRole ∧ widerRole.IsPlaced ∧
      ((converted "web" widerRole).deliver "out").Does d₁ delivery₂ d₂ ∧
      (d₂.roleFiles (directoryFor "out" "web")).Perm (widerRole.files.map Role.held) ∧
      delivery₂.fingerprint = some (ofRole widerRole) := by
  obtain ⟨delivery₁, d₁, delivery₂, d₂, -, -, first, second, -⟩ := exists_deliveries
  have placed : widerRole.IsPlaced := by decide +kernel
  have narrower : narrowerRole.IsPlaced := by decide +kernel
  have delivered := delivered_converted isTree_empty narrower first
  have tree := delivered.further.tree
  refine ⟨delivery₁, d₁, delivery₂, d₂, first, tree, rfl, placed, second,
    (exactly_delivered_iff tree rfl placed second).mpr ⟨List.cons_ne_nil _ _, ?_⟩⟩
  intro file before
  have there : file ∈ d₁.roleFiles delivery₁.directory := delivered.directory ▸ before
  rw [delivered.mem_roleFiles_iff isTree_empty narrower, roleFiles_empty] at there
  rcases there with member | ⟨-, nothing⟩
  · rw [List.mem_singleton.mp member]
    decide +kernel
  · cases nothing

/-- A file of an earlier run stays where a later role does without it. -/
theorem not_exactly_delivered_narrowerRole :
    narrowerRole.IsWellFormed ∧ ∃ delivery₁ d₁ delivery₂ d₂ delivery₃ d₃,
      ((converted "web" narrowerRole).deliver "out").Does Disk.empty delivery₁ d₁ ∧
      ((converted "web" widerRole).deliver "out").Does d₁ delivery₂ d₂ ∧
      ((converted "web" narrowerRole).deliver "out").Does d₂ delivery₃ d₃ ∧
      ¬ ((d₃.roleFiles (directoryFor "out" "web")).Perm (narrowerRole.files.map Role.held) ∧
        delivery₃.fingerprint = some (ofRole narrowerRole)) := by
  obtain ⟨delivery₁, d₁, delivery₂, d₂, delivery₃, d₃, first, second, third⟩ := exists_deliveries
  have narrower : narrowerRole.IsWellFormed := by decide +kernel
  have wider : widerRole.IsPlaced := by decide +kernel
  refine ⟨narrower, delivery₁, d₁, delivery₂, d₂, delivery₃, d₃, first, second, third, ?_⟩
  rintro ⟨exact, -⟩
  have tree := (delivered_converted isTree_empty narrower.isPlaced first).further.tree
  have before := delivered_converted tree wider second
  have after := delivered_converted before.further.tree narrower.isPlaced third
  have stale : Role.held ("tasks/user.yml", "- user:\n") ∈ d₂.roleFiles delivery₂.directory :=
    (before.mem_roleFiles_iff tree wider).mpr (.inl (.tail _ (.head _)))
  have same : delivery₂.directory = delivery₃.directory :=
    before.directory.trans after.directory.symm
  have perm : (d₃.roleFiles delivery₃.directory).Perm (narrowerRole.files.map Role.held) :=
    after.directory ▸ exact
  have replaced := (after.perm_roleFiles_iff before.further.tree narrower.isPlaced).mp perm _
    (same ▸ stale)
  exact absurd replaced (by decide +kernel)

end Concluded

end Rolewright
