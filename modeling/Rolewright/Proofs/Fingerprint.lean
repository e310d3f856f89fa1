/-
# What a fingerprint goes over

The fingerprint of a role goes over the path of each file and the fingerprint of its content, one
after the other and without their lengths. Their ends are found all the same: a path ends at the
first zero byte, and a fingerprint, which is written on one line, at the first line break. What an
entry adds is so told apart from all that follows it (`row_append_inj`), and the bytes say which
entries they come from (`injOn_listing`), even where a path has line breaks and what looks like a
fingerprint. Where different contents have different fingerprints, the bytes say which role it is
(`role_eq_of_coverage_eq`).
-/

import Mathlib.Data.Set.Function
import Rolewright.Fingerprint.Basic
import Rolewright.Proofs.Role.Files
import Rolewright.Proofs.Text.Parts
import Rolewright.Proofs.Text.Utf8

namespace Rolewright.Fingerprint

variable {first second : Role} {entry other : String × String}

/-! ## Fingerprints -/

theorem digitChar_ne_lineBreak {n : Nat} (digit : n < 16) : Nat.digitChar n ≠ '\n' :=
  (by decide : ∀ n < 16, Nat.digitChar n ≠ '\n') n digit

/-- A fingerprint is written on one line. -/
theorem lineBreak_not_mem_ofBytes (bytes : List UInt8) : '\n' ∉ (ofBytes bytes).toList := by
  rw [ofBytes, hexadecimal, String.toList_append, List.mem_append]
  rintro (inMark | inDigits)
  · exact absurd inMark (by decide)
  · rw [String.toList_ofList] at inDigits
    obtain ⟨byte, -, digit⟩ := List.mem_flatMap.mp inDigits
    have small : byte.toNat < 256 := byte.toNat_lt
    simp only [List.mem_cons, List.not_mem_nil, or_false] at digit
    rcases digit with high | low
    · exact digitChar_ne_lineBreak (by omega) high.symm
    · exact digitChar_ne_lineBreak (by omega) low.symm

/-! ## Entries -/

/-- What an entry adds to a listing. -/
def row (entry : String × String) : List UInt8 :=
  Text.encode entry.1.toList ++ [0] ++ Text.encode entry.2.toList ++ [10]

theorem listing_cons (entry : String × String) (entries : List (String × String)) :
    listing (entry :: entries) = row entry ++ listing entries :=
  List.flatMap_cons

theorem row_append (entry : String × String) (rest : List UInt8) :
    row entry ++ rest =
      Text.encode entry.1.toList ++ 0 :: (Text.encode entry.2.toList ++ 10 :: rest) := by
  simp [row]

/-- An entry of which no part holds what ends it. -/
structure IsReadable (entry : String × String) : Prop where
  path : '\x00' ∉ entry.1.toList
  fingerprint : '\n' ∉ entry.2.toList

namespace IsReadable

theorem zero_not_mem (readable : IsReadable entry) : 0 ∉ Text.encode entry.1.toList :=
  fun member => readable.path (Text.mem_of_mem_encode (by decide) member)

theorem ten_not_mem (readable : IsReadable entry) : 10 ∉ Text.encode entry.2.toList :=
  fun member => readable.fingerprint (Text.mem_of_mem_encode (by decide) member)

end IsReadable

/-- An entry is told apart from what follows it. -/
theorem row_append_inj {rest rest' : List UInt8} (readable : IsReadable entry)
    (readable' : IsReadable other) (same : row entry ++ rest = row other ++ rest') :
    entry = other ∧ rest = rest' := by
  rw [row_append, row_append] at same
  obtain ⟨paths, behind⟩ :=
    Text.append_cons_inj_of_not_mem readable.zero_not_mem readable'.zero_not_mem same
  obtain ⟨fingerprints, rests⟩ :=
    Text.append_cons_inj_of_not_mem readable.ten_not_mem readable'.ten_not_mem behind
  refine ⟨Prod.ext ?_ ?_, rests⟩
  · exact String.toList_inj.mp (Text.encode_injective paths)
  · exact String.toList_inj.mp (Text.encode_injective fingerprints)

theorem row_ne_nil (entry : String × String) : row entry ≠ [] := by
  simp [row]

/-- The entries of a listing are told apart. -/
theorem injOn_listing : Set.InjOn listing {entries | ∀ entry ∈ entries, IsReadable entry} := by
  intro entries readable others readable' same
  induction entries generalizing others with
  | nil =>
      cases others with
      | nil => rfl
      | cons other others =>
          exact absurd same.symm (List.append_ne_nil_of_left_ne_nil (row_ne_nil other) _)
  | cons entry entries ih =>
      cases others with
      | nil => exact absurd same (List.append_ne_nil_of_left_ne_nil (row_ne_nil entry) _)
      | cons other others =>
          obtain ⟨here, later⟩ := List.forall_mem_cons.mp readable
          obtain ⟨here', later'⟩ := List.forall_mem_cons.mp readable'
          rw [listing_cons, listing_cons] at same
          obtain ⟨rfl, rest⟩ := row_append_inj here here' same
          rw [ih later later' rest]

/-! ## Roles -/

theorem isReadable_of_mem_entriesOf {files : List (String × String)}
    (plain : ∀ path ∈ files.map (·.1), '\x00' ∉ path.toList) :
    ∀ entry ∈ entriesOf files, IsReadable entry := by
  intro entry member
  obtain ⟨⟨path, content⟩, inside, rfl⟩ := List.mem_map.mp member
  exact ⟨plain path (List.mem_map_of_mem inside), lineBreak_not_mem_ofBytes _⟩

/-- Entries tell files apart whose contents have different fingerprints. -/
theorem injOn_entriesOf {contents : Set String} (apart : Set.InjOn ofText contents) :
    Set.InjOn entriesOf {files | ∀ file ∈ files, file.2 ∈ contents} := by
  intro files among others among' same
  induction files generalizing others with
  | nil => exact (List.map_eq_nil_iff.mp same.symm).symm
  | cons file files ih =>
      cases others with
      | nil => cases same
      | cons other others =>
          obtain ⟨here, later⟩ := List.forall_mem_cons.mp among
          obtain ⟨here', later'⟩ := List.forall_mem_cons.mp among'
          obtain ⟨pair, rest⟩ := List.cons.inj same
          obtain ⟨path, fingerprint⟩ := Prod.mk.inj pair
          rw [Prod.ext path (apart here here' fingerprint), ih later later' rest]

/-- The contents of the files, in the order of their paths. -/
def contents (role : Role) : List String :=
  role.files.map (·.2)

/-- Roles without a zero in their paths are the same if their fingerprints go over the same bytes,
as long as no two of their contents have one fingerprint. -/
theorem role_eq_of_coverage_eq (plain : ∀ path ∈ first.paths, '\x00' ∉ path.toList)
    (plain' : ∀ path ∈ second.paths, '\x00' ∉ path.toList)
    (apart : Set.InjOn ofText
      {content | content ∈ contents first ∨ content ∈ contents second})
    (same : coverage first = coverage second) : first = second := by
  have entries : entriesOf first.files = entriesOf second.files :=
    injOn_listing (isReadable_of_mem_entriesOf plain) (isReadable_of_mem_entriesOf plain') same
  have files : first.files = second.files :=
    injOn_entriesOf apart (fun _ member => .inl (List.mem_map_of_mem member))
      (fun _ member => .inr (List.mem_map_of_mem member)) entries
  exact Role.eq_of_files_eq files

/-- Files of which one has a path that goes on, after that of the other, with line breaks and what
looks like a fingerprint. -/
def deceptiveFiles : List (String × String) :=
  [("tasks/main.yml\nblake3:00\nmeta/main.yml", "- name: é\n"), ("tasks/main.yml", "- name: a\n")]

theorem role_eq_of_coverage_eq_reversed :
    (∀ path ∈ (Role.ofList deceptiveFiles).paths, '\x00' ∉ path.toList) ∧
      (∀ path ∈ (Role.ofList deceptiveFiles.reverse).paths, '\x00' ∉ path.toList) ∧
      Set.InjOn ofText {content | content ∈ contents (.ofList deceptiveFiles) ∨
        content ∈ contents (.ofList deceptiveFiles.reverse)} ∧
      coverage (.ofList deceptiveFiles) = coverage (.ofList deceptiveFiles.reverse) ∧
      Role.ofList deceptiveFiles = Role.ofList deceptiveFiles.reverse := by
  have plain : ∀ path ∈ (Role.ofList deceptiveFiles).paths, '\x00' ∉ path.toList := by
    decide +kernel
  have plain' : ∀ path ∈ (Role.ofList deceptiveFiles.reverse).paths, '\x00' ∉ path.toList := by
    decide +kernel
  have known : ∀ content ∈ contents (.ofList deceptiveFiles) ++
      contents (.ofList deceptiveFiles.reverse), content ∈ deceptiveFiles.map (·.2) := by
    decide +kernel
  have differ : ((deceptiveFiles.map (·.2)).map ofText).Nodup := by
    decide +kernel
  have apart : Set.InjOn ofText {content | content ∈ contents (.ofList deceptiveFiles) ∨
      content ∈ contents (.ofList deceptiveFiles.reverse)} := fun content member other member' =>
    List.inj_on_of_nodup_map differ (known content (List.mem_append.mpr member))
      (known other (List.mem_append.mpr member'))
  have files : (Role.ofList deceptiveFiles).files = (Role.ofList deceptiveFiles.reverse).files := by
    decide +kernel
  have same : coverage (.ofList deceptiveFiles) = coverage (.ofList deceptiveFiles.reverse) :=
    congrArg (fun files => listing (entriesOf files)) files
  exact ⟨plain, plain', apart, same, role_eq_of_coverage_eq plain plain' apart same⟩

end Rolewright.Fingerprint
