/-
# Where the files of an answer lead

The paths in an answer come from a generator and are joined to the directory of a role. What
`Response.refusal?` lets through leads down from there and not to the records of the role, with one
exception: a path that is a single dot is the directory itself. Two paths that are spelled
differently may denote one file, because spellings are kept as they are.

`contained_paths_parse_iff` says exactly when the files of an answer are where they should be.
-/

import Rolewright.Fingerprint.Basic
import Rolewright.Proofs.Path
import Rolewright.Proofs.Role.Answer

namespace Rolewright

open Text

namespace Role

/-- Whether a path leads to a file below the directory of a role that is not one of its records. -/
def IsInside (path : String) : Prop :=
  ∃ names, Path.LeadsDown path names ∧ names.head? ≠ some Fingerprint.recordDirectory

/-- Paths that lead to files of a role, different paths to different files. -/
structure Contained (paths : List String) : Prop where
  inside : ∀ p ∈ paths, IsInside p
  distinct : ∀ p ∈ paths, ∀ q ∈ paths, p ≠ q → Path.steps p ≠ Path.steps q

/-- The directory of a role is not inside the role. -/
theorem not_isInside_here : ¬ IsInside "." := by
  rintro ⟨names, ⟨moves, steps, -⟩, -⟩
  have still : Path.steps "." = [] := by decide +kernel
  rw [still] at steps
  exact moves (List.map_eq_nil_iff.mp steps.symm)

/-- Paths inside a role lead to one file only where they have the same plain spelling. -/
theorem steps_eq_iff_of_isInside {p q : String} (inside : IsInside p) (other : IsInside q) :
    Path.steps p = Path.steps q ↔ Path.plain p = Path.plain q := by
  obtain ⟨names, down, -⟩ := inside
  obtain ⟨others, otherDown, -⟩ := other
  refine ⟨congrArg Path.ofComponents, fun same => ?_⟩
  rw [down.steps, otherDown.steps, Path.eq_of_plain_eq down otherDown same]

/-- The paths after an insertion. -/
theorem mem_paths_insert {role : Role} {path content p : String}
    (member : p ∈ (role.insert path content).paths) : p = path ∨ p ∈ role.paths := by
  obtain ⟨file, placed, rfl⟩ := List.mem_map.mp member
  exact (mem_place placed).imp id fun before => List.mem_map.mpr ⟨file, before, rfl⟩

theorem mem_paths_insertMissing {role : Role} {path content p : String}
    (member : p ∈ (role.insertMissing path content).paths) : p = path ∨ p ∈ role.paths := by
  unfold insertMissing at member
  split at member
  · exact .inr member
  · exact mem_paths_insert member

end Role

namespace Response

/-! ## Paths that blocks name -/

/-- No reference to the current directory is left in front of a path. -/
theorem withoutHere_ne (cs rest : List Char) : withoutHere cs ≠ '.' :: '/' :: rest := by
  fun_induction withoutHere cs with
  | case1 cs ih => exact ih
  | case2 cs other => exact fun same => other rest same

/-- What is known of a path that is not refused. -/
theorem of_refusal?_eq_none {path : String} (accepted : refusal? path = none) :
    path ≠ "" ∧ Path.isAbsolute path = false ∧ .parent ∉ Path.components path ∧
      ¬ ".cookport".toList <+: path.toList := by
  unfold refusal? at accepted
  split at accepted
  · cases accepted
  rename_i nonempty
  split at accepted
  · cases accepted
  rename_i relative
  split at accepted
  · cases accepted
  rename_i noParent
  split at accepted
  · cases accepted
  rename_i unreserved
  simp only [String.isEmpty_iff] at nonempty
  simp only [Bool.or_eq_true, not_or, Bool.not_eq_true] at relative
  simp only [List.contains_iff_mem] at noParent
  simp only [List.isPrefixOf_iff_prefix] at unreserved
  exact ⟨nonempty, relative.1, noParent, unreserved⟩

/-- A path that starts with a single dot is that dot or a reference to the current directory. -/
theorem eq_here_of_head?_pieces {path : String}
    (here : (Path.pieces path.toList).head? = some ['.']) :
    path = "." ∨ ∃ rest, path.toList = '.' :: '/' :: rest := by
  obtain ⟨others, split⟩ := Path.exists_pieces_eq path.toList
  rw [split, List.head?_cons] at here
  have start := Option.some.inj here
  have whole := List.takeWhile_append_dropWhile (p := (· ≠ '/')) (l := path.toList)
  rw [start] at whole
  cases after : path.toList.dropWhile (· ≠ '/') with
  | nil =>
      rw [after] at whole
      exact .inl (String.toList_inj.mp whole.symm)
  | cons c rest =>
      have slash : c = '/' := by
        have stops := List.head?_dropWhile_not (· ≠ '/') path.toList
        rw [after] at stops
        simpa using stops
      rw [after, slash] at whole
      exact .inr ⟨rest, whole.symm⟩

/-- A path that is not refused leads into the role, or is its directory. -/
theorem isInside_of_refusal? {path : String} (accepted : refusal? path = none)
    (trimmed : ∀ rest, path.toList ≠ '.' :: '/' :: rest) : path = "." ∨ Role.IsInside path := by
  obtain ⟨nonempty, relative, noParent, unreserved⟩ := of_refusal?_eq_none accepted
  by_cases here : (Path.pieces path.toList).head? = some ['.']
  · rcases eq_here_of_head?_pieces here with dot | ⟨rest, spelled⟩
    · exact .inl dot
    · exact absurd spelled (trimmed rest)
  · obtain ⟨names, down, first⟩ := Path.exists_leadsDown nonempty relative here noParent
    refine .inr ⟨names, down, ?_⟩
    intro record
    rw [record] at first
    apply unreserved
    rw [show ".cookport".toList = path.toList.takeWhile (· ≠ '/') from Option.some.inj first]
    exact List.takeWhile_prefix _

/-! ## Paths of sections -/

/-- The character that a letter of a heading counts as. -/
def folded (c : Char) : Char :=
  if c.toNat == 0x17F then 's' else if c.toNat == 0x212A then 'k' else c.toLower

theorem afterWord?_cons (w c : Char) (word cs : List Char) :
    afterWord? (w :: word) (c :: cs) =
      if folded c == w then afterWord? word cs else none := rfl

/-- A word is matched by as many characters, each counting as a letter of it. -/
theorem of_afterWord? {word cs rest : List Char} (found : afterWord? word cs = some rest) :
    word.length ≤ cs.length ∧ ∀ c ∈ cs.take word.length, folded c ∈ word := by
  induction word generalizing cs with
  | nil => exact ⟨Nat.zero_le _, by simp⟩
  | cons w word ih =>
      cases cs with
      | nil => cases found
      | cons c cs =>
          rw [afterWord?_cons] at found
          split at found
          · rename_i same
            obtain ⟨enough, letters⟩ := ih found
            refine ⟨Nat.succ_le_succ enough, ?_⟩
            rw [List.length_cons, List.take_succ_cons]
            refine List.forall_mem_cons.mpr ⟨?_, ?_⟩
            · rw [show folded c = w from beq_iff_eq.mp same]
              exact .head _
            · intro other member
              exact .tail _ (letters other member)
          · cases found

/-- Only ASCII letters have a lower-case ASCII letter. -/
theorem lt_of_isLower_toLower {c : Char} (letter : c.toLower.isLower = true) : c.toNat < 128 := by
  unfold Char.toLower at letter
  split at letter
  · rename_i upper
    exact Nat.lt_of_le_of_lt (UInt32.le_iff_toNat_le.mp upper.2) (by decide)
  · have bounds := (Bool.and_eq_true _ _).mp letter
    have below : c.val ≤ 'z'.val := of_decide_eq_true bounds.2
    exact Nat.lt_of_le_of_lt (UInt32.le_iff_toNat_le.mp below) (by decide)

/-- A letter of a heading stays one letter in lower case. -/
theorem exists_lowerChar_eq {c : Char} (letter : (folded c).isLower = true) :
    ∃ l, lowerChar c = [l] ∧ l ≠ '/' ∧ l ≠ '.' := by
  by_cases longS : c = Char.ofNat 0x17F
  · subst longS
    exact ⟨Char.ofNat 0x17F, by decide +kernel⟩
  by_cases kelvin : c = Char.ofNat 0x212A
  · subst kelvin
    exact ⟨'k', by decide +kernel⟩
  have same : folded c = c.toLower := by
    have notLongS : c.toNat ≠ 0x17F := fun code => longS (by rw [← code, Char.ofNat_toNat])
    have notKelvin : c.toNat ≠ 0x212A := fun code => kelvin (by rw [← code, Char.ofNat_toNat])
    simp [folded, notLongS, notKelvin]
  rw [same] at letter
  have ascii : c.toNat < 128 := lt_of_isLower_toLower letter
  refine ⟨c.toLower, if_pos ascii, ?_, ?_⟩
  · intro slash
    rw [slash] at letter
    cases letter
  · intro dot
    rw [dot] at letter
    cases letter

/-- Lower case keeps the number of letters, and makes no slashes or dots, where it does so for each
character alone. -/
theorem of_lowerAfter {cs : List Char} (before : List Char)
    (letters : ∀ c ∈ cs, ∃ l, lowerChar c = [l] ∧ l ≠ '/' ∧ l ≠ '.') :
    (lowerAfter before cs).length = cs.length ∧
      ∀ l ∈ lowerAfter before cs, l ≠ '/' ∧ l ≠ '.' := by
  induction cs generalizing before with
  | nil => exact ⟨rfl, nofun⟩
  | cons c cs ih =>
      obtain ⟨⟨l, lowered, noSlash, noDot⟩, others⟩ := List.forall_mem_cons.mp letters
      obtain ⟨length, plain⟩ := ih (c :: before) others
      have single : ∃ l, lowerAfter before (c :: cs) = l :: lowerAfter (c :: before) cs ∧
          l ≠ '/' ∧ l ≠ '.' := by
        rw [lowerAfter]
        split
        · split
          · exact ⟨'ς', rfl, by decide⟩
          · exact ⟨'σ', rfl, by decide⟩
        · exact ⟨l, by rw [lowered]; rfl, noSlash, noDot⟩
      obtain ⟨first, spelled, apart⟩ := single
      rw [spelled]
      refine ⟨by rw [List.length_cons, List.length_cons, length], ?_⟩
      exact List.forall_mem_cons.mpr ⟨apart, plain⟩

theorem of_mem_sections {word : String} (known : word ∈ sections) :
    word.toList ≠ [] ∧ ∀ c ∈ word.toList, c.isLower = true := by
  simp only [sections, List.mem_cons, List.not_mem_nil, or_false] at known
  rcases known with rfl | rfl | rfl | rfl
  all_goals simp

/-- A heading names a section by as many letters as the section has. -/
theorem exists_section_of_heading? {row name : List Char} (found : heading? row = some name) :
    ∃ word ∈ sections, name.length = word.toList.length ∧ ∀ c ∈ name, folded c ∈ word.toList := by
  unfold heading? at found
  dsimp only at found
  split at found
  · cases found
  obtain ⟨word, known, matched⟩ := List.exists_of_findSome?_eq_some found
  split at matched
  · rename_i rest word?
    split at matched
    · obtain ⟨enough, letters⟩ := of_afterWord? word?
      obtain rfl := Option.some.inj matched
      exact ⟨word, known, List.length_take_of_le enough, letters⟩
    · cases matched
  · cases matched

/-- The section that a heading names is a word without slashes and dots. -/
theorem lower_of_heading? {row name : List Char} (found : heading? row = some name) :
    lower name ≠ [] ∧ ∀ l ∈ lower name, l ≠ '/' ∧ l ≠ '.' := by
  obtain ⟨word, known, length, letters⟩ := exists_section_of_heading? found
  obtain ⟨nonempty, small⟩ := of_mem_sections known
  obtain ⟨same, apart⟩ := of_lowerAfter [] fun c member =>
    exists_lowerChar_eq (small _ (letters c member))
  refine ⟨?_, apart⟩
  intro none
  rw [← lower, none, length] at same
  exact nonempty (List.length_eq_zero_iff.mp same.symm)

/-- The main file of a section is inside the role. -/
theorem isInside_main {row name : List Char} (found : heading? row = some name) :
    Role.IsInside (String.ofList (lower name ++ "/main.yml".toList)) := by
  obtain ⟨nonempty, apart⟩ := lower_of_heading? found
  have differs {text : String} (other : lower name ≠ text.toList) :
      String.ofList (lower name) ≠ text := by
    intro same
    exact other (by rw [← same, String.toList_ofList])
  have noDot {rest : List Char} : lower name ≠ '.' :: rest := by
    intro same
    exact (apart '.' (same ▸ .head _)).2 rfl
  have directory : Path.IsOrdinary (String.ofList (lower name)) :=
    { nonempty := differs nonempty
      notHere := differs noDot
      notParent := differs noDot
      noSlash := by
        rw [String.toList_ofList]
        exact fun slash => (apart '/' slash).1 rfl }
  have file : Path.IsOrdinary "main.yml" := ⟨by decide, by decide, by decide, by decide⟩
  have down := Path.leadsDown_ofComponents (List.cons_ne_nil (String.ofList (lower name))
    ["main.yml"]) (by simp [directory, file])
  have spelled : Path.ofComponents
      ([String.ofList (lower name), "main.yml"].map Component.name) =
        String.ofList (lower name ++ "/main.yml".toList) := by
    rw [← String.toList_inj, String.toList_ofList, Path.ofComponents, String.toList_intercalate]
    simp [Component.text]
  have notRecord : String.ofList (lower name) ≠ Fingerprint.recordDirectory := differs noDot
  rw [spelled] at down
  exact ⟨_, down, fun record => notRecord (Option.some.inj record)⟩

/-- Every section that a response takes stands under a heading. -/
theorem exists_heading_of_mem_sectionBlocks {rows : List (List Char)}
    {block : List Char × String} (member : block ∈ sectionBlocks rows) :
    ∃ row name, heading? row = some name ∧ block.1 = lower name ++ "/main.yml".toList := by
  fun_induction sectionBlocks rows with
  | case1 => cases member
  | case2 row rest none ih => exact ih member
  | case3 row rest name found none ih => exact ih member
  | case4 row rest name found body after taken ih =>
      rcases List.mem_cons.mp member with rfl | later
      · exact ⟨row, name, found, rfl⟩
      · exact ih later

/-! ## All paths -/

/-- A block adds a path only where it is not refused. -/
theorem isInside_add {r : Response} {block : List Char × String}
    (inside : ∀ p ∈ r.role.paths, p = "." ∨ Role.IsInside p) :
    ∀ p ∈ (add r block).role.paths, p = "." ∨ Role.IsInside p := by
  intro p member
  unfold add at member
  dsimp only at member
  split at member
  · exact inside p member
  · rename_i accepted
    rcases Role.mem_paths_insert member with rfl | before
    · apply isInside_of_refusal? accepted
      intro rest
      rw [String.toList_ofList]
      exact withoutHere_ne _ rest
    · exact inside p before

theorem isInside_named (text : List Char) :
    ∀ p ∈ (named text).role.paths, p = "." ∨ Role.IsInside p := by
  unfold named
  refine List.foldlRecOn
    (motive := fun r => ∀ p ∈ r.role.paths, p = "." ∨ Role.IsInside p) _ add ?_ ?_
  · intro p member
    cases member
  · intro r inside block _
    exact isInside_add inside

/-- Every path in an answer leads into the role, or is its directory. -/
theorem isInside_of_mem_paths {text : List Char} {p : String}
    (member : p ∈ (parse text).role.paths) : p = "." ∨ Role.IsInside p := by
  rw [role_parse] at member
  unfold found at member
  split at member
  · refine List.foldlRecOn
      (motive := fun role => ∀ p ∈ Role.paths role, p = "." ∨ Role.IsInside p) _ _
      (isInside_named text) ?_ p member
    intro role inside block section_ p member
    rcases Role.mem_paths_insertMissing member with rfl | before
    · obtain ⟨row, name, found, spelled⟩ := exists_heading_of_mem_sectionBlocks section_
      rw [spelled]
      exact .inr (isInside_main found)
    · exact inside p before
  · exact isInside_named text p member

/-- The files of an answer are where they should be exactly when none is the directory of the role
itself and no two have the same plain spelling. -/
theorem contained_paths_parse_iff (text : List Char) :
    Role.Contained (parse text).role.paths ↔
      "." ∉ (parse text).role.paths ∧
        ∀ p ∈ (parse text).role.paths, ∀ q ∈ (parse text).role.paths,
          Path.plain p = Path.plain q → p = q := by
  constructor
  · rintro ⟨inside, distinct⟩
    refine ⟨fun here => Role.not_isInside_here (inside _ here), ?_⟩
    intro p first q second same
    by_cases equal : p = q
    · exact equal
    · have steps := (Role.steps_eq_iff_of_isInside (inside p first) (inside q second)).mpr same
      exact absurd steps (distinct p first q second equal)
  · rintro ⟨noHere, plain⟩
    constructor
    · intro p member
      rcases isInside_of_mem_paths member with rfl | inside
      · exact absurd member noHere
      · exact inside
    · intro p first q second different steps
      exact different (plain p first q second (congrArg Path.ofComponents steps))

/-- A block whose path is a single dot is taken for a file, and so are two blocks whose paths differ
by a slash. -/
theorem not_contained_paths_parse :
    ¬ Role.Contained
        (parse "\x60\x60\x60yaml path=.\nx: 1\n\x60\x60\x60".toList).role.paths ∧
      ¬ Role.Contained
        (parse ("\x60\x60\x60yaml path=tasks/main.yml\n- debug:\n\x60\x60\x60\n" ++
          "\x60\x60\x60yaml path=tasks//main.yml\n- ping:\n\x60\x60\x60").toList).role.paths := by
  constructor
  · rintro ⟨inside, -⟩
    exact Role.not_isInside_here (inside "." (by decide +kernel))
  · rintro ⟨-, distinct⟩
    exact distinct "tasks/main.yml" (by decide +kernel) "tasks//main.yml" (by decide +kernel)
      (by decide) (by decide +kernel)

end Response

end Rolewright
