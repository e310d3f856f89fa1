/-
# The places of tasks

A finding names the place of its task: the path of a file, the number of an item in the list there,
and for each step into a block a section and a number in that. The number of a list starts with one.
Such a text is read in one way only, since no section and no number has the letters in which the
path of a file ends (`taskPlace_inj`), and it is neither the place of a whole file nor that of a
line (`taskPlace_ne_path`, `taskPlace_ne_line`).
-/

import Rolewright.Check.Tasks
import Rolewright.Proofs.Text.Parts

namespace Rolewright.Check

open Text

/-! ## Numbers -/

/-- The numbers in places are written with digits only. -/
theorem isDigit_of_mem {n : Nat} {c : Char} (member : c ∈ Nat.toDigits 10 n) : c.isDigit = true :=
  Nat.isDigit_of_mem_toDigits (by decide) (by decide) member

theorem toDigits_inj {m n : Nat} (same : Nat.toDigits 10 m = Nat.toDigits 10 n) : m = n := by
  have read := congrArg (Nat.ofDigitChars 10 · 0) same
  rwa [Nat.ofDigitChars_ten_toDigits, Nat.ofDigitChars_ten_toDigits] at read

theorem toList_numbered (place : String) (index : Nat) :
    (numbered place index).toList = place.toList ++ '#' :: Nat.toDigits 10 (index + 1) := by
  simp [numbered, String.toList_append]

/-! ## Places -/

/-- The text of steps into blocks: each a section, and the number of an item in the list there,
counted from zero. -/
def stepsText : List (String × Nat) → String
  | [] => ""
  | (name, index) :: steps => numbered ("/" ++ name) index ++ stepsText steps

/-- The place of a task: an item of the list in a file, and steps from there. -/
def taskPlace (path : String) (index : Nat) (steps : List (String × Nat)) : String :=
  numbered path index ++ stepsText steps

/-- Steps into the sections of blocks. -/
def AreSteps (steps : List (String × Nat)) : Prop :=
  ∀ step ∈ steps, step.1 ∈ blockSections

theorem toList_stepsText_cons (name : String) (index : Nat) (steps : List (String × Nat)) :
    (stepsText ((name, index) :: steps)).toList =
      '/' :: (name.toList ++ '#' :: (Nat.toDigits 10 (index + 1) ++ (stepsText steps).toList)) := by
  simp [stepsText, String.toList_append, toList_numbered]

theorem toList_taskPlace (path : String) (index : Nat) (steps : List (String × Nat)) :
    (taskPlace path index steps).toList =
      path.toList ++ '#' :: (Nat.toDigits 10 (index + 1) ++ (stepsText steps).toList) := by
  simp [taskPlace, String.toList_append, toList_numbered]

/-- After a number no digit follows. -/
theorem isDigit_of_mem_head?_stepsText {steps : List (String × Nat)} {c : Char}
    (first : c ∈ (stepsText steps).toList.head?) : c.isDigit = false := by
  cases steps with
  | nil => cases first
  | cons step steps =>
      rw [toList_stepsText_cons] at first
      cases first
      rfl

theorem numbers_inj {m n : Nat} {steps steps' : List (String × Nat)}
    (same : Nat.toDigits 10 m ++ (stepsText steps).toList =
      Nat.toDigits 10 n ++ (stepsText steps').toList) :
    m = n ∧ (stepsText steps).toList = (stepsText steps').toList := by
  obtain ⟨digits, rest⟩ := append_inj_of_all (p := Char.isDigit) (fun _ => isDigit_of_mem)
    (fun _ => isDigit_of_mem) (fun _ => isDigit_of_mem_head?_stepsText)
    (fun _ => isDigit_of_mem_head?_stepsText) same
  exact ⟨toDigits_inj digits, rest⟩

/-- No section has the mark of a number, nor all the letters in which the path of a YAML file
ends. -/
theorem plain_of_mem_blockSections {name : String} (isSection : name ∈ blockSections) {c : Char}
    (member : c ∈ name.toList) : (c != '#') = true ∧ c ≠ 'm' := by
  have plain : (blockSections.all fun name => name.toList.all fun c => c != '#' && c != 'm') =
      true := by
    decide +kernel
  have both := List.all_eq_true.mp (List.all_eq_true.mp plain name isSection) c member
  exact ⟨((Bool.and_eq_true _ _).mp both).1, bne_iff_ne.mp ((Bool.and_eq_true _ _).mp both).2⟩

/-- Steps are read off their text. -/
theorem stepsText_inj {steps steps' : List (String × Nat)} (areSteps : AreSteps steps)
    (areSteps' : AreSteps steps')
    (same : (stepsText steps).toList = (stepsText steps').toList) : steps = steps' := by
  have unmarked (name : String) (isSection : name ∈ blockSections) :
      ∀ c ∈ name.toList, (c != '#') = true :=
    fun _ member => (plain_of_mem_blockSections isSection member).1
  induction steps generalizing steps' with
  | nil =>
      cases steps' with
      | nil => rfl
      | cons step steps' =>
          rw [toList_stepsText_cons] at same
          cases same
  | cons step steps ih =>
      cases steps' with
      | nil =>
          rw [toList_stepsText_cons] at same
          cases same
      | cons step' steps' =>
          obtain ⟨isSection, areSteps⟩ := List.forall_mem_cons.mp areSteps
          obtain ⟨isSection', areSteps'⟩ := List.forall_mem_cons.mp areSteps'
          rw [toList_stepsText_cons, toList_stepsText_cons] at same
          obtain ⟨names, rest⟩ := append_inj_of_all (p := (· != '#')) (unmarked _ isSection)
            (unmarked _ isSection') (by simp) (by simp) (List.cons.inj same).2
          obtain ⟨numbers, rest⟩ := numbers_inj (List.cons.inj rest).2
          rw [ih areSteps areSteps' rest, Prod.ext (String.toList_inj.mp names)
            (Nat.succ.inj numbers)]

/-- The path of a YAML file ends in letters that no number and no section ends in. -/
theorem exists_stem_of_isYamlFile {path : String} (yaml : isYamlFile path = true) :
    ∃ stem, path.toList = (stem ++ ['m']) ++ ['l'] := by
  rcases (Bool.or_eq_true _ _).mp yaml with short | long
  · obtain ⟨stem, split⟩ := List.isSuffixOf_iff_suffix.mp short
    exact ⟨stem ++ ".y".toList, by rw [← split, List.append_assoc, List.append_assoc]; rfl⟩
  · obtain ⟨stem, split⟩ := List.isSuffixOf_iff_suffix.mp long
    exact ⟨stem ++ ".ya".toList, by rw [← split, List.append_assoc, List.append_assoc]; rfl⟩

/-- What follows the path in a place has not all of these letters. -/
theorem ne_of_mem_stepsText {steps : List (String × Nat)} (areSteps : AreSteps steps) {c : Char}
    (member : c ∈ (stepsText steps).toList) : c ≠ 'm' := by
  induction steps with
  | nil => cases member
  | cons step steps ih =>
      obtain ⟨isSection, areSteps⟩ := List.forall_mem_cons.mp areSteps
      rw [toList_stepsText_cons] at member
      simp only [List.mem_cons, List.mem_append] at member
      rcases member with rfl | name | rfl | digit | later
      · decide
      · exact (plain_of_mem_blockSections isSection name).2
      · decide
      · rintro rfl
        cases isDigit_of_mem digit
      · exact ih areSteps later

/-- A place tells the file, the item and the steps. -/
theorem taskPlace_inj {path path' : String} {index index' : Nat}
    {steps steps' : List (String × Nat)} (yaml : isYamlFile path = true)
    (yaml' : isYamlFile path' = true) (areSteps : AreSteps steps) (areSteps' : AreSteps steps')
    (same : taskPlace path index steps = taskPlace path' index' steps') :
    path = path' ∧ index = index' ∧ steps = steps' := by
  obtain ⟨stem, split⟩ := exists_stem_of_isYamlFile yaml
  obtain ⟨stem', split'⟩ := exists_stem_of_isYamlFile yaml'
  have plain {steps : List (String × Nat)} (areSteps : AreSteps steps) (index : Nat) :
      ∀ c ∈ ['l'] ++ '#' :: (Nat.toDigits 10 (index + 1) ++ (stepsText steps).toList),
        (c != 'm') = true := by
    intro c member
    simp only [List.mem_append, List.mem_cons, List.not_mem_nil, or_false] at member
    rw [bne_iff_ne]
    rcases member with rfl | rfl | digit | step
    · decide
    · decide
    · rintro rfl
      cases isDigit_of_mem digit
    · exact ne_of_mem_stepsText areSteps step
  have same := congrArg String.toList same
  rw [toList_taskPlace, toList_taskPlace, split, split', List.append_assoc _ ['l'],
    List.append_assoc _ ['l']] at same
  obtain ⟨stems, tails⟩ := append_inj_of_all_last (p := (· != 'm')) (plain areSteps index)
    (plain areSteps' index') (by simp) (by simp) same
  obtain ⟨numbers, rest⟩ := numbers_inj (List.cons.inj (List.cons.inj tails).2).2
  refine ⟨String.toList_inj.mp ?_, Nat.succ.inj numbers, stepsText_inj areSteps areSteps' rest⟩
  rw [split, split', stems]

/-! ## Other places -/

/-- A place ends in a number with its mark. -/
theorem exists_toList_taskPlace (path : String) (index : Nat) (steps : List (String × Nat)) :
    ∃ before number, (taskPlace path index steps).toList =
      (before ++ ['#']) ++ Nat.toDigits 10 number := by
  have ends (before : List Char) (number : Nat) : ∃ before' number',
      before ++ '#' :: (Nat.toDigits 10 number ++ (stepsText steps).toList) =
        (before' ++ ['#']) ++ Nat.toDigits 10 number' := by
    induction steps generalizing before number with
    | nil => exact ⟨before, number, by simp [stepsText]⟩
    | cons step steps ih =>
        obtain ⟨before', number', split⟩ :=
          ih (before ++ '#' :: (Nat.toDigits 10 number ++ '/' :: step.1.toList)) (step.2 + 1)
        refine ⟨before', number', ?_⟩
        rw [← split, toList_stepsText_cons]
        simp only [List.append_assoc, List.cons_append]
  rw [toList_taskPlace]
  exact ends path.toList (index + 1)

/-- The place of a task is not that of a file. -/
theorem taskPlace_ne_path {path other : String} {index : Nat} {steps : List (String × Nat)}
    (yaml : isYamlFile other = true) : taskPlace path index steps ≠ other := by
  intro same
  obtain ⟨before, number, split⟩ := exists_toList_taskPlace path index steps
  obtain ⟨stem, ends⟩ := exists_stem_of_isYamlFile yaml
  rw [same, ends, ← List.append_nil ((stem ++ ['m']) ++ ['l'])] at split
  obtain ⟨-, none⟩ := append_inj_of_all_last (p := Char.isDigit) (List.forall_mem_nil _)
    (fun _ => isDigit_of_mem) (by simp) (by simp) split
  exact Nat.toDigits_ne_nil none.symm

/-- The place of a task is not that of a line in a file. -/
theorem taskPlace_ne_line {path other : String} {index line : Nat} {steps : List (String × Nat)} :
    taskPlace path index steps ≠ other ++ ":" ++ toString line := by
  intro same
  obtain ⟨before, number, split⟩ := exists_toList_taskPlace path index steps
  have lineSplit : (other ++ ":" ++ toString line).toList =
      (other.toList ++ [':']) ++ Nat.toDigits 10 line := by
    simp [String.toList_append]
  rw [same, lineSplit] at split
  obtain ⟨marks, -⟩ := append_inj_of_all_last (p := Char.isDigit) (fun _ => isDigit_of_mem)
    (fun _ => isDigit_of_mem) (by simp) (by simp) split
  cases (List.append_inj' marks rfl).2

end Rolewright.Check
