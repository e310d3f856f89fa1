/-
# The arms of a `case`

Of the arms of a `case` without a subject, as of those of an `if`, the first one is executed whose
condition holds, and its `else` when none does. The guards say less: that of a `when` names its own
condition and says nothing of the arms before it, where that of an `elsif` lists them all. So the
arm that is executed is always among those whose guards hold, but it is the only one just when no
second condition holds (`selectsFirst_iff`).

What is compared with is the `if` that asks for the same conditions in the same order; its guards
are those of `arms_exclusive_exhaustive`.
-/

import Rolewright.Proofs.Recipe.Arms

namespace Rolewright.Recipe

/-! ## The two ways of writing a choice -/

/-- Arms of a `case`: some `when`, and then an `else` or nothing. -/
inductive AreCases : List (Branch Node) → Prop
  | none : AreCases []
  | last {branch : Branch Node} (arm : branch.arm = .otherwise) : AreCases [branch]
  | when {branch : Branch Node} {branches : List (Branch Node)} (arm : branch.arm = .when)
      (others : AreCases branches) : AreCases (branch :: branches)

/-- The arms of a `case`, without what stands before the first of them. -/
def BlockOf.cases (block : Block) : List (Branch Node) :=
  block.branches.tail

/-- A block is a `case` without a subject, whose arms stand in the order that the language asks
for. -/
structure BlockOf.IsOpenCase (block : Block) : Prop where
  kind : block.kind = .caseWhen
  subject : ∃ before ∈ block.branches.head?, before.arm = .body ∧ before.condition = []
  arms : AreCases block.cases

namespace Branch

/-- The arm with another word for `when`. -/
def renamed (arm : Arm) (branch : Branch Node) : Branch Node :=
  if branch.arm = .when then { branch with arm } else branch

/-- The arm is a `when` whose condition holds. -/
def isMet (truth : String → Bool) (branch : Branch Node) : Bool :=
  branch.arm = .when && truth (String.ofList branch.condition)

end Branch

/-- The arms of the `if` that asks for the conditions of a `case` in their order. -/
def ifArms : List (Branch Node) → List (Branch Node)
  | [] => []
  | branch :: branches => branch.renamed .body :: branches.map (Branch.renamed .elsif)

/-- The `if` that asks for the conditions of a `case` in their order. -/
def BlockOf.asIf (block : Block) : Block :=
  { block with kind := .ifElse, branches := ifArms block.cases }

/-! ## What the guards of a `case` say -/

/-- Whether a guard holds, that of a `when` being its condition. -/
def Guard.holdsInCase (truth : String → Bool) (earlier : List Test) (guard : Guard) : Bool :=
  if guard.kind = .when then truth guard.expression else guard.holds truth earlier

/-- The tests of the arms of a `case`, in order. -/
def BlockOf.caseTests (block : Block) : List Test :=
  block.cases.map (Test.ofBranch .caseWhen)

/-- The guards of an arm of a `case` all hold, the arms being counted from zero. -/
def BlockOf.GrantsCase (truth : String → Bool) (block : Block) (arm : Nat) : Prop :=
  ∃ guards, (branchGuards block)[arm + 1]? = some guards ∧
    ∀ guard ∈ guards, guard.holdsInCase truth (block.caseTests.take arm)

/-- The guards of a `case` are satisfied for the same arm as those of the `if`. -/
def BlockOf.SelectsFirst (truth : String → Bool) (block : Block) : Prop :=
  ∀ arm, block.GrantsCase truth arm ↔ block.asIf.Grants truth arm

section Arms

variable {truth : String → Bool} {branch : Branch Node} {branches : List (Branch Node)}
  {header : String}

theorem Test.ofBranch_caseWhen (branch : Branch Node) :
    Test.ofBranch .caseWhen branch = ⟨String.ofList branch.condition, false⟩ := by
  simp [Test.ofBranch]

theorem armGuards_when (arm : branch.arm = .when) (before : List String) :
    armGuards .caseWhen "" header before (branch :: branches) =
      [⟨.when, String.ofList branch.condition⟩] ::
        armGuards .caseWhen "" header
          (before ++ [(Test.ofBranch .caseWhen branch).text]) branches := by
  simp [armGuards, arm, Test.ofBranch_caseWhen, Test.text]

theorem armGuards_else (arm : branch.arm = .otherwise) (before : List String) :
    armGuards .caseWhen "" header before [branch] = [[⟨.otherwise, alternatives before⟩]] := by
  simp [armGuards, arm]

/-- The guards of an arm hold for a `when` with its condition, and for the `else` when no test
before it does. -/
theorem holds_cases_iff (arms : AreCases branches) (earlier : List Test) (k : Nat) :
    (∃ guards, (armGuards .caseWhen "" header (earlier.map Test.text) branches)[k]? = some guards ∧
        ∀ guard ∈ guards, guard.holdsInCase truth
          (earlier ++ (branches.take k).map (Test.ofBranch .caseWhen))) ↔
      ∃ branch, branches[k]? = some branch ∧ (branch.isMet truth ∨ branch.arm = .otherwise ∧
        (earlier ++ (branches.take k).map (Test.ofBranch .caseWhen)).any (Test.holds truth) =
          false) := by
  induction arms generalizing earlier k with
  | none => simp [armGuards]
  | last arm =>
      rw [armGuards_else arm]
      cases k with
      | zero => simp [Guard.holdsInCase, Guard.holds, Branch.isMet, arm]
      | succ k => simp
  | @when branch branches arm others ih =>
      rw [armGuards_when arm]
      cases k with
      | zero => simp [Guard.holdsInCase, Branch.isMet, arm]
      | succ k =>
          have later := ih (earlier ++ [Test.ofBranch .caseWhen branch]) k
          simp only [List.map_append, List.map_cons, List.map_nil, List.append_assoc,
            List.cons_append, List.nil_append] at later
          simpa using later

/-- The `else` lists the tests of all arms before it. -/
theorem expression_of_cases (arms : AreCases branches) (earlier : List Test) (k : Nat)
    (guards : List Guard)
    (there : (armGuards .caseWhen "" header (earlier.map Test.text) branches)[k]? = some guards)
    (guard : Guard) (member : guard ∈ guards) (listing : guard.kind = .otherwise) :
    guard.expression = alternatives
      ((earlier ++ (branches.take k).map (Test.ofBranch .caseWhen)).map Test.text) := by
  induction arms generalizing earlier k with
  | none => simp [armGuards] at there
  | last arm =>
      rw [armGuards_else arm] at there
      cases k with
      | zero =>
          obtain rfl : [_] = guards := by simpa using there
          obtain rfl := List.mem_singleton.mp member
          simp
      | succ k => simp at there
  | @when branch branches arm others ih =>
      rw [armGuards_when arm] at there
      cases k with
      | zero =>
          obtain rfl : [_] = guards := by simpa using there
          obtain rfl := List.mem_singleton.mp member
          cases listing
      | succ k =>
          have later := ih (earlier ++ [Test.ofBranch .caseWhen branch]) k (by simpa using there)
          simpa using later

/-! ## The `if` of the same conditions -/

theorem AreCases.proper (arms : AreCases branches) {branch : Branch Node}
    (member : branch ∈ branches) : branch.arm = .when ∨ branch.arm = .otherwise := by
  induction arms with
  | none => cases member
  | last arm => exact .inr (List.mem_singleton.mp member ▸ arm)
  | when arm others ih =>
      rcases List.mem_cons.mp member with rfl | later
      · exact .inl arm
      · exact ih later

/-- The `else` stands last. -/
theorem AreCases.arm_of_lt (arms : AreCases branches) {i j : Nat} (before : i < j)
    (inside : j < branches.length) : branches[i].arm = .when := by
  induction arms generalizing i j with
  | none => simp at inside
  | last arm =>
      rw [List.length_singleton] at inside
      omega
  | when arm others ih =>
      obtain ⟨j, rfl⟩ := Nat.exists_eq_succ_of_ne_zero (Nat.ne_zero_of_lt before)
      cases i with
      | zero => exact arm
      | succ i => exact ih (Nat.lt_of_succ_lt_succ before) (Nat.lt_of_succ_lt_succ inside)

theorem AreCases.further (arms : AreCases branches) :
    AreFurther (branches.map (Branch.renamed .elsif)) := by
  induction arms with
  | none => exact .none
  | last arm =>
      rw [List.map_singleton, Branch.renamed, if_neg (by simp [arm])]
      exact .last arm
  | when arm others ih =>
      rw [List.map_cons, Branch.renamed, if_pos arm]
      exact .elsif rfl ih

/-- An arm is executed where its condition holds, and an `else` in any case. -/
def Branch.serves (truth : String → Bool) (branch : Branch Node) : Bool :=
  branch.isMet truth || branch.arm = .otherwise

theorem admits_renamed (arm : Arm) (other : arm ≠ .otherwise)
    (proper : branch.arm = .when ∨ branch.arm = .otherwise) :
    (branch.renamed arm).admits truth .ifElse = branch.serves truth := by
  rcases proper with own | own <;>
    simp [Branch.renamed, Branch.admits, Branch.serves, Branch.isMet, own, other, Test.holds,
      Test.ofBranch]

theorem findIdx?_ifArms (arms : AreCases branches) :
    (ifArms branches).findIdx? (Branch.admits truth .ifElse) =
      branches.findIdx? (Branch.serves truth) := by
  have later {branches : List (Branch Node)} (arms : AreCases branches) :
      (branches.map (Branch.renamed .elsif)).findIdx? (Branch.admits truth .ifElse) =
        branches.findIdx? (Branch.serves truth) := by
    induction arms with
    | none => rfl
    | last arm =>
        rw [List.map_singleton, List.findIdx?_singleton, List.findIdx?_singleton,
          admits_renamed .elsif nofun (.inr arm)]
    | when arm others ih =>
        rw [List.map_cons, List.findIdx?_cons, List.findIdx?_cons,
          admits_renamed .elsif nofun (.inl arm), ih]
  cases arms with
  | none => rfl
  | last arm =>
      rw [ifArms, List.map_nil, List.findIdx?_singleton, List.findIdx?_singleton,
        admits_renamed .body nofun (.inr arm)]
  | when arm others =>
      rw [ifArms, List.findIdx?_cons, List.findIdx?_cons, admits_renamed .body nofun (.inl arm),
        later others]

end Arms

section Case

variable {block : Block} {truth : String → Bool}

theorem exists_branchGuards_case (choice : block.IsOpenCase) :
    ∃ header, branchGuards block = [] :: armGuards .caseWhen "" header [] block.cases := by
  obtain ⟨before, first, body, none⟩ := choice.subject
  obtain ⟨branches, split⟩ : ∃ branches, block.branches = before :: branches :=
    List.head?_eq_some_iff.mp first
  refine ⟨String.ofList block.header.text, ?_⟩
  simp [branchGuards, BlockOf.cases, split, choice.kind, armGuards, body, none]

/-- The guards of an arm of a `case` hold for a `when` with its condition, and for the `else` when
no condition holds. -/
theorem grantsCase_iff (choice : block.IsOpenCase) (k : Nat) :
    block.GrantsCase truth k ↔ ∃ branch, block.cases[k]? = some branch ∧
      (branch.isMet truth ∨ branch.arm = .otherwise ∧
        ∀ earlier ∈ block.cases.take k, truth (String.ofList earlier.condition) = false) := by
  obtain ⟨header, guards⟩ := exists_branchGuards_case choice
  unfold BlockOf.GrantsCase BlockOf.caseTests
  simp only [guards, List.getElem?_cons_succ, ← List.map_take]
  refine (holds_cases_iff choice.arms [] k).trans ?_
  simp only [List.nil_append, List.any_eq_false, List.forall_mem_map, Test.ofBranch_caseWhen,
    Test.holds, Bool.bne_false, Bool.not_eq_true]

/-- The guards of an arm of the `if` hold when it is the first to be executed. -/
theorem grants_asIf_iff (choice : block.IsOpenCase) (k : Nat) :
    block.asIf.Grants truth k ↔ block.cases.findIdx? (Branch.serves truth) = some k := by
  rw [← findIdx?_ifArms choice.arms]
  have arms := choice.arms
  generalize same : block.cases = cases at arms
  cases arms with
  | none => simp [BlockOf.Grants, BlockOf.asIf, same, ifArms, branchGuards, armGuards]
  | @last branch arm =>
      have plain : branch.renamed .body = branch := if_neg (by simp [arm])
      have alone : block.asIf.branches = [branch] := by simp [BlockOf.asIf, same, ifArms, plain]
      have guards : branchGuards block.asIf = [[⟨.otherwise, alternatives []⟩]] := by
        unfold branchGuards
        rw [alone]
        exact armGuards_otherwise (.inl rfl) arm []
      have served : branch.admits truth .ifElse = true := by simp [Branch.admits, arm]
      cases k with
      | zero => simp [BlockOf.Grants, guards, Guard.holds, ifArms, plain, served]
      | succ k => simp [BlockOf.Grants, guards, ifArms, plain, served]
  | @when branch branches arm others =>
      have branches : block.asIf.branches = ifArms (branch :: branches) := by
        simp [BlockOf.asIf, same]
      have chosen : block.asIf.IsChoice := by
        refine ⟨.inl rfl, _, _, branches, ?_, others.further⟩
        rw [Branch.renamed, if_pos arm]
      rw [grants_iff chosen, BlockOf.taken?, branches]
      exact Iff.rfl

/-- An arm of a `case` is a `when` whose condition holds. -/
def BlockOf.Meets (truth : String → Bool) (block : Block) (arm : Nat) : Prop :=
  ∃ branch, block.cases[arm]? = some branch ∧ branch.isMet truth

/-- The arm that the `if` executes is one of those whose guards in the `case` hold. -/
theorem grantsCase_of_grants (choice : block.IsOpenCase) {k : Nat}
    (granted : block.asIf.Grants truth k) : block.GrantsCase truth k := by
  rw [grants_asIf_iff choice, List.findIdx?_eq_some_iff_getElem] at granted
  obtain ⟨inside, served, first⟩ := granted
  refine (grantsCase_iff choice k).mpr ⟨_, List.getElem?_eq_getElem inside, ?_⟩
  rcases (Bool.or_eq_true _ _).mp served with met | otherwise
  · exact .inl met
  · refine .inr ⟨of_decide_eq_true otherwise, fun earlier member => ?_⟩
    obtain ⟨i, below, rfl⟩ := List.mem_take_iff_getElem.mp member
    have unserved := first i (Nat.lt_of_lt_of_le below (Nat.min_le_left _ _))
    have own := choice.arms.arm_of_lt (Nat.lt_of_lt_of_le below (Nat.min_le_left _ _)) inside
    simpa [Branch.serves, Branch.isMet, own] using unserved

/-- Where no two conditions hold, the guards of the `case` hold for the arm executed only. -/
theorem grants_of_grantsCase (choice : block.IsOpenCase)
    (single : ∀ i j, block.Meets truth i → block.Meets truth j → i = j) {k : Nat}
    (granted : block.GrantsCase truth k) : block.asIf.Grants truth k := by
  obtain ⟨branch, there, holds⟩ := (grantsCase_iff choice k).mp granted
  obtain ⟨inside, rfl⟩ := List.getElem?_eq_some_iff.mp there
  rw [grants_asIf_iff choice, List.findIdx?_eq_some_iff_getElem]
  refine ⟨inside, ?_, fun i before => ?_⟩
  · rcases holds with met | ⟨otherwise, -⟩ <;> simp [Branch.serves, *]
  · have own := choice.arms.arm_of_lt before inside
    have here : i < block.cases.length := Nat.lt_trans before inside
    have unmet : block.cases[i].isMet truth = false := by
      rcases holds with met | ⟨-, failed⟩
      · refine Bool.eq_false_iff.mpr fun earlier => Nat.ne_of_lt before ?_
        exact single i k ⟨_, List.getElem?_eq_getElem here, earlier⟩ ⟨_, there, met⟩
      · have member : block.cases[i] ∈ block.cases.take k :=
          List.mem_take_iff_getElem.mpr ⟨i, Nat.lt_min.mpr ⟨before, here⟩, rfl⟩
        simp [Branch.isMet, failed _ member]
    simp [Branch.serves, unmet, own]

/-- Two conditions can hold at once as soon as there are two. -/
theorem countP_when_le_one_iff (choice : block.IsOpenCase) :
    block.cases.countP (·.arm = .when) ≤ 1 ↔
      ∀ truth i j, block.Meets truth i → block.Meets truth j → i = j := by
  unfold BlockOf.Meets
  have arms := choice.arms
  generalize block.cases = cases at arms
  cases arms with
  | none => simp
  | last arm => simp [List.getElem?_singleton, arm, Branch.isMet]
  | when arm others =>
      cases others with
      | none => simp +contextual [List.getElem?_singleton, arm]
      | last other =>
          simp only [List.countP_cons, List.countP_nil, arm, other]
          refine iff_of_true (by decide) fun truth i j former latter => ?_
          rcases i with - | - | i <;> rcases j with - | - | j <;>
            simp [Branch.isMet, other] at former latter ⊢
      | when other others =>
          refine iff_of_false (by simp [arm, other]) fun single => ?_
          exact absurd (single (fun _ => true) 0 1 ⟨_, rfl, by simp [Branch.isMet, arm]⟩
            ⟨_, rfl, by simp [Branch.isMet, other]⟩) nofun

/-- The guards of a `case` select the arm that is executed just when no two conditions hold: the arm
is always among those whose guards hold, and each other arm whose condition holds is there as well.
With two arms or more that is not so whatever is true. What the guards of an `else` say of the
earlier arms names the conditions of all of these. -/
theorem selectsFirst_iff (choice : block.IsOpenCase) :
    (∀ truth, block.SelectsFirst truth ↔
        ∀ i j, block.Meets truth i → block.Meets truth j → i = j) ∧
      (∀ truth k, block.asIf.Grants truth k ∨ block.Meets truth k → block.GrantsCase truth k) ∧
      ((∀ truth, block.SelectsFirst truth) ↔ block.cases.countP (·.arm = .when) ≤ 1) ∧
      ∀ k guards, (branchGuards block)[k + 1]? = some guards →
        ∀ guard ∈ guards, guard.kind = .otherwise →
          guard.expression = alternatives ((block.caseTests.take k).map Test.text) := by
  have among (truth : String → Bool) (k : Nat)
      (one : block.asIf.Grants truth k ∨ block.Meets truth k) : block.GrantsCase truth k := by
    rcases one with granted | ⟨branch, there, met⟩
    · exact grantsCase_of_grants choice granted
    · exact (grantsCase_iff choice k).mpr ⟨branch, there, .inl met⟩
  have only (truth : String → Bool) : block.SelectsFirst truth ↔
      ∀ i j, block.Meets truth i → block.Meets truth j → i = j := by
    refine ⟨fun selects i j former latter => ?_, fun single k =>
      ⟨grants_of_grantsCase choice single, grantsCase_of_grants choice⟩⟩
    have first := (selects i).mp (among truth i (.inr former))
    have second := (selects j).mp (among truth j (.inr latter))
    rw [grants_asIf_iff choice] at first second
    exact Option.some.inj (first.symm.trans second)
  refine ⟨only, among, ?_, fun k guards there guard member listing => ?_⟩
  · rw [countP_when_le_one_iff choice]
    exact forall_congr' only
  · obtain ⟨header, list⟩ := exists_branchGuards_case choice
    rw [list, List.getElem?_cons_succ] at there
    have listed := expression_of_cases choice.arms [] k guards there guard member listing
    rwa [List.nil_append, List.map_take] at listed

end Case

/-! ## Two conditions at once -/

/-- A recipe with a `case` of which a node may meet both conditions. -/
def overlappingConditions : List Char :=
  "case\nwhen debian?\n  package 'apt'\nwhen linux?\n  package 'rpm'\nend\n".toList

/-- The block that the recipe is read as. -/
def overlappingCase : Block where
  kind := .caseWhen
  header := ⟨"case".toList, 1, 1, []⟩
  branches := [⟨.body, [], 1, []⟩,
    ⟨.when, "debian?".toList, 2, [.statement ⟨"package 'apt'".toList, 3, 3, []⟩]⟩,
    ⟨.when, "linux?".toList, 4, [.statement ⟨"package 'rpm'".toList, 5, 5, []⟩]⟩]
  last := 6
  closed := true
  modifier := none

theorem isOpenCase_overlappingCase : overlappingCase.IsOpenCase where
  kind := rfl
  subject := ⟨_, rfl, rfl, rfl⟩
  arms := .when rfl (.when rfl .none)

theorem selectsFirst_of_one_condition :
    overlappingCase.IsOpenCase ∧
      overlappingCase.SelectsFirst fun condition => condition == "linux?" := by
  have second {i : Nat} (meets : overlappingCase.Meets (fun c => c == "linux?") i) : i = 1 := by
    obtain ⟨branch, there, met⟩ := meets
    match i, there with
    | 0, there =>
        cases there
        exact absurd met (by decide)
    | 1, _ => rfl
    | _ + 2, there => cases there
  exact ⟨isOpenCase_overlappingCase, ((selectsFirst_iff isOpenCase_overlappingCase).1 _).mpr
    fun _ _ former latter => (second former).trans (second latter).symm⟩

theorem ofLines_overlappingConditions :
    Node.ofLines (Line.ofSource overlappingConditions) = [.block overlappingCase] := by
  have lines : Line.ofSource overlappingConditions =
      [⟨"case".toList, 1, 1, []⟩, ⟨"when debian?".toList, 2, 2, []⟩,
        ⟨"package 'apt'".toList, 3, 3, []⟩, ⟨"when linux?".toList, 4, 4, []⟩,
        ⟨"package 'rpm'".toList, 5, 5, []⟩, ⟨"end".toList, 6, 6, []⟩] := by decide +kernel
  have opens : LineRole.ofText "case".toList = .opens .caseWhen [] := by decide +kernel
  have first : LineRole.ofText "when debian?".toList = .arm .when "debian?".toList := by
    decide +kernel
  have second : LineRole.ofText "when linux?".toList = .arm .when "linux?".toList := by
    decide +kernel
  have apt : LineRole.ofText "package 'apt'".toList = .statement := by decide +kernel
  have rpm : LineRole.ofText "package 'rpm'".toList = .statement := by decide +kernel
  have ends : LineRole.ofText "end".toList = .ends none := by decide +kernel
  rw [lines]
  simp only [Node.ofLines, List.foldl_cons, List.foldl_nil, Nesting.read, opens, first, second,
    apt, rpm, ends]
  simp [Nesting.add, OpenBlock.add, OpenBlock.close, OpenBlock.openArm, Nesting.finish,
    BlockKind.accepts, overlappingCase]

/-- On a node of Debian the guards of both arms hold, where only the first one is executed. -/
theorem not_selectsFirst_overlappingConditions :
    Node.ofLines (Line.ofSource overlappingConditions) = [.block overlappingCase] ∧
      overlappingCase.IsOpenCase ∧ ¬ ∀ truth, overlappingCase.SelectsFirst truth := by
  refine ⟨ofLines_overlappingConditions, isOpenCase_overlappingCase, fun selects => ?_⟩
  have second : overlappingCase.GrantsCase (fun _ => true) 1 :=
    (grantsCase_iff isOpenCase_overlappingCase 1).mpr ⟨_, rfl, .inl rfl⟩
  have executed := (grants_asIf_iff isOpenCase_overlappingCase 1).mp ((selects _ 1).mp second)
  exact absurd executed (by decide)

end Rolewright.Recipe
