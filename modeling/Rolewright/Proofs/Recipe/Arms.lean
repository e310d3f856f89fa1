/-
# The arms of an `if`

Of the arms of an `if` or an `unless` that one is executed whose test is the first to come out true,
and an `else` has no test to fail. The guards of an arm say the same: whatever truth the conditions
have, they all hold for the arm that is executed and for no other (`arms_exclusive_exhaustive`).

What an arm says of those before it is one text. It is read by what it was put together from: the
condition of each earlier arm, or its negation where the arm is the body of an `unless`. The text
alone tells these apart unless a condition holds a bar or begins with a negation
(`tests_eq_of_alternatives_eq`), and then it is enough to read the guards by their texts
(`Guard.reads_iff`).
-/

import Rolewright.Proofs.Recipe.Findings
import Rolewright.Proofs.Text.Parts

namespace Rolewright.Recipe

/-! ## Tests -/

/-- What has to hold for an arm to be executed when it is reached. -/
structure Test where
  condition : String
  /-- Whether the condition has to fail. -/
  negated : Bool

namespace Test

/-- The test as a later arm lists it. -/
def text (test : Test) : String :=
  if test.negated then "!(" ++ test.condition ++ ")" else test.condition

/-- Whether the test comes out true. -/
def holds (truth : String → Bool) (test : Test) : Bool :=
  truth test.condition != test.negated

/-- The test of an arm. -/
def ofBranch (kind : BlockKind) (branch : Branch Node) : Test :=
  ⟨String.ofList branch.condition, kind = .unlessElse && branch.arm = .body⟩

theorem ofBranch_of_ne_body {kind : BlockKind} {branch : Branch Node} (arm : branch.arm ≠ .body) :
    ofBranch kind branch = ⟨String.ofList branch.condition, false⟩ := by
  simp [ofBranch, arm]

end Test

/-- The tests of the arms of a block, in order. -/
def BlockOf.tests (block : Block) : List Test :=
  block.branches.map (Test.ofBranch block.kind)

/-- Whether an arm is executed when it is reached. -/
def Branch.admits (truth : String → Bool) (kind : BlockKind) (branch : Branch Node) : Bool :=
  branch.arm = .otherwise || (Test.ofBranch kind branch).holds truth

/-- The arm that is executed, counted from zero. -/
def BlockOf.taken? (truth : String → Bool) (block : Block) : Option Nat :=
  block.branches.findIdx? (Branch.admits truth block.kind)

/-! ## Guards -/

/-- Whether a guard holds where the tests of some earlier arms are those that it lists. The kinds
that are not about conditions say nothing. -/
def Guard.holds (truth : String → Bool) (earlier : List Test) (guard : Guard) : Bool :=
  match guard.kind with
  | .onlyWhen => truth guard.expression
  | .unless => !truth guard.expression
  | .otherwise => !earlier.any (Test.holds truth)
  | _ => true

/-- The guards of an arm of a block all hold. -/
def BlockOf.Grants (truth : String → Bool) (block : Block) (arm : Nat) : Prop :=
  ∃ guards, (branchGuards block)[arm]? = some guards ∧
    ∀ guard ∈ guards, guard.holds truth (block.tests.take arm)

/-- Arms behind the first: some `elsif`, and then an `else` or nothing. -/
inductive AreFurther : List (Branch Node) → Prop
  | none : AreFurther []
  | last {branch : Branch Node} (arm : branch.arm = .otherwise) : AreFurther [branch]
  | elsif {branch : Branch Node} {branches : List (Branch Node)} (arm : branch.arm = .elsif)
      (others : AreFurther branches) : AreFurther (branch :: branches)

/-- A block is an `if` or an `unless`, whose arms stand in the order that the language asks for. -/
structure BlockOf.IsChoice (block : Block) : Prop where
  kind : block.kind = .ifElse ∨ block.kind = .unlessElse
  arms : ∃ body others, block.branches = body :: others ∧ body.arm = .body ∧ AreFurther others

section Further

variable {kind : BlockKind} {subject header : String} {truth : String → Bool}
  {branch : Branch Node} {branches : List (Branch Node)}

/-- The guard of the first arm lists nothing, for it is reached in any case. -/
theorem exists_armGuards_body (conditional : kind = .ifElse ∨ kind = .unlessElse)
    (arm : branch.arm = .body) :
    ∃ guard, armGuards kind subject header [] (branch :: branches) =
        [guard] :: armGuards kind subject header ([Test.ofBranch kind branch].map Test.text)
          branches ∧
      guard.kind ≠ .otherwise ∧ ∀ truth, guard.holds truth [] = branch.admits truth kind := by
  rcases conditional with rfl | rfl
  · refine ⟨⟨.onlyWhen, String.ofList branch.condition⟩, ?_, by simp, fun truth => ?_⟩
    · simp [armGuards, arm, Test.ofBranch, Test.text]
    · simp [Guard.holds, Branch.admits, arm, Test.ofBranch, Test.holds]
  · refine ⟨⟨.unless, String.ofList branch.condition⟩, ?_, by simp, fun truth => ?_⟩
    · simp [armGuards, arm, Test.ofBranch, Test.text]
    · simp [Guard.holds, Branch.admits, arm, Test.ofBranch, Test.holds]

theorem armGuards_elsif (conditional : kind = .ifElse ∨ kind = .unlessElse)
    (arm : branch.arm = .elsif) (before : List String) :
    armGuards kind subject header before (branch :: branches) =
      [⟨.otherwise, alternatives before⟩, ⟨.onlyWhen, String.ofList branch.condition⟩] ::
        armGuards kind subject header (before ++ [(Test.ofBranch kind branch).text]) branches := by
  have unnegated : Test.ofBranch kind branch = ⟨String.ofList branch.condition, false⟩ :=
    Test.ofBranch_of_ne_body (by simp [arm])
  rcases conditional with rfl | rfl <;> simp [armGuards, arm, unnegated, Test.text]

theorem armGuards_otherwise (conditional : kind = .ifElse ∨ kind = .unlessElse)
    (arm : branch.arm = .otherwise) (before : List String) :
    armGuards kind subject header before [branch] = [[⟨.otherwise, alternatives before⟩]] := by
  rcases conditional with rfl | rfl <;> simp [armGuards, arm]

theorem admits_of_elsif (arm : branch.arm = .elsif) :
    branch.admits truth kind = truth (String.ofList branch.condition) := by
  have unnegated : Test.ofBranch kind branch = ⟨String.ofList branch.condition, false⟩ :=
    Test.ofBranch_of_ne_body (by simp [arm])
  simp [Branch.admits, arm, unnegated, Test.holds]

/-- An arm behind others lists the tests of all that came before it. -/
theorem expression_of_further (conditional : kind = .ifElse ∨ kind = .unlessElse)
    (further : AreFurther branches) (earlier : List Test) (k : Nat) (guards : List Guard)
    (there : (armGuards kind subject header (earlier.map Test.text) branches)[k]? = some guards)
    (guard : Guard) (member : guard ∈ guards) (listing : guard.kind = .otherwise) :
    guard.expression = alternatives
      ((earlier ++ (branches.take k).map (Test.ofBranch kind)).map Test.text) := by
  induction further generalizing earlier k with
  | none => simp [armGuards] at there
  | last arm =>
      rw [armGuards_otherwise conditional arm] at there
      cases k with
      | zero =>
          obtain rfl : [_] = guards := by simpa using there
          obtain rfl := List.mem_singleton.mp member
          simp
      | succ k => simp at there
  | @elsif branch branches arm others ih =>
      rw [armGuards_elsif conditional arm] at there
      cases k with
      | zero =>
          obtain rfl : [_, _] = guards := by simpa using there
          obtain rfl | rfl : guard = _ ∨ guard = _ := by simpa using member
          · simp
          · cases listing
      | succ k =>
          have later := ih (earlier ++ [Test.ofBranch kind branch]) k (by simpa using there)
          simpa using later

/-- The guards of an arm behind others hold when no earlier test does and the arm is the first to be
executed of those that are left. -/
theorem holds_further_iff (conditional : kind = .ifElse ∨ kind = .unlessElse)
    (further : AreFurther branches) (earlier : List Test) (k : Nat) :
    (∃ guards, (armGuards kind subject header (earlier.map Test.text) branches)[k]? = some guards ∧
        ∀ guard ∈ guards,
          guard.holds truth (earlier ++ (branches.take k).map (Test.ofBranch kind))) ↔
      earlier.any (Test.holds truth) = false ∧
        branches.findIdx? (Branch.admits truth kind) = some k := by
  induction further generalizing earlier k with
  | none => simp [armGuards]
  | @last branch arm =>
      have admitted : branch.admits truth kind = true := by simp [Branch.admits, arm]
      rw [armGuards_otherwise conditional arm, List.findIdx?_cons, admitted]
      cases k with
      | zero => simp [Guard.holds]
      | succ k => simp
  | @elsif branch branches arm others ih =>
      have test : Test.ofBranch kind branch = _ := Test.ofBranch_of_ne_body (by simp [arm])
      rw [armGuards_elsif conditional arm, List.findIdx?_cons, admits_of_elsif arm]
      cases k with
      | zero =>
          cases held : truth (String.ofList branch.condition) <;> simp [Guard.holds, held]
      | succ k =>
          have later := ih (earlier ++ [Test.ofBranch kind branch]) k
          simp only [List.map_append, List.map_cons, List.map_nil, List.append_assoc,
            List.cons_append, List.nil_append] at later
          rw [List.getElem?_cons_succ, List.take_succ_cons, List.map_cons, later]
          cases held : truth (String.ofList branch.condition) <;>
            simp [Test.holds, test, held]

end Further

/-! ## Reading a listing -/

/-- A condition that cannot be taken for several ones, nor for a negated one. -/
structure Test.IsPlain (test : Test) : Prop where
  present : test.condition ≠ ""
  single : '|' ∉ test.condition.toList
  positive : ¬ "!(".toList <+: test.condition.toList

section Plain

variable {test other : Test} {tests others : List Test}

theorem Test.IsPlain.text_ne (plain : test.IsPlain) :
    test.text ≠ "" ∧ '|' ∉ test.text.toList := by
  unfold Test.text
  split
  · simpa using plain.single
  · exact ⟨plain.present, plain.single⟩

theorem Test.eq_of_text_eq (plain : test.IsPlain) (plain' : other.IsPlain)
    (same : test.text = other.text) : test = other := by
  obtain ⟨condition, negated⟩ := test
  obtain ⟨condition', negated'⟩ := other
  cases negated <;> cases negated' <;>
    simp only [Test.text, if_true, Bool.false_eq_true, if_false] at same
  · rw [same]
  · refine absurd ⟨condition'.toList ++ [')'], ?_⟩ plain.positive
    simp [same]
  · refine absurd ⟨condition.toList ++ [')'], ?_⟩ plain'.positive
    simp [← same]
  · rw [String.append_left_inj, String.append_right_inj] at same
    rw [same]

theorem toList_alternatives (first second : String) (rest : List String) :
    (alternatives (first :: second :: rest)).toList =
      (first.toList ++ [' ']) ++ '|' :: '|' :: ' ' :: (alternatives (second :: rest)).toList := by
  rw [alternatives, String.intercalate_cons_cons, String.toList_append, String.toList_append,
    List.append_assoc, List.append_assoc]
  rfl

theorem alternatives_cons_ne {text : String} (present : text ≠ "") (texts : List String) :
    alternatives (text :: texts) ≠ "" := by
  rcases texts with - | ⟨second, rest⟩
  · exact present
  · intro empty
    have chars := congrArg String.toList empty
    rw [toList_alternatives] at chars
    simp at chars

/-- Texts without a bar can be told apart where they are listed. -/
theorem alternatives_injective {texts texts' : List String}
    (free : ∀ text ∈ texts, text ≠ "" ∧ '|' ∉ text.toList)
    (free' : ∀ text ∈ texts', text ≠ "" ∧ '|' ∉ text.toList)
    (same : (alternatives texts).toList = (alternatives texts').toList) : texts = texts' := by
  induction texts generalizing texts' with
  | nil =>
      cases texts' with
      | nil => rfl
      | cons text' texts' =>
          have present := (free' text' List.mem_cons_self).1
          exact absurd (String.toList_inj.mp same).symm (alternatives_cons_ne present texts')
  | cons text texts ih =>
      obtain ⟨⟨present, bare⟩, others⟩ := List.forall_mem_cons.mp free
      cases texts' with
      | nil => exact absurd (String.toList_inj.mp same) (alternatives_cons_ne present texts)
      | cons text' texts' =>
          obtain ⟨⟨-, bare'⟩, others'⟩ := List.forall_mem_cons.mp free'
          rcases texts with - | ⟨second, rest⟩ <;> rcases texts' with - | ⟨second', rest'⟩
          · exact congrArg ([·]) (String.toList_inj.mp same)
          · exact absurd (same ▸ toList_alternatives text' second' rest' ▸ by simp) bare
          · exact absurd (same ▸ toList_alternatives text second rest ▸ by simp) bare'
          · rw [toList_alternatives, toList_alternatives] at same
            obtain ⟨front, behind⟩ :=
              Text.append_cons_inj_of_not_mem (by simpa using bare) (by simpa using bare') same
            rw [String.toList_inj.mp (List.append_cancel_right front),
              ih others others' (by simpa using behind)]

/-- Where conditions are plain, a listing tells the tests that it was put together from. -/
theorem tests_eq_of_alternatives_eq (plain : ∀ test ∈ tests, test.IsPlain)
    (plain' : ∀ test ∈ others, test.IsPlain)
    (same : alternatives (tests.map Test.text) = alternatives (others.map Test.text)) :
    tests = others := by
  have texts : tests.map Test.text = others.map Test.text :=
    alternatives_injective (by simpa using fun test member => (plain test member).text_ne)
      (by simpa using fun test member => (plain' test member).text_ne) (congrArg String.toList same)
  clear same
  induction tests generalizing others with
  | nil => exact (List.map_eq_nil_iff.mp texts.symm).symm
  | cons test tests ih =>
      obtain ⟨first, later⟩ := List.forall_mem_cons.mp plain
      cases others with
      | nil => cases texts
      | cons other others =>
          obtain ⟨first', later'⟩ := List.forall_mem_cons.mp plain'
          obtain ⟨head, tail⟩ := List.cons.inj texts
          rw [Test.eq_of_text_eq first first' head, ih later later' tail]

/-- Whether a guard comes out true as its text reads. Where it lists the tests of earlier arms, it
is read as any plain tests that have this text. -/
def Guard.Reads (truth : String → Bool) (guard : Guard) : Prop :=
  match guard.kind with
  | .onlyWhen => truth guard.expression = true
  | .unless => truth guard.expression = false
  | .otherwise => ∃ tests : List Test, (∀ test ∈ tests, test.IsPlain) ∧
      guard.expression = alternatives (tests.map Test.text) ∧ tests.any (Test.holds truth) = false
  | _ => True

/-- A guard that lists plain tests reads as it was put together. -/
theorem Guard.reads_iff {guard : Guard} (truth : String → Bool)
    (listed : guard.kind = .otherwise → guard.expression = alternatives (tests.map Test.text))
    (plain : ∀ test ∈ tests, test.IsPlain) :
    guard.Reads truth ↔ guard.holds truth tests = true := by
  unfold Guard.Reads Guard.holds
  split
  case h_1 => rfl
  case h_2 => simp
  case h_3 otherwise =>
    rw [Bool.not_eq_true']
    constructor
    · rintro ⟨others, plain', read, none⟩
      have same : tests = others :=
        tests_eq_of_alternatives_eq plain plain' ((listed otherwise).symm.trans read)
      rw [same, none]
    · exact fun none => ⟨tests, plain, listed otherwise, none⟩
  case h_4 => simp

end Plain

section Choice

variable {block : Block} {truth : String → Bool}

/-- The guards of a choice are one for its first arm, and those of the arms behind it. -/
theorem exists_branchGuards (choice : block.IsChoice) :
    ∃ body others guard subject header, block.branches = body :: others ∧ body.arm = .body ∧
      AreFurther others ∧
      branchGuards block = [guard] :: armGuards block.kind subject header
        ([Test.ofBranch block.kind body].map Test.text) others ∧
      guard.kind ≠ .otherwise ∧ ∀ truth, guard.holds truth [] = body.admits truth block.kind := by
  obtain ⟨body, others, branches, first, further⟩ := choice.arms
  unfold branchGuards
  generalize (block.branches.head?.map fun b => String.ofList b.condition).getD "" = subject
  rw [branches]
  obtain ⟨guard, guards, unlisted, holds⟩ := exists_armGuards_body choice.kind first
  exact ⟨body, others, guard, subject, _, rfl, first, further, guards, unlisted, holds⟩

/-- The guards of an arm hold just when it is the one executed. -/
theorem grants_iff (choice : block.IsChoice) (k : Nat) :
    block.Grants truth k ↔ block.taken? truth = some k := by
  obtain ⟨body, others, guard, subject, header, branches, first, further, guards, -, holds⟩ :=
    exists_branchGuards choice
  unfold BlockOf.Grants BlockOf.taken? BlockOf.tests
  rw [guards, branches, List.findIdx?_cons]
  cases k with
  | zero => cases admitted : body.admits truth block.kind <;> simp [holds, admitted]
  | succ k =>
      rw [List.getElem?_cons_succ, ← List.map_take, List.take_succ_cons]
      refine (holds_further_iff choice.kind further [Test.ofBranch block.kind body] k).trans ?_
      rw [Branch.admits, decide_eq_false (by simp [first]), Bool.false_or]
      cases held : (Test.ofBranch block.kind body).holds truth <;> simp [held]

/-- What the guards of an arm list are the tests of all arms before it. -/
theorem expression_of_mem_branchGuards (choice : block.IsChoice) {k : Nat} {guards : List Guard}
    (there : (branchGuards block)[k]? = some guards) {guard : Guard} (member : guard ∈ guards)
    (listing : guard.kind = .otherwise) :
    guard.expression = alternatives ((block.tests.take k).map Test.text) := by
  obtain ⟨body, others, own, subject, header, branches, -, further, list, unlisted, -⟩ :=
    exists_branchGuards choice
  rw [list] at there
  cases k with
  | zero =>
      obtain rfl : [own] = guards := by simpa using there
      obtain rfl := List.mem_singleton.mp member
      exact absurd listing unlisted
  | succ k =>
      rw [List.getElem?_cons_succ] at there
      have listed := expression_of_further choice.kind further [Test.ofBranch block.kind body] k
        guards there guard member listing
      simpa [BlockOf.tests, branches, List.map_take] using listed

/-- With an `else` some arm is executed. -/
theorem isSome_taken? (otherwise : ∃ branch ∈ block.branches, branch.arm = .otherwise) :
    (block.taken? truth).isSome := by
  obtain ⟨branch, member, arm⟩ := otherwise
  rw [BlockOf.taken?, List.findIdx?_isSome, List.any_eq_true]
  exact ⟨branch, member, by simp [Branch.admits, arm]⟩

/-- As the guards of an arm read by their texts alone, they hold just when it is the one executed,
if the conditions of the earlier arms are plain. -/
theorem reads_iff_taken (choice : block.IsChoice) {k : Nat} {guards : List Guard}
    (there : (branchGuards block)[k]? = some guards)
    (plain : ∀ test ∈ block.tests.take k, test.IsPlain) :
    (∀ guard ∈ guards, guard.Reads truth) ↔ block.taken? truth = some k := by
  have held : block.Grants truth k ↔
      ∀ guard ∈ guards, guard.holds truth (block.tests.take k) = true := by
    simp [BlockOf.Grants, there]
  rw [← grants_iff choice, held]
  exact forall₂_congr fun guard member =>
    guard.reads_iff truth (expression_of_mem_branchGuards choice there member) plain

/-- The arms of an `if` or an `unless` exclude each other and, with an `else`, leave nothing out:
whatever is true, the guards of an arm all hold just when the arm is the one executed. What they say
of the earlier arms names the tests of all of these, and where these are plain the texts of the
guards are enough to tell. -/
theorem arms_exclusive_exhaustive (choice : block.IsChoice) (truth : String → Bool) :
    (∀ k, block.Grants truth k ↔ block.taken? truth = some k) ∧
      (∀ j k, block.Grants truth j → block.Grants truth k → j = k) ∧
      ((∃ branch ∈ block.branches, branch.arm = .otherwise) → ∃! k, block.Grants truth k) ∧
      (branchGuards block).length = block.branches.length ∧
      (∀ k guards, (branchGuards block)[k]? = some guards →
        ∀ guard ∈ guards, guard.kind = .otherwise →
          guard.expression = alternatives ((block.tests.take k).map Test.text)) ∧
      ∀ k guards, (branchGuards block)[k]? = some guards →
        (∀ test ∈ block.tests.take k, test.IsPlain) →
          ((∀ guard ∈ guards, guard.Reads truth) ↔ block.taken? truth = some k) := by
  have one (j k : Nat) (former : block.Grants truth j) (latter : block.Grants truth k) : j = k := by
    rw [grants_iff choice] at former latter
    exact Option.some.inj (former.symm.trans latter)
  refine ⟨grants_iff choice, one, fun otherwise => ?_, Origin.length_armGuards _ _ _ _ _,
    fun k guards there guard => expression_of_mem_branchGuards choice there,
    fun k guards there plain => reads_iff_taken choice there plain⟩
  have executed : (block.taken? truth).isSome := isSome_taken? otherwise
  obtain ⟨k, taken⟩ := Option.isSome_iff_exists.mp executed
  have granted : block.Grants truth k := (grants_iff choice k).mpr taken
  exact ⟨k, granted, fun j other => one j k other granted⟩

/-- An `unless` with an `elsif` and an `else`, without the statements of its arms. -/
def packagingBlock : Block :=
  let branch (arm : Arm) (condition : String) (line : Nat) : Branch Node :=
    ⟨arm, condition.toList, line, []⟩
  ⟨.unlessElse, ⟨"unless mac?".toList, 1, 1, []⟩,
    [branch .body "mac?" 1, branch .elsif "brew?" 2, branch .otherwise "" 3], 4, true, none⟩

theorem packagingBlock_isChoice : packagingBlock.IsChoice where
  kind := .inr rfl
  arms := ⟨_, _, rfl, rfl, .elsif rfl (.last rfl)⟩

theorem packagingBlock_isPlain : ∀ test ∈ packagingBlock.tests.take 2, test.IsPlain := by
  refine List.forall_mem_cons.mpr ⟨?_, List.forall_mem_singleton.mpr ?_⟩ <;>
    exact ⟨by decide, by decide, by decide⟩

theorem arms_exclusive_exhaustive_packagingBlock :
    packagingBlock.IsChoice ∧
      (∃! k, packagingBlock.Grants (fun condition => condition == "mac?") k) ∧
      ∀ truth, Guard.Reads truth ⟨.otherwise, "!(mac?) || brew?"⟩ ↔
        packagingBlock.taken? truth = some 2 := by
  have arms := arms_exclusive_exhaustive packagingBlock_isChoice
  refine ⟨packagingBlock_isChoice, (arms _).2.2.1 ⟨_, .tail _ (.tail _ (.head _)), rfl⟩,
    fun truth => ?_⟩
  rw [← (arms truth).2.2.2.2.2 2 _ rfl packagingBlock_isPlain]
  exact List.forall_mem_singleton.symm

end Choice

end Rolewright.Recipe
