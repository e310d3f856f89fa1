/-
# Verdicts of the gateway

A report of the gateway is clean only where every check that was asked for was passed. Two things
carry this. Whatever a failing program prints becomes a finding that blocks, be it nothing at all
(`harmless_lintDiagnostics_iff`); and a program that gives no output is passed over in one case
only, so that all others leave no report (`exists_runTool_eq_error_iff`).

`clean_validate_iff` says when there is a clean report and when there is none at all. Nothing is
assumed of the programs, and nothing is said of reports that are not clean.
-/

import Mathlib.Logic.Basic
import Mathlib.Tactic.ByContra
import Rolewright.Check.Gateway

namespace Rolewright

/-- Findings of which none blocks. -/
def Harmless (findings : List Diagnostic) : Prop :=
  ∀ d ∈ findings, d.isBlocking = false

theorem harmless_append {findings others : List Diagnostic} :
    Harmless (findings ++ others) ↔ Harmless findings ∧ Harmless others :=
  List.forall_mem_append

/-- The report of some findings is clean just when none of them blocks. -/
theorem Report.isClean_ofDiagnostics_iff {findings : List Diagnostic} :
    (ofDiagnostics findings).isClean = true ↔ Harmless findings := by
  rw [isClean_iff]
  refine ⟨And.right, fun harmless => ⟨?_, harmless⟩⟩
  rw [ofDiagnostics, Bool.not_eq_true', List.any_eq_false]
  intro d finding error
  have passes := harmless d finding
  rw [Diagnostic.isBlocking, of_decide_eq_true error] at passes
  cases passes

namespace Check

/-! ## Output of a linter -/

/-- Whether no line that a program printed reads as a finding. -/
def ToolOutput.IsSilent (output : ToolOutput) : Prop :=
  ∀ line ∈ Text.lines output.stdout ++ Text.lines output.stderr, lintLine? line = none

theorem success_iff {output : ToolOutput} : output.success = true ↔ output.exitCode = 0 :=
  beq_iff_eq

/-- A linter prints no mere remarks. -/
theorem isBlocking_of_lintLine? {line : List Char} {d : Diagnostic}
    (finding : lintLine? line = some d) : d.isBlocking = true := by
  have blocks (code : List Char) : (lintSeverity code).isBlocking = true := by
    unfold lintSeverity
    split <;> rfl
  unfold lintLine? at finding
  dsimp only at finding
  split at finding
  · exact nomatch (finding : none = some d)
  · simp only [Option.bind_eq_bind, Option.bind_eq_some_iff] at finding
    obtain ⟨_, -, _, -, _, -, _, -, same⟩ := finding
    cases same
    exact blocks _

/-- A linter finds nothing that blocks just when it ends well and prints no finding: one that fails
without a finding is a finding itself. -/
theorem harmless_lintDiagnostics_iff {output : ToolOutput} :
    Harmless (lintDiagnostics output) ↔ output.exitCode = 0 ∧ output.IsSilent := by
  have silent : output.IsSilent ↔
      (Text.lines output.stdout ++ Text.lines output.stderr).filterMap lintLine? = [] :=
    List.filterMap_eq_nil_iff.symm
  rw [silent, ← success_iff]
  unfold lintDiagnostics
  cases found : (Text.lines output.stdout ++ Text.lines output.stderr).filterMap lintLine? with
  | nil =>
      cases output.success with
      | true => exact iff_of_true (List.forall_mem_nil _) ⟨rfl, rfl⟩
      | false =>
          refine iff_of_false (fun harmless => ?_) (fun both => nomatch both.1)
          have passes := harmless _ (.head _)
          cases passes
  | cons d ds =>
      refine iff_of_false (fun harmless => ?_) (fun both => nomatch both.2)
      obtain ⟨line, -, finding⟩ := List.mem_filterMap.mp (found ▸ List.mem_cons_self : d ∈ _)
      have blocks := isBlocking_of_lintLine? finding
      rw [harmless d (.head _)] at blocks
      cases blocks

/-! ## Calls of programs -/

/-- A call that a check is passed with: the program ended well and left the right output, or it is
missing and need not be there. -/
inductive Passes (settings : Settings) (good : ToolOutput → Prop) : Execution → Prop where
  | ended {output : ToolOutput} (well : output.exitCode = 0) (clean : good output) :
      Passes settings good (.finished output)
  | absent (optional : settings.required = false) : Passes settings good (.notStarted .notFound)

/-- A call after which there is no report. -/
inductive Fails (settings : Settings) : Execution → Prop where
  | late : Fails settings .timedOut
  | missing (required : settings.required = true) : Fails settings (.notStarted .notFound)
  | broken {cause : OsError} (other : cause ≠ .notFound) : Fails settings (.notStarted cause)
  | lost (cause : OsError) : Fails settings (.lost cause)

/-- The external checks that settings ask for: the call of each, and what its output must be. -/
inductive Asked (settings : Settings) : Invocation → (ToolOutput → Prop) → Prop where
  | linter (named : settings.linter ≠ "") :
      Asked settings ⟨settings.linter, ["-p", "--nocolor", "."], settings.timeout⟩
        ToolOutput.IsSilent
  | syntaxCheck (wanted : settings.syntaxCheck = true) :
      Asked settings ⟨"ansible-playbook", ["--syntax-check", "site.yml"], settings.timeout⟩
        fun _ => True

section Calls

variable {settings : Settings} {programs : Programs} {program : String} {arguments : List String}

/-- A call gives no output just when it fails. -/
theorem exists_runTool_eq_error_iff :
    (∃ cause, runTool settings programs program arguments = .error cause) ↔
      Fails settings (programs ⟨program, arguments, settings.timeout⟩) := by
  unfold runTool
  cases programs ⟨program, arguments, settings.timeout⟩ with
  | finished output => exact iff_of_false (fun ⟨_, same⟩ => nomatch same) nofun
  | timedOut => exact iff_of_true ⟨_, rfl⟩ .late
  | lost cause => exact iff_of_true ⟨_, rfl⟩ (.lost cause)
  | notStarted cause =>
      dsimp only
      split
      · rename_i passed
        obtain ⟨rfl, optional⟩ := (Bool.and_eq_true _ _).mp passed |>.imp of_decide_eq_true id
        refine iff_of_false (fun ⟨_, same⟩ => nomatch same) fun fails => ?_
        cases fails with
        | missing required =>
            rw [required] at optional
            cases optional
        | broken other => exact other rfl
      · rename_i kept
        refine iff_of_true ⟨_, rfl⟩ ?_
        by_cases missing : cause = .notFound
        · subst missing
          refine .missing (Bool.not_eq_false _ |>.mp fun optional => kept ?_)
          rw [optional]
          rfl
        · exact .broken missing

/-- What is made of the output of a program that was called. -/
def judged (judge : ToolOutput → List Diagnostic) (settings : Settings) (programs : Programs)
    (program : String) (arguments : List String) : Except GatewayError (List Diagnostic) :=
  (runTool settings programs program arguments).map fun found => (found.map judge).getD []

theorem exists_judged_eq_error_iff (judge : ToolOutput → List Diagnostic) :
    (∃ cause, judged judge settings programs program arguments = .error cause) ↔
      Fails settings (programs ⟨program, arguments, settings.timeout⟩) := by
  rw [← exists_runTool_eq_error_iff, judged]
  cases runTool settings programs program arguments with
  | error cause => exact iff_of_true ⟨cause, rfl⟩ ⟨cause, rfl⟩
  | ok found => exact iff_of_false (fun ⟨_, same⟩ => nomatch same) fun ⟨_, same⟩ => nomatch same

/-- Where a judge lets good output through and nothing else, a call gives no finding that blocks
just when the check is passed. -/
theorem exists_judged_eq_ok_iff {judge : ToolOutput → List Diagnostic} {good : ToolOutput → Prop}
    (judges : ∀ output, Harmless (judge output) ↔ output.exitCode = 0 ∧ good output) :
    (∃ findings, judged judge settings programs program arguments = .ok findings ∧
        Harmless findings) ↔
      Passes settings good (programs ⟨program, arguments, settings.timeout⟩) := by
  rw [judged, runTool]
  cases programs ⟨program, arguments, settings.timeout⟩ with
  | finished output =>
      constructor
      · rintro ⟨_, same, harmless⟩
        cases same
        obtain ⟨well, clean⟩ := (judges output).mp harmless
        exact .ended well clean
      · rintro ⟨well, clean⟩
        exact ⟨_, rfl, (judges output).mpr ⟨well, clean⟩⟩
  | timedOut | lost cause => exact iff_of_false (fun ⟨_, same, _⟩ => nomatch same) nofun
  | notStarted cause =>
      dsimp only
      split
      · rename_i passed
        obtain ⟨rfl, optional⟩ := (Bool.and_eq_true _ _).mp passed |>.imp of_decide_eq_true id
        refine iff_of_true ⟨_, rfl, List.forall_mem_nil _⟩ (.absent ?_)
        rwa [Bool.not_eq_true'] at optional
      · rename_i kept
        refine iff_of_false (fun ⟨_, same, _⟩ => nomatch same) fun passes => ?_
        cases passes with
        | absent optional => exact kept (by rw [optional]; rfl)

/-- A check that is not asked for is passed. -/
theorem exists_asked_eq_ok_iff {asked : Prop} [Decidable asked]
    {judge : ToolOutput → List Diagnostic} {good : ToolOutput → Prop}
    (judges : ∀ output, Harmless (judge output) ↔ output.exitCode = 0 ∧ good output) :
    (∃ findings, (if asked then judged judge settings programs program arguments else .ok []) =
        .ok findings ∧ Harmless findings) ↔
      (asked → Passes settings good (programs ⟨program, arguments, settings.timeout⟩)) := by
  split
  · rename_i yes
    rw [exists_judged_eq_ok_iff judges, forall_prop_of_true yes]
  · rename_i no
    exact iff_of_true ⟨[], rfl, List.forall_mem_nil _⟩ fun yes => absurd yes no

theorem exists_asked_eq_error_iff {asked : Prop} [Decidable asked]
    (judge : ToolOutput → List Diagnostic) :
    (∃ cause, (if asked then judged judge settings programs program arguments else .ok []) =
        .error cause) ↔
      asked ∧ Fails settings (programs ⟨program, arguments, settings.timeout⟩) := by
  split
  · rename_i yes
    rw [exists_judged_eq_error_iff, and_iff_right yes]
  · rename_i no
    refine iff_of_false ?_ fun both => no both.1
    rintro ⟨_, ⟨⟩⟩

end Calls

/-! ## Reports -/

section Reports

variable {settings : Settings} {programs : Programs} {scratch : String} {role : Role}

/-- The findings of the syntax check in the output of its program. -/
def syntaxDiagnostics (output : ToolOutput) : List Diagnostic :=
  if output.success then []
  else [⟨.error, "syntax-check[failed]", lastLines 5 output.stderr, none⟩]

theorem harmless_syntaxDiagnostics_iff (output : ToolOutput) :
    Harmless (syntaxDiagnostics output) ↔ output.exitCode = 0 ∧ True := by
  rw [← success_iff, syntaxDiagnostics]
  cases output.success with
  | true => exact iff_of_true (List.forall_mem_nil _) ⟨rfl, trivial⟩
  | false =>
      refine iff_of_false (fun harmless => ?_) (fun both => nomatch both.1)
      have passes := harmless _ (.head _)
      cases passes

theorem lintFindings_eq : lintFindings settings programs =
    if settings.linter ≠ "" then
      judged lintDiagnostics settings programs settings.linter ["-p", "--nocolor", "."]
    else .ok [] := by
  simp only [lintFindings, judged, String.isEmpty_iff, ite_not]
  split
  · rfl
  · cases runTool settings programs settings.linter ["-p", "--nocolor", "."] with
    | error cause => rfl
    | ok found => cases found <;> rfl

theorem syntaxFindings_eq : syntaxFindings settings programs =
    if settings.syntaxCheck = true then
      judged syntaxDiagnostics settings programs "ansible-playbook" ["--syntax-check", "site.yml"]
    else .ok [] := by
  simp only [syntaxFindings, judged]
  cases settings.syntaxCheck with
  | false => rfl
  | true =>
      cases runTool settings programs "ansible-playbook" ["--syntax-check", "site.yml"] with
      | error cause => rfl
      | ok found =>
          cases found with
          | none => rfl
          | some output =>
              change (if output.success = true then Except.ok [] else Except.ok _) =
                Except.ok (if output.success = true then [] else _)
              split <;> rfl

/-- The findings of two checks one after the other. -/
def both (first second : Except GatewayError (List Diagnostic)) :
    Except GatewayError (List Diagnostic) := do
  return (← first) ++ (← second)

section Both

variable {first second : Except GatewayError (List Diagnostic)}

theorem exists_both_eq_ok_iff :
    (∃ findings, both first second = .ok findings ∧ Harmless findings) ↔
      (∃ findings, first = .ok findings ∧ Harmless findings) ∧
        ∃ findings, second = .ok findings ∧ Harmless findings := by
  cases first with
  | error cause =>
      refine iff_of_false ?_ ?_
      · rintro ⟨_, ⟨⟩, _⟩
      · rintro ⟨⟨_, ⟨⟩, _⟩, _⟩
  | ok one =>
      cases second with
      | error cause =>
          refine iff_of_false ?_ ?_
          · rintro ⟨_, ⟨⟩, _⟩
          · rintro ⟨_, _, ⟨⟩, _⟩
      | ok other =>
          constructor
          · rintro ⟨_, same, harmless⟩
            cases same
            obtain ⟨first, second⟩ := harmless_append.mp harmless
            exact ⟨⟨one, rfl, first⟩, other, rfl, second⟩
          · rintro ⟨⟨_, same, first⟩, _, other, second⟩
            cases same
            cases other
            exact ⟨_, rfl, harmless_append.mpr ⟨first, second⟩⟩

theorem exists_both_eq_error_iff : (∃ cause, both first second = .error cause) ↔
    (∃ cause, first = .error cause) ∨ ∃ cause, second = .error cause := by
  cases first with
  | error cause => exact iff_of_true ⟨cause, rfl⟩ (.inl ⟨cause, rfl⟩)
  | ok one =>
      cases second with
      | error cause => exact iff_of_true ⟨cause, rfl⟩ (.inr ⟨cause, rfl⟩)
      | ok other =>
          refine iff_of_false ?_ ?_
          · rintro ⟨_, ⟨⟩⟩
          · rintro (⟨_, ⟨⟩⟩ | ⟨_, ⟨⟩⟩)

end Both

/-- Whether other programs are called at all. -/
def Settings.IsExternal (settings : Settings) : Prop :=
  settings.linter ≠ "" ∨ settings.syntaxCheck = true

instance (settings : Settings) : Decidable settings.IsExternal :=
  inferInstanceAs (Decidable (_ ∨ _))

/-- The fault that keeps a role from other programs, if they are called at all. -/
def barrier? (settings : Settings) (scratch : String) (role : Role) : Option GatewayError :=
  if settings.IsExternal then copyFault? scratch role else none

theorem barrier?_eq_none_iff :
    barrier? settings scratch role = none ↔
      (settings.IsExternal → copyFault? scratch role = none) :=
  ite_eq_right_iff

theorem externalFindings_eq : externalFindings settings programs scratch role =
    (barrier? settings scratch role).elim
      (both (lintFindings settings programs) (syntaxFindings settings programs)) .error := by
  simp only [externalFindings, Bool.and_eq_true, Bool.not_eq_true', String.isEmpty_iff]
  split
  · rename_i none
    obtain ⟨unnamed, unwanted⟩ := none
    have inside : ¬ settings.IsExternal :=
      not_or.mpr ⟨not_not.mpr unnamed, ne_true_of_eq_false unwanted⟩
    rw [barrier?, if_neg inside, lintFindings_eq, if_neg (not_not.mpr unnamed), syntaxFindings_eq,
      if_neg (ne_true_of_eq_false unwanted)]
    rfl
  · rename_i called
    have outside : settings.IsExternal := by
      by_contra inside
      obtain ⟨unnamed, unwanted⟩ := not_or.mp inside
      exact called ⟨not_not.mp unnamed, eq_false_of_ne_true unwanted⟩
    rw [barrier?, if_pos outside]
    cases copyFault? scratch role <;> rfl

theorem exists_externalFindings_eq_ok_iff :
    (∃ findings,
        externalFindings settings programs scratch role = .ok findings ∧ Harmless findings) ↔
      (settings.IsExternal → copyFault? scratch role = none) ∧
        ∀ call good, Asked settings call good → Passes settings good (programs call) := by
  rw [externalFindings_eq, ← barrier?_eq_none_iff]
  cases barrier? settings scratch role with
  | some fault =>
      refine iff_of_false ?_ fun free => nomatch free.1
      rintro ⟨_, ⟨⟩, _⟩
  | none =>
      rw [and_iff_right rfl, Option.elim_none, exists_both_eq_ok_iff, lintFindings_eq,
        syntaxFindings_eq, exists_asked_eq_ok_iff fun _ => harmless_lintDiagnostics_iff,
        exists_asked_eq_ok_iff harmless_syntaxDiagnostics_iff]
      constructor
      · rintro ⟨lint, syntaxCheck⟩ _ _ (named | wanted)
        · exact lint named
        · exact syntaxCheck wanted
      · intro passed
        exact ⟨fun named => passed _ _ (.linter named),
          fun wanted => passed _ _ (.syntaxCheck wanted)⟩

theorem exists_externalFindings_eq_error_iff :
    (∃ cause, externalFindings settings programs scratch role = .error cause) ↔
      (settings.IsExternal ∧ copyFault? scratch role ≠ none) ∨
        ∃ call good, Asked settings call good ∧ Fails settings (programs call) := by
  rw [externalFindings_eq, ne_eq, ← Classical.not_imp, ← barrier?_eq_none_iff]
  cases barrier? settings scratch role with
  | some fault => exact iff_of_true ⟨fault, rfl⟩ (.inl nofun)
  | none =>
      rw [or_iff_right (not_not.mpr rfl), Option.elim_none, exists_both_eq_error_iff,
        lintFindings_eq, syntaxFindings_eq, exists_asked_eq_error_iff, exists_asked_eq_error_iff]
      constructor
      · rintro (⟨named, fails⟩ | ⟨wanted, fails⟩)
        · exact ⟨_, _, .linter named, fails⟩
        · exact ⟨_, _, .syntaxCheck wanted, fails⟩
      · rintro ⟨_, _, named | wanted, fails⟩
        · exact .inl ⟨named, fails⟩
        · exact .inr ⟨wanted, fails⟩

/-- There is a clean report just when the role itself has no finding that blocks, and every
external check that is asked for is passed on a copy of it. There is no report at all just when
the role cannot be copied, or a program that is asked for takes too long, is missing although it
is required, or cannot be run. -/
theorem clean_validate_iff (settings : Settings) (programs : Programs) (scratch : String)
    (role : Role) :
    ((∃ report, validate settings programs scratch role = .ok report ∧ report.isClean = true) ↔
      Harmless (Check.role role) ∧ (settings.IsExternal → copyFault? scratch role = none) ∧
        ∀ call good, Asked settings call good → Passes settings good (programs call)) ∧
    ((∃ cause, validate settings programs scratch role = .error cause) ↔
      (settings.IsExternal ∧ copyFault? scratch role ≠ none) ∨
        ∃ call good, Asked settings call good ∧ Fails settings (programs call)) := by
  have passed : (∃ findings, externalFindings settings programs scratch role = .ok findings ∧
      Harmless findings) ↔ _ := exists_externalFindings_eq_ok_iff
  rw [← passed, ← exists_externalFindings_eq_error_iff, validate]
  cases externalFindings settings programs scratch role with
  | error cause =>
      refine ⟨iff_of_false ?_ ?_, iff_of_true ⟨cause, rfl⟩ ⟨cause, rfl⟩⟩
      · rintro ⟨_, ⟨⟩, _⟩
      · rintro ⟨_, _, ⟨⟩, _⟩
  | ok findings =>
      refine ⟨⟨?_, ?_⟩, iff_of_false ?_ ?_⟩
      · rintro ⟨_, same, clean⟩
        cases same
        obtain ⟨own, external⟩ := harmless_append.mp (Report.isClean_ofDiagnostics_iff.mp clean)
        exact ⟨own, findings, rfl, external⟩
      · rintro ⟨own, _, same, external⟩
        cases same
        exact ⟨_, rfl, Report.isClean_ofDiagnostics_iff.mpr (harmless_append.mpr ⟨own, external⟩)⟩
      · rintro ⟨_, ⟨⟩⟩
      · rintro ⟨_, ⟨⟩⟩

end Reports

end Check

end Rolewright
