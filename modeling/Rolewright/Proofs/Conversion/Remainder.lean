/-
# What a failed session leaves

A session that fails keeps the role of its latest attempt that had one, with findings that should
describe it: those on that attempt first, and then those on a last answer without files.
`describes_convert_iff` says when they do. The role is always the right one. The findings are lost
where the generator gives up after an attempt that had some, because such a failure has none at
all, and those on the last answer are lost where the session is cancelled right after it.
-/

import Rolewright.Proofs.Conversion.Acceptance

namespace Rolewright

/-- Whether a session fails because the generator gave up on a request. -/
def FailureReason.isOfGenerator : FailureReason → Bool
  | .generationUnavailable _ | .generationRejected _ => true
  | .gatewayUnavailable _ | .validationExhausted | .cancelled | .workerCrashed _ => false

namespace Concluded

/-- The latest attempt that had a candidate. -/
def kept? (c : Concluded) : Option Attempt :=
  c.attempts.reverse.find? (·.candidate.isSome)

/-- Whether the last attempt was answered without any file. -/
def endsVacant (c : Concluded) : Bool :=
  c.attempts.getLast?.any (·.isVacant)

/-- The findings on the last answer, if it has no files. -/
def vacantFindings (c : Concluded) : List Diagnostic :=
  (c.attempts.getLast?.map (·.vacantFindings)).getD []

/-- Whatever role a failure carries is the one of the latest attempt that had one. -/
def KeepsLatest (c : Concluded) : Prop :=
  ∀ reason role diagnostics, c.outcome = .failed reason (some role) diagnostics →
    ∃ kept, c.kept? = some kept ∧ kept.candidate = some role

/-- The diagnostics of a failure that carries a role begin with the findings on the attempt that
the role is from, followed by those on a last answer without files. -/
def Describes (c : Concluded) : Prop :=
  ∀ reason role diagnostics, c.outcome = .failed reason (some role) diagnostics →
    ∃ kept, c.kept? = some kept ∧ kept.findings ++ c.vacantFindings <+: diagnostics

/-- A failure that carries a role, and not all that was found: the generator gave up although there
were findings on that role, or the session was cancelled after an answer without files. -/
def Forgets (c : Concluded) : Prop :=
  ∃ reason role diagnostics kept, c.outcome = .failed reason (some role) diagnostics ∧
    c.kept? = some kept ∧
    (reason.isOfGenerator = true ∧ kept.findings ≠ [] ∨
      reason = .cancelled ∧ c.endsVacant = true)

end Concluded

namespace Session

/-- The attempt that the best effort is from, where there is one. -/
theorem exists_kept_of_bestEffort {s : Session} {role : Role}
    (keeps : s.bestEffort.1 = some role) :
    ∃ kept, s.attempts.find? (·.candidate.isSome) = some kept ∧ kept.candidate = some role ∧
      s.bestEffort.2 = kept.findings := by
  unfold bestEffort at keeps ⊢
  cases found : s.attempts.find? (·.candidate.isSome) with
  | none =>
      rw [found] at keeps
      cases keeps
  | some kept =>
      rw [found] at keeps
      exact ⟨kept, rfl, keeps, rfl⟩

theorem kept?_conclude (s : Session) (outcome : Outcome) :
    (s.conclude outcome).kept? = s.attempts.find? (·.candidate.isSome) := by
  rw [Concluded.kept?, conclude, List.reverse_reverse]

theorem getLast?_attempts_conclude (s : Session) (outcome : Outcome) :
    (s.conclude outcome).attempts.getLast? = s.attempts.head? := by
  rw [conclude, List.getLast?_reverse]

end Session

namespace Attempt

variable {cookbook : Cookbook} {a : Attempt}

/-- An attempt without an answer has no findings on one. -/
theorem vacantFindings_of_response (unanswered : a.response = none) : a.vacantFindings = [] := by
  simp [vacantFindings, isVacant, unanswered]

theorem vacantFindings_of_candidate {role : Role} (filled : a.candidate = some role) :
    a.vacantFindings = [] := by
  simp [vacantFindings, isVacant, filled]

/-- On an answer without files there is always something to be found. -/
theorem Coherent.vacantFindings_eq_nil_iff (coherent : a.Coherent cookbook) :
    a.vacantFindings = [] ↔ a.isVacant = false := by
  unfold vacantFindings
  cases vacant : a.isVacant with
  | false => simp
  | true =>
      obtain ⟨answered, unfilled⟩ := (Bool.and_eq_true _ _).mp vacant
      obtain ⟨text, response⟩ := Option.isSome_iff_exists.mp answered
      have candidate : a.candidate = none := Option.isNone_iff_eq_none.mp unfilled
      have empty : Response.candidate? cookbook text = none := by
        rw [← candidate, coherent.candidate, response, Option.bind_some]
      have member : Response.noFiles ∈ a.findings := by
        rw [findings, coherent.vacant text response candidate]
        exact Response.noFiles_mem_defects (Response.candidate?_eq_none_iff.mp empty)
      simp [List.ne_nil_of_mem member]

end Attempt

namespace Run

variable {w : Surroundings} {settings : SessionSettings} {registry : Mapping.Registry}
  {cookbook : Cookbook}

theorem append_isPrefix_self_iff {α : Type} (xs ys : List α) : xs ++ ys <+: xs ↔ ys = [] := by
  conv => lhs; rhs; rw [← List.append_nil xs]
  rw [List.prefix_append_right_inj, List.prefix_nil]

/-- What a session that ends in failure with a role keeps, and when its diagnostics begin with what
they should begin with. -/
theorem kept_of_ends {s : Session} {calls : List Inquiry} {reason : FailureReason} {role : Role}
    {diagnostics : List Diagnostic} (coherent : ∀ a ∈ s.attempts, a.Coherent cookbook)
    (ends : s.Ends calls (.failed reason (some role) diagnostics)) :
    let c := s.conclude (.failed reason (some role) diagnostics)
    ∃ kept, c.kept? = some kept ∧ kept.candidate = some role ∧
      (kept.findings ++ c.vacantFindings <+: diagnostics ↔
        ¬ (reason.isOfGenerator = true ∧ kept.findings ≠ [] ∨
          reason = .cancelled ∧ c.endsVacant = true)) := by
  intro c
  have latest : c.attempts.getLast? = s.attempts.head? := s.getLast?_attempts_conclude _
  rw [s.kept?_conclude, Concluded.vacantFindings, Concluded.endsVacant, latest]
  -- The outcome of `Ends` is no plain variable here, so the case split needs it as an equation.
  generalize same : Outcome.failed reason (some role) diagnostics = outcome at ends
  cases ends with
  | accepted => cases same
  | @unanswered _ last _ cause attempts response =>
      obtain ⟨rfl, keeps, rfl⟩ := Outcome.failed.inj same
      obtain ⟨kept, found, candidate, -⟩ := Session.exists_kept_of_bestEffort keeps.symm
      refine ⟨kept, found, candidate, ?_⟩
      obtain ⟨message, rfl | rfl⟩ := cause <;>
        simp [attempts, Attempt.vacantFindings_of_response response, FailureReason.isOfGenerator]
  | @unchecked _ _ last _ _ attempts response candidate report =>
      obtain ⟨rfl, keeps, rfl⟩ := Outcome.failed.inj same
      refine ⟨last, by simp [attempts, candidate], candidate.trans keeps.symm, ?_⟩
      have unreported : last.findings = [] := by rw [Attempt.findings, report]; rfl
      simp [attempts, unreported, Attempt.vacantFindings_of_candidate candidate]
  | @exhausted last _ _ attempts response rejected =>
      obtain ⟨rfl, keeps, rfl⟩ := Outcome.failed.inj same
      obtain ⟨kept, found, candidate, findings⟩ := Session.exists_kept_of_bestEffort keeps.symm
      refine ⟨kept, found, candidate, ?_⟩
      simp [attempts, findings, FailureReason.isOfGenerator]
  | cancelled =>
      obtain ⟨rfl, keeps, rfl⟩ := Outcome.failed.inj same
      obtain ⟨kept, found, candidate, findings⟩ := Session.exists_kept_of_bestEffort keeps.symm
      refine ⟨kept, found, candidate, ?_⟩
      rw [findings, append_isPrefix_self_iff]
      cases attempts : s.attempts with
      | nil => simp [FailureReason.isOfGenerator]
      | cons last earlier =>
          have settled : last.Coherent cookbook := coherent last (attempts ▸ .head _)
          simp [FailureReason.isOfGenerator, settled.vacantFindings_eq_nil_iff]

/-- Every run that fails keeps the role of its latest attempt that had one, and its diagnostics
describe that role unless the session forgets them. -/
theorem describes_convert_iff :
    (convert w settings registry cookbook).KeepsLatest ∧
      ((convert w settings registry cookbook).Describes ↔
        ¬ (convert w settings registry cookbook).Forgets) := by
  rcases concluded_convert w settings registry cookbook with
    ⟨s, outcome, concluded, ends, standing, -⟩ | ⟨name, message, crashed⟩
  · have kept := fun reason role diagnostics
        (failed : outcome = .failed reason (some role) diagnostics) =>
      kept_of_ends standing.coherent (failed ▸ ends)
    rw [concluded]
    refine ⟨?_, ?_, ?_⟩
    · intro reason role diagnostics failed
      obtain rfl : outcome = .failed reason (some role) diagnostics := failed
      obtain ⟨a, isKept, candidate, -⟩ := kept reason role diagnostics rfl
      exact ⟨a, isKept, candidate⟩
    · rintro describes ⟨reason, role, diagnostics, a, failed, isKept, forgets⟩
      obtain rfl : outcome = .failed reason (some role) diagnostics := failed
      obtain ⟨b, isKept', -, described⟩ := kept reason role diagnostics rfl
      obtain ⟨b', isKept'', begins⟩ := describes reason role diagnostics rfl
      obtain rfl : b = b' := Option.some.inj (isKept'.symm.trans isKept'')
      obtain rfl : a = b := Option.some.inj (isKept.symm.trans isKept')
      exact described.mp begins forgets
    · intro recalls reason role diagnostics failed
      obtain rfl : outcome = .failed reason (some role) diagnostics := failed
      obtain ⟨a, isKept, -, described⟩ := kept reason role diagnostics rfl
      refine ⟨a, isKept, described.mpr ?_⟩
      intro forgets
      exact recalls ⟨reason, role, diagnostics, a, rfl, isKept, forgets⟩
  · rw [crashed]
    refine ⟨fun _ _ _ failed => ?_, fun _ => ?_, fun _ _ _ _ failed => ?_⟩
    · cases failed
    · rintro ⟨_, _, _, _, failed, _⟩
      cases failed
    · cases failed

/-- A candidate with a warning is kept when the generator refuses to repair it, and the warning is
not. -/
theorem not_describes_convert_refused :
    let text := "\x60\x60\x60yaml path=tasks/main.yml\n- debug:\n\x60\x60\x60"
    let warning := Diagnostic.warning "name[missing]" "a task has no name" "tasks/main.yml"
    let w := Surroundings.scripted [.given text, .failed (.rejected 401)]
      [.given ⟨true, [warning]⟩]
    ¬ (convert w ⟨2, .standard, 0⟩ (.ofRules []) (.bare "web")).Describes := by
  intro text warning w describes
  have refused : (convert w ⟨2, .standard, 0⟩ (.ofRules []) (.bare "web")).outcome =
      .failed (.generationRejected (GenerationError.rejected 401).message)
        (some ((Response.parse text.toList).role.complete (.bare "web"))) [] := by
    decide +kernel
  have warned : ((convert w ⟨2, .standard, 0⟩ (.ofRules []) (.bare "web")).kept?.map
      (·.findings)) = some [warning] := by
    decide +kernel
  obtain ⟨kept, isKept, begins⟩ := describes _ _ _ refused
  rw [isKept, Option.map_some] at warned
  rw [Option.some.inj warned] at begins
  simp at begins

end Run

end Rolewright
