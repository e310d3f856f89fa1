/-
# What an accepted role has passed

Success is decided from two sources: the defects of the answer and the findings of the gateway.
`Accepted` says what stands behind a role that a session succeeds with, and `accepted_convert` that
it always does: the role is the one of the last attempt, nothing is wrong with the answer it came
from, and the last call of the whole session was the gateway's agreement to this very role.

The converse is `convert_of_good_answer`: a first answer with which nothing is wrong is accepted.
-/

import Rolewright.Proofs.Conversion.Tally

namespace Rolewright

/-- Findings that do not block are remarks. -/
theorem Diagnostic.severity_of_not_isBlocking {d : Diagnostic} (passes : d.isBlocking = false) :
    d.severity = .info := by
  obtain ⟨severity, code, message, location⟩ := d
  cases severity with
  | info => rfl
  | warning => cases passes
  | error => cases passes

namespace Run

variable {w : Surroundings} {settings : SessionSettings} {registry : Mapping.Registry}
  {cookbook : Cookbook}

/-- A merged report is clean only where the answer has no defect, because every defect is an error,
and the gateway itself found nothing that blocks. -/
theorem defects_eq_nil_of_isClean_merged {text : List Char} {found : Report}
    (clean : (merged (Response.parse text).defects found).isClean = true) :
    (Response.parse text).defects = [] ∧ found.isClean = true := by
  obtain ⟨ok, remarks⟩ := Report.isClean_iff.mp clean
  have accepted : found.ok = true := ((Bool.and_eq_true _ _).mp ok).1
  constructor
  · apply List.eq_nil_iff_forall_not_mem.mpr
    intro d defect
    have passes := remarks d (List.mem_append_left _ defect)
    rw [Diagnostic.isBlocking, Response.severity_of_mem_defects defect] at passes
    cases passes
  · apply Report.isClean_iff.mpr
    refine ⟨accepted, ?_⟩
    intro d finding
    exact remarks d (List.mem_append_right _ finding)

/-- Without defects a clean report is merged into itself. -/
theorem merged_nil_of_isClean {found : Report} (clean : found.isClean = true) :
    merged [] found = found := by
  obtain ⟨ok, remarks⟩ := Report.isClean_iff.mp clean
  have noError : found.diagnostics.any (·.severity = .error) = false := by
    apply List.any_eq_false.mpr
    intro d finding
    simp [Diagnostic.severity_of_not_isBlocking (remarks d finding)]
  obtain ⟨_, diagnostics⟩ := found
  simp only [merged, List.nil_append, noError, Bool.not_false, Bool.and_true]

/-- What stands behind a role that a session succeeds with: its last attempt, the answer stored
there, and what the gateway found. -/
structure Accepted (w : Surroundings) (cookbook : Cookbook) (role : Role) (latest : Attempt)
    (text : String) (found : Report) (calls : List Inquiry) : Prop where
  response : latest.response = some text
  completed : role = (Response.parse text.toList).role.complete cookbook
  faultless : (Response.parse text.toList).defects = []
  candidate : latest.candidate = some role
  fingerprint : latest.fingerprint = some (Fingerprint.ofRole role)
  last : ∃ before moment, calls = before ++ [.checked latest.number moment role (.given found)] ∧
    w.validate moment role = .given found
  ok : found.ok = true
  remarks : ∀ d ∈ found.diagnostics, d.severity = .info
  report : latest.report = some found
  clean : found.isClean = true

/-- The latest attempt of a session that ends in success is the one that was accepted. -/
theorem accepted_of_ends {s : State} {calls : List Inquiry} {role : Role}
    (tallied : Tallied w settings s calls) (standing : Standing cookbook s calls)
    (ends : s.session.Ends calls (.succeeded role)) :
    ∃ latest text found, s.session.attempts.head? = some latest ∧
      Accepted w cookbook role latest text found calls := by
  cases ends with
  | @accepted _ latest earlier text found attempts response candidate report clean last =>
      obtain ⟨faultless, agreed⟩ := defects_eq_nil_of_isClean_merged clean
      rw [faultless, merged_nil_of_isClean agreed] at report
      obtain ⟨ok, remarks⟩ := Report.isClean_iff.mp agreed
      have coherent : latest.Coherent cookbook := standing.coherent latest (attempts ▸ .head _)
      have completed : Response.candidate? cookbook text = some role := by
        rw [← candidate, coherent.candidate, response, Option.bind_some]
      have numbered := tallied.numbered
      rw [attempts] at numbered
      obtain ⟨before, moment, made⟩ := last
      rw [attempts, List.length_cons, ← numbered.1] at made
      have madeTo := tallied.made _ (made ▸ List.mem_append_right _ (.head _))
      refine ⟨latest, text, found, by rw [attempts, List.head?_cons], ?_⟩
      exact
        { response
          completed := Response.eq_complete_of_candidate? completed
          faultless
          candidate
          fingerprint := by rw [coherent.fingerprint, candidate, Option.map_some]
          last := ⟨before, moment, made, madeTo.symm⟩
          ok
          remarks := fun d finding => Diagnostic.severity_of_not_isBlocking (remarks d finding)
          report
          clean := agreed }

/-- A session that succeeds does so with a role that was accepted in its last attempt. -/
theorem accepted_convert {role : Role}
    (succeeded : (convert w settings registry cookbook).outcome = .succeeded role) :
    ∃ latest text found,
      (convert w settings registry cookbook).attempts.getLast? = some latest ∧
        Accepted w cookbook role latest text found
          (transcript w settings registry cookbook) := by
  rcases concluded_convert w settings registry cookbook with
    ⟨s, outcome, concluded, ends, standing, tallied⟩ | ⟨name, message, crashed⟩
  · rw [concluded] at succeeded ⊢
    obtain rfl : outcome = .succeeded role := succeeded
    obtain ⟨latest, text, found, first, accepted⟩ := accepted_of_ends tallied standing ends
    refine ⟨latest, text, found, ?_, accepted⟩
    show s.session.attempts.reverse.getLast? = some latest
    rw [List.getLast?_reverse, first]
  · rw [crashed] at succeeded
    cases succeeded

/-! ## A good first answer -/

/-- A call that is answered at once is over. -/
theorem result_of_given {α ε : Type} {call : Call α ε} {moment : Moment} {answer : α}
    (given : call.answer moment = .given answer) (backoff : Backoff)
    (cancelled : Moment → Bool) :
    (call.persistently backoff cancelled moment).result = .answered answer := by
  unfold Call.persistently Call.repeatedly
  rw [given]

theorem generate_of_given {s : State} {request : Request} {text : String}
    (given : w.generate s.moment request = .given text) :
    generate w settings cookbook s request =
      receive cookbook (asked w settings s request) request text := by
  rw [generate_eq, result_of_given given]

/-- The candidate of a complete answer is checked next. -/
theorem receive_of_full {s : State} {request : Request} {text : String}
    (full : (Response.parse text.toList).role.isEmpty = false) :
    receive cookbook s request text =
      { produced (received s text) ((Response.parse text.toList).role.complete cookbook) with
        phase := .validating request ((Response.parse text.toList).role.complete cookbook)
          (Response.parse text.toList).defects } := by
  rw [receive_eq]
  simp only [full, Bool.false_eq_true, if_false]

theorem step_validating {s : State} {request : Request} {candidate : Role}
    {defects : List Diagnostic} (now : s.phase = .validating request candidate defects)
    (untold : w.cancelled s.moment = false) :
    step w settings registry cookbook s =
      validate w settings (looked s) request candidate defects := by
  simp only [step, now, untold, Bool.false_eq_true, if_false]
  rfl

/-- A clean report on an answer without defects concludes a session. -/
theorem phase_validate_of_given {s : State} {request : Request} {candidate : Role}
    {found : Report} (given : w.validate s.moment candidate = .given found)
    (clean : found.isClean = true) :
    (validate w settings s request candidate []).phase = .concluded (.succeeded candidate) := by
  rw [validate_eq, result_of_given given]
  simp only [merged_nil_of_isClean clean, clean, if_true]

/-- The role of a first answer with which nothing is wrong is accepted. -/
theorem convert_of_good_answer {text : String} {found : Report}
    (untold : ∀ m, w.cancelled m = false)
    (answered : ∀ m request, m.generations = 0 → w.generate m request = .given text)
    (full : (Response.parse text.toList).role.isEmpty = false)
    (faultless : (Response.parse text.toList).defects = [])
    (agreed : ∀ m role, m.validations = 0 → w.validate m role = .given found)
    (clean : found.isClean = true) :
    (convert w settings registry cookbook).outcome =
      .succeeded ((Response.parse text.toList).role.complete cookbook) := by
  let request := Request.build cookbook registry settings.examples
  let role := (Response.parse text.toList).role.complete cookbook
  let first := begin settings registry cookbook (looked (initial settings cookbook))
  let second := generate w settings cookbook (looked first) request
  let third := validate w settings (looked second) request role []
  have begun : step w settings registry cookbook (initial settings cookbook) = first := by
    simp only [step, initial, untold, Bool.false_eq_true, if_false]
    rfl
  have received : second =
      { produced (Run.received (asked w settings (looked first) request) text) role with
        phase := .validating request role [] } := by
    have given := answered (looked first).moment request rfl
    rw [show second = _ from generate_of_given given, receive_of_full full, faultless]
  have generated : step w settings registry cookbook first = second := by
    simp only [step, untold, Bool.false_eq_true, if_false]
    rfl
  have validated : step w settings registry cookbook second = third :=
    step_validating (by rw [received]) (untold _)
  have unchecked : (looked second).moment.validations = 0 := by
    rw [received]
    exact (moment_asked w settings (looked first) request).2
  have closed : third.phase = .concluded (.succeeded role) :=
    phase_validate_of_given (agreed _ role unchecked) clean
  have ended : third.ended? = some (third.session.conclude (.succeeded role)) := by
    simp only [State.ended?, closed]
  have going : second.ended? = none := by
    rw [received]
    rfl
  unfold convert
  rw [← finish_step w settings registry cookbook (s := initial settings cookbook) rfl, begun,
    ← finish_step w settings registry cookbook (s := first) rfl, generated,
    ← finish_step w settings registry cookbook going, validated,
    finish_of_ended w settings registry cookbook ended]
  rfl

/-- An answer of one file, which is accepted at once. -/
theorem accepted_convert_scripted :
    let text := "\x60\x60\x60yaml path=tasks/main.yml\n- debug:\n\x60\x60\x60"
    let role := (Response.parse text.toList).role.complete (Cookbook.bare "web")
    let w := Surroundings.scripted [.given text] [.given .clean]
    let settings : SessionSettings := ⟨2, .standard, 0⟩
    let registry := Mapping.Registry.ofRules []
    let cookbook := Cookbook.bare "web"
    (convert w settings registry cookbook).outcome = .succeeded role ∧
      ∃ latest text found,
        (convert w settings registry cookbook).attempts.getLast? = some latest ∧
          Accepted w cookbook role latest text found
            (transcript w settings registry cookbook) := by
  intro text role w settings registry cookbook
  have answered : ∀ m request, m.generations = 0 → w.generate m request = .given text := by
    intro m request first
    simp only [w, Surroundings.scripted, first, List.getD_cons_zero]
  have agreed : ∀ m role, m.validations = 0 → w.validate m role = .given .clean := by
    intro m role first
    simp only [w, Surroundings.scripted, first, List.getD_cons_zero]
  have succeeded : (convert w settings registry cookbook).outcome = .succeeded role :=
    convert_of_good_answer (fun _ => rfl) answered (by decide +kernel) (by decide +kernel) agreed
      rfl
  exact ⟨succeeded, accepted_convert succeeded⟩

end Run

end Rolewright
