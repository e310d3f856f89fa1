/-
# How a session stands

What the attempts of a session hold at every moment of a run. In each attempt the candidate is the
completed role of the stored answer, the fingerprint is the one of the candidate, and the report is
on them and on nothing else. Every attempt but the latest was rejected. Where the latest attempt is
follows from the phase, and so does the way in which a session that has ended came to its outcome.

`standing_transition` is the step and `standing_stateAfter` the run. Nothing is said here about how
many calls or attempts there are.
-/

import Rolewright.Proofs.Conversion.Course
import Rolewright.Proofs.Role.Answer

namespace Rolewright

/-- The role that comes of an answer, if the answer has files. -/
def Response.candidate? (cookbook : Cookbook) (text : String) : Option Role :=
  let role := (Response.parse text.toList).role
  if role.isEmpty then none else some (role.complete cookbook)

theorem Response.candidate?_eq_none_iff {cookbook : Cookbook} {text : String} :
    candidate? cookbook text = none ↔ (parse text.toList).role.isEmpty = true := by
  unfold candidate?
  dsimp only
  split
  · rename_i empty
    exact iff_of_true rfl empty
  · rename_i full
    exact iff_of_false nofun full

/-- A candidate is the completed role of its answer. -/
theorem Response.eq_complete_of_candidate? {cookbook : Cookbook} {text : String} {role : Role}
    (found : candidate? cookbook text = some role) :
    role = (parse text.toList).role.complete cookbook := by
  unfold candidate? at found
  dsimp only at found
  split at found
  · cases found
  · exact (Option.some.inj found).symm

/-- The report on an answer without files is not clean. -/
theorem Response.isClean_ofDiagnostics_defects {text : List Char}
    (empty : (Response.parse text).role.isEmpty = true) :
    (Report.ofDiagnostics (Response.parse text).defects).isClean = false := by
  rw [Bool.eq_false_iff, Ne, Report.isClean_iff]
  rintro ⟨-, remarks⟩
  have blocking := remarks _ (Response.noFiles_mem_defects empty)
  cases blocking

namespace Attempt

/-- What the report on an attempt says; nothing without a report. -/
def findings (a : Attempt) : List Diagnostic :=
  (a.report.map (·.diagnostics)).getD []

/-- Whether the generator answered without any file. -/
def isVacant (a : Attempt) : Bool :=
  a.response.isSome && a.candidate.isNone

/-- The findings on an answer that has no files. -/
def vacantFindings (a : Attempt) : List Diagnostic :=
  if a.isVacant then a.findings else []

/-- The report on the attempt blocks it. -/
def IsRejected (a : Attempt) : Prop :=
  ∃ report, a.report = some report ∧ report.isClean = false

/-- All that an attempt stores is about the answer it stores. -/
structure Coherent (cookbook : Cookbook) (a : Attempt) : Prop where
  candidate : a.candidate = a.response.bind (Response.candidate? cookbook)
  fingerprint : a.fingerprint = a.candidate.map Fingerprint.ofRole
  unanswered : a.response = none → a.report = none
  vacant : ∀ text, a.response = some text → a.candidate = none →
    a.report = some (.ofDiagnostics (Response.parse text.toList).defects)
  checked : ∀ text role report, a.response = some text → a.candidate = some role →
    a.report = some report → ∃ found, report = Run.merged (Response.parse text.toList).defects found

variable {cookbook : Cookbook} {a b : Attempt}

theorem coherent_fresh (number : Nat) (request : Request) :
    (fresh number request).Coherent cookbook where
  candidate := rfl
  fingerprint := rfl
  unanswered _ := rfl
  vacant _ response _ := by cases response
  checked _ _ _ response _ _ := by cases response

/-- Counting calls and giving feedback does not touch what an attempt is about. -/
theorem Coherent.congr (coherent : a.Coherent cookbook) (response : b.response = a.response)
    (candidate : b.candidate = a.candidate) (fingerprint : b.fingerprint = a.fingerprint)
    (report : b.report = a.report) : b.Coherent cookbook where
  candidate := by rw [candidate, response, coherent.candidate]
  fingerprint := by rw [fingerprint, candidate, coherent.fingerprint]
  unanswered := by rw [response, report]; exact coherent.unanswered
  vacant := by rw [response, candidate, report]; exact coherent.vacant
  checked := by rw [response, candidate, report]; exact coherent.checked

/-- A report of the gateway completes an attempt with a candidate. -/
theorem Coherent.reported {text : String} {role : Role} {found : Report}
    (coherent : a.Coherent cookbook) (answered : a.response = some text)
    (filled : a.candidate = some role) (response : b.response = a.response)
    (candidate : b.candidate = a.candidate) (fingerprint : b.fingerprint = a.fingerprint)
    (report : b.report = some (Run.merged (Response.parse text.toList).defects found)) :
    b.Coherent cookbook where
  candidate := by rw [candidate, response, coherent.candidate]
  fingerprint := by rw [fingerprint, candidate, coherent.fingerprint]
  unanswered none := by
    rw [response, answered] at none
    cases none
  vacant _ _ none := by
    rw [candidate, filled] at none
    cases none
  checked other _ stored same _ some := by
    rw [response, answered] at same
    obtain rfl : text = other := Option.some.inj same
    exact ⟨found, Option.some.inj (some.symm.trans report)⟩

end Attempt

/-- How a session comes to its outcome, read off its attempts and its calls. -/
inductive Session.Ends (s : Session) (calls : List Inquiry) : Outcome → Prop
  | accepted {role : Role} {latest : Attempt} {earlier : List Attempt} {text : String}
      {found : Report}
      (attempts : s.attempts = latest :: earlier) (response : latest.response = some text)
      (candidate : latest.candidate = some role)
      (report : latest.report = some (Run.merged (Response.parse text.toList).defects found))
      (clean : (Run.merged (Response.parse text.toList).defects found).isClean = true)
      (last : ∃ before moment,
        calls = before ++ [.checked s.attempts.length moment role (.given found)]) :
      Ends s calls (.succeeded role)
  /-- The generator gave up on the latest request. -/
  | unanswered {reason : FailureReason} {latest : Attempt} {earlier : List Attempt}
      (cause : ∃ message,
        reason = .generationUnavailable message ∨ reason = .generationRejected message)
      (attempts : s.attempts = latest :: earlier) (response : latest.response = none) :
      Ends s calls (.failed reason s.bestEffort.1 [])
  /-- The gateway gave up on the latest candidate. -/
  | unchecked {message text : String} {latest : Attempt} {earlier : List Attempt} {role : Role}
      (attempts : s.attempts = latest :: earlier) (response : latest.response = some text)
      (candidate : latest.candidate = some role) (report : latest.report = none) :
      Ends s calls (.failed (.gatewayUnavailable message) (some role)
        (Response.parse text.toList).defects)
  | exhausted {latest : Attempt} {earlier : List Attempt} {text : String}
      (attempts : s.attempts = latest :: earlier) (response : latest.response = some text)
      (rejected : latest.IsRejected) :
      Ends s calls (.failed .validationExhausted s.bestEffort.1
        (s.bestEffort.2 ++ latest.vacantFindings))
  | cancelled : Ends s calls (.failed .cancelled s.bestEffort.1 s.bestEffort.2)

namespace Run

variable {w : Surroundings} {settings : SessionSettings} {registry : Mapping.Registry}
  {cookbook : Cookbook}

/-- Where the latest attempt is in each phase. -/
def Stands (s : State) (calls : List Inquiry) : Prop :=
  match s.phase with
  | .start => s.session.attempts = []
  | .generating request =>
    ∃ earlier, s.session.attempts = .fresh (earlier.length + 1) request :: earlier
  | .validating request candidate defects =>
    ∃ latest earlier text, s.session.attempts = latest :: earlier ∧ latest.request = request ∧
      latest.response = some text ∧ latest.candidate = some candidate ∧
      latest.report = none ∧ latest.gatewayCalls = 0 ∧
      defects = (Response.parse text.toList).defects
  | .repairing request report =>
    ∃ latest earlier, s.session.attempts = latest :: earlier ∧ latest.request = request ∧
      latest.report = some report ∧ report.isClean = false
  | .concluded outcome => s.session.Ends calls outcome
  | .crashed _ => True

/-- The attempts of a session in order: each coherent, all but the latest rejected, and the latest
one where the phase wants it. -/
structure Standing (cookbook : Cookbook) (s : State) (calls : List Inquiry) : Prop where
  coherent : ∀ a ∈ s.session.attempts, a.Coherent cookbook
  rejected : ∀ a ∈ s.session.attempts.tail, a.IsRejected
  stands : Stands s calls

theorem standing_initial : Standing cookbook (initial settings cookbook) [] where
  coherent a member := by cases member
  rejected a member := by cases member
  stands := rfl

/-- A session is in order when its latest attempt and all the others are. -/
theorem standing_of_cons {calls : List Inquiry} {s : State} {latest : Attempt}
    {earlier : List Attempt} (attempts : s.session.attempts = latest :: earlier)
    (coherent : latest.Coherent cookbook) (older : ∀ a ∈ earlier, a.Coherent cookbook)
    (rejected : ∀ a ∈ earlier, a.IsRejected) (stands : Stands s calls) :
    Standing cookbook s calls where
  coherent := by
    rw [attempts]
    exact List.forall_mem_cons.mpr ⟨coherent, older⟩
  rejected := by rwa [attempts]
  stands := stands

/-- A session that is told to stop ends with its latest candidate. -/
theorem stands_cancel {calls : List Inquiry} {s : State} : Stands (cancel s) calls := .cancelled

/-- A rejected attempt is repaired or is the last one. -/
theorem stands_judge {calls : List Inquiry} {s : State} {request : Request} {report : Report}
    {latest : Attempt} {earlier : List Attempt} {text : String}
    (attempts : s.session.attempts = latest :: earlier) (asked : latest.request = request)
    (response : latest.response = some text) (reported : latest.report = some report)
    (blocked : report.isClean = false) : Stands (judge s request report) calls := by
  unfold judge
  split
  · exact ⟨latest, earlier, attempts, asked, reported, blocked⟩
  · have findings : latest.findings = report.diagnostics := by
      rw [Attempt.findings, reported]
      rfl
    have ends : s.session.Ends calls (.failed .validationExhausted s.session.bestEffort.1
        (s.session.bestEffort.2 ++ latest.vacantFindings)) :=
      .exhausted attempts response ⟨report, reported, blocked⟩
    rw [Attempt.vacantFindings, Attempt.isVacant, response, findings] at ends
    simp only [Stands, attempts, List.head?_cons, Option.any_some]
    cases empty : latest.candidate.isNone with
    | true => simpa [empty] using ends
    | false => simpa [empty] using ends

/-- An answer without files settles the attempt it belongs to. -/
theorem coherent_vacant {a : Attempt} {text : String}
    (empty : (Response.parse text.toList).role.isEmpty = true) (response : a.response = some text)
    (candidate : a.candidate = none) (fingerprint : a.fingerprint = none)
    (report : a.report = some (.ofDiagnostics (Response.parse text.toList).defects)) :
    a.Coherent cookbook where
  candidate := by rw [candidate, response, Option.bind_some, Response.candidate?, if_pos empty]
  fingerprint := by rw [fingerprint, candidate, Option.map_none]
  unanswered none := by
    rw [response] at none
    cases none
  vacant other same _ := by
    obtain rfl : text = other := Option.some.inj (response.symm.trans same)
    exact report
  checked _ _ _ _ some _ := by
    rw [candidate] at some
    cases some

/-- An answer with files gives the attempt it belongs to a candidate, and the only report on that
is one of the gateway. -/
theorem coherent_filled {a : Attempt} {text : String} {role : Role}
    (full : (Response.parse text.toList).role.isEmpty = false)
    (completed : role = (Response.parse text.toList).role.complete cookbook)
    (response : a.response = some text) (candidate : a.candidate = some role)
    (fingerprint : a.fingerprint = some (Fingerprint.ofRole role))
    (report : a.report = none ∨
      ∃ found, a.report = some (merged (Response.parse text.toList).defects found)) :
    a.Coherent cookbook where
  candidate := by
    rw [candidate, response, Option.bind_some, Response.candidate?, full, completed]
    rfl
  fingerprint := by rw [fingerprint, candidate, Option.map_some]
  unanswered none := by
    rw [response] at none
    cases none
  vacant _ _ none := by
    rw [candidate] at none
    cases none
  checked other _ stored same _ some := by
    obtain rfl : text = other := Option.some.inj (response.symm.trans same)
    rcases report with unreported | ⟨found, reported⟩
    · rw [unreported] at some
      cases some
    · exact ⟨found, Option.some.inj (some.symm.trans reported)⟩

variable {s next : State} {calls made : List Inquiry}

/-- At the start a session has no attempts. -/
theorem Standing.start (standing : Standing cookbook s calls) (now : s.phase = .start) :
    s.session.attempts = [] := by
  simpa only [Stands, now] using standing.stands

/-- Before a repair the latest attempt has the report that blocks it. -/
theorem Standing.repairing {request : Request} {report : Report}
    (standing : Standing cookbook s calls) (now : s.phase = .repairing request report) :
    ∃ latest earlier, s.session.attempts = latest :: earlier ∧ latest.request = request ∧
      latest.report = some report ∧ report.isClean = false := by
  simpa only [Stands, now] using standing.stands

/-- What the first step of a session leaves. -/
theorem standing_begin (standing : Standing cookbook s calls) (now : s.phase = .start) :
    Standing cookbook (begin settings registry cookbook (looked s)) calls := by
  have none := standing.start now
  have attempts := attempts_begin settings registry cookbook (looked s)
  rw [attempts_looked, none] at attempts
  refine standing_of_cons attempts (Attempt.coherent_fresh _ _) ?_ ?_ ⟨[], attempts⟩
  · intro a member
    cases member
  · intro a member
    cases member

/-- What a repair leaves: the attempt it repairs is among the rejected ones. -/
theorem standing_repair {request : Request} {report : Report}
    (standing : Standing cookbook s calls) (now : s.phase = .repairing request report) :
    Standing cookbook (repair (looked s) request report) calls := by
  obtain ⟨latest, earlier, attempts, asked, reported, blocked⟩ := standing.repairing now
  obtain ⟨coherent, rejected, -⟩ := standing
  rw [attempts] at coherent rejected
  have repaired := attempts_repair (s := looked s) attempts request report
  have told : ({ latest with feedback := some (feedback (looked s) report) } :
      Attempt).Coherent cookbook := (coherent latest (.head _)).congr rfl rfl rfl rfl
  refine standing_of_cons repaired (Attempt.coherent_fresh _ _) ?_ ?_ ?_
  · exact List.forall_mem_cons.mpr ⟨told, fun a member => coherent a (.tail _ member)⟩
  · exact List.forall_mem_cons.mpr ⟨⟨report, reported, blocked⟩, rejected⟩
  · simp only [Stands, phase_repair (s := looked s) attempts]
    exact ⟨{ latest with feedback := some (feedback (looked s) report) } :: earlier, repaired⟩

/-- Before the generator is called the latest attempt is fresh. -/
theorem Standing.generating {request : Request} (standing : Standing cookbook s calls)
    (now : s.phase = .generating request) :
    ∃ earlier, s.session.attempts = .fresh (earlier.length + 1) request :: earlier ∧
      (∀ a ∈ earlier, a.Coherent cookbook) ∧ ∀ a ∈ earlier, a.IsRejected := by
  obtain ⟨coherent, rejected, stands⟩ := standing
  obtain ⟨earlier, attempts⟩ :
      ∃ earlier, s.session.attempts = .fresh (earlier.length + 1) request :: earlier := by
    simpa only [Stands, now] using stands
  rw [attempts] at coherent rejected
  exact ⟨earlier, attempts, fun a member => coherent a (.tail _ member), rejected⟩

/-- Before the gateway is called the latest attempt has the candidate, and no report on it. -/
theorem Standing.validating {request : Request} {candidate : Role} {defects : List Diagnostic}
    (standing : Standing cookbook s calls)
    (now : s.phase = .validating request candidate defects) :
    ∃ latest earlier text, s.session.attempts = latest :: earlier ∧
      latest.Coherent cookbook ∧ (∀ a ∈ earlier, a.Coherent cookbook) ∧
      (∀ a ∈ earlier, a.IsRejected) ∧ latest.request = request ∧ latest.response = some text ∧
      latest.candidate = some candidate ∧ latest.report = none ∧ latest.gatewayCalls = 0 ∧
      defects = (Response.parse text.toList).defects := by
  obtain ⟨coherent, rejected, stands⟩ := standing
  obtain ⟨latest, earlier, text, attempts, facts⟩ :
      ∃ latest earlier text, s.session.attempts = latest :: earlier ∧ latest.request = request ∧
        latest.response = some text ∧ latest.candidate = some candidate ∧
        latest.report = none ∧ latest.gatewayCalls = 0 ∧
        defects = (Response.parse text.toList).defects := by
    simpa only [Stands, now] using stands
  rw [attempts] at coherent rejected
  exact ⟨latest, earlier, text, attempts, coherent latest (.head _),
    fun a member => coherent a (.tail _ member), rejected, facts⟩

/-- Calls of the generator that bring no answer leave the latest attempt as it was but for their
number. -/
theorem standing_asked {request : Request} {t : State} (standing : Standing cookbook s calls)
    (now : s.phase = .generating request)
    (session : t.session = (asked w settings (looked s) request).session)
    (stands : ∀ latest earlier, t.session.attempts = latest :: earlier →
      latest.response = none → Stands t (calls ++ made)) :
    Standing cookbook t (calls ++ made) := by
  obtain ⟨earlier, attempts, older, rejected⟩ := standing.generating now
  have counted : t.session.attempts = { Attempt.fresh (earlier.length + 1) request with
      generatorCalls := .ofNat (askLog w settings (looked s) request).length } :: earlier := by
    simp [session, attempts]
  have fresh : (Attempt.fresh (earlier.length + 1) request).Coherent cookbook :=
    Attempt.coherent_fresh _ _
  exact standing_of_cons counted (fresh.congr rfl rfl rfl rfl) older rejected
    (stands _ _ counted rfl)

/-- Calls of the gateway that bring no report leave the latest attempt as it was but for their
number. -/
theorem standing_checked {request : Request} {candidate : Role} {defects : List Diagnostic}
    {t : State} (standing : Standing cookbook s calls)
    (now : s.phase = .validating request candidate defects)
    (session : t.session = (checked w settings (looked s) candidate).session)
    (stands : ∀ latest earlier text, t.session.attempts = latest :: earlier →
      latest.response = some text → latest.candidate = some candidate → latest.report = none →
      defects = (Response.parse text.toList).defects → Stands t (calls ++ made)) :
    Standing cookbook t (calls ++ made) := by
  obtain ⟨latest, earlier, text, attempts, coherent, older, rejected, -, response, role, report, -,
    named⟩ := standing.validating now
  have counted : t.session.attempts = { latest with
      gatewayCalls := .ofNat (checkLog w settings (looked s) candidate).length } :: earlier := by
    simp [session, attempts]
  exact standing_of_cons counted (coherent.congr rfl rfl rfl rfl) older rejected
    (stands _ _ text counted response role report named)

/-- A report of the gateway is stored with the candidate it is on. -/
theorem standing_reported {request : Request} {candidate : Role} {defects : List Diagnostic}
    {found : Report} {t : State} (standing : Standing cookbook s calls)
    (now : s.phase = .validating request candidate defects)
    (session : t.session = (reported (checked w settings (looked s) candidate)
      s.session.attempts.length (merged defects found)).session)
    (stands : ∀ latest earlier text, t.session.attempts = latest :: earlier →
      latest.request = request → latest.response = some text →
      latest.candidate = some candidate → latest.report = some (merged defects found) →
      defects = (Response.parse text.toList).defects → Stands t (calls ++ made)) :
    Standing cookbook t (calls ++ made) := by
  obtain ⟨latest, earlier, text, attempts, coherent, older, rejected, asked, response, role, -, -,
    rfl⟩ := standing.validating now
  have stored : t.session.attempts = { latest with
      gatewayCalls := .ofNat (checkLog w settings (looked s) candidate).length
      report := some (merged (Response.parse text.toList).defects found) } :: earlier := by
    simp [session, attempts]
  have settled : ({ latest with
      gatewayCalls := .ofNat (checkLog w settings (looked s) candidate).length
      report := some (merged (Response.parse text.toList).defects found) } :
      Attempt).Coherent cookbook :=
    coherent.reported response role rfl rfl rfl rfl
  exact standing_of_cons stored settled older rejected
    (stands _ _ text stored asked response role rfl rfl)

/-- Every transition leaves a session in order. -/
theorem standing_transition (standing : Standing cookbook s calls)
    (t : Transition w settings registry cookbook s made next) :
    Standing cookbook next (calls ++ made) := by
  cases t with
  | stopped going told => exact ⟨standing.coherent, standing.rejected, stands_cancel⟩
  | begun now => simpa using standing_begin standing now
  | @vacant request text _ _ now _ empty =>
      obtain ⟨earlier, attempts, older, rejected⟩ := standing.generating now
      let report := Report.ofDiagnostics (Response.parse text.toList).defects
      have answered : (faulted (received (asked w settings (looked s) request) text)
          report).session.attempts = { Attempt.fresh (earlier.length + 1) request with
            generatorCalls := .ofNat (askLog w settings (looked s) request).length
            response := some text
            report := some report } :: earlier := by
        simp [attempts]
      have blocked := Response.isClean_ofDiagnostics_defects empty
      refine standing_of_cons (by rw [session_judge, answered])
        (coherent_vacant empty rfl rfl rfl rfl) older rejected ?_
      exact stands_judge answered rfl rfl rfl blocked
  | @filled request text _ _ now _ full =>
      obtain ⟨earlier, attempts, older, rejected⟩ := standing.generating now
      let role := (Response.parse text.toList).role.complete cookbook
      have answered : (produced (received (asked w settings (looked s) request) text)
          role).session.attempts = { Attempt.fresh (earlier.length + 1) request with
            generatorCalls := .ofNat (askLog w settings (looked s) request).length
            response := some text
            candidate := some role
            fingerprint := some (Fingerprint.ofRole role) } :: earlier := by
        simp [attempts]
      refine standing_of_cons answered (coherent_filled full rfl rfl rfl rfl (.inl rfl)) older
        rejected ?_
      exact ⟨_, _, text, answered, rfl, rfl, rfl, rfl, rfl, rfl⟩
  | @unanswered _ error _ _ now _ =>
      refine standing_asked standing now rfl fun latest earlier attempts response => ?_
      refine .unanswered ⟨error.message, ?_⟩ attempts response
      split
      · exact .inl rfl
      · exact .inr rfl
  | askingStopped now => exact standing_asked standing now rfl fun _ _ _ _ => stands_cancel
  | askingDied now _ | askingOverran now _ =>
      exact standing_asked standing now rfl fun _ _ _ _ => trivial
  | @accepted request candidate defects found before moment now ends clean =>
      refine standing_reported standing now rfl
        fun latest earlier text attempts _ response role report named => ?_
      subst named
      exact .accepted attempts response role report clean
        ⟨calls ++ before, moment, by simp [ends]⟩
  | rejected now _ blocked =>
      refine standing_reported standing now (session_judge _ _ _)
        fun latest earlier text attempts asked response _ report _ => ?_
      rw [session_judge] at attempts
      exact stands_judge attempts asked response report blocked
  | unchecked now _ =>
      refine standing_checked standing now rfl
        fun latest earlier text attempts response role report named => ?_
      subst named
      exact .unchecked attempts response role report
  | checkingStopped now =>
      exact standing_checked standing now rfl fun _ _ _ _ _ _ _ _ => stands_cancel
  | checkingDied now _ | checkingOverran now _ =>
      exact standing_checked standing now rfl fun _ _ _ _ _ _ _ _ => trivial
  | repaired now => simpa using standing_repair standing now

/-- At every moment of a run the session is in order. -/
theorem standing_stateAfter (n : Nat) :
    Standing cookbook (stateAfter w settings registry cookbook n)
      (callsBefore w settings registry cookbook n) :=
  invariant w settings registry cookbook (Standing cookbook) standing_initial
    (fun _ _ _ _ standing t => standing_transition standing t) n

end Run

end Rolewright
