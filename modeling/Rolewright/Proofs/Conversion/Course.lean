/-
# The course of a session

A session as a sequence of states, with the calls that were made on the way. `Run.finish` gives only
the session as it ended; here `Run.stateAfter` is the state after any number of steps and
`Run.callsBefore` the calls of those steps, so that a statement can speak of every moment of a run
and of every call.

`Transition` lists what one step can do, guards and calls included, and `transition_step` says that
a step of a session that has not ended is one of them. Every invariant of a run is proved from this
list by `Run.invariant`. That the sequence ends, and ends with what `convert` gives, is
`ended_stateAfter`.
-/

import Mathlib.Logic.Function.Iterate
import Rolewright.Conversion.Run
import Rolewright.Proofs.Conversion.Calls

namespace Rolewright

/-- A call that a session makes: in which attempt, at which moment, with what, and the answer. -/
inductive Inquiry where
  | asked (attempt : Nat) (moment : Moment) (request : Request)
    (answer : Answer String GenerationError)
  | checked (attempt : Nat) (moment : Moment) (candidate : Role)
    (answer : Answer Report Check.GatewayError)

namespace Inquiry

/-- The number of the attempt that a call belongs to. -/
def attempt : Inquiry → Nat
  | .asked attempt .. | .checked attempt .. => attempt

/-- Whether the call was one of the generator. -/
def isAsked : Inquiry → Bool
  | .asked .. => true
  | .checked .. => false

/-- Whether the call was one of the gateway. -/
def isChecked : Inquiry → Bool
  | .asked .. => false
  | .checked .. => true

/-- Whether the call was answered with what it asked for, a text or a report. -/
def isAnswered : Inquiry → Bool
  | .asked _ _ _ answer => answer.isGiven
  | .checked _ _ _ answer => answer.isGiven

/-- Whether whoever made the call died of it. -/
def isFatal : Inquiry → Bool
  | .asked _ _ _ answer => answer.isFatal
  | .checked _ _ _ answer => answer.isFatal

/-- Whether the other side says this at the moment of the call. -/
def IsMadeTo (w : Surroundings) : Inquiry → Prop
  | .asked _ moment request answer => answer = w.generate moment request
  | .checked _ moment candidate answer => answer = w.validate moment candidate

end Inquiry

/-- Surroundings that answer from two lists, call by call, and never stop a session, with a clock
that stands still. What comes after the lists is no answer of the generator and a clean report of
the gateway. -/
def Surroundings.scripted (answers : List (Answer String GenerationError))
    (reports : List (Answer Report Check.GatewayError)) : Surroundings where
  generate moment _ := answers.getD moment.generations (.failed (.transport "end of script"))
  validate moment _ := reports.getD moment.validations (.given .clean)
  cancelled _ := false
  clock _ := .zero

/-- A cookbook of which nothing but the name is known. -/
def Cookbook.bare (name : String) : Cookbook := ⟨name, name, .empty, [], [], [], [], [], []⟩

/-- One attempt, of which calls are repeated so often and without waiting. -/
def SessionSettings.unhurried (retries : UInt32) : SessionSettings :=
  ⟨1, .between .zero .zero retries, 0⟩

namespace Run

variable (w : Surroundings) (settings : SessionSettings) (registry : Mapping.Registry)
  (cookbook : Cookbook)

/-! ## Calls -/

/-- The calls by which a state has a request answered. -/
def askLog (s : State) (request : Request) : List Inquiry :=
  ((ask w request).log settings.backoff w.cancelled settings.backoff.retries.toNat 0 s.moment).map
    fun (moment, answer) => .asked s.session.attempts.length moment request answer

/-- The calls by which a state has a candidate checked. -/
def checkLog (s : State) (candidate : Role) : List Inquiry :=
  ((check w candidate).log settings.backoff w.cancelled settings.backoff.retries.toNat 0
    s.moment).map fun (moment, answer) => .checked s.session.attempts.length moment candidate answer

/-- The record of the calls by which a state has a request answered. -/
def askRecord (s : State) (request : Request) : CallRecord String GenerationError :=
  (ask w request).persistently settings.backoff w.cancelled s.moment

/-- The record of the calls by which a state has a candidate checked. -/
def checkRecord (s : State) (candidate : Role) : CallRecord Report Check.GatewayError :=
  (check w candidate).persistently settings.backoff w.cancelled s.moment

/-- The state after a look whether the session is cancelled. -/
def looked (s : State) : State := { s with moment := s.moment.looked }

/-- The calls that the next step makes. -/
def inquiries (s : State) : List Inquiry :=
  if w.cancelled s.moment then []
  else
    match s.phase with
    | .generating request => askLog w settings (looked s) request
    | .validating _ candidate _ => checkLog w settings (looked s) candidate
    | .start | .repairing .. | .concluded _ | .crashed _ => []

/-- The state of a session after so many steps. -/
def stateAfter (n : Nat) : State :=
  (step w settings registry cookbook)^[n] (initial settings cookbook)

theorem stateAfter_succ (n : Nat) : stateAfter w settings registry cookbook (n + 1) =
    step w settings registry cookbook (stateAfter w settings registry cookbook n) :=
  Function.iterate_succ_apply' _ _ _

/-- The calls that a session makes in so many steps. -/
def callsBefore : Nat → List Inquiry
  | 0 => []
  | n + 1 => callsBefore n ++ inquiries w settings (stateAfter w settings registry cookbook n)

/-- So many steps are enough for a session to end. -/
def steps : Nat := (initial settings cookbook).remaining

/-- A session that makes at least one attempt takes three steps for each. -/
theorem steps_eq {settings : SessionSettings} (atLeastOne : 1 ≤ settings.attempts) :
    steps settings cookbook = 3 * settings.attempts := by
  show 3 * (settings.attempts - 1) + 3 = 3 * settings.attempts
  omega

/-- The calls of a whole session. -/
def transcript : List Inquiry :=
  callsBefore w settings registry cookbook (steps settings cookbook)

/-! ## The sequence ends -/

/-- A session that has ended takes no further step. -/
theorem step_of_ended {s : State} (closed : s.ended?.isSome) :
    step w settings registry cookbook s = s := by
  obtain ⟨session, moment, left, phase⟩ := s
  cases phase with
  | concluded outcome => rfl
  | crashed message => rfl
  | start | generating _ | validating _ _ _ | repairing _ _ => cases closed

/-- A session that has ended makes no further call. -/
theorem inquiries_of_ended {s : State} (closed : s.ended?.isSome) :
    inquiries w settings s = [] := by
  obtain ⟨session, moment, left, phase⟩ := s
  unfold inquiries
  split
  · rfl
  · cases phase with
    | concluded outcome => rfl
    | crashed message => rfl
    | start | generating _ | validating _ _ _ | repairing _ _ => cases closed

/-- A session with nothing left to do has ended. -/
theorem isSome_ended_of_remaining {s : State} (done : s.remaining = 0) : s.ended?.isSome := by
  obtain ⟨session, moment, left, phase⟩ := s
  cases phase with
  | concluded outcome => rfl
  | crashed message => rfl
  | start | generating _ | validating _ _ _ | repairing _ _ =>
      simp [State.remaining] at done

theorem finish_of_ended {s : State} {concluded : Concluded} (closed : s.ended? = some concluded) :
    finish w settings registry cookbook s = concluded := by
  rw [finish]
  split <;> simp_all

theorem finish_step {s : State} (going : s.ended? = none) :
    finish w settings registry cookbook (step w settings registry cookbook s) =
      finish w settings registry cookbook s := by
  conv => rhs; rw [finish]
  split <;> simp_all

/-- Enough steps from any state lead to where `finish` leads. -/
theorem ended_iterate_step (n : Nat) (s : State) (enough : s.remaining ≤ n) :
    ((step w settings registry cookbook)^[n] s).ended? =
      some (finish w settings registry cookbook s) := by
  induction n generalizing s with
  | zero =>
      obtain ⟨concluded, closed⟩ := Option.isSome_iff_exists.mp
        (isSome_ended_of_remaining (Nat.le_zero.mp enough))
      rw [Function.iterate_zero_apply, closed, finish_of_ended w settings registry cookbook closed]
  | succ n ih =>
      rw [Function.iterate_succ_apply]
      cases closed : s.ended? with
      | none =>
          have less := remaining_step w settings registry cookbook s closed
          rw [ih _ (by omega), finish_step w settings registry cookbook closed]
      | some concluded =>
          have still := step_of_ended w settings registry cookbook (Option.isSome_of_mem closed)
          rw [still, Function.iterate_fixed still, closed,
            finish_of_ended w settings registry cookbook closed]

/-- Every session ends within its steps, and `convert` gives it as it ended. -/
theorem ended_stateAfter :
    (stateAfter w settings registry cookbook (steps settings cookbook)).ended? =
      some (convert w settings registry cookbook) :=
  ended_iterate_step w settings registry cookbook _ _ (Nat.le_refl _)

/-- A session that has ended stays where it is and calls nothing more. -/
theorem stateAfter_add_of_ended {n : Nat}
    (closed : (stateAfter w settings registry cookbook n).ended?.isSome) (k : Nat) :
    stateAfter w settings registry cookbook (n + k) = stateAfter w settings registry cookbook n ∧
      callsBefore w settings registry cookbook (n + k) =
        callsBefore w settings registry cookbook n := by
  induction k with
  | zero => exact ⟨rfl, rfl⟩
  | succ k ih =>
      rw [← Nat.add_assoc, stateAfter_succ, callsBefore, ih.1, ih.2,
        step_of_ended w settings registry cookbook closed, inquiries_of_ended w settings closed,
        List.append_nil]
      exact ⟨rfl, rfl⟩

variable {w settings registry cookbook} in
/-- A session that has ended stands where it stands after all its steps, with all its calls. -/
theorem stateAfter_of_ended {n : Nat}
    (closed : (stateAfter w settings registry cookbook n).ended?.isSome) :
    stateAfter w settings registry cookbook n =
        stateAfter w settings registry cookbook (steps settings cookbook) ∧
      callsBefore w settings registry cookbook n = transcript w settings registry cookbook := by
  have atEnd := Option.isSome_of_mem (ended_stateAfter w settings registry cookbook)
  obtain ⟨state, calls⟩ :=
    stateAfter_add_of_ended w settings registry cookbook closed (steps settings cookbook)
  obtain ⟨lastState, lastCalls⟩ := stateAfter_add_of_ended w settings registry cookbook atEnd n
  rw [Nat.add_comm] at lastState lastCalls
  exact ⟨state.symm.trans lastState, calls.symm.trans lastCalls⟩

variable {w settings registry cookbook} in
/-- A session that crashes never comes to an outcome. -/
theorem not_concluded_of_crashed {n : Nat} {message : String}
    (crashed : (stateAfter w settings registry cookbook n).phase = .crashed message) (m : Nat)
    (outcome : Outcome) :
    (stateAfter w settings registry cookbook m).phase ≠ .concluded outcome := by
  intro concluded
  have here := (stateAfter_of_ended (by rw [State.ended?, crashed]; rfl)).1
  have there := (stateAfter_of_ended (by rw [State.ended?, concluded]; rfl)).1
  rw [here, ← there, concluded] at crashed
  cases crashed

/-- A session ends with an outcome of its own, or because whoever worked on it died. -/
theorem convert_eq :
    let s := stateAfter w settings registry cookbook (steps settings cookbook)
    (∃ outcome, s.phase = .concluded outcome ∧
        convert w settings registry cookbook = s.session.conclude outcome) ∨
      ∃ message, s.phase = .crashed message ∧
        convert w settings registry cookbook = .crashed s.session.cookbook message := by
  have closed := ended_stateAfter w settings registry cookbook
  generalize stateAfter w settings registry cookbook (steps settings cookbook) = s at closed
  obtain ⟨session, moment, left, phase⟩ := s
  cases phase with
  | concluded outcome => exact .inl ⟨outcome, rfl, (Option.some.inj closed).symm⟩
  | crashed message => exact .inr ⟨message, rfl, (Option.some.inj closed).symm⟩
  | start | generating _ | validating _ _ _ | repairing _ _ => cases closed

/-! ## What a call leaves behind -/

/-- The state once the generator has been called, whatever came of it. -/
def asked (s : State) (request : Request) : State :=
  let call := (ask w request).persistently settings.backoff w.cancelled s.moment
  let session := (entered s .generating).onLatest fun a => { a with generatorCalls := call.calls }
  let session := call.retries.foldl (fun session retry =>
    session.record (.generationRetried s.session.attempts.length retry.number retry.error.message
      retry.delay)) session
  { s with session, moment := call.moment }

/-- The state once the gateway has been called, whatever came of it. -/
def checked (s : State) (candidate : Role) : State :=
  let call := (check w candidate).persistently settings.backoff w.cancelled s.moment
  let session := (entered s .validating).onLatest fun a => { a with gatewayCalls := call.calls }
  let session := call.retries.foldl (fun session retry =>
    session.record (.gatewayRetried s.session.attempts.length retry.number retry.error.message
      retry.delay)) session
  { s with session, moment := call.moment }

/-- The state once the report on the candidate of an attempt is stored. -/
def reported (s : State) (attempt : Nat) (report : Report) : State :=
  let session := s.session.record
    (.validationFinished attempt report.ok report.blocking.length)
  { s with session := session.onLatest fun a => { a with report := some report } }

/-- The state once an answer is stored. -/
def received (s : State) (text : String) : State :=
  { s with session := s.session.onLatest fun a => { a with response := some text } }

/-- The state once an answer without files has its report. -/
def faulted (s : State) (report : Report) : State :=
  { s with session := s.session.onLatest fun a => { a with report := some report } }

/-- The state once a candidate is stored. -/
def produced (s : State) (candidate : Role) : State :=
  let fingerprint := Fingerprint.ofRole candidate
  let session := s.session.onLatest fun a =>
    { a with candidate := some candidate, fingerprint := some fingerprint }
  let event := .candidateProduced session.attempts.length candidate.size fingerprint
  { s with session := session.record event }

/-- Recording events leaves the attempts as they are. -/
theorem attempts_foldl_record {β : Type} (event : β → Event) (items : List β) (s : Session) :
    (items.foldl (fun s item => s.record (event item)) s).attempts = s.attempts := by
  induction items generalizing s with
  | nil => rfl
  | cons item items ih =>
      rw [List.foldl_cons, ih, Session.attempts_record]

theorem explains_ask (s : State) (request : Request) :
    (ask w request).Explains
      ((ask w request).log settings.backoff w.cancelled settings.backoff.retries.toNat 0 s.moment)
      s.moment
      ((ask w request).persistently settings.backoff w.cancelled s.moment) :=
  (ask w request).explains_log settings.backoff w.cancelled _ _ _

theorem explains_check (s : State) (candidate : Role) :
    (check w candidate).Explains
      ((check w candidate).log settings.backoff w.cancelled settings.backoff.retries.toNat 0
        s.moment) s.moment
      ((check w candidate).persistently settings.backoff w.cancelled s.moment) :=
  (check w candidate).explains_log settings.backoff w.cancelled _ _ _

@[simp]
theorem attempts_asked (s : State) (request : Request) :
    (asked w settings s request).session.attempts = s.session.attempts.modifyHead fun a =>
      { a with generatorCalls := .ofNat (askLog w settings s request).length } := by
  have calls := (explains_ask w settings s request).calls
  simp only [asked, attempts_foldl_record, Session.attempts_onLatest, entered,
    Session.attempts_record, calls, askLog, List.length_map]

@[simp]
theorem attempts_checked (s : State) (candidate : Role) :
    (checked w settings s candidate).session.attempts = s.session.attempts.modifyHead fun a =>
      { a with gatewayCalls := .ofNat (checkLog w settings s candidate).length } := by
  have calls := (explains_check w settings s candidate).calls
  simp only [checked, attempts_foldl_record, Session.attempts_onLatest, entered,
    Session.attempts_record, calls, checkLog, List.length_map]

@[simp]
theorem attempts_reported (s : State) (attempt : Nat) (report : Report) :
    (reported s attempt report).session.attempts =
      s.session.attempts.modifyHead fun a => { a with report := some report } := by
  simp [reported]

@[simp]
theorem attempts_received (s : State) (text : String) :
    (received s text).session.attempts =
      s.session.attempts.modifyHead fun a => { a with response := some text } := by
  simp [received]

@[simp]
theorem attempts_faulted (s : State) (report : Report) :
    (faulted s report).session.attempts =
      s.session.attempts.modifyHead fun a => { a with report := some report } := by
  simp [faulted]

@[simp]
theorem attempts_produced (s : State) (candidate : Role) :
    (produced s candidate).session.attempts = s.session.attempts.modifyHead fun a =>
      { a with
        candidate := some candidate
        fingerprint := some (Fingerprint.ofRole candidate) } := by
  simp [produced]

@[simp]
theorem attempts_looked (s : State) : (looked s).session.attempts = s.session.attempts := rfl

@[simp]
theorem session_judge (s : State) (request : Request) (report : Report) :
    (judge s request report).session = s.session := by
  unfold judge
  split <;> rfl

@[simp]
theorem moment_judge (s : State) (request : Request) (report : Report) :
    (judge s request report).moment = s.moment := by
  unfold judge
  split <;> rfl

/-- An answer without files is stored with a report on it. -/
theorem attempts_vacant (s : State) (request : Request) (text : String) (report : Report) :
    (judge (faulted (received s text) report) request report).session.attempts =
      s.session.attempts.modifyHead fun a =>
        { a with response := some text, report := some report } := by
  rw [session_judge, attempts_faulted, attempts_received, List.modifyHead_modifyHead]
  rfl

/-- An answer with files is stored with the candidate that it makes. -/
theorem attempts_filled (s : State) (text : String) (candidate : Role) :
    (produced (received s text) candidate).session.attempts =
      s.session.attempts.modifyHead fun a =>
        { a with
          response := some text
          candidate := some candidate
          fingerprint := some (Fingerprint.ofRole candidate) } := by
  rw [attempts_produced, attempts_received, List.modifyHead_modifyHead]
  rfl

/-- The session begins with an attempt at the request for the whole cookbook. -/
theorem attempts_begin (s : State) :
    (begin settings registry cookbook s).session.attempts =
      .fresh (s.session.attempts.length + 1)
        (Request.build cookbook registry settings.examples) :: s.session.attempts := rfl

/-- The feedback by which an attempt is repaired. -/
def feedback (s : State) (report : Report) : Feedback :=
  Feedback.ofReport report s.session.reviews

/-- A repair leaves feedback with the attempt it repairs and begins another one. -/
theorem attempts_repair {s : State} {latest : Attempt} {earlier : List Attempt}
    (attempts : s.session.attempts = latest :: earlier) (request : Request) (report : Report) :
    (repair s request report).session.attempts =
      .fresh (earlier.length + 1 + 1)
          (request.withFeedback (earlier.length + 1 + 1) (feedback s report)) ::
        { latest with feedback := some (feedback s report) } :: earlier := by
  simp only [repair, entered, Session.attempts_begin, Session.attempts_onLatest,
    Session.attempts_record, attempts, List.modifyHead_cons, List.length_cons, feedback]

theorem phase_repair {s : State} {latest : Attempt} {earlier : List Attempt}
    (attempts : s.session.attempts = latest :: earlier) (request : Request) (report : Report) :
    (repair s request report).phase =
      .generating (request.withFeedback (earlier.length + 1 + 1) (feedback s report)) := by
  simp only [repair, entered, Session.attempts_onLatest, Session.attempts_record, attempts,
    List.modifyHead_cons, List.length_cons, feedback]

@[simp]
theorem left_asked (s : State) (request : Request) :
    (asked w settings s request).left = s.left := rfl

@[simp]
theorem left_checked (s : State) (candidate : Role) :
    (checked w settings s candidate).left = s.left := rfl

@[simp]
theorem left_reported (s : State) (attempt : Nat) (report : Report) :
    (reported s attempt report).left = s.left := rfl

@[simp]
theorem left_received (s : State) (text : String) : (received s text).left = s.left := rfl

@[simp]
theorem left_faulted (s : State) (report : Report) : (faulted s report).left = s.left := rfl

@[simp]
theorem left_produced (s : State) (candidate : Role) : (produced s candidate).left = s.left := rfl

@[simp]
theorem left_looked (s : State) : (looked s).left = s.left := rfl

/-- Every call of the generator belongs to the latest attempt and is answered by the generator. -/
theorem of_mem_askLog {s : State} {request : Request} {i : Inquiry}
    (member : i ∈ askLog w settings s request) :
    i.attempt = s.session.attempts.length ∧ i.isAsked = true ∧ i.isChecked = false ∧
      i.IsMadeTo w := by
  obtain ⟨entry, logged, rfl⟩ := List.mem_map.mp member
  exact ⟨rfl, rfl, rfl, (ask w request).answer_of_mem_log settings.backoff w.cancelled logged⟩

/-- Every call of the gateway belongs to the latest attempt and is answered by the gateway. -/
theorem of_mem_checkLog {s : State} {candidate : Role} {i : Inquiry}
    (member : i ∈ checkLog w settings s candidate) :
    i.attempt = s.session.attempts.length ∧ i.isAsked = false ∧ i.isChecked = true ∧
      i.IsMadeTo w := by
  obtain ⟨entry, logged, rfl⟩ := List.mem_map.mp member
  exact ⟨rfl, rfl, rfl, (check w candidate).answer_of_mem_log settings.backoff w.cancelled logged⟩

theorem countP_isAsked_askLog (s : State) (request : Request) :
    (askLog w settings s request).countP Inquiry.isAsked =
      (askLog w settings s request).length :=
  List.countP_eq_length.mpr fun _ member => (of_mem_askLog w settings member).2.1

theorem countP_isChecked_askLog (s : State) (request : Request) :
    (askLog w settings s request).countP Inquiry.isChecked = 0 :=
  List.countP_eq_zero.mpr fun _ member =>
    Bool.eq_false_iff.mp (of_mem_askLog w settings member).2.2.1

theorem countP_isAsked_checkLog (s : State) (candidate : Role) :
    (checkLog w settings s candidate).countP Inquiry.isAsked = 0 :=
  List.countP_eq_zero.mpr fun _ member =>
    Bool.eq_false_iff.mp (of_mem_checkLog w settings member).2.1

theorem countP_isChecked_checkLog (s : State) (candidate : Role) :
    (checkLog w settings s candidate).countP Inquiry.isChecked =
      (checkLog w settings s candidate).length :=
  List.countP_eq_length.mpr fun _ member => (of_mem_checkLog w settings member).2.2.1

theorem length_askLog_le (s : State) (request : Request) :
    (askLog w settings s request).length ≤ settings.backoff.retries.toNat + 1 := by
  rw [askLog, List.length_map]
  exact (ask w request).length_log_le settings.backoff w.cancelled _ _ _

theorem length_checkLog_le (s : State) (candidate : Role) :
    (checkLog w settings s candidate).length ≤ settings.backoff.retries.toNat + 1 := by
  rw [checkLog, List.length_map]
  exact (check w candidate).length_log_le settings.backoff w.cancelled _ _ _

/-- Calling the generator moves on its own count of calls, and not the one of the gateway. -/
theorem moment_asked (s : State) (request : Request) :
    (asked w settings s request).moment.generations =
        s.moment.generations + (askLog w settings s request).length ∧
      (asked w settings s request).moment.validations = s.moment.validations := by
  have counted := (explains_ask w settings s request).counted
  have generations := counted Moment.generations 1 (fun _ => rfl) fun _ => rfl
  have validations := counted Moment.validations 0 (fun _ => rfl) fun _ => rfl
  rw [Nat.one_mul] at generations
  rw [Nat.zero_mul] at validations
  rw [askLog, List.length_map]
  exact ⟨generations, validations⟩

/-- Calling the gateway moves on its own count of calls, and not the one of the generator. -/
theorem moment_checked (s : State) (candidate : Role) :
    (checked w settings s candidate).moment.validations =
        s.moment.validations + (checkLog w settings s candidate).length ∧
      (checked w settings s candidate).moment.generations = s.moment.generations := by
  have counted := (explains_check w settings s candidate).counted
  have validations := counted Moment.validations 1 (fun _ => rfl) fun _ => rfl
  have generations := counted Moment.generations 0 (fun _ => rfl) fun _ => rfl
  rw [Nat.one_mul] at validations
  rw [Nat.zero_mul] at generations
  rw [checkLog, List.length_map]
  exact ⟨validations, generations⟩

/-! ## What one step can do -/

/-- What a step makes of a state, and the calls it takes. A call of the generator or the gateway is
answered, given up, fatal, or broken off in the wait after it, by the sign to stop or by the clock;
an answer has files or none, and a report is clean or not. Nothing else happens. -/
inductive Transition (s : State) : List Inquiry → State → Prop
  /-- The session is told to stop before it goes on. -/
  | stopped (going : s.ended? = none) (told : w.cancelled s.moment = true) :
      Transition s [] (cancel (looked s))
  | begun (now : s.phase = .start) :
      Transition s [] (begin settings registry cookbook (looked s))
  /-- The generator answers without any file. -/
  | vacant {request : Request} {text : String} {earlier : List Inquiry} {moment : Moment}
      (now : s.phase = .generating request)
      (calls : askLog w settings (looked s) request =
        earlier ++ [.asked s.session.attempts.length moment request (.given text)])
      (empty : (Response.parse text.toList).role.isEmpty = true)
      (result : (askRecord w settings (looked s) request).result = .answered text) :
      Transition s (askLog w settings (looked s) request)
        (judge
          (faulted (received (asked w settings (looked s) request) text)
            (.ofDiagnostics (Response.parse text.toList).defects))
          request (.ofDiagnostics (Response.parse text.toList).defects))
  /-- The generator answers with files. -/
  | filled {request : Request} {text : String} {earlier : List Inquiry} {moment : Moment}
      (now : s.phase = .generating request)
      (calls : askLog w settings (looked s) request =
        earlier ++ [.asked s.session.attempts.length moment request (.given text)])
      (full : (Response.parse text.toList).role.isEmpty = false)
      (result : (askRecord w settings (looked s) request).result = .answered text) :
      Transition s (askLog w settings (looked s) request)
        { produced (received (asked w settings (looked s) request) text)
            ((Response.parse text.toList).role.complete cookbook) with
          phase := .validating request ((Response.parse text.toList).role.complete cookbook)
            (Response.parse text.toList).defects }
  | unanswered {request : Request} {error : GenerationError} {earlier : List Inquiry}
      {moment : Moment} (now : s.phase = .generating request)
      (calls : askLog w settings (looked s) request =
        earlier ++ [.asked s.session.attempts.length moment request (.failed error)])
      (result : (askRecord w settings (looked s) request).result = .gaveUp error) :
      Transition s (askLog w settings (looked s) request)
        (giveUp (asked w settings (looked s) request)
          (if error.isRetryable then .generationUnavailable error.message
            else .generationRejected error.message))
  | askingStopped {request : Request} (now : s.phase = .generating request)
      (result : (askRecord w settings (looked s) request).result = .cancelled) :
      Transition s (askLog w settings (looked s) request)
        (cancel (asked w settings (looked s) request))
  | askingDied {request : Request} {message : String} {earlier : List Inquiry} {moment : Moment}
      (now : s.phase = .generating request)
      (calls : askLog w settings (looked s) request =
        earlier ++ [.asked s.session.attempts.length moment request (.fatal message)])
      (result : (askRecord w settings (looked s) request).result = .died message) :
      Transition s (askLog w settings (looked s) request)
        { asked w settings (looked s) request with phase := .crashed message }
  /-- No clock shows the end of the wait before the generator is called again. -/
  | askingOverran {request : Request} {error : GenerationError} {earlier : List Inquiry}
      {moment : Moment} (now : s.phase = .generating request)
      (calls : askLog w settings (looked s) request =
        earlier ++ [.asked s.session.attempts.length moment request (.failed error)])
      (result : (askRecord w settings (looked s) request).result = .overran) :
      Transition s (askLog w settings (looked s) request)
        { asked w settings (looked s) request with phase := .crashed Pause.overrunMessage }
  /-- The gateway finds nothing that blocks the candidate. -/
  | accepted {request : Request} {candidate : Role} {defects : List Diagnostic} {found : Report}
      {earlier : List Inquiry} {moment : Moment}
      (now : s.phase = .validating request candidate defects)
      (calls : checkLog w settings (looked s) candidate =
        earlier ++ [.checked s.session.attempts.length moment candidate (.given found)])
      (clean : (merged defects found).isClean = true)
      (result : (checkRecord w settings (looked s) candidate).result = .answered found) :
      Transition s (checkLog w settings (looked s) candidate)
        { reported (checked w settings (looked s) candidate) s.session.attempts.length
            (merged defects found) with
          phase := .concluded (.succeeded candidate) }
  | rejected {request : Request} {candidate : Role} {defects : List Diagnostic} {found : Report}
      {earlier : List Inquiry} {moment : Moment}
      (now : s.phase = .validating request candidate defects)
      (calls : checkLog w settings (looked s) candidate =
        earlier ++ [.checked s.session.attempts.length moment candidate (.given found)])
      (blocked : (merged defects found).isClean = false)
      (result : (checkRecord w settings (looked s) candidate).result = .answered found) :
      Transition s (checkLog w settings (looked s) candidate)
        (judge
          (reported (checked w settings (looked s) candidate) s.session.attempts.length
            (merged defects found))
          request (merged defects found))
  | unchecked {request : Request} {candidate : Role} {defects : List Diagnostic}
      {error : Check.GatewayError} {earlier : List Inquiry} {moment : Moment}
      (now : s.phase = .validating request candidate defects)
      (calls : checkLog w settings (looked s) candidate =
        earlier ++ [.checked s.session.attempts.length moment candidate (.failed error)])
      (result : (checkRecord w settings (looked s) candidate).result = .gaveUp error) :
      Transition s (checkLog w settings (looked s) candidate)
        { checked w settings (looked s) candidate with
          phase := .concluded
            (.failed (.gatewayUnavailable error.message) (some candidate) defects) }
  | checkingStopped {request : Request} {candidate : Role} {defects : List Diagnostic}
      (now : s.phase = .validating request candidate defects)
      (result : (checkRecord w settings (looked s) candidate).result = .cancelled) :
      Transition s (checkLog w settings (looked s) candidate)
        (cancel (checked w settings (looked s) candidate))
  | checkingDied {request : Request} {candidate : Role} {defects : List Diagnostic}
      {message : String} {earlier : List Inquiry} {moment : Moment}
      (now : s.phase = .validating request candidate defects)
      (calls : checkLog w settings (looked s) candidate =
        earlier ++ [.checked s.session.attempts.length moment candidate (.fatal message)])
      (result : (checkRecord w settings (looked s) candidate).result = .died message) :
      Transition s (checkLog w settings (looked s) candidate)
        { checked w settings (looked s) candidate with phase := .crashed message }
  /-- No clock shows the end of the wait before the gateway is called again. -/
  | checkingOverran {request : Request} {candidate : Role} {defects : List Diagnostic}
      {error : Check.GatewayError} {earlier : List Inquiry} {moment : Moment}
      (now : s.phase = .validating request candidate defects)
      (calls : checkLog w settings (looked s) candidate =
        earlier ++ [.checked s.session.attempts.length moment candidate (.failed error)])
      (result : (checkRecord w settings (looked s) candidate).result = .overran) :
      Transition s (checkLog w settings (looked s) candidate)
        { checked w settings (looked s) candidate with phase := .crashed Pause.overrunMessage }
  | repaired {request : Request} {report : Report} (now : s.phase = .repairing request report) :
      Transition s [] (repair (looked s) request report)

/-- The last call of the generator is the one that decides what becomes of a request. -/
theorem askLog_ends (s : State) (request : Request) :
    ∃ earlier moment answer, askLog w settings s request =
        earlier ++ [.asked s.session.attempts.length moment request answer] ∧
      ((ask w request).persistently settings.backoff w.cancelled s.moment).result.EndsWith
        answer := by
  obtain ⟨earlier, ⟨moment, answer⟩, log, ends⟩ := (explains_ask w settings s request).ends
  have calls := congrArg (List.map fun (moment, answer) =>
    Inquiry.asked s.session.attempts.length moment request answer) log
  rw [List.map_append] at calls
  exact ⟨_, moment, answer, calls, ends⟩

/-- The last call of the gateway is the one that decides what becomes of a candidate. -/
theorem checkLog_ends (s : State) (candidate : Role) :
    ∃ earlier moment answer, checkLog w settings s candidate =
        earlier ++ [.checked s.session.attempts.length moment candidate answer] ∧
      ((check w candidate).persistently settings.backoff w.cancelled s.moment).result.EndsWith
        answer := by
  obtain ⟨earlier, ⟨moment, answer⟩, log, ends⟩ := (explains_check w settings s candidate).ends
  have calls := congrArg (List.map fun (moment, answer) =>
    Inquiry.checked s.session.attempts.length moment candidate answer) log
  rw [List.map_append] at calls
  exact ⟨_, moment, answer, calls, ends⟩

theorem receive_eq (s : State) (request : Request) (text : String) :
    receive cookbook s request text =
      let response := Response.parse text.toList
      if response.role.isEmpty then
        judge (faulted (received s text) (.ofDiagnostics response.defects)) request
          (.ofDiagnostics response.defects)
      else
        { produced (received s text) (response.role.complete cookbook) with
          phase := .validating request (response.role.complete cookbook) response.defects } := rfl

theorem generate_eq (s : State) (request : Request) :
    generate w settings cookbook s request =
      match ((ask w request).persistently settings.backoff w.cancelled s.moment).result with
      | .answered text => receive cookbook (asked w settings s request) request text
      | .gaveUp error =>
        giveUp (asked w settings s request)
          (if error.isRetryable then .generationUnavailable error.message
            else .generationRejected error.message)
      | .cancelled => cancel (asked w settings s request)
      | .died message => { asked w settings s request with phase := .crashed message }
      | .overran => { asked w settings s request with phase := .crashed Pause.overrunMessage } :=
  rfl

theorem validate_eq (s : State) (request : Request) (candidate : Role)
    (defects : List Diagnostic) :
    validate w settings s request candidate defects =
      match ((check w candidate).persistently settings.backoff w.cancelled s.moment).result with
      | .answered found =>
        let report := merged defects found
        let t := reported (checked w settings s candidate) s.session.attempts.length report
        if report.isClean then { t with phase := .concluded (.succeeded candidate) }
        else judge t request report
      | .gaveUp error =>
        { checked w settings s candidate with
          phase := .concluded
            (.failed (.gatewayUnavailable error.message) (some candidate) defects) }
      | .cancelled => cancel (checked w settings s candidate)
      | .died message => { checked w settings s candidate with phase := .crashed message }
      | .overran =>
        { checked w settings s candidate with phase := .crashed Pause.overrunMessage } :=
  rfl

theorem transition_generate {s : State} {request : Request} (now : s.phase = .generating request) :
    Transition w settings registry cookbook s (askLog w settings (looked s) request)
      (generate w settings cookbook (looked s) request) := by
  obtain ⟨earlier, moment, answer, calls, ends⟩ := askLog_ends w settings (looked s) request
  rw [generate_eq]
  generalize same : ((ask w request).persistently _ _ _).result = result at ends
  cases ends with
  | answered text =>
      dsimp only [receive_eq]
      split
      · rename_i empty
        exact .vacant now calls empty same
      · rename_i full
        exact .filled now calls (Bool.eq_false_iff.mpr full) same
  | gaveUp error => exact .unanswered now calls same
  | cancelled error => exact .askingStopped now same
  | died message => exact .askingDied now calls same
  | overran error => exact .askingOverran now calls same

theorem transition_validate {s : State} {request : Request} {candidate : Role}
    {defects : List Diagnostic} (now : s.phase = .validating request candidate defects) :
    Transition w settings registry cookbook s (checkLog w settings (looked s) candidate)
      (validate w settings (looked s) request candidate defects) := by
  obtain ⟨earlier, moment, answer, calls, ends⟩ := checkLog_ends w settings (looked s) candidate
  rw [validate_eq]
  generalize same : ((check w candidate).persistently _ _ _).result = result at ends
  cases ends with
  | answered found =>
      dsimp only
      split
      · rename_i clean
        exact .accepted now calls clean same
      · rename_i blocked
        exact .rejected now calls (Bool.eq_false_iff.mpr blocked) same
  | gaveUp error => exact .unchecked now calls same
  | cancelled error => exact .checkingStopped now same
  | died message => exact .checkingDied now calls same
  | overran error => exact .checkingOverran now calls same

/-- A step of a session that goes on is one of the transitions, with the calls of that step. -/
theorem transition_step {s : State} (going : s.ended? = none) :
    Transition w settings registry cookbook s (inquiries w settings s)
      (step w settings registry cookbook s) := by
  obtain ⟨session, moment, left, phase⟩ := s
  unfold step inquiries
  cases told : w.cancelled moment with
  | true =>
      cases phase with
      | concluded outcome => cases going
      | crashed message => cases going
      | start | generating _ | validating _ _ _ | repairing _ _ =>
          simpa only [told, if_true] using .stopped going told
  | false =>
      simp only [Bool.false_eq_true, if_false]
      cases phase with
      | concluded outcome => cases going
      | crashed message => cases going
      | start => exact .begun rfl
      | generating request => exact transition_generate w settings registry cookbook rfl
      | validating request candidate defects =>
          exact transition_validate w settings registry cookbook rfl
      | repairing request report => exact .repaired rfl

/-- Only a session that has not ended takes a step. -/
theorem ended_of_transition {s next : State} {made : List Inquiry}
    (t : Transition w settings registry cookbook s made next) : s.ended? = none := by
  cases t with
  | stopped going _ => exact going
  | begun now | repaired now => simp [State.ended?, now]
  | vacant now _ _ _ | filled now _ _ _ | unanswered now _ _ | askingStopped now _
  | askingDied now _ _ | askingOverran now _ _ => simp [State.ended?, now]
  | accepted now _ _ _ | rejected now _ _ _ | unchecked now _ _ | checkingStopped now _
  | checkingDied now _ _ | checkingOverran now _ _ => simp [State.ended?, now]

variable {w settings registry cookbook} in
/-- A session that has crashed takes no further step. -/
theorem not_crashed_of_transition {s next : State} {made : List Inquiry}
    (t : Transition w settings registry cookbook s made next) :
    ¬ ∃ message, s.phase = .crashed message := by
  rintro ⟨message, crashed⟩
  have going := ended_of_transition w settings registry cookbook t
  simp [State.ended?, crashed] at going

/-- What holds at the start and is kept by every transition holds at every moment of a run. -/
theorem invariant (holds : State → List Inquiry → Prop)
    (initially : holds (initial settings cookbook) [])
    (kept : ∀ s calls made next, holds s calls →
      Transition w settings registry cookbook s made next → holds next (calls ++ made)) (n : Nat) :
    holds (stateAfter w settings registry cookbook n)
      (callsBefore w settings registry cookbook n) := by
  induction n with
  | zero => exact initially
  | succ n ih =>
      rw [stateAfter_succ, callsBefore]
      cases closed : (stateAfter w settings registry cookbook n).ended? with
      | none => exact kept _ _ _ _ ih (transition_step w settings registry cookbook closed)
      | some concluded =>
          -- Nothing happens any more: no calls, and the same state.
          have isSome := Option.isSome_of_mem closed
          rw [inquiries_of_ended w settings isSome, List.append_nil]
          rwa [step_of_ended w settings registry cookbook isSome]

end Run

end Rolewright
