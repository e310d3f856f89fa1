/-
# Running a session

A session goes from phase to phase: it asks the generator, completes what the answer holds, has the
candidate checked, and when the candidate is rejected asks again with feedback, as long as attempts
are left. Calls that fail are repeated within their phase and never cost an attempt; an answer
without files does. Between phases and during waits the session looks whether it is cancelled,
never during a call. When whoever works on a session dies, in a call or in a wait whose end no clock
shows, all that is left of the session is that it crashed.

Every step but the last one lowers the measure `State.remaining`, so a session always ends.
-/

import Rolewright.Check.Gateway
import Rolewright.Conversion.Persistence
import Rolewright.Conversion.Session
import Rolewright.Fingerprint.Basic
import Rolewright.Generator.Basic
import Rolewright.Role.Assembly
import Rolewright.Role.Response

namespace Rolewright

/-- All that a session deals with and does not control. -/
structure Surroundings where
  generate : Moment → Request → Answer String GenerationError
  validate : Moment → Role → Answer Report Check.GatewayError
  /-- Whether the session is told to stop. -/
  cancelled : Moment → Bool
  /-- How long the clock has run by a moment. -/
  clock : Moment → Duration

/-- How sessions are run. -/
structure SessionSettings where
  /-- How many attempts are made; at least one is. -/
  attempts : Nat
  backoff : Backoff
  /-- How many worked examples a request carries. -/
  examples : Nat
deriving DecidableEq, Repr

/-- What a session does next, and on what. -/
inductive Phase where
  | start
  | generating (request : Request)
  | validating (request : Request) (candidate : Role) (defects : List Diagnostic)
  | repairing (request : Request) (report : Report)
  | concluded (outcome : Outcome)
  | crashed (message : String)
deriving Repr

/-- A session under way and what it does next. -/
structure State where
  session : Session
  moment : Moment
  /-- How many attempts may still be begun. -/
  left : Nat
  phase : Phase
deriving Repr

namespace State

/-- The session as it ended, once it has. -/
def ended? (s : State) : Option Concluded :=
  match s.phase with
  | .concluded outcome => some (s.session.conclude outcome)
  | .crashed message => some (.crashed s.session.cookbook message)
  | .start | .generating _ | .validating .. | .repairing .. => none

/-- Bounds the steps to the end: a repair uses up an attempt and leads back to the generator. -/
def remaining (s : State) : Nat :=
  match s.phase with
  | .start => 3 * s.left + 3
  | .repairing .. => 3 * s.left + 3
  | .generating _ => 3 * s.left + 2
  | .validating .. => 3 * s.left + 1
  | .concluded _ | .crashed _ => 0

end State

namespace Run

/-- A session before its first step. -/
def initial (settings : SessionSettings) (cookbook : Cookbook) : State :=
  ⟨.fresh cookbook.name, .start, settings.attempts - 1, .start⟩

/-- The session enters a phase. -/
def entered (s : State) (phase : PhaseName) : Session :=
  s.session.record (.phaseEntered phase s.session.attempts.length)

/-- The session is cancelled. -/
def cancel (s : State) : State :=
  let (role, diagnostics) := s.session.bestEffort
  { s with phase := .concluded (.failed .cancelled role diagnostics) }

/-- The session cannot go on for want of an answer. -/
def giveUp (s : State) (reason : FailureReason) : State :=
  { s with phase := .concluded (.failed reason s.session.bestEffort.1 []) }

/-- After a rejected attempt: repairs it if attempts are left, and otherwise fails with the latest
candidate. The diagnostics describe that candidate; those of a later answer without files follow. -/
def judge (s : State) (request : Request) (report : Report) : State :=
  match s.left with
  | left + 1 => { s with left, phase := .repairing request report }
  | 0 =>
    let (role, diagnostics) := s.session.bestEffort
    let latestIsEmpty := s.session.attempts.head?.any (·.candidate.isNone)
    let diagnostics := if latestIsEmpty then diagnostics ++ report.diagnostics else diagnostics
    { s with phase := .concluded (.failed .validationExhausted role diagnostics) }

/-- Builds the first request and begins the first attempt. -/
def begin (settings : SessionSettings) (registry : Mapping.Registry) (cookbook : Cookbook)
    (s : State) : State :=
  let request := Request.build cookbook registry settings.examples
  let session := (entered s .start).record
    (.sessionStarted cookbook.name request.hints.length request.unresolved.length)
  { s with session := session.begin request, phase := .generating request }

/-- Asks the generator. -/
def ask (s : Surroundings) (request : Request) : Call String GenerationError :=
  { answer := fun moment => s.generate moment request
    after := Moment.generated
    mayRepeat := GenerationError.isRetryable
    wait? := GenerationError.wait?
    clock := s.clock }

/-- Asks the gateway. -/
def check (s : Surroundings) (candidate : Role) : Call Report Check.GatewayError :=
  { answer := fun moment => s.validate moment candidate
    after := Moment.validated
    mayRepeat := fun _ => true
    wait? := fun _ => none
    clock := s.clock }

/-- What becomes of an answer of the generator. -/
def receive (cookbook : Cookbook) (s : State) (request : Request) (text : String) : State :=
  let response := Response.parse text.toList
  let session := s.session.onLatest fun a => { a with response := some text }
  if response.role.isEmpty then
    let report := Report.ofDiagnostics response.defects
    judge { s with session := session.onLatest fun a => { a with report := some report } }
      request report
  else
    let candidate := response.role.complete cookbook
    let fingerprint := Fingerprint.ofRole candidate
    let session := session.onLatest fun a =>
      { a with candidate := some candidate, fingerprint := some fingerprint }
    { s with
      session := session.record
        (.candidateProduced session.attempts.length candidate.size fingerprint)
      phase := .validating request candidate response.defects }

/-- Has the generator answer a request. -/
def generate (surroundings : Surroundings) (settings : SessionSettings) (cookbook : Cookbook)
    (s : State) (request : Request) : State :=
  let attempt := s.session.attempts.length
  let call := (ask surroundings request).persistently settings.backoff surroundings.cancelled
    s.moment
  let session := (entered s .generating).onLatest fun a =>
    { a with generatorCalls := call.calls }
  let session := call.retries.foldl (fun session retry =>
    session.record (.generationRetried attempt retry.number retry.error.message retry.delay))
    session
  let s := { s with session, moment := call.moment }
  match call.result with
  | .answered text => receive cookbook s request text
  | .gaveUp error =>
    giveUp s (if error.isRetryable then .generationUnavailable error.message
      else .generationRejected error.message)
  | .cancelled => cancel s
  | .died message => { s with phase := .crashed message }
  | .overran => { s with phase := .crashed Pause.overrunMessage }

/-- The report on a candidate: the defects of the answer it came from, then what the gateway found.
An error among them rejects the candidate, whatever the gateway says. -/
def merged (defects : List Diagnostic) (report : Report) : Report :=
  let diagnostics := defects ++ report.diagnostics
  ⟨report.ok && !diagnostics.any (·.severity = .error), diagnostics⟩

/-- Has the gateway check a candidate. -/
def validate (surroundings : Surroundings) (settings : SessionSettings) (s : State)
    (request : Request) (candidate : Role) (defects : List Diagnostic) : State :=
  let attempt := s.session.attempts.length
  let call := (check surroundings candidate).persistently settings.backoff surroundings.cancelled
    s.moment
  let session := (entered s .validating).onLatest fun a => { a with gatewayCalls := call.calls }
  let session := call.retries.foldl (fun session retry =>
    session.record (.gatewayRetried attempt retry.number retry.error.message retry.delay))
    session
  let s := { s with session, moment := call.moment }
  match call.result with
  | .answered found =>
    let report := merged defects found
    let session := s.session.record
      (.validationFinished attempt report.ok report.blocking.length)
    let s := { s with session := session.onLatest fun a => { a with report := some report } }
    if report.isClean then { s with phase := .concluded (.succeeded candidate) }
    else judge s request report
  | .gaveUp error =>
    let outcome := .failed (.gatewayUnavailable error.message) (some candidate) defects
    { s with phase := .concluded outcome }
  | .cancelled => cancel s
  | .died message => { s with phase := .crashed message }
  | .overran => { s with phase := .crashed Pause.overrunMessage }

/-- Begins another attempt, with feedback on the latest one. -/
def repair (s : State) (request : Request) (report : Report) : State :=
  let feedback := Feedback.ofReport report s.session.reviews
  let session := (entered s .repairing).record
    (.feedbackIssued feedback.attempt feedback.categories feedback.generic)
  let session := session.onLatest fun a => { a with feedback := some feedback }
  let next := request.withFeedback (session.attempts.length + 1) feedback
  { s with session := session.begin next, phase := .generating next }

/-- One step of a session. Before each the session looks whether it is cancelled. -/
def step (surroundings : Surroundings) (settings : SessionSettings) (registry : Mapping.Registry)
    (cookbook : Cookbook) (s : State) : State :=
  let next := { s with moment := s.moment.looked }
  match s.phase with
  | .concluded _ | .crashed _ => s
  | .start =>
    if surroundings.cancelled s.moment then cancel next else begin settings registry cookbook next
  | .generating request =>
    if surroundings.cancelled s.moment then cancel next
    else generate surroundings settings cookbook next request
  | .validating request candidate defects =>
    if surroundings.cancelled s.moment then cancel next
    else validate surroundings settings next request candidate defects
  | .repairing request report =>
    if surroundings.cancelled s.moment then cancel next else repair next request report

/-! ## Every session ends -/

/-- Judging leaves less than any phase before it. -/
theorem remaining_judge (s : State) (request : Request) (report : Report) :
    (judge s request report).remaining ≤ 3 * s.left := by
  unfold judge
  split
  · rename_i left h
    simp only [State.remaining, h]
    omega
  · simp [State.remaining]

theorem remaining_receive (cookbook : Cookbook) (s : State) (request : Request) (text : String) :
    (receive cookbook s request text).remaining ≤ 3 * s.left + 1 := by
  simp only [receive]
  split
  · exact Nat.le_succ_of_le (remaining_judge _ _ _)
  · exact Nat.le_refl _

theorem remaining_generate (surroundings : Surroundings) (settings : SessionSettings)
    (cookbook : Cookbook) (s : State) (request : Request) :
    (generate surroundings settings cookbook s request).remaining ≤ 3 * s.left + 1 := by
  simp only [generate]
  split
  · exact remaining_receive _ _ _ _
  · exact Nat.zero_le _
  · exact Nat.zero_le _
  · exact Nat.zero_le _
  · exact Nat.zero_le _

theorem remaining_validate (surroundings : Surroundings) (settings : SessionSettings) (s : State)
    (request : Request) (candidate : Role) (defects : List Diagnostic) :
    (validate surroundings settings s request candidate defects).remaining ≤ 3 * s.left := by
  simp only [validate]
  split
  · split
    · exact Nat.zero_le _
    · exact remaining_judge _ _ _
  · exact Nat.zero_le _
  · exact Nat.zero_le _
  · exact Nat.zero_le _
  · exact Nat.zero_le _

/-- A step of a session that goes on leaves less to do. -/
theorem remaining_step (surroundings : Surroundings) (settings : SessionSettings)
    (registry : Mapping.Registry) (cookbook : Cookbook) (s : State)
    (going : s.ended? = none) :
    (step surroundings settings registry cookbook s).remaining < s.remaining := by
  obtain ⟨session, moment, left, phase⟩ := s
  cases phase with
  | concluded outcome => cases going
  | crashed message => cases going
  | start =>
    simp only [step]
    split
    · exact Nat.succ_pos _
    · exact Nat.lt_succ_self _
  | generating request =>
    simp only [step]
    split
    · exact Nat.succ_pos _
    · exact Nat.lt_succ_of_le (remaining_generate _ _ _ _ _)
  | validating request candidate defects =>
    simp only [step]
    split
    · exact Nat.succ_pos _
    · exact Nat.lt_succ_of_le (remaining_validate _ _ _ _ _ _)
  | repairing request report =>
    simp only [step]
    split
    · exact Nat.succ_pos _
    · exact Nat.lt_succ_self _

/-- Takes steps until the session has ended. -/
def finish (surroundings : Surroundings) (settings : SessionSettings)
    (registry : Mapping.Registry) (cookbook : Cookbook) (s : State) : Concluded :=
  match _going : s.ended? with
  | some concluded => concluded
  | none =>
    finish surroundings settings registry cookbook
      (step surroundings settings registry cookbook s)
termination_by s.remaining
decreasing_by exact remaining_step _ _ _ _ _ _going

end Run

/-- Runs a session on a cookbook. -/
def convert (surroundings : Surroundings) (settings : SessionSettings)
    (registry : Mapping.Registry) (cookbook : Cookbook) : Concluded :=
  Run.finish surroundings settings registry cookbook (Run.initial settings cookbook)

end Rolewright
