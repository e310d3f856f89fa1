/-
# Records of sessions

What is kept of a session beside the role it made: its attempts in one document, and its events as
one document to a row.
-/

import Rolewright.Conversion.Session
import Rolewright.Json.Basic

namespace Rolewright

/-- The version of the program that a record names. -/
def programVersion : String := "0.3.0"

/-- The record of a finding. -/
def Diagnostic.record (d : Diagnostic) : Json :=
  .obj ([("severity", .str d.severity.word), ("code", .str d.code), ("message", .str d.message)] ++
    Json.fieldOf "location" .str d.location)

/-- The record of a report. -/
def Report.record (r : Report) : Json :=
  .obj [("ok", .bool r.ok), ("diagnostics", .arr (r.diagnostics.map Diagnostic.record))]

/-- The record of what is told about a category. -/
def FeedbackItem.record (item : FeedbackItem) : Json :=
  .obj [
    ("category", .str item.category),
    ("severity", .str item.severity.word),
    ("occurrences", .int item.occurrences),
    ("locations", .ofTexts item.locations),
    ("messages", .ofTexts item.messages),
    ("instruction", .str item.instruction),
    ("recurring", .bool item.recurring)]

/-- The record of feedback. -/
def Feedback.record (f : Feedback) : Json :=
  .obj (
    [("attempt", .int f.attempt), ("items", .arr (f.items.map FeedbackItem.record))] ++
    (if f.resolved.isEmpty then [] else [("resolved", .ofTexts f.resolved)]) ++
    [("generic", .bool f.generic)])

/-- The record of a role. -/
def Role.record (role : Role) : Json :=
  .obj (role.files.map fun (path, content) => (path, .str content))

/-- The record of an attempt. -/
def Attempt.record (a : Attempt) : Json :=
  .obj (
    [("number", .int a.number)] ++
    Json.fieldOf "raw_response" .str a.response ++
    Json.fieldOf "artifact" Role.record a.candidate ++
    Json.fieldOf "fingerprint" .str a.fingerprint ++
    Json.fieldOf "report" Report.record a.report ++
    Json.fieldOf "feedback" Feedback.record a.feedback ++
    [("generation_calls", .int a.generatorCalls.toNat),
    ("validation_calls", .int a.gatewayCalls.toNat)])

/-- The record of an outcome. -/
def Outcome.record : Outcome → Json
  | .succeeded role => .obj [("status", .str "succeeded"), ("artifact", role.record)]
  | .failed reason role diagnostics =>
    .obj (
      [("status", .str "failed"), ("reason", .str reason.word)] ++
      Json.fieldOf "last_error" .str reason.error? ++
      Json.fieldOf "artifact" Role.record role ++
      if diagnostics.isEmpty then []
      else [("diagnostics", .arr (diagnostics.map Diagnostic.record))])

/-- The record of a session. -/
def Concluded.record (c : Concluded) : Json :=
  .obj [
    ("cookbook", .str c.cookbook),
    ("outcome", c.outcome.record),
    ("attempts", .arr (c.attempts.map Attempt.record))]

namespace Event

/-- The record of a call that is repeated. The thousandths of a second before it are counted in 64
bits. -/
def retryRecord (event : String) (attempt retry : Nat) (error : String) (delay : Duration) : Json :=
  .obj [("event", .str event), ("attempt", .int attempt), ("retry", .int retry),
    ("error", .str error), ("delay_ms", .int (delay.milliseconds % Nat.pow 2 64))]

/-- The record of an event. -/
def record : Event → Json
  | .sessionStarted cookbook declarations unresolved =>
    .obj [("event", .str "session_started"), ("cookbook", .str cookbook),
      ("declarations", .int declarations), ("unresolved", .int unresolved),
      ("cookport_version", .str programVersion)]
  | .phaseEntered phase attempt =>
    .obj [("event", .str "phase_entered"), ("phase", .str phase.word), ("attempt", .int attempt)]
  | .generationRetried attempt retry error delay =>
    retryRecord "generation_retried" attempt retry error delay
  | .gatewayRetried attempt retry error delay =>
    retryRecord "gateway_retried" attempt retry error delay
  | .candidateProduced attempt files fingerprint =>
    .obj [("event", .str "candidate_produced"), ("attempt", .int attempt), ("files", .int files),
      ("fingerprint", .str fingerprint)]
  | .validationFinished attempt ok blocking =>
    .obj [("event", .str "validation_finished"), ("attempt", .int attempt), ("ok", .bool ok),
      ("blocking", .int blocking)]
  | .feedbackIssued attempt categories generic =>
    .obj [("event", .str "feedback_issued"), ("attempt", .int attempt),
      ("categories", .ofTexts categories), ("generic", .bool generic)]
  | .sessionConcluded outcome attempts =>
    .obj [("event", .str "session_concluded"), ("outcome", .str outcome),
      ("attempts", .int attempts)]

end Event

end Rolewright
