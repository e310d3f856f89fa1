/-
# Sessions

The conversion of one cookbook: the attempts made so far, what happened, and in the end an outcome.
A session that fails keeps the last candidate it got, so that the work is not lost.
-/

import Rolewright.Conversion.Request
import Rolewright.Duration
import Rolewright.Role.Basic

namespace Rolewright

/-- One pass through asking a generator and checking its answer. -/
structure Attempt where
  number : Nat
  request : Request
  response : Option String
  /-- The completed role, if the answer had any files. -/
  candidate : Option Role
  fingerprint : Option String
  report : Option Report
  /-- What the next attempt is told. -/
  feedback : Option Feedback
  /-- How often the generator was called, in 32 bits. -/
  generatorCalls : UInt32
  /-- How often the gateway was called, in 32 bits. -/
  gatewayCalls : UInt32
deriving Repr

/-- An attempt of which nothing has happened yet. -/
def Attempt.fresh (number : Nat) (request : Request) : Attempt :=
  ⟨number, request, none, none, none, none, none, 0, 0⟩

/-- An attempt as feedback looks back on it. -/
def Attempt.review (a : Attempt) : Review :=
  ⟨a.number, a.report⟩

/-- What a session does next. -/
inductive PhaseName where
  | start
  | generating
  | validating
  | repairing
deriving DecidableEq, Repr

/-- The word for a phase. -/
def PhaseName.word : PhaseName → String
  | .start => "init"
  | .generating => "generating"
  | .validating => "validating"
  | .repairing => "repairing"

/-- Something that happened in a session. -/
inductive Event where
  | sessionStarted (cookbook : String) (declarations unresolved : Nat)
  | phaseEntered (phase : PhaseName) (attempt : Nat)
  | generationRetried (attempt retry : Nat) (error : String) (delay : Duration)
  | gatewayRetried (attempt retry : Nat) (error : String) (delay : Duration)
  | candidateProduced (attempt files : Nat) (fingerprint : String)
  | validationFinished (attempt : Nat) (ok : Bool) (blocking : Nat)
  | feedbackIssued (attempt : Nat) (categories : List String) (generic : Bool)
  | sessionConcluded (outcome : String) (attempts : Nat)
deriving DecidableEq, Repr

/-- Why a session failed. -/
inductive FailureReason where
  | generationUnavailable (error : String)
  /-- The request was refused, and asking again cannot help. -/
  | generationRejected (error : String)
  | gatewayUnavailable (error : String)
  | validationExhausted
  | cancelled
  /-- Whoever worked on the session died. -/
  | workerCrashed (error : String)
deriving DecidableEq, Repr

namespace FailureReason

/-- The wording of a reason. -/
def text : FailureReason → String
  | .generationUnavailable error => "generation unavailable (" ++ error ++ ")"
  | .generationRejected error => "generation rejected (" ++ error ++ ")"
  | .gatewayUnavailable error => "validation gateway unavailable (" ++ error ++ ")"
  | .validationExhausted => "validation exhausted"
  | .cancelled => "cancelled"
  | .workerCrashed error => "worker crashed (" ++ error ++ ")"

/-- The word for a reason in records. -/
def word : FailureReason → String
  | .generationUnavailable _ => "generation_unavailable"
  | .generationRejected _ => "generation_rejected"
  | .gatewayUnavailable _ => "gateway_unavailable"
  | .validationExhausted => "validation_exhausted"
  | .cancelled => "cancelled"
  | .workerCrashed _ => "worker_crashed"

/-- The message that a reason quotes. -/
def error? : FailureReason → Option String
  | .generationUnavailable error | .generationRejected error | .gatewayUnavailable error
  | .workerCrashed error => some error
  | .validationExhausted | .cancelled => none

end FailureReason

/-- How a session ended. -/
inductive Outcome where
  | succeeded (role : Role)
  /-- With the last candidate, if there is one, and what is wrong with it. -/
  | failed (reason : FailureReason) (role : Option Role) (diagnostics : List Diagnostic)
deriving DecidableEq, Repr

namespace Outcome

/-- Whether the session succeeded. -/
def isSuccess : Outcome → Bool
  | .succeeded _ => true
  | .failed .. => false

/-- The role to write: the accepted one, or the last candidate. -/
def role? : Outcome → Option Role
  | .succeeded role => some role
  | .failed _ role _ => role

/-- What is wrong with the role of a failed session. -/
def diagnostics : Outcome → List Diagnostic
  | .succeeded _ => []
  | .failed _ _ diagnostics => diagnostics

/-- The wording of an outcome. -/
def label : Outcome → String
  | .succeeded _ => "succeeded"
  | .failed reason _ _ => "failed: " ++ reason.text

end Outcome

/-- A session that is under way. -/
structure Session where
  cookbook : String
  /-- The attempts, the latest first. -/
  attempts : List Attempt
  events : List Event
deriving Repr

/-- A session that has ended. -/
structure Concluded where
  cookbook : String
  outcome : Outcome
  /-- The attempts, the first one first. -/
  attempts : List Attempt
  events : List Event
deriving Repr

namespace Session

/-- A session of which nothing has happened yet. -/
def fresh (cookbook : String) : Session :=
  ⟨cookbook, [], []⟩

/-- The session after one more event. -/
def record (s : Session) (event : Event) : Session :=
  { s with events := s.events ++ [event] }

/-- The session with an attempt begun for a request. -/
def begin (s : Session) (request : Request) : Session :=
  { s with attempts := .fresh (s.attempts.length + 1) request :: s.attempts }

/-- The session with its latest attempt changed. -/
def onLatest (s : Session) (change : Attempt → Attempt) : Session :=
  match s.attempts with
  | [] => s
  | latest :: earlier => { s with attempts := change latest :: earlier }

/-- The latest candidate, and what the report on it says. -/
def bestEffort (s : Session) : Option Role × List Diagnostic :=
  match s.attempts.find? (·.candidate.isSome) with
  | some attempt => (attempt.candidate, (attempt.report.map (·.diagnostics)).getD [])
  | none => (none, [])

/-- All attempts as feedback looks back on them, the first one first. -/
def reviews (s : Session) : List Review :=
  s.attempts.reverse.map (·.review)

/-- The session ended with an outcome. -/
def conclude (s : Session) (outcome : Outcome) : Concluded :=
  { cookbook := s.cookbook
    outcome
    attempts := s.attempts.reverse
    events := s.events ++ [.sessionConcluded outcome.label s.attempts.length] }

@[simp]
theorem attempts_record (s : Session) (event : Event) : (s.record event).attempts = s.attempts :=
  rfl

@[simp]
theorem attempts_begin (s : Session) (request : Request) :
    (s.begin request).attempts = .fresh (s.attempts.length + 1) request :: s.attempts := rfl

@[simp]
theorem attempts_onLatest (s : Session) (change : Attempt → Attempt) :
    (s.onLatest change).attempts = s.attempts.modifyHead change := by
  unfold onLatest
  split <;> simp_all

@[simp]
theorem events_record (s : Session) (event : Event) :
    (s.record event).events = s.events ++ [event] := rfl

@[simp]
theorem events_begin (s : Session) (request : Request) : (s.begin request).events = s.events := rfl

@[simp]
theorem events_onLatest (s : Session) (change : Attempt → Attempt) :
    (s.onLatest change).events = s.events := by
  unfold onLatest
  split <;> rfl

end Session

namespace Concluded

/-- How many attempts had a candidate. -/
def candidates (c : Concluded) : Nat :=
  (c.attempts.filter (·.candidate.isSome)).length

/-- The requests with which the generator was called, one for each call on record. -/
def generatorCalls (c : Concluded) : List Request :=
  c.attempts.flatMap fun attempt => List.replicate attempt.generatorCalls.toNat attempt.request

/-- Stands for a session whose worker died. -/
def crashed (cookbook error : String) : Concluded :=
  (Session.fresh cookbook).conclude (.failed (.workerCrashed error) none [])

end Concluded

end Rolewright
