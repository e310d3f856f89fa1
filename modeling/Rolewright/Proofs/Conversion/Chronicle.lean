/-
# What a session records

A session keeps two records of itself: the list of its events, which only ever grows at its end, and
the attempts, whose fields are filled in as they come. Here the two are tied together step by step.
The events about an attempt are one stretch of the list, its chapter. The fields of the attempt and
the calls made for it determine the chapter, but for the errors and the waits that repetitions
announce (`Attempt.chapter`). The list is an opening and then the chapters in the order of the
attempts. Chapters are told of the calls themselves, since an attempt stores their number in 32 bits
only.

The phases that are entered spell a way through the phases of a session. This is an invariant of its
own, since a chapter alone does not say what may come before it. It holds at every moment of a run,
and the first one at every moment up to a crash (`Run.recorded_stateAfter`).
-/

import Mathlib.Data.List.Chain
import Rolewright.Proofs.Conversion.Chain

namespace Rolewright

/-- Whether a session has been cancelled. -/
def Phase.isCancelled : Phase → Bool
  | .concluded (.failed .cancelled _ _) => true
  | _ => false

/-- The phase that a session enters next; none once it has ended. -/
def Phase.name? : Phase → Option PhaseName
  | .start => some .start
  | .generating _ => some .generating
  | .validating .. => some .validating
  | .repairing .. => some .repairing
  | .concluded _ | .crashed _ => none

/-! ## Events -/

namespace Event

/-- The attempt that an event is about. The start and the conclusion are about no attempt. -/
def attempt? : Event → Option Nat
  | .sessionStarted .. | .phaseEntered .start _ | .sessionConcluded .. => none
  | .phaseEntered _ attempt | .generationRetried attempt .. | .gatewayRetried attempt ..
  | .candidateProduced attempt .. | .validationFinished attempt .. | .feedbackIssued attempt .. =>
    some attempt

/-- The phase that is entered, and how many attempts there are by then. -/
def entered? : Event → Option (PhaseName × Nat)
  | .phaseEntered phase attempt => some (phase, attempt)
  | _ => none

/-- The number of a repetition of a call of the generator. -/
def askedAgain? : Event → Option Nat
  | .generationRetried _ retry _ _ => some retry
  | _ => none

/-- The number of a repetition of a call of the gateway. -/
def checkedAgain? : Event → Option Nat
  | .gatewayRetried _ retry _ _ => some retry
  | _ => none

/-- Whether a candidate is announced. -/
def isCandidate : Event → Bool
  | .candidateProduced .. => true
  | _ => false

/-- Whether a report is announced. -/
def isVerdict : Event → Bool
  | .validationFinished .. => true
  | _ => false

/-- Whether feedback is announced. -/
def isFeedback : Event → Bool
  | .feedbackIssued .. => true
  | _ => false

/-- Whether the session is concluded. -/
def isConclusion : Event → Bool
  | .sessionConcluded .. => true
  | _ => false

end Event

/-- The ways from phase to phase, each with the number of attempts by then. -/
inductive PhaseName.Leads : PhaseName × Nat → PhaseName × Nat → Prop
  | asks : Leads (.start, 0) (.generating, 1)
  | checks (attempt : Nat) : Leads (.generating, attempt) (.validating, attempt)
  /-- An answer without files is repaired without a check. -/
  | repairsAnswer (attempt : Nat) : Leads (.generating, attempt) (.repairing, attempt)
  | repairsCandidate (attempt : Nat) : Leads (.validating, attempt) (.repairing, attempt)
  | asksAgain (attempt : Nat) : Leads (.repairing, attempt) (.generating, attempt + 1)

/-- A way through the phases of a session from its start on. -/
structure PhaseName.IsPath (path : List (PhaseName × Nat)) : Prop where
  starts : ∀ first ∈ path.head?, first = (.start, 0)
  leads : path.IsChain Leads

namespace PhaseName

variable {path : List (PhaseName × Nat)} {last next : PhaseName × Nat}

theorem isPath_nil : IsPath [] := ⟨nofun, .nil⟩

theorem isPath_start : IsPath [(.start, 0)] where
  starts _ member := (Option.some.inj member).symm
  leads := .singleton _

theorem IsPath.before (isPath : IsPath (path ++ [last])) : IsPath path where
  starts first member := isPath.starts first (List.mem_head?_append_of_mem_head? member)
  leads := isPath.leads.left_of_append

theorem IsPath.extend (isPath : IsPath (path ++ [last])) (leads : Leads last next) :
    IsPath (path ++ [last] ++ [next]) where
  starts first member := by
    refine isPath.starts first ?_
    rwa [List.head?_append_of_ne_nil _ (by simp)] at member
  leads := by
    refine List.isChain_append.mpr ⟨isPath.leads, .singleton _, fun x inPath y inNext => ?_⟩
    obtain rfl : last = x := by simpa using inPath
    obtain rfl : next = y := by simpa using inNext
    exact leads

end PhaseName

namespace Attempt

/-! ## Chapters -/

/-- Events announce so many repetitions, numbered from one on. -/
def Announces (announce : Nat → String → Duration → Event) (count : Nat) (events : List Event) :
    Prop :=
  ∃ retries : List (Nat × String × Duration), retries.map (·.1) = List.range' 1 count ∧
    events = retries.map fun (number, error, delay) => announce number error delay

/-- What is told of the candidate of an attempt. -/
def candidateTold (a : Attempt) : List Event :=
  match a.candidate with
  | some role => [.candidateProduced a.number role.size (Fingerprint.ofRole role)]
  | none => []

/-- What is told of the report on the candidate of an attempt. A report on an answer without files
is not announced. -/
def verdictTold (a : Attempt) : List Event :=
  match a.candidate, a.report with
  | some _, some report => [.validationFinished a.number report.ok report.blocking.length]
  | _, _ => []

/-- What is told of the feedback on an attempt. -/
def feedbackTold (a : Attempt) : List Event :=
  match a.feedback with
  | some feedback => [.feedbackIssued a.number feedback.categories feedback.generic]
  | none => []

/-- What is told of a phase of an attempt; nothing if it was not entered. -/
def under (a : Attempt) (phase : PhaseName) (entered : Bool) (events : List Event) : List Event :=
  if entered then .phaseEntered phase a.number :: events else []

/-- The events about an attempt, given whether each side was called and the repetitions that were
announced. -/
def chapter (a : Attempt) (asked checked : Bool) (asking checking : List Event) : List Event :=
  a.under .generating asked asking ++ a.candidateTold ++ a.under .validating checked checking ++
    a.verdictTold ++ a.under .repairing a.feedback.isSome a.feedbackTold

/-- How often a call was repeated, or was to be repeated when the session was cancelled in the wait
after it. -/
def repeats (calls : Nat) (brokenOff : Bool) : Nat :=
  if brokenOff then calls else calls - 1

theorem repeats_zero (brokenOff : Bool) : repeats 0 brokenOff = 0 := by
  cases brokenOff <;> rfl

/-- Events tell of an attempt for which the generator and the gateway were called so often. The
calls of each may have been broken off in the wait after the last. -/
def IsTold (a : Attempt) (asked checked : Nat) (offAsking offChecking : Bool)
    (events : List Event) : Prop :=
  ∃ asking checking, Announces (.generationRetried a.number) (repeats asked offAsking) asking ∧
    Announces (.gatewayRetried a.number) (repeats checked offChecking) checking ∧
    events = a.chapter (asked != 0) (checked != 0) asking checking

/-- Events that open a session and tell of its attempts, the latest of which stands first, one
after the other, and of the calls. Each call but the last one of its kind was repeated. -/
def AreTold (opening : List Event) (calls : List Inquiry) : List Attempt → List Event → Prop
  | [], events => events = opening
  | a :: earlier, events => ∃ before own, events = before ++ own ∧
      AreTold opening calls earlier before ∧
      a.IsTold (Inquiry.askedFor calls a.number) (Inquiry.checkedFor calls a.number) false false own

/-- An attempt of which nothing has happened has an empty chapter. -/
theorem isTold_fresh (number : Nat) (request : Request) (offAsking offChecking : Bool) :
    (fresh number request).IsTold 0 0 offAsking offChecking [] :=
  ⟨[], [], ⟨[], by rw [repeats_zero]; rfl, rfl⟩, ⟨[], by rw [repeats_zero]; rfl, rfl⟩, rfl⟩

/-- Calls for later attempts leave what is told as it is. -/
theorem AreTold.append {opening events : List Event} {calls made : List Inquiry}
    {attempts : List Attempt} (told : AreTold opening calls attempts events)
    (numbered : Numbered attempts) (later : ∀ i ∈ made, attempts.length < i.attempt) :
    AreTold opening (calls ++ made) attempts events := by
  induction attempts generalizing events with
  | nil => exact told
  | cons a earlier ih =>
      obtain ⟨before, own, split, older, told⟩ := told
      obtain ⟨number, olderNumbered⟩ := numbered
      have others : ∀ i ∈ made, i.attempt ≠ a.number := fun i member same => by
        have after := later i member
        rw [List.length_cons] at after
        omega
      refine ⟨before, own, split, ih older olderNumbered fun i member => ?_, ?_⟩
      · exact Nat.lt_of_succ_lt (later i member)
      · rw [Inquiry.askedFor, Inquiry.checkedFor, Inquiry.ofAttempt_append_of_forall_ne _ others]
        exact told

end Attempt

namespace Run

variable (w : Surroundings) (settings : SessionSettings) (registry : Mapping.Registry)
  (cookbook : Cookbook)

/-! ## Events of a step -/

theorem events_foldl_record {β : Type} (event : β → Event) (items : List β) (s : Session) :
    (items.foldl (fun s item => s.record (event item)) s).events = s.events ++ items.map event := by
  induction items generalizing s with
  | nil => exact (List.append_nil _).symm
  | cons item items ih =>
      rw [List.foldl_cons, ih, Session.events_record, List.append_assoc, List.map_cons,
        List.singleton_append]

/-- The events that announce the repetitions of a call of the generator. -/
def askingEvents (s : State) (request : Request) : List Event :=
  (askRecord w settings s request).retries.map fun retry =>
    .generationRetried s.session.attempts.length retry.number retry.error.message retry.delay

/-- The events that announce the repetitions of a call of the gateway. -/
def checkingEvents (s : State) (candidate : Role) : List Event :=
  (checkRecord w settings s candidate).retries.map fun retry =>
    .gatewayRetried s.session.attempts.length retry.number retry.error.message retry.delay

@[simp]
theorem events_looked (s : State) : (looked s).session.events = s.session.events := rfl

@[simp]
theorem events_asked (s : State) (request : Request) :
    (asked w settings s request).session.events = s.session.events ++
      .phaseEntered .generating s.session.attempts.length :: askingEvents w settings s request := by
  simp only [asked, events_foldl_record, Session.events_onLatest, entered, Session.events_record,
    List.append_assoc, List.singleton_append]
  rfl

@[simp]
theorem events_checked (s : State) (candidate : Role) :
    (checked w settings s candidate).session.events = s.session.events ++
      .phaseEntered .validating s.session.attempts.length ::
        checkingEvents w settings s candidate := by
  simp only [checked, events_foldl_record, Session.events_onLatest, entered,
    Session.events_record, List.append_assoc, List.singleton_append]
  rfl

@[simp]
theorem events_received (s : State) (text : String) :
    (received s text).session.events = s.session.events := by
  simp [received]

@[simp]
theorem events_faulted (s : State) (report : Report) :
    (faulted s report).session.events = s.session.events := by
  simp [faulted]

@[simp]
theorem events_produced (s : State) (candidate : Role) :
    (produced s candidate).session.events = s.session.events ++
      [.candidateProduced s.session.attempts.length candidate.size
        (Fingerprint.ofRole candidate)] := by
  simp [produced]

@[simp]
theorem events_reported (s : State) (attempt : Nat) (report : Report) :
    (reported s attempt report).session.events = s.session.events ++
      [.validationFinished attempt report.ok report.blocking.length] := by
  simp [reported]

/-- The events with which a session opens. -/
def opening : List Event :=
  let request := Request.build cookbook registry settings.examples
  [.phaseEntered .start 0,
    .sessionStarted cookbook.name request.hints.length request.unresolved.length]

theorem events_begin {s : State} (none : s.session.attempts = []) :
    (begin settings registry cookbook s).session.events =
      s.session.events ++ opening settings registry cookbook := by
  simp [begin, entered, opening, none]

theorem events_repair (s : State) (request : Request) (report : Report) :
    (repair s request report).session.events = s.session.events ++
      [.phaseEntered .repairing s.session.attempts.length,
        .feedbackIssued (feedback s report).attempt (feedback s report).categories
          (feedback s report).generic] := by
  simp [repair, entered, feedback]

/-! ## The events of an attempt -/

/-- The events of a session tell of its attempts and calls. In the latest attempt the wait after the
last call may be where the session was cancelled. -/
def Recorded (opening : List Event) (s : State) (calls : List Inquiry) : Prop :=
  match s.session.attempts with
  | [] => s.session.events = []
  | latest :: earlier => ∃ before own, s.session.events = before ++ own ∧
      Attempt.AreTold opening calls earlier before ∧
      latest.IsTold (Inquiry.askedFor calls latest.number) (Inquiry.checkedFor calls latest.number)
        (s.phase.isCancelled && latest.response.isNone)
        (s.phase.isCancelled && latest.report.isNone) own

variable {w settings registry cookbook} {s t next : State} {opening : List Event}
  {latest : Attempt} {earlier : List Attempt} {before own : List Event} {calls : List Inquiry}

theorem recorded_of_cons {asked checked : Nat} (attempts : t.session.attempts = latest :: earlier)
    (events : t.session.events = before ++ own)
    (older : Attempt.AreTold opening calls earlier before)
    (asks : Inquiry.askedFor calls latest.number = asked)
    (checks : Inquiry.checkedFor calls latest.number = checked)
    (told : latest.IsTold asked checked (t.phase.isCancelled && latest.response.isNone)
      (t.phase.isCancelled && latest.report.isNone) own) :
    Recorded opening t calls := by
  rw [Recorded, attempts]
  exact ⟨before, own, events, older, asks ▸ checks ▸ told⟩

theorem recorded_iff_of_cons (attempts : s.session.attempts = latest :: earlier) :
    Recorded opening s calls ↔ ∃ before own, s.session.events = before ++ own ∧
      Attempt.AreTold opening calls earlier before ∧
      latest.IsTold (Inquiry.askedFor calls latest.number) (Inquiry.checkedFor calls latest.number)
        (s.phase.isCancelled && latest.response.isNone)
        (s.phase.isCancelled && latest.report.isNone) own := by
  rw [Recorded, attempts]

/-- The repetitions of the calls of the generator are announced. -/
theorem announces_asking (s : State) (request : Request) :
    Attempt.Announces (.generationRetried s.session.attempts.length)
      (Attempt.repeats (askLog w settings s request).length
        (askRecord w settings s request).result.isBrokenOff)
      (askingEvents w settings s request) := by
  refine ⟨(askRecord w settings s request).retries.map fun retry =>
    (retry.number, retry.error.message, retry.delay), ?_, ?_⟩
  · rw [askLog, List.length_map, List.map_map]
    exact (ask w request).number_retries settings.backoff w.cancelled _ 0 s.moment
  · rw [askingEvents, List.map_map]
    rfl

/-- The repetitions of the calls of the gateway are announced. -/
theorem announces_checking (s : State) (candidate : Role) :
    Attempt.Announces (.gatewayRetried s.session.attempts.length)
      (Attempt.repeats (checkLog w settings s candidate).length
        (checkRecord w settings s candidate).result.isBrokenOff)
      (checkingEvents w settings s candidate) := by
  refine ⟨(checkRecord w settings s candidate).retries.map fun retry =>
    (retry.number, retry.error.message, retry.delay), ?_, ?_⟩
  · rw [checkLog, List.length_map, List.map_map]
    exact (check w candidate).number_retries settings.backoff w.cancelled _ 0 s.moment
  · rw [checkingEvents, List.map_map]
    rfl

/-- Calls are made where an answer is wanted. -/
theorem length_askLog_ne_zero (s : State) (request : Request) :
    (askLog w settings s request).length ≠ 0 := by
  obtain ⟨earlier, moment, answer, calls, -⟩ := askLog_ends w settings s request
  simp [calls]

theorem length_checkLog_ne_zero (s : State) (candidate : Role) :
    (checkLog w settings s candidate).length ≠ 0 := by
  obtain ⟨earlier, moment, answer, calls, -⟩ := checkLog_ends w settings s candidate
  simp [calls]

/-! ### Calls of the generator -/

/-- The latest attempt bears the number of attempts. -/
theorem Tallied.number_latest (tallied : Tallied w settings s calls)
    (attempts : s.session.attempts = latest :: earlier) :
    latest.number = s.session.attempts.length := by
  have numbered := tallied.numbered
  rw [attempts] at numbered ⊢
  exact numbered.1

/-- What was told of the attempts before the latest is told of them after calls for that one. -/
theorem areTold_append {made : List Inquiry} (tallied : Tallied w settings s calls)
    (attempts : s.session.attempts = latest :: earlier)
    (own : ∀ i ∈ made, i.attempt = s.session.attempts.length)
    (older : Attempt.AreTold opening calls earlier before) :
    Attempt.AreTold opening (calls ++ made) earlier before := by
  have numbered := tallied.numbered
  rw [attempts] at numbered
  refine older.append numbered.2 fun i member => ?_
  rw [own i member, attempts, List.length_cons]
  exact Nat.lt_succ_self _

/-- A session that has a request answered has told of the attempts before it, and nothing of the
latest. -/
theorem Recorded.generating {request : Request} (recorded : Recorded opening s calls)
    (standing : Standing cookbook s calls) (tallied : Tallied w settings s calls)
    (now : s.phase = .generating request) :
    ∃ earlier, s.session.attempts = .fresh (earlier.length + 1) request :: earlier ∧
      Attempt.AreTold opening calls earlier s.session.events := by
  obtain ⟨earlier, attempts, -, -⟩ := standing.generating now
  obtain ⟨before, own, events, older, asking, checking, -, -, rfl⟩ :=
    (recorded_iff_of_cons attempts).mp recorded
  refine ⟨earlier, attempts, ?_⟩
  have none := tallied.generating now
  rw [attempts, List.length_cons] at none
  have silent : (Attempt.fresh (earlier.length + 1) request).chapter
      (Inquiry.askedFor calls (earlier.length + 1) != 0)
      (Inquiry.checkedFor calls (earlier.length + 1) != 0) asking checking = [] := by
    rw [Inquiry.askedFor, Inquiry.checkedFor, none]
    rfl
  rw [events]
  exact silent ▸ (List.append_nil before).symm ▸ older

variable (w settings s) in
/-- What is told of an attempt once the generator has been called for it and before any check. -/
theorem isTold_asked (request : Request) {a : Attempt} {events : List Event} {offChecking : Bool}
    (number : a.number = s.session.attempts.length) (untold : a.feedback = none)
    (further : (a.candidate = none ∧ events = []) ∨ ∃ role, a.candidate = some role ∧
      a.report = none ∧ events =
        [.candidateProduced s.session.attempts.length role.size (Fingerprint.ofRole role)]) :
    a.IsTold (askLog w settings s request).length 0
      (askRecord w settings s request).result.isBrokenOff offChecking
      (.phaseEntered .generating s.session.attempts.length :: askingEvents w settings s request ++
        events) := by
  refine ⟨askingEvents w settings s request, [], ?_, ⟨[], ?_, rfl⟩, ?_⟩
  · rw [number]
    exact announces_asking s request
  · rw [Attempt.repeats_zero]
    rfl
  · have called : (askLog w settings s request).length ≠ 0 := length_askLog_ne_zero s request
    rcases further with ⟨candidate, rfl⟩ | ⟨role, candidate, report, rfl⟩
    · simp [Attempt.chapter, Attempt.under, Attempt.candidateTold, Attempt.verdictTold, called,
        untold, candidate, number]
    · simp [Attempt.chapter, Attempt.under, Attempt.candidateTold, Attempt.verdictTold, called,
        untold, candidate, report, number]

/-- A session that stores what came of calls of the generator, and tells of it, is recorded. -/
theorem Recorded.asked {request : Request} {change : Attempt → Attempt} {events : List Event}
    (recorded : Recorded opening s calls) (standing : Standing cookbook s calls)
    (tallied : Tallied w settings s calls) (now : s.phase = .generating request)
    (attempts : t.session.attempts =
      (asked w settings (looked s) request).session.attempts.modifyHead change)
    (happened : t.session.events =
      (Run.asked w settings (looked s) request).session.events ++ events)
    (number : ∀ a, (change a).number = a.number)
    (feedback : ∀ a, (change a).feedback = a.feedback)
    (further : ∀ a, a.candidate = none → a.report = none →
      ((change a).candidate = none ∧ events = []) ∨ ∃ role, (change a).candidate = some role ∧
        (change a).report = none ∧ events =
          [.candidateProduced s.session.attempts.length role.size (Fingerprint.ofRole role)])
    (brokenOff : ∀ a, a.response = none →
      (t.phase.isCancelled && (change a).response.isNone) =
        (askRecord w settings (looked s) request).result.isBrokenOff) :
    Recorded opening t (calls ++ askLog w settings (looked s) request) := by
  obtain ⟨earlier, before, older⟩ := recorded.generating standing tallied now
  let counted : Attempt := { Attempt.fresh (earlier.length + 1) request with
    generatorCalls := .ofNat (askLog w settings (looked s) request).length }
  have after : t.session.attempts = change counted :: earlier := by
    rw [attempts, attempts_asked, attempts_looked, before]
    rfl
  have place : (change counted).number = s.session.attempts.length := by
    rw [number counted, before]
    rfl
  obtain ⟨asks, checks⟩ := tallied.calledFor_asked now
  rw [← place] at asks checks
  rw [events_asked, List.append_assoc, events_looked] at happened
  refine recorded_of_cons after happened (areTold_append tallied before
    (fun i member => (of_mem_askLog w settings member).1) older) asks checks ?_
  rw [brokenOff counted rfl]
  exact isTold_asked w settings (looked s) request place (feedback counted)
    (further counted rfl rfl)

/-- A session that stores nothing after calls of the generator is recorded: no answer came. -/
theorem Recorded.asked_of_session_eq {request : Request} (recorded : Recorded opening s calls)
    (standing : Standing cookbook s calls) (tallied : Tallied w settings s calls)
    (now : s.phase = .generating request)
    (same : t.session = (Run.asked w settings (looked s) request).session)
    (brokenOff : t.phase.isCancelled =
      (askRecord w settings (looked s) request).result.isBrokenOff) :
    Recorded opening t (calls ++ askLog w settings (looked s) request) := by
  have attempts : t.session.attempts =
      (Run.asked w settings (looked s) request).session.attempts.modifyHead id := by
    rw [same, List.modifyHead_id, id]
  have happened : t.session.events =
      (Run.asked w settings (looked s) request).session.events ++ [] := by
    rw [same, List.append_nil]
  refine recorded.asked standing tallied now attempts happened (fun _ => rfl) (fun _ => rfl)
    (fun a candidate _ => .inl ⟨candidate, rfl⟩) fun a response => ?_
  rw [id, response, Option.isNone_none, Bool.and_true, brokenOff]

/-! ### Calls of the gateway -/

variable (w settings s) in
/-- What is told of an attempt whose candidate has been checked, given what was told before. -/
theorem isTold_checked {candidate : Role} {a b : Attempt} {asked : Nat}
    {offAsking offChecking : Bool} {own events : List Event}
    (told : a.IsTold asked 0 offAsking offChecking own)
    (number : a.number = s.session.attempts.length) (filled : a.candidate = some candidate)
    (unreported : a.report = none) (untold : a.feedback = none)
    (same : b = { a with gatewayCalls := b.gatewayCalls, report := b.report })
    (further : (b.report = none ∧ events = []) ∨ ∃ report, b.report = some report ∧ events =
      [.validationFinished s.session.attempts.length report.ok report.blocking.length]) :
    b.IsTold asked (checkLog w settings s candidate).length offAsking
      (checkRecord w settings s candidate).result.isBrokenOff
      (own ++ (.phaseEntered .validating s.session.attempts.length ::
        checkingEvents w settings s candidate ++ events)) := by
  obtain ⟨asking, checking, asks, -, rfl⟩ := told
  have called : (checkLog w settings s candidate).length ≠ 0 := length_checkLog_ne_zero s candidate
  refine ⟨asking, checkingEvents w settings s candidate, ?_, ?_, ?_⟩
  · rw [same]
    exact asks
  · rw [show b.number = a.number by rw [same], number]
    exact announces_checking s candidate
  · rw [← number]
    rcases further with ⟨report, rfl⟩ | ⟨report, reported, rfl⟩
    · rw [same, Attempt.chapter, Attempt.chapter]
      simp [Attempt.under, Attempt.candidateTold, Attempt.verdictTold, called, unreported, untold,
        filled, report]
    · rw [same, Attempt.chapter, Attempt.chapter]
      simp [Attempt.under, Attempt.candidateTold, Attempt.verdictTold, called, unreported, untold,
        filled, reported, number]

/-- A session that stores what came of calls of the gateway, and tells of it, is recorded. -/
theorem Recorded.checked {request : Request} {candidate : Role} {defects : List Diagnostic}
    {first : Request} {change : Attempt → Attempt} {report : Option Report} {events : List Event}
    (recorded : Recorded opening s calls) (standing : Standing cookbook s calls)
    (tallied : Tallied w settings s calls)
    (chained : Attempt.Chained first s.session.attempts)
    (now : s.phase = .validating request candidate defects)
    (attempts : t.session.attempts =
      (checked w settings (looked s) candidate).session.attempts.modifyHead change)
    (happened : t.session.events =
      (Run.checked w settings (looked s) candidate).session.events ++ events)
    (stored : ∀ a, a.report = none → change a = { a with report })
    (further : (report = none ∧ events = []) ∨ ∃ found, report = some found ∧ events =
      [.validationFinished s.session.attempts.length found.ok found.blocking.length])
    (brokenOff : (t.phase.isCancelled && report.isNone) =
      (checkRecord w settings (looked s) candidate).result.isBrokenOff) :
    Recorded opening t (calls ++ checkLog w settings (looked s) candidate) := by
  obtain ⟨latest, earlier, text, before, -, -, -, -, response, filled, unreported, -⟩ :=
    standing.validating now
  obtain ⟨past, own, recounted, older, told⟩ := (recorded_iff_of_cons before).mp recorded
  have number := tallied.number_latest before
  obtain ⟨asks, checks⟩ := tallied.calledFor_checked now
  rw [← number] at asks checks
  rw [before] at chained
  rw [number, tallied.validating now, ← number, response, Option.isNone_some, Bool.and_false]
    at told
  let checkedOnce : Attempt := { latest with
    gatewayCalls := .ofNat (checkLog w settings (looked s) candidate).length
    report }
  have after : t.session.attempts = checkedOnce :: earlier := by
    rw [attempts, attempts_checked, attempts_looked, before]
    exact congrArg (· :: earlier) (stored _ unreported)
  have retold := isTold_checked w settings (looked s) (b := checkedOnce) told number filled
    unreported chained.2.1 rfl further
  rw [← brokenOff] at retold
  rw [events_checked, List.append_assoc, events_looked, recounted, List.append_assoc] at happened
  refine recorded_of_cons after happened
    (areTold_append tallied before
      (fun i member => (of_mem_checkLog w settings member).1) older) asks checks ?_
  rw [show checkedOnce.response = some text from response, Option.isNone_some, Bool.and_false]
  exact retold

/-- A session that stores nothing after calls of the gateway is recorded: no report came. -/
theorem Recorded.checked_of_session_eq {request : Request} {candidate : Role}
    {defects : List Diagnostic} {first : Request} (recorded : Recorded opening s calls)
    (standing : Standing cookbook s calls) (tallied : Tallied w settings s calls)
    (chained : Attempt.Chained first s.session.attempts)
    (now : s.phase = .validating request candidate defects)
    (same : t.session = (Run.checked w settings (looked s) candidate).session)
    (brokenOff : t.phase.isCancelled =
      (checkRecord w settings (looked s) candidate).result.isBrokenOff) :
    Recorded opening t (calls ++ checkLog w settings (looked s) candidate) := by
  have attempts : t.session.attempts =
      (Run.checked w settings (looked s) candidate).session.attempts.modifyHead id := by
    rw [same, List.modifyHead_id, id]
  have happened : t.session.events =
      (Run.checked w settings (looked s) candidate).session.events ++ [] := by
    rw [same, List.append_nil]
  have unreported (a : Attempt) (absent : a.report = none) : id a = { a with report := none } := by
    rw [← absent]
    rfl
  refine recorded.checked standing tallied chained now attempts happened unreported
    (.inl ⟨rfl, rfl⟩) ?_
  rw [Option.isNone_none, Bool.and_true, brokenOff]

/-! ### Every transition -/

/-- Feedback bears the number of the last attempt that it looks back on. -/
theorem attempt_ofReport (report : Report) (history : List Review) :
    (Feedback.ofReport report history).attempt =
      (history.getLast?.map (·.attempt)).getD 1 := by
  unfold Feedback.ofReport
  dsimp only
  split <;> rfl

/-- What is told of an attempt that is repaired. -/
theorem isTold_repaired {a : Attempt} {asked checked : Nat} {offAsking offChecking : Bool}
    {own : List Event} {feedback : Feedback}
    (told : a.IsTold asked checked offAsking offChecking own) (untold : a.feedback = none) :
    ({ a with feedback := some feedback } : Attempt).IsTold asked checked offAsking offChecking
      (own ++ [.phaseEntered .repairing a.number,
        .feedbackIssued a.number feedback.categories feedback.generic]) := by
  obtain ⟨asking, checking, asks, checks, rfl⟩ := told
  refine ⟨asking, checking, asks, checks, ?_⟩
  simp [Attempt.chapter, Attempt.under, Attempt.candidateTold, Attempt.verdictTold,
    Attempt.feedbackTold, untold]

theorem isCancelled_judge (s : State) (request : Request) (report : Report) :
    (judge s request report).phase.isCancelled = false := by
  unfold judge
  split <;> rfl

/-- Between two steps no wait is broken off: what was called for the latest attempt brought an
answer, or nothing was called. -/
theorem Tallied.settled (tallied : Tallied w settings s calls)
    (standing : Standing cookbook s calls) (going : s.ended? = none)
    (attempts : s.session.attempts = latest :: earlier) :
    (Inquiry.askedFor calls latest.number = 0 ∨ latest.response.isNone = false) ∧
      (Inquiry.checkedFor calls latest.number = 0 ∨ latest.report.isNone = false) := by
  have coherent := standing.coherent latest (attempts ▸ .head _)
  rw [tallied.number_latest attempts]
  cases now : s.phase with
  | concluded outcome | crashed message => simp [State.ended?, now] at going
  | start =>
      cases attempts.symm.trans (standing.start now)
  | generating request =>
      rw [Inquiry.askedFor, Inquiry.checkedFor, tallied.generating now]
      exact ⟨.inl rfl, .inl rfl⟩
  | validating request candidate defects =>
      obtain ⟨_, _, _, same, -, -, -, -, response, -⟩ := standing.validating now
      obtain ⟨rfl, -⟩ := List.cons.inj (attempts.symm.trans same)
      exact ⟨.inr (by rw [response]; rfl), .inl (tallied.validating now)⟩
  | repairing request report =>
      obtain ⟨_, _, same, -, reported, -⟩ := standing.repairing now
      obtain ⟨rfl, -⟩ := List.cons.inj (attempts.symm.trans same)
      refine ⟨.inr ?_, .inr (by rw [reported]; rfl)⟩
      cases response : latest.response with
      | some text => rfl
      | none =>
          rw [coherent.unanswered response] at reported
          cases reported

theorem repeats_of_settled {calls : Nat} {absent : Bool} (settled : calls = 0 ∨ absent = false)
    (before after : Bool) :
    Attempt.repeats calls (before && absent) = Attempt.repeats calls (after && absent) := by
  rcases settled with rfl | rfl
  · rw [Attempt.repeats_zero, Attempt.repeats_zero]
  · rw [Bool.and_false, Bool.and_false]

/-- A session that is cancelled between two steps stays recorded. -/
theorem Recorded.cancel (recorded : Recorded opening s calls)
    (standing : Standing cookbook s calls) (tallied : Tallied w settings s calls)
    (going : s.ended? = none) : Recorded opening (Run.cancel (looked s)) calls := by
  cases attempts : s.session.attempts with
  | nil =>
      rw [Recorded, attempts] at recorded
      rw [Recorded, Run.cancel, looked, attempts]
      exact recorded
  | cons latest earlier =>
      obtain ⟨before, own, events, older, asking, checking, asks, checks, told⟩ :=
        (recorded_iff_of_cons attempts).mp recorded
      obtain ⟨answered, reported⟩ := tallied.settled standing going attempts
      rw [repeats_of_settled answered _ true] at asks
      rw [repeats_of_settled reported _ true] at checks
      exact recorded_of_cons attempts events older rfl rfl ⟨asking, checking, asks, checks, told⟩

/-- A session that begins tells of its opening, and then of nothing. -/
theorem Recorded.begin (recorded : Recorded (Run.opening settings registry cookbook) s calls)
    (standing : Standing cookbook s calls) (tallied : Tallied w settings s calls)
    (now : s.phase = .start) :
    Recorded (Run.opening settings registry cookbook)
      (Run.begin settings registry cookbook (looked s)) calls := by
  have none := standing.start now
  have silent : s.session.events = [] := by
    rw [Recorded, none] at recorded
    exact recorded
  have attempts := attempts_begin settings registry cookbook (looked s)
  rw [attempts_looked, none] at attempts
  have events := events_begin settings registry cookbook (s := looked s) none
  rw [events_looked, silent, ← List.append_nil (_ ++ _)] at events
  obtain ⟨asks, checks⟩ := tallied.calledFor_next
  rw [none] at asks checks
  exact recorded_of_cons attempts events rfl asks checks (Attempt.isTold_fresh _ _ _ _)

/-- A session that repairs its latest attempt completes the chapter of it, and the attempt that it
adds has none as yet. -/
theorem Recorded.repair {request first : Request} {report : Report}
    (recorded : Recorded opening s calls) (standing : Standing cookbook s calls)
    (tallied : Tallied w settings s calls)
    (chained : Attempt.Chained first s.session.attempts)
    (now : s.phase = .repairing request report) :
    Recorded opening (Run.repair (looked s) request report) calls := by
  obtain ⟨latest, earlier, before, -⟩ := standing.repairing now
  obtain ⟨past, own, recounted, older, told⟩ := (recorded_iff_of_cons before).mp recorded
  have repaired := attempts_repair (s := looked s) before request report
  have events := events_repair (looked s) request report
  have number := tallied.number_latest before
  rw [before] at chained
  have bears : (feedback (looked s) report).attempt = latest.number := by
    rw [feedback, attempt_ofReport, Session.reviews, List.getLast?_map, List.getLast?_reverse,
      attempts_looked, before]
    rfl
  rw [events_looked, attempts_looked, bears, ← number, recounted, List.append_assoc,
    ← List.append_nil (_ ++ _)] at events
  rw [now] at told
  obtain ⟨asks, checks⟩ := tallied.calledFor_next
  rw [before] at asks checks
  refine recorded_of_cons repaired events ⟨past, _, rfl, older, ?_⟩ asks checks
    (Attempt.isTold_fresh _ _ _ _)
  exact isTold_repaired told chained.2.1

/-- Every transition tells what it makes of the attempts, or is the session's death. -/
theorem recorded_transition {made : List Inquiry}
    (recorded : Recorded (Run.opening settings registry cookbook) s calls)
    (standing : Standing cookbook s calls) (tallied : Tallied w settings s calls)
    (chained : Attempt.Chained (.build cookbook registry settings.examples) s.session.attempts)
    (t : Transition w settings registry cookbook s made next) :
    Recorded (Run.opening settings registry cookbook) next (calls ++ made) ∨
      ∃ message, next.phase = .crashed message := by
  cases t with
  | askingDied _ _ _ | askingOverran _ _ _ | checkingDied _ _ _ | checkingOverran _ _ _ =>
      exact .inr ⟨_, rfl⟩
  | stopped going told =>
      rw [List.append_nil]
      exact .inl (recorded.cancel standing tallied going)
  | begun now =>
      rw [List.append_nil]
      exact .inl (recorded.begin standing tallied now)
  | vacant now _ _ result =>
      refine .inl (recorded.asked standing tallied now (attempts_vacant _ _ _ _) (by simp)
        (fun _ => rfl) (fun _ => rfl) (fun a candidate _ => .inl ⟨candidate, rfl⟩) fun a _ => ?_)
      rw [isCancelled_judge, result]
      rfl
  | @filled request text _ _ now _ full result =>
      have told := events_produced (received (asked w settings (looked s) request) text)
        ((Response.parse text.toList).role.complete cookbook)
      rw [events_received] at told
      refine .inl (recorded.asked standing tallied now (attempts_filled _ _ _) told (fun _ => rfl)
        (fun _ => rfl) (fun a _ report => ?_) fun a _ => ?_)
      · exact .inr ⟨_, rfl, report, by simp⟩
      · rw [result]
        rfl
  | @unanswered _ error _ _ now _ result =>
      refine .inl (recorded.asked_of_session_eq standing tallied now rfl ?_)
      rw [result, giveUp]
      cases error.isRetryable <;> rfl
  | askingStopped now result =>
      exact .inl (recorded.asked_of_session_eq standing tallied now rfl (by rw [result]; rfl))
  | accepted now _ _ result =>
      refine .inl (recorded.checked standing tallied chained now (attempts_reported _ _ _)
        (events_reported _ _ _) (fun _ _ => rfl) (.inr ⟨_, rfl, rfl⟩) ?_)
      rw [result]
      rfl
  | rejected now _ _ result =>
      refine .inl (recorded.checked standing tallied chained now
        (by rw [session_judge, attempts_reported]) (by rw [session_judge, events_reported])
        (fun _ _ => rfl) (.inr ⟨_, rfl, rfl⟩) ?_)
      rw [result, isCancelled_judge]
      rfl
  | unchecked now _ result =>
      exact .inl (recorded.checked_of_session_eq standing tallied chained now rfl
        (by rw [result]; rfl))
  | checkingStopped now result =>
      exact .inl (recorded.checked_of_session_eq standing tallied chained now rfl
        (by rw [result]; rfl))
  | repaired now =>
      rw [List.append_nil]
      exact .inl (recorded.repair standing tallied chained now)

/-! ### Phases -/

/-- The phases that a session has entered, with the number of attempts by then. -/
def path (s : State) : List (PhaseName × Nat) :=
  s.session.events.filterMap Event.entered?

/-- The phases that a session has entered are a way through its phases, and so they are with the one
that it enters next. -/
def Spelled (s : State) : Prop :=
  match s.phase.name? with
  | some phase => PhaseName.IsPath (path s ++ [(phase, s.session.attempts.length)])
  | none => PhaseName.IsPath (path s)

/-- A step enters the phase that was next, and leads to one that may follow. -/
theorem Spelled.enter {phase : PhaseName} (spelled : Spelled s) (now : s.phase.name? = some phase)
    (entered : path next = path s ++ [(phase, s.session.attempts.length)])
    (leads : ∀ later, next.phase.name? = some later →
      PhaseName.Leads (phase, s.session.attempts.length) (later, next.session.attempts.length)) :
    Spelled next := by
  rw [Spelled, now] at spelled
  rw [Spelled, entered]
  cases after : next.phase.name? with
  | none => exact spelled
  | some later => exact spelled.extend (leads later after)

theorem filterMap_entered?_askingEvents (s : State) (request : Request) :
    (askingEvents w settings s request).filterMap Event.entered? = [] := by
  simp [askingEvents, Event.entered?]

theorem filterMap_entered?_checkingEvents (s : State) (candidate : Role) :
    (checkingEvents w settings s candidate).filterMap Event.entered? = [] := by
  simp [checkingEvents, Event.entered?]

/-- After a rejected attempt the session repairs it or has come to its end. -/
theorem name?_judge (s : State) (request : Request) (report : Report) {phase : PhaseName}
    (named : (judge s request report).phase.name? = some phase) : phase = .repairing := by
  unfold judge at named
  split at named
  · exact (Option.some.inj named).symm
  · cases named

theorem path_asked (s : State) (request : Request) :
    path (asked w settings (looked s) request) =
      path s ++ [(.generating, s.session.attempts.length)] := by
  simp [path, filterMap_entered?_askingEvents, Event.entered?]

theorem path_checked (s : State) (candidate : Role) :
    path (checked w settings (looked s) candidate) =
      path s ++ [(.validating, s.session.attempts.length)] := by
  simp [path, filterMap_entered?_checkingEvents, Event.entered?]

/-- Every transition goes on from phase to phase. -/
theorem spelled_transition {calls made : List Inquiry} (spelled : Spelled s)
    (standing : Standing cookbook s calls)
    (t : Transition w settings registry cookbook s made next) : Spelled next := by
  have ended {phase : PhaseName} {n m : Nat} : ∀ later, none = some later →
      PhaseName.Leads (phase, n) (later, m) := nofun
  cases t with
  | stopped going told =>
      rw [Spelled] at spelled
      cases now : s.phase.name? with
      | none =>
          rw [now] at spelled
          exact spelled
      | some phase =>
          rw [now] at spelled
          exact spelled.before
  | begun now =>
      have none := standing.start now
      refine spelled.enter (by rw [now]; rfl) ?_ fun later named => ?_
      · rw [path, events_begin settings registry cookbook (s := looked s) none,
          List.filterMap_append, none]
        rfl
      · obtain rfl : PhaseName.generating = later := Option.some.inj named
        rw [attempts_begin, attempts_looked, none]
        exact .asks
  | vacant now _ _ _ =>
      refine spelled.enter (by rw [now]; rfl) ?_ fun later named => ?_
      · rw [path, session_judge, events_faulted, events_received]
        exact path_asked s _
      · obtain rfl := name?_judge _ _ _ named
        simpa using .repairsAnswer s.session.attempts.length
  | filled now _ _ _ =>
      refine spelled.enter (by rw [now]; rfl) ?_ fun later named => ?_
      · rw [path, events_produced, events_received, List.filterMap_append]
        exact (List.append_nil _).trans (path_asked s _)
      · obtain rfl : PhaseName.validating = later := Option.some.inj named
        simpa using .checks s.session.attempts.length
  | unanswered now _ _ => exact spelled.enter (by rw [now]; rfl) (path_asked s _) ended
  | askingStopped now _ => exact spelled.enter (by rw [now]; rfl) (path_asked s _) ended
  | askingDied now _ _ | askingOverran now _ _ =>
      exact spelled.enter (by rw [now]; rfl) (path_asked s _) ended
  | accepted now _ _ _ =>
      refine spelled.enter (by rw [now]; rfl) ?_ ended
      rw [path, events_reported, List.filterMap_append]
      exact (List.append_nil _).trans (path_checked s _)
  | rejected now _ _ _ =>
      refine spelled.enter (by rw [now]; rfl) ?_ fun later named => ?_
      · rw [path, session_judge, events_reported, List.filterMap_append]
        exact (List.append_nil _).trans (path_checked s _)
      · obtain rfl := name?_judge _ _ _ named
        simpa using .repairsCandidate s.session.attempts.length
  | unchecked now _ _ => exact spelled.enter (by rw [now]; rfl) (path_checked s _) ended
  | checkingStopped now _ => exact spelled.enter (by rw [now]; rfl) (path_checked s _) ended
  | checkingDied now _ _ | checkingOverran now _ _ =>
      exact spelled.enter (by rw [now]; rfl) (path_checked s _) ended
  | repaired now =>
      refine spelled.enter (by rw [now]; rfl) ?_ fun later named => ?_
      · rw [path, events_repair, List.filterMap_append]
        rfl
      · obtain rfl : PhaseName.generating = later := Option.some.inj named
        simpa [repair, entered] using .asksAgain s.session.attempts.length

/-! ### Whole runs -/

variable (w settings registry cookbook) in
/-- At every moment of a run the events tell of the way through the phases, and of the attempts
unless the session has crashed. -/
theorem recorded_stateAfter (n : Nat) :
    let s := stateAfter w settings registry cookbook n
    (Recorded (Run.opening settings registry cookbook) s
        (callsBefore w settings registry cookbook n) ∨ ∃ message, s.phase = .crashed message) ∧
      Spelled s := by
  -- What the latest attempt holds between two steps is in `Standing`, which calls were made for it
  -- in `Tallied`, and that it has no feedback yet in `Chained`.
  have all := invariant w settings registry cookbook
    (fun s calls => ((Recorded (Run.opening settings registry cookbook) s calls ∨
        ∃ message, s.phase = .crashed message) ∧ Spelled s) ∧
      Attempt.Chained (.build cookbook registry settings.examples) s.session.attempts ∧
      Tallied w settings s calls ∧ Standing cookbook s calls)
    ⟨⟨.inl rfl, PhaseName.isPath_start⟩, trivial, tallied_initial, standing_initial⟩
    (fun _ _ _ _ ⟨⟨recorded, spelled⟩, chained, tallied, standing⟩ t =>
      ⟨⟨recorded_transition (recorded.resolve_right (not_crashed_of_transition t)) standing tallied
            chained t,
          spelled_transition spelled standing t⟩,
        chained_transition chained standing t, tallied_transition tallied standing t,
        standing_transition standing t⟩) n
  exact all.1

end Run

end Rolewright
