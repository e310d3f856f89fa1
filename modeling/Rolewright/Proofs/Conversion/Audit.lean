/-
# The two records of a session agree

What the events of a session say is what its attempts hold, what was called for them, and how it
ended. The chapters of the attempts are on record already; what is left is to read the events about
one attempt off them (`Attempt.AreTold.isTold_ofAttempt`), and to tell in which wait a session was
cancelled. It was in one after a call of the generator where that was called for the latest attempt
and there is no answer, and in one after a call of the gateway where that was called and there is no
report (`Run.cancelled_iff`).

An attempt stores its calls in 32 bits, while an event is recorded for each repetition. The two
agree where 32 bits hold the number of calls that may be made.
-/

import Rolewright.Proofs.Conversion.Chronicle

namespace Rolewright

/-- The events about the attempt of a number. -/
def Event.ofAttempt (events : List Event) (number : Nat) : List Event :=
  events.filter (·.attempt? == some number)

theorem Event.ofAttempt_append (events later : List Event) (number : Nat) :
    ofAttempt (events ++ later) number = ofAttempt events number ++ ofAttempt later number :=
  List.filter_append _ _

theorem Event.ofAttempt_of_forall_ne {events : List Event} {number : Nat}
    (others : ∀ e ∈ events, e.attempt? ≠ some number) : ofAttempt events number = [] :=
  List.filter_eq_nil_iff.mpr fun e member same => others e member (beq_iff_eq.mp same)

namespace Attempt

/-- Events say what an attempt holds and what was called for it, where the session may have been
cancelled in the wait after a call of the generator, or after one of the gateway. -/
structure IsAudited (a : Attempt) (calls : List Inquiry)
    (cancelledAsking cancelledChecking : Prop) (own : List Event) : Prop where
  candidate : ∀ role, a.candidate = some role → ∃ fingerprint, a.fingerprint = some fingerprint ∧
    own.filter Event.isCandidate = [.candidateProduced a.number role.size fingerprint]
  noCandidate : a.candidate = none → own.filter Event.isCandidate = []
  verdict : ∀ role report, a.candidate = some role → a.report = some report →
    own.filter Event.isVerdict =
      [.validationFinished a.number report.ok report.blocking.length]
  noVerdict : a.candidate = none ∨ a.report = none → own.filter Event.isVerdict = []
  feedback : ∀ feedback, a.feedback = some feedback → own.filter Event.isFeedback =
    [.feedbackIssued a.number feedback.categories feedback.generic]
  noFeedback : a.feedback = none → own.filter Event.isFeedback = []
  askedAgain : ∃ count, own.filterMap Event.askedAgain? = List.range' 1 count ∧
    (cancelledAsking → count = Inquiry.askedFor calls a.number) ∧
    (¬ cancelledAsking → count = Inquiry.askedFor calls a.number - 1)
  checkedAgain : ∃ count, own.filterMap Event.checkedAgain? = List.range' 1 count ∧
    (cancelledChecking → count = Inquiry.checkedFor calls a.number) ∧
    (¬ cancelledChecking → count = Inquiry.checkedFor calls a.number - 1)

variable {a latest : Attempt} {earlier attempts : List Attempt} {asked checked : Nat}
  {offAsking offChecking : Bool} {opening own events asking checking : List Event} {e : Event}
  {calls : List Inquiry}

/-! ## The events about an attempt -/

theorem eq_or_mem_of_mem_under {phase : PhaseName} {entered : Bool}
    (member : e ∈ a.under phase entered events) :
    e = .phaseEntered phase a.number ∨ e ∈ events := by
  unfold under at member
  split at member
  · exact List.mem_cons.mp member
  · cases member

theorem eq_of_mem_candidateTold (member : e ∈ a.candidateTold) :
    ∃ files fingerprint, e = .candidateProduced a.number files fingerprint := by
  unfold candidateTold at member
  split at member
  · exact ⟨_, _, List.mem_singleton.mp member⟩
  · cases member

theorem eq_of_mem_verdictTold (member : e ∈ a.verdictTold) :
    ∃ ok blocking, e = .validationFinished a.number ok blocking := by
  unfold verdictTold at member
  split at member
  · exact ⟨_, _, List.mem_singleton.mp member⟩
  · cases member

theorem eq_of_mem_feedbackTold (member : e ∈ a.feedbackTold) :
    ∃ categories generic, e = .feedbackIssued a.number categories generic := by
  unfold feedbackTold at member
  split at member
  · exact ⟨_, _, List.mem_singleton.mp member⟩
  · cases member

/-- All events of a chapter are about its attempt. -/
theorem IsTold.attempt? (told : a.IsTold asked checked offAsking offChecking own)
    (member : e ∈ own) : e.attempt? = some a.number := by
  obtain ⟨_, _, ⟨asks, -, rfl⟩, ⟨checks, -, rfl⟩, rfl⟩ := told
  simp only [chapter, List.mem_append, or_assoc] at member
  rcases member with inAsking | inCandidate | inChecking | inVerdict | inFeedback
  · rcases eq_or_mem_of_mem_under inAsking with rfl | retried
    · rfl
    · obtain ⟨_, -, rfl⟩ := List.mem_map.mp retried
      rfl
  · obtain ⟨_, _, rfl⟩ := eq_of_mem_candidateTold inCandidate
    rfl
  · rcases eq_or_mem_of_mem_under inChecking with rfl | retried
    · rfl
    · obtain ⟨_, -, rfl⟩ := List.mem_map.mp retried
      rfl
  · obtain ⟨_, _, rfl⟩ := eq_of_mem_verdictTold inVerdict
    rfl
  · rcases eq_or_mem_of_mem_under inFeedback with rfl | issued
    · rfl
    · obtain ⟨_, _, rfl⟩ := eq_of_mem_feedbackTold issued
      rfl

/-- Events that tell of attempts open the session or are about one of the attempts. -/
theorem AreTold.mem_or_attempt? (told : AreTold opening calls attempts events)
    (member : e ∈ events) : e ∈ opening ∨ ∃ a ∈ attempts, e.attempt? = some a.number := by
  induction attempts generalizing events with
  | nil =>
      obtain rfl : events = opening := told
      exact .inl member
  | cons latest earlier ih =>
      obtain ⟨before, own, rfl, older, told⟩ := told
      rcases List.mem_append.mp member with inBefore | inOwn
      · exact (ih older inBefore).imp_right List.exists_mem_cons_of_exists
      · exact .inr ⟨latest, .head _, told.attempt? inOwn⟩

/-- A chapter is all that its own events say of its attempt. -/
theorem IsTold.ofAttempt_own (told : a.IsTold asked checked offAsking offChecking own) :
    Event.ofAttempt own a.number = own :=
  List.filter_eq_self.mpr fun _ member => beq_iff_eq.mpr (told.attempt? member)

/-- Nothing is told of an attempt before it is begun. -/
theorem AreTold.ofAttempt_next (told : AreTold opening calls attempts events)
    (silent : ∀ e ∈ opening, e.attempt? = none) (numbered : Numbered attempts) :
    Event.ofAttempt events (attempts.length + 1) = [] := by
  apply Event.ofAttempt_of_forall_ne
  intro e member same
  rcases told.mem_or_attempt? member with opens | ⟨a, among, about⟩
  · cases (silent e opens).symm.trans same
  · have bound := Run.number_le_of_numbered numbered among
    have number : a.number = attempts.length + 1 := Option.some.inj (about.symm.trans same)
    omega

/-- After what was told before, the chapter of the latest attempt is all that is said of it. -/
theorem IsTold.ofAttempt_latest {before : List Event}
    (told : latest.IsTold asked checked offAsking offChecking own)
    (older : AreTold opening calls earlier before) (silent : ∀ e ∈ opening, e.attempt? = none)
    (numbered : Numbered (latest :: earlier)) :
    Event.ofAttempt (before ++ own) latest.number = own := by
  have next := older.ofAttempt_next silent numbered.2
  rw [← numbered.1] at next
  rw [Event.ofAttempt_append, next, told.ofAttempt_own, List.nil_append]

/-- The chapter of a later attempt says nothing of those before it. -/
theorem IsTold.ofAttempt_earlier (told : latest.IsTold asked checked offAsking offChecking own)
    (numbered : Numbered (latest :: earlier)) (member : a ∈ earlier) :
    Event.ofAttempt own a.number = [] := by
  apply Event.ofAttempt_of_forall_ne
  intro e inOwn same
  have number : latest.number = a.number :=
    Option.some.inj ((told.attempt? inOwn).symm.trans same)
  have bound := Run.number_le_of_numbered numbered.2 member
  have last := numbered.1
  omega

/-- Events that tell of attempts say of each what its chapter says. -/
theorem AreTold.isTold_ofAttempt (told : AreTold opening calls attempts events)
    (silent : ∀ e ∈ opening, e.attempt? = none) (numbered : Numbered attempts)
    (member : a ∈ attempts) :
    a.IsTold (Inquiry.askedFor calls a.number) (Inquiry.checkedFor calls a.number) false false
      (Event.ofAttempt events a.number) := by
  induction attempts generalizing events with
  | nil => cases member
  | cons latest earlier ih =>
      obtain ⟨before, own, rfl, older, told⟩ := told
      rcases List.mem_cons.mp member with rfl | among
      · rw [told.ofAttempt_latest older silent numbered]
        exact told
      · rw [Event.ofAttempt_append, told.ofAttempt_earlier numbered among, List.append_nil]
        exact ih older numbered.2 among

/-! ## What the events about an attempt say -/

/-- Where nothing was called no repetition is announced. -/
theorem Announces.eq_nil {announce : Nat → String → Duration → Event} {count : Nat}
    {brokenOff : Bool} (announces : Announces announce (repeats count brokenOff) events)
    (none : count = 0) : events = [] := by
  obtain ⟨retries, numbers, rfl⟩ := announces
  rw [none, repeats_zero] at numbers
  rw [List.map_eq_nil_iff.mp numbers]
  rfl

section Reading

variable {β : Type} {read : Event → Option β}

theorem filterMap_under {phase : PhaseName} {entered : Bool}
    (silent : read (.phaseEntered phase a.number) = none) (absent : entered = false → events = []) :
    (a.under phase entered events).filterMap read = events.filterMap read := by
  cases entered with
  | false =>
      rw [absent rfl]
      rfl
  | true => exact List.filterMap_cons_none silent

theorem Announces.filterMap_eq_nil {announce : Nat → String → Duration → Event} {count : Nat}
    (announces : Announces announce count events)
    (silent : ∀ number error delay, read (announce number error delay) = none) :
    events.filterMap read = [] := by
  obtain ⟨retries, -, rfl⟩ := announces
  exact List.filterMap_eq_nil_iff.mpr (List.forall_mem_map.mpr fun _ _ => silent _ _ _)

theorem filterMap_candidateTold_eq_nil
    (silent : ∀ files fingerprint, read (.candidateProduced a.number files fingerprint) = none) :
    a.candidateTold.filterMap read = [] :=
  List.filterMap_eq_nil_iff.mpr fun _ member => by
    obtain ⟨_, _, rfl⟩ := eq_of_mem_candidateTold member
    exact silent _ _

theorem filterMap_verdictTold_eq_nil
    (silent : ∀ ok blocking, read (.validationFinished a.number ok blocking) = none) :
    a.verdictTold.filterMap read = [] :=
  List.filterMap_eq_nil_iff.mpr fun _ member => by
    obtain ⟨_, _, rfl⟩ := eq_of_mem_verdictTold member
    exact silent _ _

theorem filterMap_feedbackTold_eq_nil
    (silent : ∀ categories generic, read (.feedbackIssued a.number categories generic) = none) :
    a.feedbackTold.filterMap read = [] :=
  List.filterMap_eq_nil_iff.mpr fun _ member => by
    obtain ⟨_, _, rfl⟩ := eq_of_mem_feedbackTold member
    exact silent _ _

/-- The numbers of the repetitions that are announced run from one on. -/
theorem Announces.filterMap_number {announce : Nat → String → Duration → Event} {count : Nat}
    {read : Event → Option Nat} (announces : Announces announce count events)
    (reads : ∀ number error delay, read (announce number error delay) = some number) :
    events.filterMap read = List.range' 1 count := by
  obtain ⟨retries, numbers, rfl⟩ := announces
  rw [List.filterMap_map, ← numbers, ← List.filterMap_eq_map]
  exact List.filterMap_congr fun _ _ => reads _ _ _

/-- What is read off a chapter, unless it is about phases, is read off its parts. -/
theorem filterMap_chapter (silent : ∀ phase, read (.phaseEntered phase a.number) = none)
    (unasked : asked = 0 → asking = []) (unchecked : checked = 0 → checking = []) :
    (a.chapter (asked != 0) (checked != 0) asking checking).filterMap read =
      asking.filterMap read ++ a.candidateTold.filterMap read ++ checking.filterMap read ++
        a.verdictTold.filterMap read ++ a.feedbackTold.filterMap read := by
  have untold (absent : a.feedback.isSome = false) : a.feedbackTold = [] := by
    rw [feedbackTold, Option.not_isSome_iff_eq_none.mp (Bool.eq_false_iff.mp absent)]
  rw [chapter, List.filterMap_append, List.filterMap_append, List.filterMap_append,
    List.filterMap_append, filterMap_under (silent _) fun none => unasked (by simpa using none),
    filterMap_under (silent _) fun none => unchecked (by simpa using none),
    filterMap_under (silent _) untold]

/-- What is not about phases and repetitions is read off what an attempt holds. -/
theorem IsTold.filterMap_held (told : a.IsTold asked checked offAsking offChecking own)
    (phase : ∀ phase, read (.phaseEntered phase a.number) = none)
    (asks : ∀ number error delay, read (.generationRetried a.number number error delay) = none)
    (checks : ∀ number error delay, read (.gatewayRetried a.number number error delay) = none) :
    own.filterMap read =
      a.candidateTold.filterMap read ++ a.verdictTold.filterMap read ++
        a.feedbackTold.filterMap read := by
  obtain ⟨asking, checking, announcesAsking, announcesChecking, rfl⟩ := told
  rw [filterMap_chapter phase announcesAsking.eq_nil announcesChecking.eq_nil,
    announcesAsking.filterMap_eq_nil asks, announcesChecking.filterMap_eq_nil checks,
    List.nil_append, List.append_nil]

variable (read) in
/-- What is about repetitions alone is read off those that were announced. -/
theorem IsTold.filterMap_repeated (told : a.IsTold asked checked offAsking offChecking own)
    (phase : ∀ phase, read (.phaseEntered phase a.number) = none)
    (candidate : ∀ files fingerprint, read (.candidateProduced a.number files fingerprint) = none)
    (verdict : ∀ ok blocking, read (.validationFinished a.number ok blocking) = none)
    (feedback : ∀ categories generic, read (.feedbackIssued a.number categories generic) = none) :
    ∃ asking checking, Announces (.generationRetried a.number) (repeats asked offAsking) asking ∧
      Announces (.gatewayRetried a.number) (repeats checked offChecking) checking ∧
      own.filterMap read = asking.filterMap read ++ checking.filterMap read := by
  obtain ⟨asking, checking, announcesAsking, announcesChecking, rfl⟩ := told
  refine ⟨asking, checking, announcesAsking, announcesChecking, ?_⟩
  rw [filterMap_chapter phase announcesAsking.eq_nil announcesChecking.eq_nil,
    filterMap_candidateTold_eq_nil candidate, filterMap_verdictTold_eq_nil verdict,
    filterMap_feedbackTold_eq_nil feedback, List.append_nil, List.append_nil, List.append_nil]

end Reading

/-- The events of one kind are those of one part of a chapter. -/
theorem filter_eq_of_filterMap {kind : Event → Bool} {part : List Event}
    (read : own.filterMap (Option.guard kind) = part.filterMap (Option.guard kind))
    (whole : ∀ e ∈ part, kind e = true) : own.filter kind = part := by
  rw [← List.filterMap_eq_filter, read, List.filterMap_eq_filter, List.filter_eq_self.mpr whole]

section Told

variable (told : a.IsTold asked checked offAsking offChecking own)

include told

theorem IsTold.filter_isCandidate : own.filter Event.isCandidate = a.candidateTold := by
  refine filter_eq_of_filterMap ?_ fun e member => ?_
  · rw [told.filterMap_held (fun _ => rfl) (fun _ _ _ => rfl)
      (fun _ _ _ => rfl), filterMap_verdictTold_eq_nil fun _ _ => rfl,
      filterMap_feedbackTold_eq_nil fun _ _ => rfl, List.append_nil, List.append_nil]
  · obtain ⟨_, _, rfl⟩ := eq_of_mem_candidateTold member
    rfl

theorem IsTold.filter_isVerdict : own.filter Event.isVerdict = a.verdictTold := by
  refine filter_eq_of_filterMap ?_ fun e member => ?_
  · rw [told.filterMap_held (fun _ => rfl) (fun _ _ _ => rfl)
      (fun _ _ _ => rfl), filterMap_candidateTold_eq_nil fun _ _ => rfl,
      filterMap_feedbackTold_eq_nil fun _ _ => rfl, List.nil_append, List.append_nil]
  · obtain ⟨_, _, rfl⟩ := eq_of_mem_verdictTold member
    rfl

theorem IsTold.filter_isFeedback : own.filter Event.isFeedback = a.feedbackTold := by
  refine filter_eq_of_filterMap ?_ fun e member => ?_
  · rw [told.filterMap_held (fun _ => rfl) (fun _ _ _ => rfl)
      (fun _ _ _ => rfl), filterMap_candidateTold_eq_nil fun _ _ => rfl,
      filterMap_verdictTold_eq_nil fun _ _ => rfl, List.nil_append, List.nil_append]
  · obtain ⟨_, _, rfl⟩ := eq_of_mem_feedbackTold member
    rfl

theorem IsTold.filterMap_askedAgain? :
    own.filterMap Event.askedAgain? = List.range' 1 (repeats asked offAsking) := by
  obtain ⟨asking, checking, asks, checks, read⟩ := told.filterMap_repeated
    Event.askedAgain? (fun _ => rfl) (fun _ _ => rfl) (fun _ _ => rfl)
    fun _ _ => rfl
  rw [read, asks.filterMap_number fun _ _ _ => rfl, checks.filterMap_eq_nil fun _ _ _ => rfl,
    List.append_nil]

theorem IsTold.filterMap_checkedAgain? :
    own.filterMap Event.checkedAgain? = List.range' 1 (repeats checked offChecking) := by
  obtain ⟨asking, checking, asks, checks, read⟩ := told.filterMap_repeated
    Event.checkedAgain? (fun _ => rfl) (fun _ _ => rfl) (fun _ _ => rfl)
    fun _ _ => rfl
  rw [read, checks.filterMap_number fun _ _ _ => rfl, asks.filterMap_eq_nil fun _ _ _ => rfl,
    List.nil_append]

end Told

/-- How often a call was repeated, told by whether it was broken off after a call at all. -/
theorem repeats_eq {cancelled : Prop} (iff : cancelled ↔ offAsking = true ∧ asked ≠ 0) :
    (cancelled → repeats asked offAsking = asked) ∧
      (¬ cancelled → repeats asked offAsking = asked - 1) := by
  refine ⟨fun told => by rw [repeats, if_pos (iff.mp told).1], fun untold => ?_⟩
  cases offAsking with
  | false => rfl
  | true =>
      have zero : asked = 0 := by simpa [iff] using untold
      rw [zero, repeats_zero]

/-- What is told of an attempt is what it holds. -/
theorem IsTold.isAudited {cancelledAsking cancelledChecking : Prop}
    (told : a.IsTold (Inquiry.askedFor calls a.number) (Inquiry.checkedFor calls a.number) offAsking
      offChecking own)
    (fingerprint : a.fingerprint = a.candidate.map Fingerprint.ofRole)
    (asks : cancelledAsking ↔ offAsking = true ∧ Inquiry.askedFor calls a.number ≠ 0)
    (checks : cancelledChecking ↔ offChecking = true ∧ Inquiry.checkedFor calls a.number ≠ 0) :
    a.IsAudited calls cancelledAsking cancelledChecking own := by
  have candidates := told.filter_isCandidate
  have verdicts := told.filter_isVerdict
  have feedbacks := told.filter_isFeedback
  constructor
  case candidate =>
    intro role filled
    exact ⟨_, by rw [fingerprint, filled]; rfl, by rw [candidates, candidateTold, filled]⟩
  case noCandidate =>
    intro none
    rw [candidates, candidateTold, none]
  case verdict =>
    intro role report filled reported
    rw [verdicts, verdictTold, filled, reported]
  case noVerdict =>
    rintro (none | none)
    · rw [verdicts, verdictTold, none]
    · rw [verdicts, verdictTold, none]
      cases a.candidate <;> rfl
  case feedback =>
    intro feedback given
    rw [feedbacks, feedbackTold, given]
  case noFeedback =>
    intro none
    rw [feedbacks, feedbackTold, none]
  case askedAgain => exact ⟨_, told.filterMap_askedAgain?, repeats_eq asks⟩
  case checkedAgain => exact ⟨_, told.filterMap_checkedAgain?, repeats_eq checks⟩

end Attempt

namespace Run

variable {w : Surroundings} {settings : SessionSettings} {registry : Mapping.Registry}
  {cookbook : Cookbook} {s : State} {latest : Attempt} {earlier : List Attempt}

/-! ## Waits that are broken off -/

variable (w settings) in
/-- The next step calls the generator and is cancelled in the wait after a call. -/
def BreaksOffAsking (s : State) : Prop :=
  ∃ request, s.phase = .generating request ∧ w.cancelled s.moment = false ∧
    (askRecord w settings (looked s) request).result = .cancelled

variable (w settings) in
/-- The next step calls the gateway and is cancelled in the wait after a call. -/
def BreaksOffChecking (s : State) : Prop :=
  ∃ request candidate defects, s.phase = .validating request candidate defects ∧
    w.cancelled s.moment = false ∧
    (checkRecord w settings (looked s) candidate).result = .cancelled

/-- A session that is broken off while it calls the generator has called it and holds no answer. -/
theorem BreaksOffAsking.after (registry : Mapping.Registry) {calls : List Inquiry}
    (broken : BreaksOffAsking w settings s) (standing : Standing cookbook s calls)
    (tallied : Tallied w settings s calls) :
    (step w settings registry cookbook s).phase.isCancelled = true ∧
      ∃ latest earlier,
        (step w settings registry cookbook s).session.attempts = latest :: earlier ∧
        s.session.attempts.length = earlier.length + 1 ∧ latest.response = none ∧
        Inquiry.askedFor (calls ++ inquiries w settings s) (earlier.length + 1) ≠ 0 ∧
        Inquiry.checkedFor (calls ++ inquiries w settings s) (earlier.length + 1) = 0 := by
  obtain ⟨request, now, untold, result⟩ := broken
  obtain ⟨earlier, before, -, -⟩ := standing.generating now
  have stepped : step w settings registry cookbook s =
      cancel (asked w settings (looked s) request) := by
    rw [askRecord] at result
    simp only [step, now, untold, Bool.false_eq_true, if_false]
    exact (generate_eq w settings cookbook (looked s) request).trans (by rw [result])
  have made : inquiries w settings s = askLog w settings (looked s) request := by
    simp only [inquiries, now, untold, Bool.false_eq_true, if_false]
  have length : s.session.attempts.length = earlier.length + 1 := by
    rw [before]
    rfl
  have attempts := attempts_asked w settings (looked s) request
  rw [attempts_looked, before] at attempts
  obtain ⟨asks, checks⟩ := tallied.calledFor_asked now
  rw [length] at asks checks
  rw [stepped, made]
  exact ⟨rfl, _, earlier, attempts, length, rfl, asks.symm ▸ length_askLog_ne_zero _ _, checks⟩

/-- A session that is broken off while it calls the gateway has called it and holds no report. -/
theorem BreaksOffChecking.after (registry : Mapping.Registry) {calls : List Inquiry}
    (broken : BreaksOffChecking w settings s) (standing : Standing cookbook s calls)
    (tallied : Tallied w settings s calls) :
    (step w settings registry cookbook s).phase.isCancelled = true ∧
      ∃ latest earlier,
        (step w settings registry cookbook s).session.attempts = latest :: earlier ∧
        s.session.attempts.length = earlier.length + 1 ∧
        latest.response.isNone = false ∧ latest.report = none ∧
        Inquiry.checkedFor (calls ++ inquiries w settings s) (earlier.length + 1) ≠ 0 := by
  obtain ⟨request, candidate, defects, now, untold, result⟩ := broken
  obtain ⟨latest, earlier, text, before, -, -, -, -, response, -, unreported, -, -⟩ :=
    standing.validating now
  have stepped : step w settings registry cookbook s =
      cancel (checked w settings (looked s) candidate) := by
    rw [checkRecord] at result
    simp only [step, now, untold, Bool.false_eq_true, if_false]
    exact (validate_eq w settings (looked s) request candidate defects).trans (by rw [result])
  have made : inquiries w settings s = checkLog w settings (looked s) candidate := by
    simp only [inquiries, now, untold, Bool.false_eq_true, if_false]
  have length : s.session.attempts.length = earlier.length + 1 := by
    rw [before]
    rfl
  have attempts := attempts_checked w settings (looked s) candidate
  rw [attempts_looked, before] at attempts
  have checks := (tallied.calledFor_checked now).2
  rw [length] at checks
  rw [stepped, made]
  exact ⟨rfl, _, earlier, attempts, length, by rw [response]; rfl, unreported,
    checks.symm ▸ length_checkLog_ne_zero _ _⟩

/-- A step that cancels a session breaks off calls, or comes before any. -/
theorem breaksOff_of_isCancelled (going : s.ended? = none)
    (cancelled : (step w settings registry cookbook s).phase.isCancelled = true) :
    (inquiries w settings s = [] ∧
        (step w settings registry cookbook s).session.attempts = s.session.attempts) ∨
      BreaksOffAsking w settings s ∨ BreaksOffChecking w settings s := by
  cases told : w.cancelled s.moment with
  | true =>
      refine .inl ⟨if_pos told, ?_⟩
      unfold step
      split
      · rfl
      · rfl
      all_goals
        rw [if_pos told]
        rfl
  | false =>
      have t := transition_step w settings registry cookbook going
      generalize step w settings registry cookbook s = next at t cancelled
      generalize inquiries w settings s = made at t
      cases t with
      | stopped _ toldSo => cases told.symm.trans toldSo
      | askingStopped now result => exact .inr (.inl ⟨_, now, told, result⟩)
      | checkingStopped now result => exact .inr (.inr ⟨_, _, _, now, told, result⟩)
      | vacant _ _ _ _ | rejected _ _ _ _ =>
          rw [isCancelled_judge] at cancelled
          cases cancelled
      | @unanswered _ error _ _ _ _ _ =>
          rw [giveUp] at cancelled
          split at cancelled <;> cases cancelled
      | begun _ | filled _ _ _ _ | askingDied _ _ _ | askingOverran _ _ _ | accepted _ _ _ _
      | unchecked _ _ _ | checkingDied _ _ _ | checkingOverran _ _ _ | repaired _ => cases cancelled

/-- What a cancelled session holds tells whether its last step was broken off in a wait: then, and
only then, something was called for the latest attempt and brought nothing. -/
theorem breaksOff_iff (registry : Mapping.Registry) {calls : List Inquiry}
    (standing : Standing cookbook s calls) (tallied : Tallied w settings s calls)
    (going : s.ended? = none)
    (attempts : (step w settings registry cookbook s).session.attempts = latest :: earlier) :
    (BreaksOffAsking w settings s ↔
        (step w settings registry cookbook s).phase.isCancelled = true ∧
          latest.response.isNone = true ∧
          Inquiry.askedFor (calls ++ inquiries w settings s) (earlier.length + 1) ≠ 0) ∧
      (BreaksOffChecking w settings s ↔
        (step w settings registry cookbook s).phase.isCancelled = true ∧
          latest.report.isNone = true ∧
          Inquiry.checkedFor (calls ++ inquiries w settings s) (earlier.length + 1) ≠ 0) := by
  have asking (broken : BreaksOffAsking w settings s) : latest.response = none ∧
      Inquiry.askedFor (calls ++ inquiries w settings s) (earlier.length + 1) ≠ 0 ∧
      Inquiry.checkedFor (calls ++ inquiries w settings s) (earlier.length + 1) = 0 := by
    obtain ⟨-, _, _, after, -, holds⟩ := broken.after registry standing tallied
    obtain ⟨rfl, rfl⟩ := List.cons.inj (attempts.symm.trans after)
    exact holds
  have checking (broken : BreaksOffChecking w settings s) :
      latest.response.isNone = false ∧ latest.report = none ∧
        Inquiry.checkedFor (calls ++ inquiries w settings s) (earlier.length + 1) ≠ 0 := by
    obtain ⟨-, _, _, after, -, holds⟩ := broken.after registry standing tallied
    obtain ⟨rfl, rfl⟩ := List.cons.inj (attempts.symm.trans after)
    exact holds
  -- A session that is cancelled before it calls anything has an answer to what it called before.
  have settled (silent : inquiries w settings s = [])
      (same : (step w settings registry cookbook s).session.attempts = s.session.attempts) :
      (Inquiry.askedFor (calls ++ inquiries w settings s) (earlier.length + 1) = 0 ∨
          latest.response.isNone = false) ∧
        (Inquiry.checkedFor (calls ++ inquiries w settings s) (earlier.length + 1) = 0 ∨
          latest.report.isNone = false) := by
    have before := same.symm.trans attempts
    have number := tallied.number_latest before
    rw [before, List.length_cons] at number
    rw [silent, List.append_nil, ← number]
    exact tallied.settled standing going before
  refine ⟨⟨fun broken => ?_, fun ⟨cancelled, unanswered, called⟩ => ?_⟩,
    ⟨fun broken => ?_, fun ⟨cancelled, unreported, called⟩ => ?_⟩⟩
  · obtain ⟨unanswered, called, -⟩ := asking broken
    exact ⟨(broken.after registry standing tallied).1, by rw [unanswered]; rfl, called⟩
  · rcases breaksOff_of_isCancelled going cancelled with ⟨silent, same⟩ | broken | broken
    · rcases (settled silent same).1 with uncalled | answered
      · exact absurd uncalled called
      · cases unanswered.symm.trans answered
    · exact broken
    · cases unanswered.symm.trans (checking broken).1
  · obtain ⟨-, unreported, called⟩ := checking broken
    exact ⟨(broken.after registry standing tallied).1, by rw [unreported]; rfl, called⟩
  · rcases breaksOff_of_isCancelled going cancelled with ⟨silent, same⟩ | broken | broken
    · rcases (settled silent same).2 with uncalled | reported
      · exact absurd uncalled called
      · cases unreported.symm.trans reported
    · exact absurd (asking broken).2.2 called
    · exact broken

variable (w settings registry cookbook) in
/-- The session is cancelled in the wait after a call of the generator for the attempt of a
number. -/
def CancelledAsking (number : Nat) : Prop :=
  ∃ n, BreaksOffAsking w settings (stateAfter w settings registry cookbook n) ∧
    (stateAfter w settings registry cookbook n).session.attempts.length = number

variable (w settings registry cookbook) in
/-- The session is cancelled in the wait after a call of the gateway for the attempt of a number. -/
def CancelledChecking (number : Nat) : Prop :=
  ∃ n, BreaksOffChecking w settings (stateAfter w settings registry cookbook n) ∧
    (stateAfter w settings registry cookbook n).session.attempts.length = number

/-- A session that has ended took a last step. -/
theorem exists_last_step {n : Nat}
    (closed : (stateAfter w settings registry cookbook n).ended?.isSome) :
    ∃ m, (stateAfter w settings registry cookbook m).ended? = none ∧
      (stateAfter w settings registry cookbook (m + 1)).ended?.isSome := by
  induction n with
  | zero => cases closed
  | succ n ih =>
      cases before : (stateAfter w settings registry cookbook n).ended? with
      | none => exact ⟨n, before, closed⟩
      | some concluded => exact ih (Option.isSome_of_mem before)

/-- The step that breaks off the calls of a session is its last, and its calls are the last ones. -/
theorem step_eq_last {n : Nat}
    (closed : (stateAfter w settings registry cookbook (n + 1)).ended?.isSome) :
    step w settings registry cookbook (stateAfter w settings registry cookbook n) =
        stateAfter w settings registry cookbook (steps settings cookbook) ∧
      callsBefore w settings registry cookbook n ++
          inquiries w settings (stateAfter w settings registry cookbook n) =
        transcript w settings registry cookbook := by
  rw [← stateAfter_succ, ← callsBefore]
  exact stateAfter_of_ended closed

theorem isSome_ended_of_isCancelled (cancelled : s.phase.isCancelled = true) :
    s.ended?.isSome := by
  unfold State.ended?
  cases phase : s.phase with
  | concluded outcome => rfl
  | crashed message => rfl
  | start | generating _ | validating _ _ _ | repairing _ _ =>
      rw [phase] at cancelled
      cases cancelled

/-- Where calls were broken off is told by how the session ended. -/
theorem cancelled_iff (number : Nat)
    (attempts : (stateAfter w settings registry cookbook
      (steps settings cookbook)).session.attempts = latest :: earlier) :
    let last := stateAfter w settings registry cookbook (steps settings cookbook)
    let calls := transcript w settings registry cookbook
    (CancelledAsking w settings registry cookbook number ↔
        earlier.length + 1 = number ∧ last.phase.isCancelled = true ∧
          latest.response.isNone = true ∧ Inquiry.askedFor calls (earlier.length + 1) ≠ 0) ∧
      (CancelledChecking w settings registry cookbook number ↔
        earlier.length + 1 = number ∧ last.phase.isCancelled = true ∧
          latest.report.isNone = true ∧ Inquiry.checkedFor calls (earlier.length + 1) ≠ 0) := by
  intro last calls
  obtain ⟨m, going, closed⟩ := exists_last_step
    (Option.isSome_of_mem (ended_stateAfter w settings registry cookbook))
  obtain ⟨stepped, made⟩ := step_eq_last closed
  have standing (n : Nat) : Standing cookbook (stateAfter w settings registry cookbook n) _ :=
    standing_stateAfter n
  have tallied (n : Nat) : Tallied w settings (stateAfter w settings registry cookbook n) _ :=
    tallied_stateAfter n
  have lastStep := breaksOff_iff registry (standing m) (tallied m) going
    (by rw [stepped, attempts])
  rw [stepped, made] at lastStep
  refine ⟨⟨?_, fun ⟨number, holds⟩ => ?_⟩, ⟨?_, fun ⟨number, holds⟩ => ?_⟩⟩
  · rintro ⟨n, broken, rfl⟩
    obtain ⟨cancelled, _, _, after, length, unanswered, called, -⟩ :=
      broken.after registry (standing n) (tallied n)
    obtain ⟨ended, all⟩ := step_eq_last (n := n)
      (by rw [stateAfter_succ]; exact isSome_ended_of_isCancelled cancelled)
    rw [ended] at cancelled after
    rw [all] at called
    obtain ⟨rfl, rfl⟩ := List.cons.inj (attempts.symm.trans after)
    exact ⟨length.symm, cancelled, by rw [unanswered]; rfl, called⟩
  · have broken := lastStep.1.mpr holds
    obtain ⟨-, _, _, after, length, -⟩ := broken.after registry (standing m) (tallied m)
    rw [stepped] at after
    obtain ⟨-, rfl⟩ := List.cons.inj (attempts.symm.trans after)
    exact ⟨m, broken, length.trans number⟩
  · rintro ⟨n, broken, rfl⟩
    obtain ⟨cancelled, _, _, after, length, -, unreported, called⟩ :=
      broken.after registry (standing n) (tallied n)
    obtain ⟨ended, all⟩ := step_eq_last (n := n)
      (by rw [stateAfter_succ]; exact isSome_ended_of_isCancelled cancelled)
    rw [ended] at cancelled after
    rw [all] at called
    obtain ⟨rfl, rfl⟩ := List.cons.inj (attempts.symm.trans after)
    exact ⟨length.symm, cancelled, by rw [unreported]; rfl, called⟩
  · have broken := lastStep.2.mpr holds
    obtain ⟨-, _, _, after, length, -⟩ := broken.after registry (standing m) (tallied m)
    rw [stepped] at after
    obtain ⟨-, rfl⟩ := List.cons.inj (attempts.symm.trans after)
    exact ⟨m, broken, length.trans number⟩

/-! ## The whole session -/

theorem attempt?_of_mem_opening {e : Event} (member : e ∈ opening settings registry cookbook) :
    e.attempt? = none ∧ e.isConclusion = false := by
  rcases List.mem_cons.mp member with rfl | last
  · exact ⟨rfl, rfl⟩
  · rw [List.mem_singleton.mp last]
    exact ⟨rfl, rfl⟩

/-- The events of a session open it or are about one of its attempts. -/
theorem Recorded.mem_or_attempt? {opening : List Event} {e : Event} {calls : List Inquiry}
    (recorded : Recorded opening s calls) (member : e ∈ s.session.events) :
    e ∈ opening ∨ ∃ a ∈ s.session.attempts, e.attempt? = some a.number := by
  cases attempts : s.session.attempts with
  | nil =>
      rw [Recorded, attempts] at recorded
      rw [show s.session.events = [] from recorded] at member
      cases member
  | cons latest earlier =>
      obtain ⟨before, own, events, older, told⟩ := (recorded_iff_of_cons attempts).mp recorded
      rw [events] at member
      rcases List.mem_append.mp member with inBefore | inOwn
      · exact (older.mem_or_attempt? inBefore).imp_right List.exists_mem_cons_of_exists
      · exact .inr ⟨latest, .head _, told.attempt? inOwn⟩

/-- When a session has ended, the events about an attempt say what the attempt holds. -/
theorem Recorded.isAudited_of_mem {a : Attempt}
    (recorded : Recorded (opening settings registry cookbook)
      (stateAfter w settings registry cookbook (steps settings cookbook))
      (transcript w settings registry cookbook))
    (member : a ∈ (stateAfter w settings registry cookbook
      (steps settings cookbook)).session.attempts) :
    a.IsAudited (transcript w settings registry cookbook)
      (CancelledAsking w settings registry cookbook a.number)
      (CancelledChecking w settings registry cookbook a.number)
      (Event.ofAttempt (stateAfter w settings registry cookbook
        (steps settings cookbook)).session.events a.number) := by
  have tallied : Tallied w settings (stateAfter w settings registry cookbook
      (steps settings cookbook)) _ := tallied_stateAfter (steps settings cookbook)
  have numbered := tallied.numbered
  have standing : Standing cookbook (stateAfter w settings registry cookbook
      (steps settings cookbook)) _ := standing_stateAfter (steps settings cookbook)
  have fingerprint := (standing.coherent a member).fingerprint
  have silent := fun e (opens : e ∈ opening settings registry cookbook) =>
    (attempt?_of_mem_opening opens).1
  cases attempts : (stateAfter w settings registry cookbook
      (steps settings cookbook)).session.attempts with
  | nil =>
      rw [attempts] at member
      cases member
  | cons latest earlier =>
      obtain ⟨before, own, events, older, told⟩ := (recorded_iff_of_cons attempts).mp recorded
      have cancelled := cancelled_iff a.number attempts
      rw [attempts] at member numbered
      rw [events]
      rcases List.mem_cons.mp member with rfl | among
      · rw [told.ofAttempt_latest older silent numbered]
        refine told.isAudited fingerprint ?_ ?_
        · rw [cancelled.1, and_iff_right numbered.1.symm, Bool.and_eq_true, and_assoc, numbered.1]
        · rw [cancelled.2, and_iff_right numbered.1.symm, Bool.and_eq_true, and_assoc, numbered.1]
      · have bound := number_le_of_numbered numbered.2 among
        have later : earlier.length + 1 ≠ a.number := by omega
        have asking := fun broken => later (cancelled.1.mp broken).1
        have checking := fun broken => later (cancelled.2.mp broken).1
        rw [Event.ofAttempt_append, told.ofAttempt_earlier numbered among, List.append_nil]
        exact (older.isTold_ofAttempt silent numbered.2 among).isAudited fingerprint
          (iff_of_false asking fun ⟨off, _⟩ => nomatch off)
          (iff_of_false checking fun ⟨off, _⟩ => nomatch off)

end Run

/-- The events of a session that has ended agree with what it holds and with the calls it made. They
end with its only conclusion, which has its outcome and counts its attempts. What is told of each
attempt is what it holds and what was called for it, and nothing is told of other ones. The phases
that are entered are a way through the phases of a session. -/
structure Concluded.Agrees (c : Concluded) (calls : List Inquiry)
    (cancelledAsking cancelledChecking : Nat → Prop) : Prop where
  ends : ∃ before,
    c.events = before ++ [.sessionConcluded c.outcome.label c.attempts.length] ∧
      ∀ e ∈ before, e.isConclusion = false
  numbered : c.attempts.map (·.number) = List.range' 1 c.attempts.length
  audited : ∀ a ∈ c.attempts, a.IsAudited calls (cancelledAsking a.number)
    (cancelledChecking a.number) (Event.ofAttempt c.events a.number)
  noOthers : ∀ e ∈ c.events, ∀ number ∈ e.attempt?, ∃ a ∈ c.attempts, a.number = number
  path : PhaseName.IsPath (c.events.filterMap Event.entered?)

namespace Run

variable (w : Surroundings) (settings : SessionSettings) (registry : Mapping.Registry)
  (cookbook : Cookbook)

/-- A session that ends with an outcome of its own has events that agree with what it holds. -/
theorem agrees_conclude {outcome : Outcome}
    (now : (stateAfter w settings registry cookbook (steps settings cookbook)).phase =
      .concluded outcome) :
    ((stateAfter w settings registry cookbook (steps settings cookbook)).session.conclude
      outcome).Agrees (transcript w settings registry cookbook)
        (CancelledAsking w settings registry cookbook)
        (CancelledChecking w settings registry cookbook) := by
  obtain ⟨told, spelled⟩ :=
    recorded_stateAfter w settings registry cookbook (steps settings cookbook)
  have recorded := told.resolve_right fun ⟨message, crashed⟩ => by
    rw [now] at crashed
    cases crashed
  have tallied : Tallied w settings (stateAfter w settings registry cookbook
      (steps settings cookbook)) (transcript w settings registry cookbook) :=
    tallied_stateAfter (steps settings cookbook)
  constructor
  case ends =>
    refine ⟨(stateAfter w settings registry cookbook (steps settings cookbook)).session.events,
      ?_, fun e member => ?_⟩
    · rw [Session.conclude, List.length_reverse]
    · rcases recorded.mem_or_attempt? member with opens | ⟨a, -, about⟩
      · exact (attempt?_of_mem_opening opens).2
      · cases e <;> first | rfl | cases about
  case numbered =>
    rw [Session.conclude, List.length_reverse]
    exact map_number_reverse tallied.numbered
  case audited =>
    intro a member
    have ofNone (count : Nat) :
        Event.ofAttempt [.sessionConcluded outcome.label count] a.number = [] := rfl
    rw [Session.conclude, Event.ofAttempt_append, ofNone, List.append_nil]
    exact recorded.isAudited_of_mem (List.mem_reverse.mp member)
  case noOthers =>
    intro e member number about
    rcases List.mem_append.mp member with inEvents | isConclusion
    · rcases recorded.mem_or_attempt? inEvents with opens | ⟨a, among, same⟩
      · cases (attempt?_of_mem_opening opens).1.symm.trans about
      · exact ⟨a, List.mem_reverse.mpr among, Option.some.inj (same.symm.trans about)⟩
    · rw [List.mem_singleton.mp isConclusion] at about
      cases about
  case path =>
    rw [Spelled, now] at spelled
    rw [Session.conclude, List.filterMap_append]
    exact (List.append_nil (path _)).symm ▸ spelled

/-- All that is left of a session that has crashed is its conclusion. -/
theorem agrees_crashed (name message : String) (calls : List Inquiry)
    (cancelledAsking cancelledChecking : Nat → Prop) :
    (Concluded.crashed name message).Agrees calls cancelledAsking cancelledChecking where
  ends := ⟨[], rfl, List.forall_mem_nil _⟩
  numbered := rfl
  audited := List.forall_mem_nil _
  noOthers e member number about := by
    rw [List.mem_singleton.mp member] at about
    cases about
  path := PhaseName.isPath_nil

/-- However a session goes, its events agree with what it holds in the end and with the calls it
made. The calls that an attempt stores are those calls where 32 bits hold one more than the
repetitions allowed. -/
theorem agrees_convert :
    (convert w settings registry cookbook).Agrees (transcript w settings registry cookbook)
        (CancelledAsking w settings registry cookbook)
        (CancelledChecking w settings registry cookbook) ∧
      (settings.backoff.retries.toNat + 1 < UInt32.size →
        ∀ a ∈ (convert w settings registry cookbook).attempts,
          a.generatorCalls.toNat =
              Inquiry.askedFor (transcript w settings registry cookbook) a.number ∧
            a.gatewayCalls.toNat =
              Inquiry.checkedFor (transcript w settings registry cookbook) a.number) := by
  rcases convert_eq w settings registry cookbook with
    ⟨outcome, now, concluded⟩ | ⟨message, -, crashed⟩
  · have tallied : Tallied w settings (stateAfter w settings registry cookbook
        (steps settings cookbook)) (transcript w settings registry cookbook) :=
      tallied_stateAfter (steps settings cookbook)
    rw [concluded]
    exact ⟨agrees_conclude w settings registry cookbook now, fun few a member =>
      (tallied.tallies a (List.mem_reverse.mp member)).toNat_eq few⟩
  · rw [crashed]
    exact ⟨agrees_crashed _ _ _ _ _, fun _ => List.forall_mem_nil _⟩

/-- Of a session that hears nothing of the generator all repetitions are told. -/
theorem unheard_convert (retries : UInt32) :
    let c := convert (.scripted [] []) (.unhurried retries) (.ofRules []) (.bare "web")
    ∃ a ∈ c.attempts, a.generatorCalls = .ofNat (retries.toNat + 1) ∧
      (Event.ofAttempt c.events a.number).filterMap Event.askedAgain? =
        List.range' 1 retries.toNat := by
  obtain ⟨ended, -⟩ := unheard_stateAfter_two retries
  obtain ⟨a, attempts, stored, called⟩ := unheard_attempts retries
  have closed : (stateAfter (.scripted [] []) (.unhurried retries) (.ofRules []) (.bare "web")
      2).ended?.isSome := by
    rw [ended]
    rfl
  obtain ⟨last, all⟩ := stateAfter_of_ended closed
  rw [last] at ended attempts
  rw [all] at called
  have uncancelled : ¬ CancelledAsking (.scripted [] []) (.unhurried retries) (.ofRules [])
      (.bare "web") a.number := by
    rintro ⟨n, ⟨request, -, -, result⟩, -⟩
    rw [(unheard_asked retries _ request).1] at result
    cases result
  rcases convert_eq (.scripted [] []) (.unhurried retries) (.ofRules []) (.bare "web") with
    ⟨outcome, now, concluded⟩ | ⟨message, crashed, -⟩
  · have member : a ∈ (convert (.scripted [] []) (.unhurried retries) (.ofRules [])
        (.bare "web")).attempts := by
      rw [concluded, Session.conclude, attempts]
      exact List.mem_singleton_self a
    refine ⟨a, member, stored, ?_⟩
    rw [concluded] at member ⊢
    obtain ⟨count, numbers, -, counted⟩ :=
      ((agrees_conclude _ _ _ _ now).audited a member).askedAgain
    rw [numbers, counted uncancelled, called, Nat.add_sub_cancel]
  · rw [ended] at crashed
    cases crashed

/-- Not every session records how it was concluded, since it may crash, and what an attempt stores
as its calls may fall behind the repetitions that are told: of `UInt32.size` calls none is left in
32 bits. -/
theorem not_agrees_convert :
    (∀ n outcome, (stateAfter (.scripted [.fatal "killed"] []) ⟨1, .standard, 0⟩ (.ofRules [])
        (.bare "web") n).phase ≠ .concluded outcome) ∧
      let c := convert (.scripted [] []) (.unhurried 4294967295) (.ofRules []) (.bare "web")
      ∃ a ∈ c.attempts, a.generatorCalls = 0 ∧
        (Event.ofAttempt c.events a.number).filterMap Event.askedAgain? =
          List.range' 1 (UInt32.size - 1) := by
  refine ⟨not_concluded_of_crashed (n := 2) rfl, ?_⟩
  obtain ⟨a, member, stored, told⟩ := unheard_convert 4294967295
  have most : (4294967295 : UInt32).toNat = UInt32.size - 1 := by decide
  rw [most] at stored told
  exact ⟨a, member, stored, told⟩

end Run

end Rolewright
