/-
# What a session spends

Attempts and calls, counted along a run. A session begins at most as many attempts as it may,
numbers them one after the other, and makes at most one call more than the repetitions allowed for
each of the two phases of an attempt; what an attempt stores as its calls is what was called,
counted in 32 bits. A further attempt follows only on a report that blocks the one before.

The counts of a `Moment`, which the other side sees, and the log of calls are kept apart in the
model. The invariant here says that they agree.
-/

import Rolewright.Proofs.Conversion.Standing

namespace Rolewright

namespace Inquiry

/-- The calls made for the attempt of a number. -/
def ofAttempt (calls : List Inquiry) (number : Nat) : List Inquiry :=
  calls.filter (·.attempt == number)

/-- How often the generator was called for the attempt of a number. -/
def askedFor (calls : List Inquiry) (number : Nat) : Nat :=
  (ofAttempt calls number).countP isAsked

/-- How often the gateway was called for the attempt of a number. -/
def checkedFor (calls : List Inquiry) (number : Nat) : Nat :=
  (ofAttempt calls number).countP isChecked

variable {made : List Inquiry} {number : Nat}

/-- Calls that are all made for one attempt count for it. -/
theorem ofAttempt_append_of_forall_eq (calls : List Inquiry)
    (own : ∀ i ∈ made, i.attempt = number) :
    ofAttempt (calls ++ made) number = ofAttempt calls number ++ made := by
  rw [ofAttempt, List.filter_append]
  exact congrArg _ (List.filter_eq_self.mpr fun i member => beq_iff_eq.mpr (own i member))

/-- Calls for other attempts do not count for an attempt. -/
theorem ofAttempt_append_of_forall_ne (calls : List Inquiry)
    (other : ∀ i ∈ made, i.attempt ≠ number) :
    ofAttempt (calls ++ made) number = ofAttempt calls number := by
  have none : made.filter (·.attempt == number) = [] :=
    List.filter_eq_nil_iff.mpr fun i member same => other i member (beq_iff_eq.mp same)
  rw [ofAttempt, List.filter_append, none, List.append_nil]
  rfl

/-- For an attempt that comes after all calls none has been made. -/
theorem ofAttempt_eq_nil {calls : List Inquiry} (other : ∀ i ∈ calls, i.attempt ≠ number) :
    ofAttempt calls number = [] :=
  ofAttempt_append_of_forall_ne [] other

end Inquiry

/-- The calls that an attempt stores are the ones that were made for it, counted in 32 bits, and
they are few. Once it has a report, the last of them was answered. -/
structure Attempt.Tallies (retries : UInt32) (calls : List Inquiry) (a : Attempt) : Prop where
  asked : a.generatorCalls = .ofNat (Inquiry.askedFor calls a.number)
  checked : a.gatewayCalls = .ofNat (Inquiry.checkedFor calls a.number)
  askedAtMost : Inquiry.askedFor calls a.number ≤ retries.toNat + 1
  checkedAtMost : Inquiry.checkedFor calls a.number ≤ retries.toNat + 1
  answered : a.report.isSome →
    ∃ before last, Inquiry.ofAttempt calls a.number = before ++ [last] ∧ last.isAnswered = true

/-- Where 32 bits hold the number of calls that may be made, an attempt stores it as it is. -/
theorem Attempt.Tallies.toNat_eq {retries : UInt32} {calls : List Inquiry} {a : Attempt}
    (tallies : a.Tallies retries calls) (few : retries.toNat + 1 < UInt32.size) :
    a.generatorCalls.toNat = Inquiry.askedFor calls a.number ∧
      a.gatewayCalls.toNat = Inquiry.checkedFor calls a.number := by
  rw [tallies.asked, tallies.checked]
  exact ⟨UInt32.toNat_ofNat_of_lt (Nat.lt_of_le_of_lt tallies.askedAtMost few),
    UInt32.toNat_ofNat_of_lt (Nat.lt_of_le_of_lt tallies.checkedAtMost few)⟩

/-- Attempts, the latest first, are numbered from one on. -/
def Attempt.Numbered : List Attempt → Prop
  | [] => True
  | a :: earlier => a.number = earlier.length + 1 ∧ Numbered earlier

/-- A call failed, and no clock shows the end of a wait that the backoff wants after it. -/
def Inquiry.IsOverrun (w : Surroundings) (backoff : Backoff) : Inquiry → Prop
  | .asked _ moment _ (.failed error) =>
    ∃ retry, (w.clock moment.generated).overruns (backoff.delay retry error.wait?) = true
  | .checked _ moment _ (.failed _) =>
    ∃ retry, (w.clock moment.validated).overruns (backoff.delay retry none) = true
  | .asked _ _ _ (.given _) | .asked _ _ _ (.fatal _) | .checked _ _ _ (.given _)
  | .checked _ _ _ (.fatal _) => False

/-- No wait is too long for a clock that shows the end of the longest one at every moment. -/
theorem Inquiry.not_isOverrun {w : Surroundings} {backoff : Backoff}
    (shown : ∀ moment, (w.clock moment).overruns backoff.limit = false) (i : Inquiry) :
    ¬ i.IsOverrun w backoff := by
  have shorter (moment : Moment) (retry : Nat) (hint : Option Duration) :
      (w.clock moment).overruns (backoff.delay retry hint) ≠ true := by
    have longest := of_decide_eq_false (shown moment)
    have limited := backoff.nanoseconds_delay_le retry hint
    exact fun late => longest (Nat.lt_of_lt_of_le (of_decide_eq_true late)
      (Nat.add_le_add_left limited _))
  cases i with
  | asked attempt moment request answer =>
      cases answer with
      | given text | fatal message => exact id
      | failed error => exact fun ⟨retry, late⟩ => shorter _ retry _ late
  | checked attempt moment candidate answer =>
      cases answer with
      | given report | fatal message => exact id
      | failed error => exact fun ⟨retry, late⟩ => shorter _ retry _ late

namespace Run

variable {w : Surroundings} {settings : SessionSettings} {registry : Mapping.Registry}
  {cookbook : Cookbook} {s next : State} {calls made : List Inquiry}

/-! ## Attempts -/

/-- How many attempts the next step begins. -/
def due (s : State) : Nat :=
  match s.phase with
  | .start | .repairing .. => 1
  | .generating _ | .validating .. | .concluded _ | .crashed _ => 0

/-- The attempts that a session has begun and may yet begin. -/
def spent (s : State) : Nat :=
  s.session.attempts.length + s.left + due s

/-- A rejected attempt makes another one due only where one is left. -/
theorem spent_judge (s : State) (request : Request) (report : Report) :
    spent (judge s request report) = s.session.attempts.length + s.left := by
  rw [spent, session_judge]
  unfold judge
  split
  · rename_i left h
    simp only [due, h]
    omega
  · rfl

/-- No transition makes room for more attempts. -/
theorem spent_transition (t : Transition w settings registry cookbook s made next) :
    spent next ≤ spent s := by
  cases t with
  | stopped going told => simp [spent, due, cancel]
  | begun now =>
      show s.session.attempts.length + 1 + s.left + 0 ≤ spent s
      simp only [spent, due, now]
      omega
  | vacant now _ _ =>
      rw [spent_judge]
      simp [spent]
  | filled now _ _ => simp [spent, due]
  | unanswered now _ => simp [spent, due, giveUp]
  | askingStopped now => simp [spent, due, cancel]
  | askingDied now _ | askingOverran now _ => simp [spent, due]
  | accepted now _ _ => simp [spent, due]
  | rejected now _ _ =>
      rw [spent_judge]
      simp [spent]
  | unchecked now _ => simp [spent, due]
  | checkingStopped now => simp [spent, due, cancel]
  | checkingDied now _ | checkingOverran now _ => simp [spent, due]
  | @repaired request report now =>
      have begun : (repair (looked s) request report).session.attempts.length =
          s.session.attempts.length + 1 := by
        simp [repair, entered]
      show (repair (looked s) request report).session.attempts.length + s.left + 0 ≤ spent s
      simp only [begun, spent, due, now]
      omega

/-- A session never has more attempts than it may have. -/
theorem length_attempts_le (atLeastOne : 1 ≤ settings.attempts) (n : Nat) :
    (stateAfter w settings registry cookbook n).session.attempts.length ≤ settings.attempts := by
  have begun : spent (initial settings cookbook) ≤ settings.attempts := by
    show 0 + (settings.attempts - 1) + 1 ≤ settings.attempts
    omega
  have kept : ∀ s (_ : List Inquiry) made next, spent s ≤ settings.attempts →
      Transition w settings registry cookbook s made next → spent next ≤ settings.attempts :=
    fun _ _ _ _ bounded t => Nat.le_trans (spent_transition t) bounded
  have bounded := invariant w settings registry cookbook
    (fun s _ => spent s ≤ settings.attempts) begun kept n
  unfold spent at bounded
  omega

/-! ## Calls -/

/-- Calls for other attempts do not count for an attempt. -/
theorem tallies_append {retries : UInt32} {a : Attempt} (tallies : a.Tallies retries calls)
    (other : ∀ i ∈ made, i.attempt ≠ a.number) : a.Tallies retries (calls ++ made) := by
  have same := Inquiry.ofAttempt_append_of_forall_ne calls other
  obtain ⟨asked, checked, askedAtMost, checkedAtMost, answered⟩ := tallies
  rw [Inquiry.askedFor, ← same] at asked askedAtMost
  rw [Inquiry.checkedFor, ← same] at checked checkedAtMost
  rw [← same] at answered
  exact ⟨asked, checked, askedAtMost, checkedAtMost, answered⟩

theorem number_le_of_numbered {attempts : List Attempt} (numbered : Attempt.Numbered attempts)
    {a : Attempt} (member : a ∈ attempts) : a.number ≤ attempts.length := by
  induction attempts with
  | nil => cases member
  | cons latest earlier ih =>
      obtain ⟨number, older⟩ := numbered
      rcases List.mem_cons.mp member with rfl | elder
      · exact Nat.le_of_eq number
      · exact Nat.le_succ_of_le (ih older elder)

/-- Numbers count the attempts in the order in which they were begun. -/
theorem map_number_reverse {attempts : List Attempt} (numbered : Attempt.Numbered attempts) :
    attempts.reverse.map (·.number) = List.range' 1 attempts.length := by
  induction attempts with
  | nil => rfl
  | cons latest earlier ih =>
      obtain ⟨number, older⟩ := numbered
      rw [List.reverse_cons, List.map_append, ih older, List.length_cons, List.range'_concat,
        List.map_singleton, number, Nat.one_mul, Nat.add_comm]

/-- Before the generator is called for the latest attempt no call has been made for it, and before
the gateway is, none of the gateway. That an attempt stores no calls does not say so: a number of
calls that 32 bits do not hold is stored as a smaller one. -/
def Uncalled (s : State) (calls : List Inquiry) : Prop :=
  match s.phase with
  | .generating _ => Inquiry.ofAttempt calls s.session.attempts.length = []
  | .validating .. => Inquiry.checkedFor calls s.session.attempts.length = 0
  | .start | .repairing .. | .concluded _ | .crashed _ => True

/-- The attempts of a session and the calls it has made, counted. Three of the statements are about
all calls: each is one of an attempt, got its answer from the other side, and moved on the count
that the other side sees. -/
structure Tallied (w : Surroundings) (settings : SessionSettings) (s : State)
    (calls : List Inquiry) : Prop where
  numbered : Attempt.Numbered s.session.attempts
  tallies : ∀ a ∈ s.session.attempts, a.Tallies settings.backoff.retries calls
  placed : ∀ i ∈ calls, 1 ≤ i.attempt ∧ i.attempt ≤ s.session.attempts.length
  ordered : calls.Pairwise fun i later => i.attempt ≤ later.attempt
  made : ∀ i ∈ calls, i.IsMadeTo w
  counted : s.moment.generations = calls.countP Inquiry.isAsked ∧
    s.moment.validations = calls.countP Inquiry.isChecked
  uncalled : Uncalled s calls

theorem tallied_initial : Tallied w settings (initial settings cookbook) [] where
  numbered := trivial
  tallies a member := by cases member
  placed i member := by cases member
  ordered := .nil
  made i member := by cases member
  counted := ⟨rfl, rfl⟩
  uncalled := trivial

/-- The tally is about the attempts and the counts of the moment, and about calls that are still to
come. -/
theorem Tallied.congr {t : State} (tallied : Tallied w settings s calls)
    (attempts : t.session.attempts = s.session.attempts)
    (moment : t.moment.generations = s.moment.generations ∧
      t.moment.validations = s.moment.validations) (uncalled : Uncalled t calls) :
    Tallied w settings t calls where
  numbered := by rw [attempts]; exact tallied.numbered
  tallies := by rw [attempts]; exact tallied.tallies
  placed := by rw [attempts]; exact tallied.placed
  ordered := tallied.ordered
  made := tallied.made
  counted := by rw [moment.1, moment.2]; exact tallied.counted
  uncalled := uncalled

/-- Nothing has been called for an attempt that is not begun. -/
theorem Tallied.ofAttempt_next (tallied : Tallied w settings s calls) :
    Inquiry.ofAttempt calls (s.session.attempts.length + 1) = [] := by
  apply Inquiry.ofAttempt_eq_nil
  intro i member same
  have bound := (tallied.placed i member).2
  omega

theorem Tallied.calledFor_next (tallied : Tallied w settings s calls) :
    Inquiry.askedFor calls (s.session.attempts.length + 1) = 0 ∧
      Inquiry.checkedFor calls (s.session.attempts.length + 1) = 0 := by
  rw [Inquiry.askedFor, Inquiry.checkedFor, tallied.ofAttempt_next]
  exact ⟨rfl, rfl⟩

/-- Calls for the latest attempt that it stores keep the tally. -/
theorem Tallied.extend {t : State} {latest later : Attempt} {earlier : List Attempt}
    (tallied : Tallied w settings s calls) (before : s.session.attempts = latest :: earlier)
    (after : t.session.attempts = later :: earlier) (number : later.number = latest.number)
    (own : ∀ i ∈ made, i.attempt = s.session.attempts.length ∧ i.IsMadeTo w)
    (asked : later.generatorCalls =
      latest.generatorCalls + .ofNat (made.countP Inquiry.isAsked))
    (checked : later.gatewayCalls =
      latest.gatewayCalls + .ofNat (made.countP Inquiry.isChecked))
    (askedAtMost : Inquiry.askedFor calls latest.number + made.countP Inquiry.isAsked ≤
      settings.backoff.retries.toNat + 1)
    (checkedAtMost : Inquiry.checkedFor calls latest.number + made.countP Inquiry.isChecked ≤
      settings.backoff.retries.toNat + 1)
    (answered : later.report.isSome →
      ∃ before last, made = before ++ [last] ∧ last.isAnswered = true)
    (moment : t.moment.generations = s.moment.generations + made.countP Inquiry.isAsked ∧
      t.moment.validations = s.moment.validations + made.countP Inquiry.isChecked)
    (uncalled : Uncalled t (calls ++ made)) :
    Tallied w settings t (calls ++ made) := by
  obtain ⟨numbered, tallies, placed, ordered, madeTo, counted, -⟩ := tallied
  rw [before] at numbered tallies placed own
  obtain ⟨place, older⟩ := numbered
  have latestTallies := tallies latest (.head _)
  -- All of the new calls are of the latest attempt; those of the others stay what they were.
  have split : Inquiry.ofAttempt (calls ++ made) later.number =
      Inquiry.ofAttempt calls latest.number ++ made := by
    rw [number]
    exact Inquiry.ofAttempt_append_of_forall_eq calls fun i member =>
      (own i member).1.trans place.symm
  constructor
  case numbered =>
    rw [after]
    exact ⟨number.trans place, older⟩
  case tallies =>
    rw [after]
    refine List.forall_mem_cons.mpr ⟨?_, fun a member => ?_⟩
    · have askedNow : Inquiry.askedFor (calls ++ made) later.number =
          Inquiry.askedFor calls latest.number + made.countP Inquiry.isAsked := by
        rw [Inquiry.askedFor, split, List.countP_append, Inquiry.askedFor]
      have checkedNow : Inquiry.checkedFor (calls ++ made) later.number =
          Inquiry.checkedFor calls latest.number + made.countP Inquiry.isChecked := by
        rw [Inquiry.checkedFor, split, List.countP_append, Inquiry.checkedFor]
      refine ⟨?_, ?_, askedNow ▸ askedAtMost, checkedNow ▸ checkedAtMost, fun reported => ?_⟩
      · rw [askedNow, UInt32.ofNat_add, ← latestTallies.asked, asked]
      · rw [checkedNow, UInt32.ofNat_add, ← latestTallies.checked, checked]
      · obtain ⟨first, last, rfl, given⟩ := answered reported
        exact ⟨Inquiry.ofAttempt calls latest.number ++ first, last,
          by rw [split, List.append_assoc], given⟩
    · apply tallies_append (tallies a (.tail _ member))
      intro i inMade same
      have small := number_le_of_numbered older member
      have large := (own i inMade).1
      rw [List.length_cons] at large
      omega
  case placed =>
    rw [after]
    intro i member
    rcases List.mem_append.mp member with old | new
    · exact placed i old
    · have large := (own i new).1
      rw [List.length_cons] at large ⊢
      omega
  case ordered =>
    refine List.pairwise_append.mpr ⟨ordered, ?_, fun i old j new => ?_⟩
    · exact List.pairwise_of_forall_mem_list fun i first j second =>
        Nat.le_of_eq ((own i first).1.trans (own j second).1.symm)
    · exact Nat.le_trans (placed i old).2 (Nat.le_of_eq (own j new).1.symm)
  case made =>
    intro i member
    rcases List.mem_append.mp member with old | new
    · exact madeTo i old
    · exact (own i new).2
  case counted =>
    rw [List.countP_append, List.countP_append, moment.1, moment.2, counted.1, counted.2]
    exact ⟨rfl, rfl⟩
  case uncalled => exact uncalled

/-- A change of an attempt that is not about its number or its calls, and that stores a report only
once the last of some calls was answered. -/
structure Settles (made : List Inquiry) (change : Attempt → Attempt) : Prop where
  number : ∀ a, (change a).number = a.number
  generatorCalls : ∀ a, (change a).generatorCalls = a.generatorCalls
  gatewayCalls : ∀ a, (change a).gatewayCalls = a.gatewayCalls
  answered : (∀ a, (change a).report = a.report) ∨
    ∃ before last, made = before ++ [last] ∧ last.isAnswered = true

theorem settles_id : Settles made id where
  number _ := rfl
  generatorCalls _ := rfl
  gatewayCalls _ := rfl
  answered := .inl fun _ => rfl

/-- A rejected attempt leads to no call by itself. -/
theorem uncalled_judge (s : State) (request : Request) (report : Report) (calls : List Inquiry) :
    Uncalled (judge s request report) calls := by
  unfold judge
  split <;> exact trivial

/-- Of the latest attempt no call has been made while its request waits. -/
theorem Tallied.generating {request : Request} (tallied : Tallied w settings s calls)
    (now : s.phase = .generating request) :
    Inquiry.ofAttempt calls s.session.attempts.length = [] := by
  simpa only [Uncalled, now] using tallied.uncalled

/-- No call of the gateway has been made for the latest attempt while its candidate waits. -/
theorem Tallied.validating {request : Request} {candidate : Role} {defects : List Diagnostic}
    (tallied : Tallied w settings s calls)
    (now : s.phase = .validating request candidate defects) :
    Inquiry.checkedFor calls s.session.attempts.length = 0 := by
  simpa only [Uncalled, now] using tallied.uncalled

/-- The calls that have a request answered are all that is called for the latest attempt. -/
theorem Tallied.calledFor_asked {request : Request} (tallied : Tallied w settings s calls)
    (now : s.phase = .generating request) :
    Inquiry.askedFor (calls ++ askLog w settings (looked s) request) s.session.attempts.length =
        (askLog w settings (looked s) request).length ∧
      Inquiry.checkedFor (calls ++ askLog w settings (looked s) request)
        s.session.attempts.length = 0 := by
  have own : Inquiry.ofAttempt (calls ++ askLog w settings (looked s) request)
      s.session.attempts.length = _ :=
    Inquiry.ofAttempt_append_of_forall_eq calls fun i member => (of_mem_askLog w settings member).1
  rw [tallied.generating now, List.nil_append] at own
  rw [Inquiry.askedFor, Inquiry.checkedFor, own]
  exact ⟨countP_isAsked_askLog w settings _ _, countP_isChecked_askLog w settings _ _⟩

/-- The calls that have a candidate checked are all by which the gateway is called for the latest
attempt, and the generator is called no more. -/
theorem Tallied.calledFor_checked {request : Request} {candidate : Role}
    {defects : List Diagnostic} (tallied : Tallied w settings s calls)
    (now : s.phase = .validating request candidate defects) :
    Inquiry.askedFor (calls ++ checkLog w settings (looked s) candidate)
        s.session.attempts.length = Inquiry.askedFor calls s.session.attempts.length ∧
      Inquiry.checkedFor (calls ++ checkLog w settings (looked s) candidate)
        s.session.attempts.length = (checkLog w settings (looked s) candidate).length := by
  have own : Inquiry.ofAttempt (calls ++ checkLog w settings (looked s) candidate)
      s.session.attempts.length = _ :=
    Inquiry.ofAttempt_append_of_forall_eq calls fun i member =>
      (of_mem_checkLog w settings member).1
  have unchecked := tallied.validating now
  rw [Inquiry.checkedFor] at unchecked
  rw [Inquiry.askedFor, Inquiry.checkedFor, own, List.countP_append, List.countP_append, unchecked,
    countP_isAsked_checkLog, countP_isChecked_checkLog]
  exact ⟨rfl, Nat.zero_add _⟩

/-- The calls of the generator for the latest attempt keep the tally. -/
theorem Tallied.asked {request : Request} {t : State} {change : Attempt → Attempt}
    (tallied : Tallied w settings s calls) (standing : Standing cookbook s calls)
    (now : s.phase = .generating request)
    (attempts : t.session.attempts =
      (asked w settings (looked s) request).session.attempts.modifyHead change)
    (moment : t.moment = (Run.asked w settings (looked s) request).moment)
    (settles : Settles (askLog w settings (looked s) request) change)
    (uncalled : Uncalled t (calls ++ askLog w settings (looked s) request)) :
    Tallied w settings t (calls ++ askLog w settings (looked s) request) := by
  obtain ⟨earlier, before, -, -⟩ := standing.generating now
  let counted : Attempt := { Attempt.fresh (earlier.length + 1) request with
    generatorCalls := .ofNat (askLog w settings (looked s) request).length }
  have after : t.session.attempts = change counted :: earlier := by
    rw [attempts, attempts_asked, attempts_looked, before]
    rfl
  have fresh : Inquiry.ofAttempt calls (earlier.length + 1) = [] := by
    have none := tallied.generating now
    rwa [before, List.length_cons] at none
  obtain ⟨generations, validations⟩ := moment_asked w settings (looked s) request
  refine tallied.extend before after (settles.number _) (fun i member => ?_) ?_ ?_ ?_ ?_
    (fun reported => ?_) ?_ uncalled
  · obtain ⟨attempt, -, -, madeTo⟩ := of_mem_askLog w settings member
    exact ⟨attempt, madeTo⟩
  · rw [settles.generatorCalls, countP_isAsked_askLog]
    exact (UInt32.zero_add _).symm
  · rw [settles.gatewayCalls, countP_isChecked_askLog]
    rfl
  · rw [Attempt.fresh, Inquiry.askedFor, fresh, countP_isAsked_askLog, List.countP_nil,
      Nat.zero_add]
    exact length_askLog_le w settings _ _
  · rw [Attempt.fresh, Inquiry.checkedFor, fresh, countP_isChecked_askLog]
    exact Nat.zero_le _
  · rcases settles.answered with same | answered
    · rw [same] at reported
      cases reported
    · exact answered
  · rw [countP_isAsked_askLog, countP_isChecked_askLog, moment]
    exact ⟨generations, validations⟩

/-- The calls of the gateway for the latest attempt keep the tally. -/
theorem Tallied.checked {request : Request} {candidate : Role} {defects : List Diagnostic}
    {t : State} {change : Attempt → Attempt} (tallied : Tallied w settings s calls)
    (standing : Standing cookbook s calls) (now : s.phase = .validating request candidate defects)
    (attempts : t.session.attempts =
      (checked w settings (looked s) candidate).session.attempts.modifyHead change)
    (moment : t.moment = (Run.checked w settings (looked s) candidate).moment)
    (settles : Settles (checkLog w settings (looked s) candidate) change)
    (uncalled : Uncalled t (calls ++ checkLog w settings (looked s) candidate)) :
    Tallied w settings t (calls ++ checkLog w settings (looked s) candidate) := by
  obtain ⟨latest, earlier, -, before, -, -, -, -, -, -, unreported, unchecked, -⟩ :=
    standing.validating now
  let counted : Attempt :=
    { latest with gatewayCalls := .ofNat (checkLog w settings (looked s) candidate).length }
  have after : t.session.attempts = change counted :: earlier := by
    rw [attempts, attempts_checked, attempts_looked, before]
    rfl
  have tallies : latest.Tallies settings.backoff.retries calls :=
    tallied.tallies latest (before ▸ .head _)
  have number : latest.number = s.session.attempts.length := by
    have numbered := tallied.numbered
    rw [before] at numbered ⊢
    exact numbered.1
  obtain ⟨validations, generations⟩ := moment_checked w settings (looked s) candidate
  refine tallied.extend before after (settles.number _) (fun i member => ?_) ?_ ?_ ?_ ?_
    (fun reported => ?_) ?_ uncalled
  · obtain ⟨attempt, -, -, madeTo⟩ := of_mem_checkLog w settings member
    exact ⟨attempt, madeTo⟩
  · rw [settles.generatorCalls, countP_isAsked_checkLog]
    exact (UInt32.add_zero _).symm
  · rw [settles.gatewayCalls, countP_isChecked_checkLog, unchecked]
    exact (UInt32.zero_add _).symm
  · rw [countP_isAsked_checkLog]
    exact tallies.askedAtMost
  · rw [number, tallied.validating now, countP_isChecked_checkLog, Nat.zero_add]
    exact length_checkLog_le w settings _ _
  · rcases settles.answered with same | answered
    · rw [same, show counted.report = none from unreported] at reported
      cases reported
    · exact answered
  · rw [countP_isAsked_checkLog, countP_isChecked_checkLog, moment]
    exact ⟨generations, validations⟩

/-- A further attempt, of which no call has been made, keeps the tally. -/
theorem Tallied.another {t : State} {request : Request} {older : List Attempt}
    (tallied : Tallied w settings s calls)
    (attempts : t.session.attempts = .fresh (older.length + 1) request :: older)
    (length : older.length = s.session.attempts.length) (numbered : Attempt.Numbered older)
    (tallies : ∀ a ∈ older, a.Tallies settings.backoff.retries calls)
    (phase : t.phase = .generating request)
    (moment : t.moment.generations = s.moment.generations ∧
      t.moment.validations = s.moment.validations) : Tallied w settings t calls := by
  have noneYet : Inquiry.ofAttempt calls (older.length + 1) = [] := by
    rw [length]
    exact tallied.ofAttempt_next
  refine ⟨?_, ?_, ?_, tallied.ordered, tallied.made, ?_, ?_⟩
  · rw [attempts]
    exact ⟨rfl, numbered⟩
  · rw [attempts]
    refine List.forall_mem_cons.mpr ⟨?_, tallies⟩
    constructor
    all_goals simp [Attempt.fresh, Inquiry.askedFor, Inquiry.checkedFor, noneYet]
  · intro i member
    obtain ⟨positive, bound⟩ := tallied.placed i member
    rw [attempts, List.length_cons, length]
    exact ⟨positive, Nat.le_succ_of_le bound⟩
  · rw [moment.1, moment.2]
    exact tallied.counted
  · rw [Uncalled, phase, attempts]
    exact noneYet

/-- A repair stores feedback with the latest attempt and begins another one. -/
theorem tallied_repair {request : Request} {report : Report}
    (tallied : Tallied w settings s calls) (standing : Standing cookbook s calls)
    (now : s.phase = .repairing request report) :
    Tallied w settings (repair (looked s) request report) calls := by
  obtain ⟨latest, earlier, attempts, -⟩ := standing.repairing now
  have numbered := tallied.numbered
  have tallies := tallied.tallies
  rw [attempts] at numbered tallies
  have told : ({ latest with feedback := some (feedback (looked s) report) } :
      Attempt).Tallies settings.backoff.retries calls :=
    { tallies latest (.head _) with }
  let older := { latest with feedback := some (feedback (looked s) report) } :: earlier
  have repaired : (repair (looked s) request report).session.attempts = .fresh (older.length + 1)
      (request.withFeedback (older.length + 1) (feedback (looked s) report)) :: older :=
    attempts_repair (s := looked s) attempts request report
  refine tallied.another repaired ?_ numbered ?_
    (phase_repair (s := looked s) attempts request report) ⟨rfl, rfl⟩
  · rw [attempts]
    rfl
  · exact List.forall_mem_cons.mpr ⟨told, fun a member => tallies a (.tail _ member)⟩

/-- Every transition keeps the tally. -/
theorem tallied_transition (tallied : Tallied w settings s calls)
    (standing : Standing cookbook s calls)
    (t : Transition w settings registry cookbook s made next) :
    Tallied w settings next (calls ++ made) := by
  have unchanged {attempts : List Attempt} : attempts = attempts.modifyHead id :=
    (congrFun List.modifyHead_id attempts).symm
  cases t with
  | stopped going told =>
      rw [List.append_nil]
      exact tallied.congr rfl ⟨rfl, rfl⟩ trivial
  | begun now =>
      have none := standing.start now
      have attempts := attempts_begin settings registry cookbook (looked s)
      rw [attempts_looked, none] at attempts
      rw [List.append_nil]
      refine tallied.another attempts ?_ trivial ?_ rfl ⟨rfl, rfl⟩
      · rw [none]
      · intro a member
        cases member
  | vacant now answered _ =>
      refine tallied.asked standing now (attempts_vacant _ _ _ _) (moment_judge _ _ _) ?_
        (uncalled_judge _ _ _ _)
      exact ⟨fun _ => rfl, fun _ => rfl, fun _ => rfl, .inr ⟨_, _, answered, rfl⟩⟩
  | filled now _ _ =>
      refine tallied.asked standing now (attempts_filled _ _ _) rfl ?_ ?_
      · exact ⟨fun _ => rfl, fun _ => rfl, fun _ => rfl, .inl fun _ => rfl⟩
      · simpa [Uncalled] using (tallied.calledFor_asked now).2
  | unanswered now _ | askingStopped now | askingDied now _ | askingOverran now _ =>
      exact tallied.asked standing now unchanged rfl settles_id trivial
  | accepted now answered _ =>
      refine tallied.checked standing now (attempts_reported _ _ _) rfl ?_ trivial
      exact ⟨fun _ => rfl, fun _ => rfl, fun _ => rfl, .inr ⟨_, _, answered, rfl⟩⟩
  | rejected now answered _ =>
      refine tallied.checked standing now (by rw [session_judge, attempts_reported])
        (moment_judge _ _ _) ?_ (uncalled_judge _ _ _ _)
      exact ⟨fun _ => rfl, fun _ => rfl, fun _ => rfl, .inr ⟨_, _, answered, rfl⟩⟩
  | unchecked now _ | checkingStopped now | checkingDied now _ | checkingOverran now _ =>
      exact tallied.checked standing now unchanged rfl settles_id trivial
  | repaired now =>
      rw [List.append_nil]
      exact tallied_repair tallied standing now

/-- At every moment of a run the tally is kept. -/
theorem tallied_stateAfter (n : Nat) :
    Tallied w settings (stateAfter w settings registry cookbook n)
      (callsBefore w settings registry cookbook n) := by
  -- The tally alone is no invariant: that the latest attempt starts from no calls is in `Standing`.
  have both := invariant w settings registry cookbook
    (fun s calls => Tallied w settings s calls ∧ Standing cookbook s calls)
    ⟨tallied_initial, standing_initial⟩
    (fun _ _ _ _ ⟨tallied, standing⟩ t =>
      ⟨tallied_transition tallied standing t, standing_transition standing t⟩) n
  exact both.1

variable (w settings registry cookbook) in
/-- A session that does not crash is concluded in a state that is in order and tallied, in one of
the ways to come to an outcome. -/
theorem concluded_convert :
    (∃ s outcome, convert w settings registry cookbook = s.session.conclude outcome ∧
        s.session.Ends (transcript w settings registry cookbook) outcome ∧
        Standing cookbook s (transcript w settings registry cookbook) ∧
        Tallied w settings s (transcript w settings registry cookbook)) ∨
      ∃ name message, convert w settings registry cookbook = .crashed name message := by
  rcases convert_eq w settings registry cookbook with
    ⟨outcome, now, concluded⟩ | ⟨message, -, crashed⟩
  · have standing : Standing cookbook
        (stateAfter w settings registry cookbook (steps settings cookbook))
        (transcript w settings registry cookbook) := standing_stateAfter _
    refine .inl ⟨_, outcome, concluded, ?_, standing, tallied_stateAfter _⟩
    simpa only [Stands, now] using standing.stands
  · exact .inr ⟨_, message, crashed⟩

theorem exists_isOverrun_of_asking {request : Request}
    (overran : (askRecord w settings s request).result = .overran) :
    ∃ i ∈ askLog w settings s request, i.IsOverrun w settings.backoff := by
  obtain ⟨earlier, last, error, retry, log, late⟩ :=
    (ask w request).exists_of_overran settings.backoff w.cancelled overran
  have member : (last, .failed error) ∈
      (ask w request).log settings.backoff w.cancelled settings.backoff.retries.toNat 0 s.moment :=
    log ▸ List.mem_append_right _ (.head _)
  exact ⟨_, List.mem_map_of_mem member, retry, late⟩

theorem exists_isOverrun_of_checking {candidate : Role}
    (overran : (checkRecord w settings s candidate).result = .overran) :
    ∃ i ∈ checkLog w settings s candidate, i.IsOverrun w settings.backoff := by
  obtain ⟨earlier, last, error, retry, log, late⟩ :=
    (check w candidate).exists_of_overran settings.backoff w.cancelled overran
  have member : (last, .failed error) ∈
      (check w candidate).log settings.backoff w.cancelled settings.backoff.retries.toNat 0
        s.moment :=
    log ▸ List.mem_append_right _ (.head _)
  exact ⟨_, List.mem_map_of_mem member, retry, late⟩

/-- Only a call that whoever makes it dies of, or a wait whose end no clock shows, leaves a session
without an outcome. -/
theorem exists_of_crashed (n : Nat) {message : String}
    (crashed : (stateAfter w settings registry cookbook n).phase = .crashed message) :
    ∃ i ∈ callsBefore w settings registry cookbook n,
      i.isFatal = true ∨ i.IsOverrun w settings.backoff := by
  refine invariant w settings registry cookbook
    (fun s calls => ∀ message, s.phase = .crashed message →
      ∃ i ∈ calls, i.isFatal = true ∨ i.IsOverrun w settings.backoff)
    (fun _ phase => nomatch phase) (fun s calls made next died t message now => ?_) n message
    crashed
  cases t with
  | askingDied _ ends | checkingDied _ ends =>
      rw [ends]
      exact ⟨_, List.mem_append_right _ (List.mem_append_right _ (.head _)), .inl rfl⟩
  | askingOverran _ _ result =>
      obtain ⟨i, member, late⟩ := exists_isOverrun_of_asking result
      exact ⟨i, List.mem_append_right _ member, .inr late⟩
  | checkingOverran _ _ result =>
      obtain ⟨i, member, late⟩ := exists_isOverrun_of_checking result
      exact ⟨i, List.mem_append_right _ member, .inr late⟩
  | vacant _ _ _ | rejected _ _ _ =>
      unfold judge at now
      split at now <;> cases now
  | stopped _ _ | begun _ | filled _ _ _ | unanswered _ _ | askingStopped _ | accepted _ _ _
  | unchecked _ _ | checkingStopped _ | repaired _ => cases now

/-- What a session has spent, told by its attempts and by the calls in the order in which they were
made. A call belongs to one attempt and counts there, and so does every call that the other side
has seen. What an attempt stores is the number of its calls itself where 32 bits hold one call more
than the repetitions allowed. All attempts but the last were blocked by a report, which is what the
last of their calls led to. -/
structure Accounted (w : Surroundings) (settings : SessionSettings) (s : State)
    (calls : List Inquiry) : Prop where
  few : s.session.attempts.length ≤ settings.attempts
  numbered :
    s.session.attempts.reverse.map (·.number) = List.range' 1 s.session.attempts.length
  tallies : ∀ a ∈ s.session.attempts, a.Tallies settings.backoff.retries calls
  exact : settings.backoff.retries.toNat + 1 < UInt32.size → ∀ a ∈ s.session.attempts,
    a.generatorCalls.toNat = Inquiry.askedFor calls a.number ∧
      a.gatewayCalls.toNat = Inquiry.checkedFor calls a.number
  rejected : ∀ a ∈ s.session.attempts.reverse.dropLast, a.IsRejected
  placed : ∀ i ∈ calls, ∃ a ∈ s.session.attempts, a.number = i.attempt
  ordered : calls.Pairwise fun i later => i.attempt ≤ later.attempt
  made : ∀ i ∈ calls, i.IsMadeTo w
  counted : s.moment.generations = calls.countP Inquiry.isAsked ∧
    s.moment.validations = calls.countP Inquiry.isChecked

/-- The attempt that a number stands for. -/
theorem exists_number_eq {attempts : List Attempt} (numbered : Attempt.Numbered attempts)
    {number : Nat} (positive : 1 ≤ number) (bound : number ≤ attempts.length) :
    ∃ a ∈ attempts, a.number = number := by
  have member : number ∈ attempts.reverse.map (·.number) := by
    rw [map_number_reverse numbered, List.mem_range'_1]
    omega
  obtain ⟨a, inReverse, same⟩ := List.mem_map.mp member
  exact ⟨a, List.mem_reverse.mp inReverse, same⟩

/-- A session that may make at least one attempt is accounted for at every moment. It ends within
three steps for each attempt it may make, with an outcome unless a call is fatal or no clock shows
the end of the wait after a call that failed. No wait is too long for a clock that always shows the
end of the longest one. -/
theorem accounted_convert (atLeastOne : 1 ≤ settings.attempts) :
    let last := stateAfter w settings registry cookbook (3 * settings.attempts)
    let calls := callsBefore w settings registry cookbook (3 * settings.attempts)
    (∀ n, Accounted w settings (stateAfter w settings registry cookbook n)
        (callsBefore w settings registry cookbook n)) ∧
      last.ended? = some (convert w settings registry cookbook) ∧
      ((∃ outcome,
          convert w settings registry cookbook = last.session.conclude outcome) ∨
        ∃ i ∈ calls, i.isFatal = true ∨ i.IsOverrun w settings.backoff) ∧
      ((∀ moment, (w.clock moment).overruns settings.backoff.limit = false) →
        (∀ i ∈ calls, i.isFatal = false) →
          ∃ outcome,
            convert w settings registry cookbook = last.session.conclude outcome) := by
  intro last calls
  have closed := ended_stateAfter w settings registry cookbook
  have ending := convert_eq w settings registry cookbook
  rw [steps_eq cookbook atLeastOne] at closed ending
  have concluded : (∃ outcome,
        convert w settings registry cookbook = last.session.conclude outcome) ∨
      ∃ i ∈ calls, i.isFatal = true ∨ i.IsOverrun w settings.backoff := by
    rcases ending with ⟨outcome, -, concluded⟩ | ⟨message, crashed, -⟩
    · exact .inl ⟨outcome, concluded⟩
    · exact .inr (exists_of_crashed _ crashed)
  refine ⟨fun n => ?_, closed, concluded, fun shown survived => concluded.resolve_right ?_⟩
  · have tallied : Tallied w settings (stateAfter w settings registry cookbook n)
        (callsBefore w settings registry cookbook n) := tallied_stateAfter n
    have standing : Standing cookbook (stateAfter w settings registry cookbook n)
        (callsBefore w settings registry cookbook n) := standing_stateAfter n
    exact
      { few := length_attempts_le atLeastOne n
        numbered := map_number_reverse tallied.numbered
        tallies := tallied.tallies
        exact := fun few a member => (tallied.tallies a member).toNat_eq few
        rejected := fun a member => standing.rejected a (by simpa using member)
        placed := fun i member =>
          exists_number_eq tallied.numbered (tallied.placed i member).1 (tallied.placed i member).2
        ordered := tallied.ordered
        made := tallied.made
        counted := tallied.counted }
  · rintro ⟨i, member, fatal | late⟩
    · exact absurd fatal (Bool.eq_false_iff.mp (survived i member))
    · exact i.not_isOverrun shown late

/-- The account of two attempts at most, the first of them spent on an answer without files and the
second on a generator that is cut off. -/
theorem accounted_convert_scripted :
    let w := Surroundings.scripted [.given "no files", .failed (.transport "cut off")] []
    let settings : SessionSettings := ⟨2, .standard, 0⟩
    let registry := Mapping.Registry.ofRules []
    let cookbook := Cookbook.bare "web"
    let last := stateAfter w settings registry cookbook (3 * settings.attempts)
    1 ≤ settings.attempts ∧
      (∀ n, Accounted w settings (stateAfter w settings registry cookbook n)
        (callsBefore w settings registry cookbook n)) ∧
      last.ended? = some (convert w settings registry cookbook) ∧
      ∃ outcome, convert w settings registry cookbook = last.session.conclude outcome := by
  intro w settings registry cookbook last
  have positive : 1 ≤ settings.attempts := by decide
  obtain ⟨accounted, closed, -, concludes⟩ := accounted_convert positive
  have shown : Duration.zero.overruns settings.backoff.limit = false := by decide
  have survived : ∀ i ∈ callsBefore w settings registry cookbook (3 * settings.attempts),
      i.isFatal = false := by
    decide +kernel
  exact ⟨positive, accounted, closed, concludes (fun _ => shown) survived⟩

/-- A generator that nothing is heard of is called as often as it may be. -/
theorem unheard_asked (retries : UInt32) (s : State) (request : Request) :
    (askRecord (.scripted [] []) (.unhurried retries) s request).result =
        .gaveUp (.transport "end of script") ∧
      (askLog (.scripted [] []) (.unhurried retries) s request).length = retries.toNat + 1 := by
  have again (made : Nat) (moment : Moment) :
      (ask (.scripted [] []) request).goesOn (SessionSettings.unhurried retries).backoff
        (Surroundings.scripted [] []).cancelled made moment = true := by
    have none : ((SessionSettings.unhurried retries).backoff.delay (made + 1) .none).nanoseconds =
        0 := Nat.le_zero.mp (Backoff.nanoseconds_delay_le _ _ _)
    simp [Call.goesOn, ask, Surroundings.scripted, Call.pause, Call.retry, Duration.overruns,
      GenerationError.wait?, GenerationError.isRetryable, none, Duration.zero]
  obtain ⟨result, length⟩ := (ask (.scripted [] []) request).gaveUp_of_forall_fails _ _
    (fun _ => rfl) again retries.toNat 0 s.moment
  exact ⟨result, (List.length_map _).trans length⟩

/-- A session that hears nothing has come to its end after two steps. -/
theorem unheard_stateAfter_two (retries : UInt32) :
    let w := Surroundings.scripted [] []
    let settings := SessionSettings.unhurried retries
    let begun := stateAfter w settings (.ofRules []) (.bare "web") 1
    let request := Request.build (.bare "web") (.ofRules []) 0
    stateAfter w settings (.ofRules []) (.bare "web") 2 =
        giveUp (asked w settings (looked begun) request)
          (.generationUnavailable (GenerationError.transport "end of script").message) ∧
      callsBefore w settings (.ofRules []) (.bare "web") 2 =
        askLog w settings (looked begun) request := by
  intro w settings begun request
  have stepped : stateAfter w settings (.ofRules []) (.bare "web") 2 =
      generate w settings (.bare "web") (looked begun) request := rfl
  have result : ((ask w request).persistently settings.backoff w.cancelled
      (looked begun).moment).result = _ := (unheard_asked retries (looked begun) request).1
  rw [stepped, generate_eq, result]
  exact ⟨rfl, rfl⟩

/-- By then it has made one attempt, for which all calls were made. -/
theorem unheard_attempts (retries : UInt32) :
    let s := stateAfter (.scripted [] []) (.unhurried retries) (.ofRules []) (.bare "web") 2
    let calls := callsBefore (.scripted [] []) (.unhurried retries) (.ofRules []) (.bare "web") 2
    ∃ a, s.session.attempts = [a] ∧ a.generatorCalls = .ofNat (retries.toNat + 1) ∧
      Inquiry.askedFor calls a.number = retries.toNat + 1 := by
  obtain ⟨ended, made⟩ := unheard_stateAfter_two retries
  generalize started : stateAfter (.scripted [] []) (.unhurried retries) (.ofRules []) (.bare "web")
    1 = begun at ended made
  obtain ⟨-, length⟩ :=
    unheard_asked retries (looked begun) (.build (.bare "web") (.ofRules []) 0)
  have attempts : begun.session.attempts = [.fresh 1 (.build (.bare "web") (.ofRules []) 0)] := by
    rw [← started]
    rfl
  dsimp only
  rw [ended, made]
  refine ⟨_, (attempts_asked _ _ _ _).trans (congrArg _ attempts), by rw [length], ?_⟩
  have own : Inquiry.ofAttempt ([] ++ askLog (.scripted [] []) (.unhurried retries) (looked begun)
      (.build (.bare "web") (.ofRules []) 0)) begun.session.attempts.length = _ :=
    Inquiry.ofAttempt_append_of_forall_eq [] fun i member => (of_mem_askLog _ _ member).1
  rw [attempts, List.nil_append] at own
  rw [Inquiry.askedFor]
  exact (congrArg (List.countP Inquiry.isAsked) own).trans
    ((countP_isAsked_askLog _ _ _ _).trans length)

/-- Not every session comes to an outcome, and what an attempt stores is not always the number of
its calls: whoever calls the generator may die of it, no clock shows the end of the longest wait,
and of `UInt32.size` calls none is left in 32 bits. -/
theorem not_accounted_convert :
    (∀ n outcome, (stateAfter (.scripted [.fatal "killed"] []) ⟨1, .standard, 0⟩ (.ofRules [])
        (.bare "web") n).phase ≠ .concluded outcome) ∧
      (∀ n outcome, (stateAfter (.scripted [] []) ⟨1, .between .longest .longest 1, 0⟩
        (.ofRules []) (.bare "web") n).phase ≠ .concluded outcome) ∧
      ∃ a, (stateAfter (.scripted [] []) (.unhurried 4294967295) (.ofRules [])
          (.bare "web") 2).session.attempts = [a] ∧
        a.generatorCalls = 0 ∧
        Inquiry.askedFor (callsBefore (.scripted [] []) (.unhurried 4294967295) (.ofRules [])
          (.bare "web") 2) a.number = UInt32.size := by
  obtain ⟨a, attempts, stored, called⟩ := unheard_attempts 4294967295
  have most : (4294967295 : UInt32).toNat + 1 = UInt32.size := by decide
  rw [most] at stored called
  exact ⟨not_concluded_of_crashed (n := 2) rfl, not_concluded_of_crashed (n := 2) rfl, a, attempts,
    stored, called⟩

end Run

end Rolewright
