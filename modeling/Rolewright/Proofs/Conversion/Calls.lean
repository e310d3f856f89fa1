/-
# The calls behind a record

`Call.repeatedly` keeps how often a call was made and what became of it, but not the answers on
the way. This module supplies the log of them: one entry for each call, with its moment and its
answer. The record is read off the log: it counts the entries, its result follows from the last
answer, and its moment is as many calls later as the log is long.

A log never consults an answer that the call itself does not consult: each entry holds the answer
at its own moment.
-/

import Rolewright.Conversion.Persistence

namespace Rolewright

/-- Whether an answer holds what was asked for. -/
def Answer.isGiven {α ε : Type} : Answer α ε → Bool
  | .given _ => true
  | .failed _ | .fatal _ => false

/-- Whether whoever asked died of it. -/
def Answer.isFatal {α ε : Type} : Answer α ε → Bool
  | .fatal _ => true
  | .given _ | .failed _ => false

/-- The result that an answer leads to when no call follows it. Calls are broken off after an error,
in the wait that would have led to the next one. -/
inductive CallResult.EndsWith {α ε : Type} : CallResult α ε → Answer α ε → Prop
  | answered (answer : α) : EndsWith (.answered answer) (.given answer)
  | gaveUp (error : ε) : EndsWith (.gaveUp error) (.failed error)
  | cancelled (error : ε) : EndsWith .cancelled (.failed error)
  | died (message : String) : EndsWith (.died message) (.fatal message)
  | overran (error : ε) : EndsWith .overran (.failed error)

/-- Whether calls were broken off in the wait before another one. -/
def CallResult.isBrokenOff {α ε : Type} : CallResult α ε → Bool
  | .cancelled | .overran => true
  | .answered _ | .gaveUp _ | .died _ => false

namespace Call

variable {α ε : Type}

/-- Whoever waits dies of it exactly if no clock shows the end of the wait, told to stop or not. -/
theorem pause_eq_overran_iff {call : Call α ε} {cancelled : Moment → Bool} {moment : Moment}
    {delay : Duration} :
    call.pause cancelled moment delay = .overran ↔
      (call.clock moment).overruns delay = true := by
  unfold pause
  cases (call.clock moment).overruns delay <;> cases cancelled moment <;> simp

/-- Whether the call at a moment is followed by another one, as long as repetitions are left. -/
def goesOn (call : Call α ε) (backoff : Backoff) (cancelled : Moment → Bool) (made : Nat)
    (moment : Moment) : Bool :=
  match call.answer moment with
  | .failed error =>
    call.mayRepeat error &&
      call.pause cancelled (call.after moment) (call.retry backoff made error).delay == .passed
  | .given _ | .fatal _ => false

/-- The calls that are made when a call may be repeated `left` times after `made` repetitions. -/
def log (call : Call α ε) (backoff : Backoff) (cancelled : Moment → Bool) :
    (left made : Nat) → Moment → List (Moment × Answer α ε)
  | 0, _, moment => [(moment, call.answer moment)]
  | left + 1, made, moment =>
    (moment, call.answer moment) ::
      if call.goesOn backoff cancelled made moment then
        log call backoff cancelled left (made + 1) (call.after moment).looked
      else []

variable (call : Call α ε) (backoff : Backoff) (cancelled : Moment → Bool)

/-- A log holds what the other side says at the moment of each entry. -/
theorem answer_of_mem_log {left made : Nat} {moment : Moment} {entry : Moment × Answer α ε}
    (member : entry ∈ call.log backoff cancelled left made moment) :
    entry.2 = call.answer entry.1 := by
  induction left generalizing made moment with
  | zero =>
      rw [log, List.mem_singleton] at member
      rw [member]
  | succ left ih =>
      rw [log] at member
      rcases List.mem_cons.mp member with rfl | later
      · rfl
      · split at later
        · exact ih later
        · cases later

/-- No more calls are made than the first one and its repetitions. -/
theorem length_log_le (left made : Nat) (moment : Moment) :
    (call.log backoff cancelled left made moment).length ≤ left + 1 := by
  induction left generalizing made moment with
  | zero => exact Nat.le_refl 1
  | succ left ih =>
      rw [log, List.length_cons]
      apply Nat.succ_le_succ
      split
      · exact ih _ _
      · exact Nat.zero_le _

/-- A call goes on after an error that allows it and a wait that nothing breaks off. -/
theorem exists_of_goesOn {made : Nat} {moment : Moment}
    (on : call.goesOn backoff cancelled made moment = true) :
    ∃ error, call.answer moment = .failed error ∧ call.mayRepeat error = true ∧
      call.pause cancelled (call.after moment) (call.retry backoff made error).delay = .passed := by
  unfold goesOn at on
  cases answer : call.answer moment with
  | given result => simp [answer] at on
  | fatal message => simp [answer] at on
  | failed error =>
      simp only [answer, Bool.and_eq_true, beq_iff_eq] at on
      exact ⟨error, rfl, on⟩

/-- A call that goes on is recorded with one call and one repetition more than what follows it. -/
theorem repeatedly_of_goesOn (left made : Nat) {moment : Moment}
    (on : call.goesOn backoff cancelled made moment = true) :
    ∃ retry, retry.number = made + 1 ∧ call.repeatedly backoff cancelled (left + 1) made moment =
      let rest := call.repeatedly backoff cancelled left (made + 1) (call.after moment).looked
      { rest with calls := rest.calls + 1, retries := retry :: rest.retries } := by
  obtain ⟨error, answer, repeatable, passed⟩ := call.exists_of_goesOn backoff cancelled on
  rw [repeatedly]
  simp only [answer, repeatable, passed]
  exact ⟨_, rfl, rfl⟩

/-- A call that does not go on is recorded as one call, and its answer decides the result. Where it
is broken off, the repetition that would have followed is on record. -/
theorem repeatedly_of_not_goesOn {left made : Nat} {moment : Moment}
    (off : left = 0 ∨ call.goesOn backoff cancelled made moment = false) :
    let record := call.repeatedly backoff cancelled left made moment
    record.calls = 1 ∧ record.result.EndsWith (call.answer moment) ∧
      record.retries.map (·.number) = (if record.result.isBrokenOff then [made + 1] else []) ∧
      (record.moment = call.after moment ∨ record.moment = (call.after moment).looked) := by
  unfold repeatedly
  cases answer : call.answer moment with
  | given result => exact ⟨rfl, .answered result, rfl, .inl rfl⟩
  | fatal message => exact ⟨rfl, .died message, rfl, .inl rfl⟩
  | failed error =>
      dsimp only
      split
      · rename_i left repeatable
        have broken : call.pause cancelled (call.after moment)
            (call.retry backoff made error).delay ≠ .passed := by
          simpa [goesOn, answer, repeatable] using off
        split
        · exact ⟨rfl, .overran error, rfl, .inl rfl⟩
        · exact ⟨rfl, .cancelled error, rfl, .inr rfl⟩
        · rename_i passed
          exact absurd passed broken
      · exact ⟨rfl, .gaveUp error, rfl, .inl rfl⟩

/-- What a log says about the record of the same calls, which counts them in 32 bits. The third
statement is about anything that counts calls and not looks: it moves by the same amount with each
entry. -/
structure Explains (log : List (Moment × Answer α ε)) (moment : Moment)
    (record : CallRecord α ε) : Prop where
  calls : record.calls = .ofNat log.length
  ends : ∃ earlier last, log = earlier ++ [last] ∧ record.result.EndsWith last.2
  counted : ∀ (count : Moment → Nat) (amount : Nat),
    (∀ m, count (call.after m) = count m + amount) → (∀ m, count m.looked = count m) →
    count record.moment = count moment + amount * log.length

/-- A record of one call is explained by a log of one entry. -/
theorem explains_singleton {left made : Nat} {moment : Moment}
    (off : left = 0 ∨ call.goesOn backoff cancelled made moment = false) :
    call.Explains [(moment, call.answer moment)] moment
      (call.repeatedly backoff cancelled left made moment) := by
  obtain ⟨once, ends, -, now⟩ := call.repeatedly_of_not_goesOn backoff cancelled off
  refine ⟨once, ⟨[], _, rfl, ends⟩, fun count amount after looked => ?_⟩
  rw [List.length_singleton, Nat.mul_one, ← after]
  rcases now with now | now
  · rw [now]
  · rw [now, looked]

/-- The record of a call is explained by the log of it. -/
theorem explains_log (left made : Nat) (moment : Moment) :
    call.Explains (call.log backoff cancelled left made moment) moment
      (call.repeatedly backoff cancelled left made moment) := by
  induction left generalizing made moment with
  | zero => exact call.explains_singleton backoff cancelled (.inl rfl)
  | succ left ih =>
      rw [log]
      split
      · rename_i on
        obtain ⟨retry, -, step⟩ := call.repeatedly_of_goesOn backoff cancelled left made on
        obtain ⟨calls, ⟨earlier, last, split, ends⟩, counted⟩ :=
          ih (made + 1) (call.after moment).looked
        rw [step]
        refine ⟨?_, ⟨_ :: earlier, last, by rw [split]; rfl, ends⟩,
          fun count amount after looked => ?_⟩
        · rw [List.length_cons, UInt32.ofNat_add]
          exact congrArg (· + 1) calls
        have later := counted count amount after looked
        rw [looked, after] at later
        rw [List.length_cons, Nat.mul_succ, later]
        omega
      · rename_i off
        exact call.explains_singleton backoff cancelled (.inr (by simpa using off))

/-- Calls that are broken off because no clock shows the end of a wait were to wait after the last
of them, which failed. -/
theorem exists_of_overran {left made : Nat} {moment : Moment}
    (overran : (call.repeatedly backoff cancelled left made moment).result = .overran) :
    ∃ earlier last error retry,
      call.log backoff cancelled left made moment = earlier ++ [(last, .failed error)] ∧
        (call.clock (call.after last)).overruns (backoff.delay retry (call.wait? error)) =
          true := by
  induction left generalizing made moment with
  | zero =>
      rw [repeatedly] at overran
      cases answer : call.answer moment <;> simp [answer] at overran
  | succ left ih =>
      rw [log]
      split
      · rename_i on
        obtain ⟨retry, -, step⟩ := call.repeatedly_of_goesOn backoff cancelled left made on
        rw [step] at overran
        obtain ⟨earlier, last, error, wait, split, late⟩ := ih overran
        exact ⟨_ :: earlier, last, error, wait, by rw [split]; rfl, late⟩
      · rename_i off
        rw [repeatedly] at overran
        cases answer : call.answer moment with
        | given result | fatal message => simp [answer] at overran
        | failed error =>
            refine ⟨[], moment, error, made + 1, rfl, ?_⟩
            cases repeatable : call.mayRepeat error with
            | false => simp [answer, repeatable] at overran
            | true =>
                cases paused : call.pause cancelled (call.after moment)
                    (call.retry backoff made error).delay with
                | overran => exact pause_eq_overran_iff.mp paused
                | cancelled => simp [answer, repeatable, paused] at overran
                | passed => simp [goesOn, answer, repeatable, paused] at off

/-- The repetitions that are announced are numbered one after the other. Each call but the last is
followed by one, and the last one too when the calls are broken off in the wait after it. -/
theorem number_retries (left made : Nat) (moment : Moment) :
    let record := call.repeatedly backoff cancelled left made moment
    let calls := (call.log backoff cancelled left made moment).length
    record.retries.map (·.number) =
      List.range' (made + 1) (if record.result.isBrokenOff then calls else calls - 1) := by
  have single (left made : Nat) {moment : Moment}
      (off : left = 0 ∨ call.goesOn backoff cancelled made moment = false) :
      let record := call.repeatedly backoff cancelled left made moment
      record.retries.map (·.number) =
        List.range' (made + 1) (if record.result.isBrokenOff then 1 else 1 - 1) := by
    obtain ⟨-, -, numbers, -⟩ := call.repeatedly_of_not_goesOn backoff cancelled off
    dsimp only
    rw [numbers]
    split <;> rfl
  induction left generalizing made moment with
  | zero => exact single 0 made (.inl rfl)
  | succ left ih =>
      rw [log]
      split
      · rename_i on
        obtain ⟨retry, number, step⟩ := call.repeatedly_of_goesOn backoff cancelled left made on
        have later := ih (made + 1) (call.after moment).looked
        have some : (call.log backoff cancelled left (made + 1) (call.after moment).looked).length ≠
            0 := by
          cases left <;> simp [log]
        rw [step]
        dsimp only at later ⊢
        rw [List.map_cons, number, later, ← List.range'_succ, List.length_cons]
        congr 1
        split <;> omega
      · rename_i off
        exact single (left + 1) made (.inr (by simpa using off))

/-- A call that fails at every moment, where every wait after it comes to its end, is made as often
as it may be. -/
theorem gaveUp_of_forall_fails {error : ε} (fails : ∀ moment, call.answer moment = .failed error)
    (on : ∀ made moment, call.goesOn backoff cancelled made moment = true) (left made : Nat)
    (moment : Moment) :
    (call.repeatedly backoff cancelled left made moment).result = .gaveUp error ∧
      (call.log backoff cancelled left made moment).length = left + 1 := by
  induction left generalizing made moment with
  | zero =>
      rw [repeatedly, fails]
      exact ⟨rfl, rfl⟩
  | succ left ih =>
      obtain ⟨retry, -, step⟩ :=
        call.repeatedly_of_goesOn backoff cancelled left made (on made moment)
      obtain ⟨gaveUp, length⟩ := ih (made + 1) (call.after moment).looked
      rw [step, log, if_pos (on made moment), List.length_cons, length]
      exact ⟨gaveUp, rfl⟩

end Call

end Rolewright
