/-
# Calling persistently

A call that fails is made again after a wait, until it is answered, turns out to be hopeless, has
been repeated often enough, or the session is cancelled during a wait. All that a session can
depend on from outside is a function of the moment, so every behaviour of the other side, answers
that depend on what was asked before included, is one of these functions.

Calls are counted in 32 bits. One that may be repeated `2 ^ 32 - 1` times can be made once more than
that, and then the count is back at zero.
-/

import Rolewright.Conversion.Backoff
import Rolewright.Generator.Basic

namespace Rolewright

/-- How far a session is, as others see it. -/
structure Moment where
  /-- How often the generator was called. -/
  generations : Nat
  /-- How often the gateway was called. -/
  validations : Nat
  /-- How often the session looked whether it is cancelled. -/
  looks : Nat
deriving DecidableEq, Repr

namespace Moment

/-- Before anything was done. -/
def start : Moment := ⟨0, 0, 0⟩

/-- After one more call of the generator. -/
def generated (m : Moment) : Moment := { m with generations := m.generations + 1 }

/-- After one more call of the gateway. -/
def validated (m : Moment) : Moment := { m with validations := m.validations + 1 }

/-- After one more look. -/
def looked (m : Moment) : Moment := { m with looks := m.looks + 1 }

end Moment

/-- A call that is repeated when it fails. -/
structure Call (α ε : Type) where
  /-- The answer at a moment. -/
  answer : Moment → Answer α ε
  /-- The moment after a call. -/
  after : Moment → Moment
  /-- Whether it makes sense to repeat the call after an error. -/
  mayRepeat : ε → Bool
  /-- How long the other side asks to wait. -/
  wait? : ε → Option Duration
  /-- How long the clock has run by a moment. -/
  clock : Moment → Duration

/-- A repetition: its number, the error before it, and the wait. -/
structure Retry (ε : Type) where
  number : Nat
  error : ε
  delay : Duration
deriving Repr

/-- What comes of a wait. -/
inductive Pause where
  | passed
  | cancelled
  /-- No clock shows the end of it, and whoever waits dies of that. -/
  | overran
deriving DecidableEq, Repr

/-- What whoever waits says when no clock shows the end of it. -/
def Pause.overrunMessage : String := "overflow when adding duration to instant"

/-- What became of a call and its repetitions. -/
inductive CallResult (α ε : Type) where
  | answered (answer : α)
  | gaveUp (error : ε)
  | cancelled
  /-- Whoever called died of it. -/
  | died (message : String)
  /-- Whoever called died in the wait before another call. -/
  | overran
deriving Repr

/-- What became of a call, and what it took. -/
structure CallRecord (α ε : Type) where
  result : CallResult α ε
  /-- How often the call was made, in 32 bits. -/
  calls : UInt32
  /-- The repetitions that were announced; the calls may be broken off in the wait before one. -/
  retries : List (Retry ε)
  /-- The moment afterwards. -/
  moment : Moment
deriving Repr

namespace Call

variable {α ε : Type}

/-- The repetition after so many of them and an error. -/
def retry (call : Call α ε) (backoff : Backoff) (made : Nat) (error : ε) : Retry ε :=
  ⟨made + 1, error, backoff.delay (made + 1) (call.wait? error)⟩

/-- Waits from a moment on. The end of the wait is reckoned before the first look. -/
def pause (call : Call α ε) (cancelled : Moment → Bool) (moment : Moment) (delay : Duration) :
    Pause :=
  if (call.clock moment).overruns delay then .overran
  else if cancelled moment then .cancelled
  else .passed

/-- Makes a call, and repeats it at most `left` times; `made` repetitions have been made. -/
def repeatedly (call : Call α ε) (backoff : Backoff) (cancelled : Moment → Bool) :
    (left made : Nat) → Moment → CallRecord α ε
  | left, made, moment =>
    match call.answer moment with
    | .given answer => ⟨.answered answer, 1, [], call.after moment⟩
    | .fatal message => ⟨.died message, 1, [], call.after moment⟩
    | .failed error =>
      match left, call.mayRepeat error with
      | left + 1, true =>
        let retry := call.retry backoff made error
        let waited := call.after moment
        match call.pause cancelled waited retry.delay with
        | .overran => ⟨.overran, 1, [retry], waited⟩
        | .cancelled => ⟨.cancelled, 1, [retry], waited.looked⟩
        | .passed =>
          let rest := repeatedly call backoff cancelled left (made + 1) waited.looked
          { rest with calls := rest.calls + 1, retries := retry :: rest.retries }
      | _, _ => ⟨.gaveUp error, 1, [], call.after moment⟩

/-- Makes a call as often as a backoff allows. -/
def persistently (call : Call α ε) (backoff : Backoff) (cancelled : Moment → Bool)
    (moment : Moment) : CallRecord α ε :=
  call.repeatedly backoff cancelled backoff.retries.toNat 0 moment

end Call

end Rolewright
