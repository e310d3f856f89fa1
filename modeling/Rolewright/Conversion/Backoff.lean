/-
# Waiting before another call

How long to wait before a call that failed is made again. The wait doubles from call to call up to
a limit; a wait that the other side asks for is taken instead, up to the same limit.
-/

import Rolewright.Duration

namespace Rolewright

/-- How a call that failed is repeated. -/
structure Backoff where
  initial : Duration
  /-- No wait is longer. -/
  limit : Duration
  /-- How often a call may be repeated. -/
  retries : UInt32
deriving DecidableEq, Repr

namespace Backoff

/-- Waits between two lengths; a limit below the first wait is raised to it. -/
def between (initial limit : Duration) (retries : UInt32) : Backoff :=
  ⟨initial, limit.max initial, retries⟩

/-- Half a second at first, eight seconds at most, four times. -/
def standard : Backoff :=
  between (.ofMilliseconds 500) (.ofMilliseconds 8000) 4

/-- How often the wait doubles at most. -/
def doublings : Nat := 31

/-- How many times the first wait the one before a repetition is: twice as many from one to the
next, as long as 32 bits hold the number. -/
def factor (retry : Nat) : UInt32 :=
  1 <<< (Nat.min (retry - 1) doublings).toUInt32

theorem toNat_factor (retry : Nat) :
    (factor retry).toNat = Nat.pow 2 (Nat.min (retry - 1) doublings) := by
  have few : Nat.min (retry - 1) doublings < 32 := Nat.lt_succ_of_le (Nat.min_le_right _ _)
  have shift : (Nat.min (retry - 1) doublings).toUInt32.toNat = Nat.min (retry - 1) doublings :=
    UInt32.toNat_ofNat_of_lt (Nat.lt_trans few (by decide))
  rw [factor, UInt32.toNat_shiftLeft, shift, Nat.mod_eq_of_lt few, UInt32.toNat_one,
    Nat.shiftLeft_eq, Nat.one_mul]
  exact Nat.mod_eq_of_lt (Nat.pow_lt_pow_right (by decide) few)

/-- The wait before the given repetition, the first being number one. -/
def delay (b : Backoff) (retry : Nat) (hint : Option Duration) : Duration :=
  match hint with
  | some wanted => wanted.min b.limit
  | none => (b.initial.saturatingTimes (factor retry)).min b.limit

/-- No wait is longer than the limit, whoever asks for it. -/
theorem nanoseconds_delay_le (b : Backoff) (retry : Nat) (hint : Option Duration) :
    (b.delay retry hint).nanoseconds ≤ b.limit.nanoseconds := by
  cases hint <;> exact Nat.min_le_right _ _

/-- A wait that no one asks for is counted without bounds, if the limit itself is held. -/
theorem delay_none {b : Backoff} (held : b.limit.nanoseconds ≤ Duration.longest.nanoseconds)
    (retry : Nat) :
    b.delay retry none =
      (b.initial.times (Nat.pow 2 (Nat.min (retry - 1) doublings))).min b.limit := by
  rw [delay, Duration.saturatingTimes_min held, toNat_factor]

end Backoff

end Rolewright
