/-
# Durations

Lengths of time in whole nanoseconds, and their text: the largest unit that gives a whole part, and
as many decimals as it takes.
-/

namespace Rolewright

/-- A length of time. -/
structure Duration where
  nanoseconds : Nat
deriving DecidableEq, Repr

namespace Duration

/-- No time. -/
def zero : Duration := ⟨0⟩

/-- So many thousandths of a second. -/
def ofMilliseconds (n : Nat) : Duration := ⟨n * 1000000⟩

/-- So many seconds. -/
def ofSeconds (n : Nat) : Duration := ⟨n * 1000000000⟩

/-- The whole thousandths of a second. -/
def milliseconds (d : Duration) : Nat := d.nanoseconds / 1000000

/-- The shorter of two durations. -/
def min (a b : Duration) : Duration :=
  ⟨Nat.min a.nanoseconds b.nanoseconds⟩

/-- The longer of two durations. -/
def max (a b : Duration) : Duration :=
  ⟨Nat.max a.nanoseconds b.nanoseconds⟩

/-- The longest duration that is held: whole seconds are counted in 64 bits. -/
def longest : Duration := ⟨Nat.pow 2 64 * 1000000000 - 1⟩

/-- The last moment that a clock shows, counted from its first: whole seconds are counted in 63
bits. -/
def lastShown : Duration := ⟨Nat.pow 2 63 * 1000000000 - 1⟩

/-- Whether a clock that has run so long cannot show the end of a wait that begins now. -/
def overruns (elapsed wait : Duration) : Bool :=
  decide (lastShown.nanoseconds < elapsed.nanoseconds + wait.nanoseconds)

/-- A duration several times over. -/
def times (d : Duration) (n : Nat) : Duration :=
  ⟨d.nanoseconds * n⟩

/-- A duration several times over, or the longest one if none that long is held. -/
def saturatingTimes (d : Duration) (n : UInt32) : Duration :=
  (d.times n.toNat).min longest

/-- A limit that is held is not noticed to stand below the longest duration. -/
theorem saturatingTimes_min {limit : Duration}
    (held : limit.nanoseconds ≤ longest.nanoseconds) (d : Duration) (n : UInt32) :
    (d.saturatingTimes n).min limit = (d.times n.toNat).min limit := by
  have cut (exact : Nat) : Nat.min (Nat.min exact longest.nanoseconds) limit.nanoseconds =
      Nat.min exact limit.nanoseconds :=
    (Nat.min_assoc _ _ _).trans (congrArg (Nat.min exact) (Nat.min_eq_right held))
  exact congrArg mk (cut _)

/-- `n` units of `10 ^ places` nanoseconds each, in decimals. -/
def decimal (nanoseconds places : Nat) : String :=
  let unit := Nat.pow 10 places
  let digits := Nat.toDigits 10 (nanoseconds % unit)
  let padded := List.replicate (places - digits.length) '0' ++ digits
  let decimals := (padded.reverse.dropWhile (· == '0')).reverse
  let whole := toString (nanoseconds / unit)
  if decimals.isEmpty then whole else whole ++ "." ++ String.ofList decimals

/-- The duration in the largest unit that gives a whole part. -/
def text (d : Duration) : String :=
  let n := d.nanoseconds
  if 1000000000 ≤ n then decimal n 9 ++ "s"
  else if 1000000 ≤ n then decimal n 6 ++ "ms"
  else if 1000 ≤ n then decimal n 3 ++ "µs"
  else toString n ++ "ns"

end Duration

end Rolewright
