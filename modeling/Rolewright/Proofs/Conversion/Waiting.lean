/-
# Waiting as a server asks

A reply that there were too many requests may say in a header how many seconds to wait. The number
is read into a mantissa of 53 places, and only then cut down to the limit of the session. So what is
asked is done for all natural numbers that stay below `2 ^ 64` when they are rounded; a larger one
is no duration, and the session dies of it, unless it is so large that it is no number either and
counts as if nothing had been asked (`waits_as_asked`).

Of all header values only numerals of such a size let a session die (`answer_eq_fatal_iff`).
-/

import Mathlib.Data.List.TakeWhile
import Rolewright.Generator.Reply
import Rolewright.Proofs.Conversion.Calls
import Rolewright.Proofs.Number.Rounding
import Rolewright.Proofs.Recipe.Rows
import Rolewright.Conversion.Run

namespace Rolewright

/-! ## Numerals -/

namespace Binary

/-- Whether a numeral has a minus, and what follows its sign. -/
def signed (cs : List Char) : Bool × List Char :=
  match cs with
  | '-' :: body => (true, body)
  | '+' :: body => (false, body)
  | _ => (false, cs)

/-- The sign, the digits and the power of ten that a numeral spells. -/
def decimal? (cs : List Char) : Option (Bool × Nat × Int) :=
  (numeral? (signed cs).2).map fun (whole, fraction, exponent) =>
    ((signed cs).1, Nat.ofDigitChars 10 (whole ++ fraction) 0, exponent - fraction.length)

theorem ofNumeral?_eq (format : BinaryFormat) (cs : List Char) :
    ofNumeral? format cs = (decimal? cs).map fun (negative, digits, power) =>
      ofDecimal format negative digits power := by
  have read : ofNumeral? format cs =
      (numeral? (signed cs).2).map fun (whole, fraction, exponent) =>
        ofDecimal format (signed cs).1 (Nat.ofDigitChars 10 (whole ++ fraction) 0)
          (exponent - fraction.length) := rfl
  rw [read, decimal?, Option.map_map]
  rfl

/-- Digits spell the natural number that they are. -/
theorem decimal?_digits {cs : List Char} (some : cs ≠ []) (digits : cs.all Char.isDigit = true) :
    decimal? cs = .some (false, Nat.ofDigitChars 10 cs 0, 0) := by
  have inside := List.all_eq_true.mp digits
  have numeral : numeral? cs = .some (cs, [], 0) := by
    have whole : cs.takeWhile Char.isDigit = cs := List.takeWhile_eq_self_iff.mpr inside
    have rest : cs.dropWhile Char.isDigit = [] := List.dropWhile_eq_nil_iff.mpr inside
    simp [numeral?, whole, rest, some]
  have unsigned : signed cs = (false, cs) := by
    unfold signed
    split
    · exact absurd (inside '-' (.head _)) (by decide)
    · exact absurd (inside '+' (.head _)) (by decide)
    · rfl
  simp [decimal?, unsigned, numeral]

end Binary

/-! ## Hints -/

namespace WaitHint

open Binary

theorem shifted_ratio (mantissa : Nat) (exponent : Int) :
    ((mantissa * Nat.pow 2 exponent.toNat : Nat) / (Nat.pow 2 (-exponent).toNat : Nat) : ℚ) =
      mantissa * 2 ^ exponent := by
  rw [Nat.pow_eq, Nat.pow_eq]
  push_cast
  rcases Int.le_total 0 exponent with up | down
  · have none : (-exponent).toNat = 0 := by omega
    have size : (2 : ℚ) ^ exponent = 2 ^ exponent.toNat := by
      rw [← zpow_natCast, Int.toNat_of_nonneg up]
    rw [none, pow_zero, div_one, size]
  · have none : exponent.toNat = 0 := by omega
    have size : (2 : ℚ) ^ exponent = (2 ^ (-exponent).toNat)⁻¹ := by
      rw [← zpow_natCast, Int.toNat_of_nonneg (by omega), zpow_neg, inv_inv]
    rw [none, pow_zero, mul_one, size, div_eq_mul_inv]

theorem ofSeconds_eq (mantissa : Nat) (exponent : Int) :
    ofSeconds mantissa exponent =
      if (2 : ℚ) ^ 64 ≤ mantissa * 2 ^ exponent then .excessive
      else .wait ⟨nearest (mantissa * Nat.pow 2 exponent.toNat * 1000000000)
        (Nat.pow 2 (-exponent).toNat)⟩ := by
  have pos : (0 : ℚ) < (Nat.pow 2 (-exponent).toNat : Nat) :=
    Nat.cast_pos.mpr (Nat.pow_pos Nat.two_pos)
  have reaches : Nat.pow 2 64 * Nat.pow 2 (-exponent).toNat ≤
      mantissa * Nat.pow 2 exponent.toNat ↔ (2 : ℚ) ^ 64 ≤ mantissa * 2 ^ exponent := by
    have limit : ((Nat.pow 2 64 : Nat) : ℚ) = 2 ^ 64 := by norm_num
    rw [← shifted_ratio, le_div_iff₀ pos, ← limit]
    exact_mod_cast Iff.rfl
  rw [ofSeconds]
  simp only [reaches]

/-- A number of seconds is excessive from `2 ^ 64` on. -/
theorem ofSeconds_eq_excessive_iff (mantissa : Nat) (exponent : Int) :
    ofSeconds mantissa exponent = .excessive ↔ (2 : ℚ) ^ 64 ≤ mantissa * 2 ^ exponent := by
  rw [ofSeconds_eq]
  split <;> simp_all

/-- What is no excessive number of seconds is told to the nanosecond. -/
theorem exists_ofSeconds_eq {mantissa : Nat} {exponent : Int}
    (fits : (mantissa : ℚ) * 2 ^ exponent < 2 ^ 64) :
    ∃ duration, ofSeconds mantissa exponent = .wait duration ∧
      (∀ n : Nat, (mantissa : ℚ) * 2 ^ exponent = n → duration = .ofSeconds n) ∧
      ∀ n : Nat, (n : ℚ) ≤ mantissa * 2 ^ exponent →
        (Duration.ofSeconds n).nanoseconds ≤ duration.nanoseconds := by
  have pos : 0 < Nat.pow 2 (-exponent).toNat := Nat.pow_pos Nat.two_pos
  have ratio : ((mantissa * Nat.pow 2 exponent.toNat * 1000000000 : Nat) /
      (Nat.pow 2 (-exponent).toNat : Nat) : ℚ) = mantissa * 2 ^ exponent * 1000000000 := by
    rw [← shifted_ratio]
    push_cast
    ring
  rw [ofSeconds_eq, if_neg (not_le.mpr fits)]
  refine ⟨_, rfl, fun n whole => ?_, fun n least => ?_⟩
  · rw [Duration.ofSeconds, Duration.mk.injEq]
    refine nearest_eq pos ?_
    rw [ratio, whole]
    push_cast
    rfl
  · rw [Duration.ofSeconds]
    refine le_nearest pos ?_
    rw [ratio]
    push_cast
    linarith

/-- The hint that so many seconds are. -/
def ofBinary : Binary → WaitHint
  | .finite negative mantissa exponent =>
    if negative && mantissa != 0 then .absent else ofSeconds mantissa exponent
  | .infinite _ | .nan => .absent

theorem read_of_decimal? {value : List Char} {negative : Bool} {digits : Nat} {power : Int}
    (spelled : decimal? (Text.trim value) = some (negative, digits, power)) :
    read value = ofBinary (ofDecimal .double negative digits power) := by
  have number : ofNumeral? .double (Text.trim value) =
      some (ofDecimal .double negative digits power) := by
    rw [ofNumeral?_eq, spelled]
    rfl
  rw [read, number]
  cases ofDecimal .double negative digits power <;> rfl

theorem read_of_decimal?_eq_none {value : List Char} (none : decimal? (Text.trim value) = none) :
    read value = .absent := by
  have number : ofNumeral? .double (Text.trim value) = .none := by
    rw [ofNumeral?_eq, none]
    rfl
  rw [read, number]

/-- What is rounded reaches `2 ^ 64` from half a unit of its last place below. -/
theorem reaches_two_pow_64 {x v : ℚ}
    (reaches : ∀ k : Int, 0 ≤ k → ((2 : ℚ) ^ k ≤ v ↔ (2 : ℚ) ^ k - 2 ^ (k - 54) ≤ x)) :
    (2 : ℚ) ^ 64 ≤ v ↔ (2 : ℚ) ^ 64 - 2 ^ 10 ≤ x := by
  have place : (64 : Int) - 54 = 10 := rfl
  have power := reaches 64 (by decide)
  rwa [place, zpow_ofNat, zpow_ofNat] at power

/-- A number of seconds without a sign is excessive if it is read as a finite one and reaches
`2 ^ 64` when it is rounded. -/
theorem ofBinary_eq_excessive_iff {negative : Bool} {x : ℚ} {number : Binary}
    (rounds : Rounds negative x number) :
    ofBinary number = .excessive ↔
      negative = false ∧ (2 : ℚ) ^ 64 - 2 ^ 10 ≤ x ∧ x < 2 ^ 1024 - 2 ^ 970 := by
  cases rounds with
  | infinite large =>
      exact iff_of_false nofun fun within => absurd large (not_le.mpr within.2.2)
  | @finite mantissa exponent small reaches keeps =>
      have power := reaches_two_pow_64 reaches
      rw [ofBinary]
      cases negative with
      | false => simp [ofSeconds_eq_excessive_iff, power, small]
      | true =>
          refine iff_of_false ?_ nofun
          split
          · nofun
          · rename_i zero
            have none : mantissa = 0 := by simpa using zero
            rw [ofSeconds_eq_excessive_iff, none]
            norm_num

/-- Header values that spell a number which is more than any duration, but no more than what is read
as a finite number. -/
def Overflows (value : List Char) : Prop :=
  ∃ digits power, decimal? (Text.trim value) = some (false, digits, power) ∧
    (2 : ℚ) ^ 64 - 2 ^ 10 ≤ digits * 10 ^ power ∧ (digits : ℚ) * 10 ^ power < 2 ^ 1024 - 2 ^ 970

theorem read_eq_excessive_iff (value : List Char) : read value = .excessive ↔ Overflows value := by
  rw [Overflows]
  cases spelled : decimal? (Text.trim value) with
  | none => simp [read_of_decimal?_eq_none spelled]
  | some spelling =>
      obtain ⟨negative, digits, power⟩ := spelling
      rw [read_of_decimal? spelled,
        ofBinary_eq_excessive_iff (rounds_ofDecimal negative digits power)]
      constructor
      · rintro ⟨rfl, within⟩
        exact ⟨digits, power, rfl, within⟩
      · rintro ⟨_, _, same, within⟩
        cases same
        exact ⟨rfl, within⟩

theorem two_pow_sub_le_iff {a b : Nat} (less : b ≤ a) (n : Nat) :
    (2 : ℚ) ^ a - 2 ^ b ≤ n ↔ 2 ^ a - 2 ^ b ≤ n := by
  rw [← Nat.cast_le (α := ℚ), Nat.cast_sub (Nat.pow_le_pow_right Nat.two_pos less), Nat.cast_pow,
    Nat.cast_pow, Nat.cast_ofNat]

/-- What a natural number of seconds is read as. -/
theorem read_of_natural {value : List Char} {n : Nat}
    (spelled : decimal? (Text.trim value) = some (false, n, 0)) :
    (n < 2 ^ 64 - 2 ^ 10 ∧ ∃ duration, read value = .wait duration ∧
        (n < 2 ^ 53 → duration = .ofSeconds n) ∧
        (2 ^ 53 ≤ n → (Duration.ofSeconds (2 ^ 53)).nanoseconds ≤ duration.nanoseconds)) ∨
      (2 ^ 64 - 2 ^ 10 ≤ n ∧ n < 2 ^ 1024 - 2 ^ 970 ∧ read value = .excessive) ∨
      (2 ^ 1024 - 2 ^ 970 ≤ n ∧ read value = .absent) := by
  have rounds := rounds_ofDecimal false n 0
  rw [zpow_zero, mul_one] at rounds
  rw [read_of_decimal? spelled]
  generalize ofDecimal .double false n 0 = number at *
  cases rounds with
  | infinite large => exact .inr (.inr ⟨(two_pow_sub_le_iff (by decide) n).mp large, rfl⟩)
  | @finite mantissa exponent small reaches keeps =>
      have power := reaches_two_pow_64 reaches
      have seconds : ofBinary (.finite false mantissa exponent) = ofSeconds mantissa exponent := rfl
      rw [seconds]
      by_cases large : (2 : ℚ) ^ 64 - 2 ^ 10 ≤ n
      · refine .inr (.inl ⟨(two_pow_sub_le_iff (by decide) n).mp large, ?_, ?_⟩)
        · exact not_le.mp ((two_pow_sub_le_iff (by decide) n).not.mp (not_le.mpr small))
        · exact (ofSeconds_eq_excessive_iff mantissa exponent).mpr (power.mpr large)
      · have fits := not_le.mp (power.not.mpr large)
        obtain ⟨duration, read, whole, least⟩ := exists_ofSeconds_eq fits
        refine .inl ⟨?_, duration, read, fun exact => whole n (keeps n exact rfl), fun long => ?_⟩
        · exact not_le.mp ((two_pow_sub_le_iff (by decide) n).not.mp large)
        · refine least (2 ^ 53) ?_
          have near : (2 : ℚ) ^ (53 : Int) - 2 ^ ((53 : Int) - 54) ≤ n := by
            have long : ((2 ^ 53 : Nat) : ℚ) ≤ n := Nat.cast_le.mpr long
            have place : (0 : ℚ) < 2 ^ ((53 : Int) - 54) := zpow_pos two_pos _
            push_cast at long
            rw [zpow_ofNat]
            linarith
          have reached := (reaches 53 (by decide)).mpr near
          rw [zpow_ofNat] at reached
          push_cast
          exact reached

end WaitHint

/-! ## Replies that ask to wait -/

namespace Reply

open WaitHint

variable {reply : Reply} {value : String}

theorem waitHint_of_header (header : reply.header? "retry-after" = some value) :
    reply.waitHint = if isReadable value then .read value.toList else .absent := by
  rw [waitHint, header]
  cases readable : isReadable value <;> simp [Option.filter, readable]

theorem waitHint_eq_excessive_iff :
    reply.waitHint = .excessive ↔ ∃ value, reply.header? "retry-after" = some value ∧
      isReadable value = true ∧ Overflows value.toList := by
  cases header : reply.header? "retry-after" with
  | none =>
      rw [waitHint, header]
      exact iff_of_false nofun fun ⟨_, same, _⟩ => nomatch same
  | some value =>
      rw [waitHint_of_header header]
      cases readable : isReadable value <;> simp [readable, read_eq_excessive_iff]

/-- Whoever asks dies of a reply exactly if its header asks for more than any duration, whatever the
status of the reply. -/
theorem answer_eq_fatal_iff :
    (∃ message, reply.answer = .fatal message) ↔
      ∃ value, reply.header? "retry-after" = some value ∧ isReadable value = true ∧
        Overflows value.toList := by
  rw [← waitHint_eq_excessive_iff, answer]
  cases hint : reply.waitHint with
  | excessive => simp
  | absent | wait =>
      refine iff_of_false ?_ nofun
      rintro ⟨message, fatal⟩
      dsimp only at fatal
      split at fatal
      · cases fatal
      · cases read : text reply.body <;> rw [read] at fatal <;> cases fatal

/-- There were too many requests, and a header says how long to wait. -/
structure Limits (reply : Reply) (value : String) : Prop where
  status : reply.status = 429 ∨ reply.status = 529
  header : reply.header? "retry-after" = some value

theorem Limits.answer_eq (limits : reply.Limits value) (bounded : reply.waitHint ≠ .excessive) :
    reply.answer = .failed (.rateLimited reply.waitHint.duration?) := by
  have limited (wait : Option Duration) :
      statusError? reply.status wait = some (.rateLimited wait) := by
    rcases limits.status with status | status <;> rw [status] <;> rfl
  rw [answer]
  cases hint : reply.waitHint with
  | excessive => exact absurd hint bounded
  | absent | wait =>
      dsimp only
      rw [limited]

end Reply

/-! ## Waits -/

namespace Call

variable {α ε : Type} {call : Call α ε} {backoff : Backoff} {cancelled : Moment → Bool}
  {now : Moment}

/-- From an entry of the log on, the calls are those that begin at its moment. -/
theorem repeatedly_of_log {answer : Answer α ε} {left made i : Nat} {moment : Moment}
    (answered : (call.log backoff cancelled left made moment)[i]? = some (now, answer)) :
    let rest := call.repeatedly backoff cancelled (left - i) (made + i) now
    call.answer now = answer ∧
      (call.repeatedly backoff cancelled left made moment).result = rest.result ∧
      (call.repeatedly backoff cancelled left made moment).retries[i]? = rest.retries.head? := by
  induction left generalizing i made moment with
  | zero =>
      rw [log] at answered
      cases i with
      | zero =>
          cases answered
          exact ⟨rfl, rfl, List.head?_eq_getElem?.symm⟩
      | succ i => cases answered
  | succ left ih =>
      rw [log] at answered
      cases i with
      | zero =>
          cases answered
          exact ⟨rfl, rfl, List.head?_eq_getElem?.symm⟩
      | succ i =>
          rw [List.getElem?_cons_succ] at answered
          split at answered
          · rename_i on
            obtain ⟨retry, -, step⟩ := call.repeatedly_of_goesOn backoff cancelled left made on
            have later := ih answered
            have number : made + 1 + i = made + (i + 1) := by omega
            rw [number, ← Nat.succ_sub_succ left i] at later
            rw [step]
            exact later
          · cases answered

/-- Behind a call that failed and may be repeated the session waits as the backoff says. -/
theorem retries_of_failed {error : ε} (repeatable : call.mayRepeat error = true)
    {left made i : Nat} (below : i < left) {moment : Moment}
    (answered : (call.log backoff cancelled left made moment)[i]? = some (now, .failed error)) :
    (call.repeatedly backoff cancelled left made moment).retries[i]? =
      some ⟨made + i + 1, error, backoff.delay (made + i + 1) (call.wait? error)⟩ := by
  obtain ⟨answer, -, behind⟩ := repeatedly_of_log answered
  obtain ⟨more, some⟩ : ∃ more, left - i = more + 1 := Nat.exists_eq_add_one.mpr (by omega)
  rw [behind, some, repeatedly, answer]
  dsimp only
  rw [repeatable]
  dsimp only
  split <;> rfl

/-- Behind a call that whoever called died of there is no wait. -/
theorem died_of_fatal {message : String} {left made i : Nat} {moment : Moment}
    (answered : (call.log backoff cancelled left made moment)[i]? = some (now, .fatal message)) :
    (call.repeatedly backoff cancelled left made moment).result = .died message ∧
      (call.repeatedly backoff cancelled left made moment).retries[i]? = none := by
  obtain ⟨answer, ends, behind⟩ := repeatedly_of_log answered
  rw [ends, behind, repeatedly, answer]
  exact ⟨rfl, rfl⟩

end Call

theorem Duration.min_eq_right_iff {a b : Duration} :
    a.min b = b ↔ b.nanoseconds ≤ a.nanoseconds := by
  rw [← inf_eq_right]
  exact ⟨congrArg Duration.nanoseconds, congrArg Duration.mk⟩

namespace Run

open WaitHint

/-- A header value of digits alone, and the natural number that they are. -/
structure SpellsNatural (value : String) (n : Nat) : Prop where
  some : value ≠ ""
  digits : value.toList.all Char.isDigit = true
  number : Nat.ofDigitChars 10 value.toList 0 = n

theorem SpellsNatural.isSolid {value : String} {n : Nat} (spells : SpellsNatural value n) :
    Text.IsSolid value.toList := by
  have inside := List.all_eq_true.mp spells.digits
  have solid : ∀ c ∈ value.toList, Text.isBlank c = false := fun c member =>
    Text.isBlank_of_isAsciiWord (by simp [Text.isAsciiWord, Char.isAlphanum, inside c member])
  have nonempty : value.toList ≠ [] := by simpa using spells.some
  constructor
  · rw [List.head?_eq_some_head nonempty, Option.any_some, solid _ (List.head_mem nonempty)]
    rfl
  · rw [List.getLast?_eq_some_getLast nonempty, Option.any_some,
      solid _ (List.getLast_mem nonempty)]
    rfl

theorem SpellsNatural.decimal?_eq {value : String} {n : Nat} (spells : SpellsNatural value n) :
    Binary.decimal? (Text.trim value.toList) = .some (false, n, 0) := by
  have nonempty : value.toList ≠ [] := by simpa using spells.some
  rw [spells.isSolid.trim_eq, Binary.decimal?_digits nonempty spells.digits, spells.number]

theorem SpellsNatural.isReadable {value : String} {n : Nat} (spells : SpellsNatural value n) :
    Reply.isReadable value = true := by
  refine List.all_eq_true.mpr fun c member => ?_
  have digit := List.all_eq_true.mp spells.digits c member
  simp only [Char.isDigit, Bool.and_eq_true, decide_eq_true_eq, ge_iff_le,
    UInt32.le_iff_toNat_le] at digit
  have low : 48 ≤ c.toNat := digit.1
  have high : c.toNat ≤ 57 := digit.2
  simp only [Bool.or_eq_true, Bool.and_eq_true, decide_eq_true_eq]
  omega

/-- Every natural number is spelled by its digits. -/
theorem spellsNatural_toString (n : Nat) : SpellsNatural (toString n) n where
  some := by
    intro empty
    have digits := congrArg String.toList empty
    rw [Nat.toString_eq_ofList_toDigits, String.toList_ofList] at digits
    exact Nat.toDigits_ne_nil digits
  digits := by
    rw [Nat.toString_eq_ofList_toDigits, String.toList_ofList]
    refine List.all_eq_true.mpr fun c member => ?_
    exact Nat.isDigit_of_mem_toDigits (by decide) (by decide) member
  number := by
    rw [Nat.toString_eq_ofList_toDigits, String.toList_ofList, Nat.ofDigitChars_ten_toDigits]

/-- The wait that follows from a hint is the one that was asked for, cut down to the limit. -/
theorem delay_read_iff {backoff : Backoff} {value : String} {n : Nat}
    (spells : SpellsNatural value n)
    (capped : backoff.limit.nanoseconds < (Duration.ofSeconds (2 ^ 53)).nanoseconds) (i : Nat)
    (bounded : read value.toList ≠ .excessive) :
    backoff.delay (i + 1) (read value.toList).duration? =
        (Duration.ofSeconds n).min backoff.limit ↔
      n < 2 ^ 64 - 2 ^ 10 ∨ 2 ^ 1024 - 2 ^ 970 ≤ n ∧
        backoff.limit.nanoseconds ≤ (backoff.initial.times (2 ^ min i 31)).nanoseconds := by
  have longer {d : Duration} (long : (Duration.ofSeconds (2 ^ 53)).nanoseconds ≤ d.nanoseconds) :
      d.min backoff.limit = backoff.limit :=
    Duration.min_eq_right_iff.mpr (Nat.le_of_lt (Nat.lt_of_lt_of_le capped long))
  have seconds {m : Nat} (large : 2 ^ 53 ≤ m) :
      (Duration.ofSeconds m).min backoff.limit = backoff.limit :=
    longer (Nat.mul_le_mul_right _ large)
  rcases read_of_natural spells.decimal?_eq with
    ⟨small, duration, read, short, long⟩ | ⟨-, -, read⟩ | ⟨large, read⟩
  · refine iff_of_true ?_ (.inl small)
    rw [read, duration?, Backoff.delay]
    rcases Nat.lt_or_ge n (2 ^ 53) with exact | above
    · rw [short exact]
    · rw [longer (long above), seconds above]
  · exact absurd read bounded
  · have above : 2 ^ 64 - 2 ^ 10 ≤ n := Nat.le_trans (by decide +kernel) large
    have whole : 2 ^ 53 ≤ n := Nat.le_trans (by decide) above
    have doublings : Nat.min (i + 1 - 1) Backoff.doublings = min i 31 := rfl
    have held : backoff.limit.nanoseconds ≤ Duration.longest.nanoseconds :=
      Nat.le_trans (Nat.le_of_lt capped) (by decide)
    rw [read, duration?, Backoff.delay_none held, seconds whole, Duration.min_eq_right_iff,
      doublings]
    exact ⟨fun reached => .inr ⟨large, reached⟩,
      fun either => (either.resolve_left (Nat.not_lt.mpr above)).2⟩

/-- Behind a reply that there were too many requests a session waits, unless the header of the reply
lets it die. It waits as many seconds as the header asks for, up to the limit, exactly if they are
less than `2 ^ 64` when they are rounded, or so many that they are passed over and the session waits
as long by itself. -/
theorem waits_as_asked {surroundings : Surroundings} {request : Request} {backoff : Backoff}
    {start now : Moment} {reply : Reply} {value : String} {i : Nat} (limits : reply.Limits value)
    (answered : ((ask surroundings request).log backoff surroundings.cancelled backoff.retries.toNat
      0 start)[i]? = some (now, reply.answer)) (below : i < backoff.retries.toNat) :
    let record := (ask surroundings request).persistently backoff surroundings.cancelled start
    (record.retries[i]? = none ↔ Reply.isReadable value = true ∧ Overflows value.toList) ∧
    (record.retries[i]? = none → ∃ message, record.result = .died message) ∧
    ∀ n, SpellsNatural value n →
      backoff.limit.nanoseconds < (Duration.ofSeconds (2 ^ 53)).nanoseconds →
      (record.retries[i]?.map Retry.delay = some ((Duration.ofSeconds n).min backoff.limit) ↔
        n < 2 ^ 64 - 2 ^ 10 ∨ 2 ^ 1024 - 2 ^ 970 ≤ n ∧
          backoff.limit.nanoseconds ≤ (backoff.initial.times (2 ^ min i 31)).nanoseconds) := by
  intro record
  have overflows : reply.waitHint = .excessive ↔
      Reply.isReadable value = true ∧ Overflows value.toList := by
    rw [Reply.waitHint_eq_excessive_iff, limits.header]
    simp
  have spelled {n : Nat} (spells : SpellsNatural value n) :
      reply.waitHint = .read value.toList := by
    rw [Reply.waitHint_of_header limits.header, if_pos spells.isReadable]
  rw [← overflows]
  by_cases excessive : reply.waitHint = .excessive
  · obtain ⟨message, fatal⟩ :=
      Reply.answer_eq_fatal_iff.mpr (Reply.waitHint_eq_excessive_iff.mp excessive)
    rw [fatal] at answered
    obtain ⟨died, none⟩ : record.result = .died message ∧ record.retries[i]? = none :=
      Call.died_of_fatal answered
    refine ⟨iff_of_true none excessive, fun _ => ⟨message, died⟩, fun n spells _ => ?_⟩
    rw [none, Option.map_none]
    rcases read_of_natural spells.decimal?_eq with
      ⟨-, duration, read, -⟩ | ⟨above, below, -⟩ | ⟨-, read⟩
    · rw [spelled spells, read] at excessive
      cases excessive
    · refine iff_of_false nofun ?_
      rintro (small | ⟨large, -⟩)
      · exact Nat.not_lt.mpr above small
      · exact Nat.not_lt.mpr large below
    · rw [spelled spells, read] at excessive
      cases excessive
  · rw [limits.answer_eq excessive] at answered
    have waits : record.retries[i]? = some _ := Call.retries_of_failed rfl below answered
    rw [waits]
    refine ⟨iff_of_false nofun excessive, nofun, fun n spells capped => ?_⟩
    have bounded : read value.toList ≠ .excessive := spelled spells ▸ excessive
    rw [← delay_read_iff spells capped i bounded, ← spelled spells, Option.map_some,
      Option.some.injEq, Nat.zero_add]
    rfl

/-- A reply that there were too many requests and that it takes so many seconds. -/
def busy (seconds : String) : Reply := ⟨429, [("Retry-After", seconds)], []⟩

theorem limits_busy (seconds : String) : (busy seconds).Limits seconds where
  status := .inl rfl
  header := by
    have name : "Retry-After".toLower = "retry-after" := by
      rw [← String.toList_inj]
      change (String.map Char.toLower "Retry-After").toList = _
      rw [String.toList_map]
      rfl
    simp [busy, Reply.header?, name]

/-- A generator whose server is always busy, and a session that no one cancels. -/
def alwaysBusy (seconds : String) : Surroundings where
  generate _ _ := (busy seconds).answer
  validate _ _ := .fatal "never asked"
  cancelled _ := false
  clock _ := .zero

/-- A request without anything in it. -/
def bareRequest : Request := ⟨"app", 1, .empty, [], [], [], [], [], [], [], none⟩

/-- What a session takes from a server that is always busy. -/
def recordOfBusy (seconds : String) : CallRecord String GenerationError :=
  (ask (alwaysBusy seconds) bareRequest).persistently .standard (alwaysBusy seconds).cancelled
    .start

/-- Half a minute is longer than the limit of the standard backoff. -/
theorem waits_as_asked_thirty :
    (recordOfBusy (toString 30)).retries[0]?.map Retry.delay = some (.ofSeconds 8) :=
  ((waits_as_asked (limits_busy (toString 30)) rfl (by decide)).2.2 30 (spellsNatural_toString 30)
    (by decide)).mpr (.inl (by decide))

theorem waitHint_busy (n : Nat) : (busy (toString n)).waitHint = .read (toString n).toList := by
  rw [Reply.waitHint_of_header (limits_busy (toString n)).header,
    if_pos (spellsNatural_toString n).isReadable]

/-- The first number of seconds that is no duration lets the session die, and of one that is no
number of 64 bits it takes no notice. -/
theorem not_waits_as_asked :
    ((recordOfBusy (toString (2 ^ 64))).retries[0]? = none ∧
      ∃ message, (recordOfBusy (toString (2 ^ 64))).result = .died message) ∧
    (recordOfBusy (toString (2 ^ 1024))).retries[0]?.map Retry.delay =
      some (.ofMilliseconds 500) := by
  have below : 2 ^ 64 < 2 ^ 1024 - 2 ^ 970 := by decide +kernel
  constructor
  · have hint : (busy (toString (2 ^ 64))).waitHint = .excessive := by
      rw [waitHint_busy]
      rcases read_of_natural (spellsNatural_toString (2 ^ 64)).decimal?_eq with
        ⟨small, -⟩ | ⟨-, -, read⟩ | ⟨large, -⟩
      · exact absurd small (by decide)
      · exact read
      · exact absurd large (Nat.not_le.mpr below)
    obtain ⟨message, fatal⟩ :=
      Reply.answer_eq_fatal_iff.mpr (Reply.waitHint_eq_excessive_iff.mp hint)
    obtain ⟨died, none⟩ : (recordOfBusy (toString (2 ^ 64))).result = .died message ∧
        (recordOfBusy (toString (2 ^ 64))).retries[0]? = none :=
      Call.died_of_fatal (congrArg (fun answer => some (_, answer)) fatal)
    exact ⟨none, message, died⟩
  · have hint : (busy (toString (2 ^ 1024))).waitHint = .absent := by
      rw [waitHint_busy]
      rcases read_of_natural (spellsNatural_toString (2 ^ 1024)).decimal?_eq with
        ⟨small, -⟩ | ⟨-, small, -⟩ | ⟨-, read⟩
      · exact absurd small (by decide +kernel)
      · exact absurd small (Nat.not_lt.mpr (Nat.sub_le _ _))
      · exact read
    have answer := (limits_busy (toString (2 ^ 1024))).answer_eq (by rw [hint]; nofun)
    rw [hint] at answer
    have waits : (recordOfBusy (toString (2 ^ 1024))).retries[0]? = some _ :=
      Call.retries_of_failed rfl (by decide) (congrArg (fun answer => some (_, answer)) answer)
    rw [waits]
    rfl

end Run

end Rolewright
