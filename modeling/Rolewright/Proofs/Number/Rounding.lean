/-
# Where rounding reaches a power of two

A ratio is rounded to a mantissa of fixed precision, so below a power of two its last step is half
a unit wide: a rounded ratio reaches the power exactly if the ratio is no more than that half below
it, the tie included, since the power has the even mantissa (`two_pow_le_rounded_iff`). From this
follows which numerals are read as infinite, and where a number read from a numeral passes any other
power of two (`rounds_ofDecimal`).
-/

import Mathlib.Algebra.Order.Field.Power
import Mathlib.Data.Nat.Cast.Order.Field
import Mathlib.Data.Rat.Cast.Order
import Mathlib.Tactic.FieldSimp
import Mathlib.Tactic.Linarith
import Mathlib.Tactic.Positivity
import Mathlib.Tactic.Ring
import Rolewright.Number.Binary

namespace Rolewright.Binary

variable {num den : Nat}

/-! ## The nearest natural number -/

section Nearest

variable (pos : 0 < den)

include pos

/-- A natural number is reached from half a unit below it, if it is even, and from itself. -/
theorem le_nearest_iff_mul (num j : Nat) :
    j ≤ nearest num den ↔ 2 * (j * den) < 2 * num + den ∨
      2 * (j * den) = 2 * num + den ∧ j % 2 = 0 := by
  have split := Nat.div_add_mod num den
  have rest := Nat.mod_lt num pos
  rw [nearest]
  generalize num / den = low at *
  generalize num % den = excess at *
  rw [Nat.mul_comm] at split
  rcases Nat.lt_trichotomy j (low + 1) with below | rfl | above
  · have product : j * den ≤ low * den := Nat.mul_le_mul_right den (Nat.le_of_lt_succ below)
    refine iff_of_true ?_ (.inl (by omega))
    split <;> omega
  · rw [Nat.add_mul, Nat.one_mul]
    split
    · rename_i down
      simp only [Bool.or_eq_true, decide_eq_true_eq, Bool.and_eq_true, beq_iff_eq] at down
      omega
    · rename_i up
      simp only [Bool.or_eq_true, decide_eq_true_eq, Bool.and_eq_true, beq_iff_eq] at up
      omega
  · have product : (low + 2) * den ≤ j * den := Nat.mul_le_mul_right den above
    rw [Nat.add_mul] at product
    refine iff_of_false ?_ (by omega)
    split <;> omega

theorem le_nearest_iff (num j : Nat) :
    j ≤ nearest num den ↔ (j : ℚ) - 1 / 2 < num / den ∨
      (j : ℚ) - 1 / 2 = num / den ∧ j % 2 = 0 := by
  have positive : (0 : ℚ) < den := Nat.cast_pos.mpr pos
  have less : 2 * (j * den) < 2 * num + den ↔ ((j : ℚ) - 1 / 2) * den < num := by
    rw [← Nat.cast_lt (α := ℚ)]
    push_cast
    constructor <;> intro _ <;> linarith
  have same : 2 * (j * den) = 2 * num + den ↔ ((j : ℚ) - 1 / 2) * den = num := by
    rw [← Nat.cast_inj (R := ℚ)]
    push_cast
    constructor <;> intro _ <;> linarith
  rw [le_nearest_iff_mul pos, lt_div_iff₀ positive, eq_div_iff positive.ne', less, same]

theorem le_nearest {j : Nat} (below : (j : ℚ) ≤ num / den) : j ≤ nearest num den := by
  rw [le_nearest_iff pos]
  exact .inl (by linarith)

theorem nearest_le {j : Nat} (above : (num / den : ℚ) ≤ j) : nearest num den ≤ j := by
  by_contra more
  rw [Nat.not_le, ← Nat.succ_le_iff, le_nearest_iff pos] at more
  push_cast at more
  rcases more with more | ⟨more, -⟩ <;> linarith

theorem nearest_eq {j : Nat} (whole : (num / den : ℚ) = j) : nearest num den = j :=
  Nat.le_antisymm (nearest_le pos whole.le) (le_nearest pos whole.ge)

end Nearest

/-! ## The last place of the mantissa -/

theorem scaled_pos (pos : 0 < den) (num : Nat) (exponent : Int) :
    0 < (scaled num den exponent).2 := by
  rw [scaled]
  split
  · exact pos
  · exact Nat.mul_pos pos (Nat.pow_pos Nat.two_pos)

theorem scaled_ratio (num den : Nat) (exponent : Int) :
    ((scaled num den exponent).1 / (scaled num den exponent).2 : ℚ) =
      num / den * 2 ^ (-exponent) := by
  rw [scaled]
  split
  · rename_i down
    have size : -exponent = (exponent.natAbs : Int) := by omega
    rw [size, zpow_natCast, Nat.pow_eq]
    push_cast
    ring
  · rename_i up
    have power : (2 : ℚ) ^ exponent = 2 ^ exponent.natAbs := by
      rw [← zpow_natCast]
      congr 1
      omega
    rw [zpow_neg, power, Nat.pow_eq]
    push_cast
    field_simp

variable (format : BinaryFormat)

/-- The exponent that would leave the mantissa of a ratio all its places. -/
def leadExponent (num den : Nat) : Int :=
  let guess : Int := Int.ofNat num.log2 - Int.ofNat den.log2 - Int.ofNat format.precision
  let (n, d) := scaled num den guess
  if n / d ≥ Nat.pow 2 format.precision then guess + 1 else guess

/-- The exponent of the last place to which a ratio is rounded. -/
def lastExponent (num den : Nat) : Int :=
  max (leadExponent format num den) format.minExponent

/-- The mantissa of a ratio, which may have become one place longer by rounding. -/
def roundedMantissa (num den : Nat) : Nat :=
  nearest (scaled num den (lastExponent format num den)).1
    (scaled num den (lastExponent format num den)).2

/-- A ratio as it is rounded, before the exponent is found to be too large. -/
def rounded (num den : Nat) : ℚ :=
  roundedMantissa format num den * 2 ^ lastExponent format num den

theorem ofRatio_eq (some : num ≠ 0) (pos : 0 < den) (negative : Bool) :
    ofRatio format negative num den =
      let (mantissa, exponent) :=
        if roundedMantissa format num den == Nat.pow 2 format.precision then
          (roundedMantissa format num den / 2, lastExponent format num den + 1)
        else (roundedMantissa format num den, lastExponent format num den)
      if exponent > format.maxExponent then .infinite negative
      else .finite negative mantissa exponent := by
  have ratio : (num == 0 || den == 0) = false := by simp [some, Nat.ne_of_gt pos]
  rw [ofRatio, ratio]
  rfl

section Place

variable (some : 0 < num) (pos : 0 < den)

include some pos

/-- The lengths of a ratio's parts tell it up to a factor of four. -/
theorem ratio_log2 :
    (2 : ℚ) ^ ((num.log2 : Int) - den.log2 - 1) < num / den ∧
      (num / den : ℚ) < 2 ^ ((num.log2 : Int) - den.log2 + 1) := by
  have bounds {n : Nat} (some : 0 < n) :
      (2 : ℚ) ^ (n.log2 : Int) ≤ n ∧ (n : ℚ) < 2 ^ ((n.log2 : Int) + 1) := by
    constructor
    · rw [zpow_natCast]
      exact_mod_cast Nat.log2_self_le some.ne'
    · have above : n < 2 ^ (n.log2 + 1) := Nat.lt_log2_self
      exact_mod_cast above
  obtain ⟨low, high⟩ := bounds some
  obtain ⟨low', high'⟩ := bounds pos
  have positive : (0 : ℚ) < den := Nat.cast_pos.mpr pos
  rw [lt_div_iff₀ positive, div_lt_iff₀ positive]
  constructor
  · calc (2 : ℚ) ^ ((num.log2 : Int) - den.log2 - 1) * den
        < 2 ^ ((num.log2 : Int) - den.log2 - 1) * 2 ^ ((den.log2 : Int) + 1) :=
          mul_lt_mul_of_pos_left high' (zpow_pos two_pos _)
      _ = 2 ^ (num.log2 : Int) := by
          rw [← zpow_add₀ two_ne_zero]
          congr 1
          omega
      _ ≤ num := low
  · calc (num : ℚ) < 2 ^ ((num.log2 : Int) + 1) := high
      _ = 2 ^ ((num.log2 : Int) - den.log2 + 1) * 2 ^ (den.log2 : Int) := by
          rw [← zpow_add₀ two_ne_zero]
          congr 1
          omega
      _ ≤ 2 ^ ((num.log2 : Int) - den.log2 + 1) * den :=
          mul_le_mul_of_nonneg_left low' (zpow_pos two_pos _).le

/-- A ratio lies between the powers of two next to it. -/
theorem leadExponent_bounds :
    (2 : ℚ) ^ (leadExponent format num den + format.precision - 1) ≤ num / den ∧
      (num / den : ℚ) < 2 ^ (leadExponent format num den + format.precision) := by
  obtain ⟨low, high⟩ := ratio_log2 some pos
  have reaches (guess : Int) :
      (scaled num den guess).1 / (scaled num den guess).2 ≥ Nat.pow 2 format.precision ↔
        (2 : ℚ) ^ (guess + format.precision) ≤ num / den := by
    have positive := scaled_pos pos num guess
    rw [ge_iff_le, Nat.le_div_iff_mul_le positive, ← Nat.cast_le (α := ℚ), Nat.pow_eq]
    push_cast
    rw [← le_div_iff₀ (Nat.cast_pos.mpr positive), scaled_ratio, zpow_neg, zpow_add₀ two_ne_zero,
      ← div_eq_mul_inv, le_div_iff₀ (zpow_pos two_pos guess), zpow_natCast, mul_comm]
  rw [leadExponent]
  dsimp only
  simp only [reaches, Int.ofNat_eq_natCast]
  split
  · rename_i reached
    refine ⟨le_of_eq_of_le ?_ reached, lt_of_lt_of_eq high ?_⟩ <;>
      · congr 1
        omega
  · rename_i short
    refine ⟨le_of_eq_of_le ?_ low.le, not_le.mp short⟩
    congr 1
    omega

theorem ratio_lt_last :
    (num / den : ℚ) < 2 ^ (lastExponent format num den + format.precision) := by
  refine lt_of_lt_of_le (leadExponent_bounds format some pos).2 ?_
  refine zpow_le_zpow_right₀ one_le_two ?_
  have least : leadExponent format num den ≤ lastExponent format num den := le_max_left _ _
  omega

/-- Above the least exponent the mantissa has all its places. -/
theorem last_le_ratio (normal : format.minExponent < lastExponent format num den) :
    (2 : ℚ) ^ (lastExponent format num den + format.precision - 1) ≤ num / den := by
  have lead : lastExponent format num den = leadExponent format num den := by
    rw [lastExponent] at *
    omega
  rw [lead]
  exact (leadExponent_bounds format some pos).1

omit some in
/-- What the rounded mantissa reaches, told of the ratio itself. -/
theorem le_roundedMantissa_iff {j : Nat} (even : j % 2 = 0) :
    j ≤ roundedMantissa format num den ↔
      ((j : ℚ) - 1 / 2) * 2 ^ lastExponent format num den ≤ num / den := by
  have place : (0 : ℚ) < 2 ^ lastExponent format num den := zpow_pos two_pos _
  have positive := scaled_pos pos num (lastExponent format num den)
  rw [roundedMantissa, le_nearest_iff positive, scaled_ratio, zpow_neg, ← div_eq_mul_inv,
    ← le_div_iff₀ place, and_iff_left even, le_iff_lt_or_eq]

theorem roundedMantissa_le : roundedMantissa format num den ≤ 2 ^ format.precision := by
  have place : (0 : ℚ) < 2 ^ lastExponent format num den := zpow_pos two_pos _
  have above := ratio_lt_last format some pos
  rw [roundedMantissa]
  refine nearest_le (scaled_pos pos num _) ?_
  rw [scaled_ratio, zpow_neg, ← div_eq_mul_inv, div_le_iff₀ place]
  rw [zpow_add₀ two_ne_zero, zpow_natCast, mul_comm] at above
  exact_mod_cast above.le

theorem rounded_le :
    rounded format num den ≤ 2 ^ (lastExponent format num den + format.precision) := by
  have mantissa : (roundedMantissa format num den : ℚ) ≤ 2 ^ format.precision := by
    exact_mod_cast roundedMantissa_le format some pos
  rw [rounded, zpow_add₀ two_ne_zero, zpow_natCast, mul_comm]
  exact mul_le_mul_of_nonneg_left mantissa (zpow_pos two_pos _).le

theorem le_rounded (normal : format.minExponent < lastExponent format num den)
    (precise : 0 < format.precision) :
    2 ^ (lastExponent format num den + format.precision - 1) ≤ rounded format num den := by
  have place : (0 : ℚ) < 2 ^ lastExponent format num den := zpow_pos two_pos _
  have places : lastExponent format num den + format.precision - 1 =
      lastExponent format num den + ((format.precision - 1 : Nat) : Int) := by omega
  have mantissa : 2 ^ (format.precision - 1) ≤ roundedMantissa format num den := by
    have below := last_le_ratio format some pos normal
    rw [roundedMantissa]
    refine le_nearest (scaled_pos pos num _) ?_
    rw [scaled_ratio, zpow_neg, ← div_eq_mul_inv, le_div_iff₀ place]
    refine le_of_eq_of_le ?_ below
    rw [places, zpow_add₀ two_ne_zero, zpow_natCast, mul_comm]
    push_cast
    rfl
  rw [rounded, places, zpow_add₀ two_ne_zero, zpow_natCast, mul_comm]
  exact mul_le_mul_of_nonneg_right (by exact_mod_cast mantissa) place.le

/-- A rounded ratio reaches a power of two from half a unit of the last place below it. -/
theorem two_pow_le_rounded_iff (precise : 0 < format.precision) {k : Int}
    (least : format.minExponent ≤ k - format.precision) :
    2 ^ k ≤ rounded format num den ↔
      (2 : ℚ) ^ k - 2 ^ (k - format.precision - 1) ≤ num / den := by
  have half : (2 : ℚ) ^ (k - format.precision - 1) ≤ 2 ^ (k - 1) :=
    zpow_le_zpow_right₀ one_le_two (by omega)
  have double : (2 : ℚ) ^ k = 2 ^ (k - 1) * 2 := by
    rw [← zpow_add_one₀ two_ne_zero, sub_add_cancel]
  have power : (0 : ℚ) < 2 ^ (k - 1) := zpow_pos two_pos _
  have unit : (0 : ℚ) < 2 ^ (k - format.precision - 1) := zpow_pos two_pos _
  rcases lt_trichotomy (lastExponent format num den) (k - format.precision) with low | same | high
  -- The last place is too low for a mantissa of any size.
  · have above := ratio_lt_last format some pos
    have most := rounded_le format some pos
    have top : (2 : ℚ) ^ (lastExponent format num den + format.precision) ≤ 2 ^ (k - 1) :=
      zpow_le_zpow_right₀ one_le_two (by omega)
    refine iff_of_false (fun reached => ?_) (fun reached => ?_) <;> linarith
  -- The mantissa would have to be one place longer, and then it is even.
  · have even : 2 ^ format.precision % 2 = 0 := by
      rw [← Nat.sub_add_cancel precise, Nat.pow_succ, Nat.mul_mod_left]
    have whole : (2 : ℚ) ^ k = 2 ^ format.precision * 2 ^ (k - format.precision) := by
      rw [← zpow_natCast, ← zpow_add₀ two_ne_zero]
      congr 1
      omega
    have tie : (2 : ℚ) ^ (k - format.precision) = 2 ^ (k - format.precision - 1) * 2 := by
      rw [← zpow_add_one₀ two_ne_zero, sub_add_cancel]
    have reaches : (2 : ℚ) ^ k ≤ rounded format num den ↔
        2 ^ format.precision ≤ roundedMantissa format num den := by
      rw [rounded, same, whole, mul_le_mul_iff_left₀ (zpow_pos two_pos _)]
      exact_mod_cast Iff.rfl
    have midpoint : (((2 ^ format.precision : Nat) : ℚ) - 1 / 2) * 2 ^ (k - format.precision) =
        2 ^ k - 2 ^ (k - format.precision - 1) := by
      push_cast
      rw [sub_mul, ← whole, tie]
      ring
    rw [reaches, le_roundedMantissa_iff format pos even, same, midpoint]
  -- The ratio is too large for a lower last place.
  · have normal : format.minExponent < lastExponent format num den := by omega
    have below := last_le_ratio format some pos normal
    have least := le_rounded format some pos normal precise
    have bottom : (2 : ℚ) ^ k ≤ 2 ^ (lastExponent format num den + format.precision - 1) :=
      zpow_le_zpow_right₀ one_le_two (by omega)
    exact iff_of_true (bottom.trans least) (by linarith)

/-- A natural number that fits into the mantissa is kept. -/
theorem rounded_eq_natCast {n : Nat} (whole : (num / den : ℚ) = n) (fits : n < 2 ^ format.precision)
    (least : format.minExponent ≤ 0) : rounded format num den = n := by
  have place : lastExponent format num den ≤ 0 := by
    have below := (leadExponent_bounds format some pos).1
    have above : (n : ℚ) < 2 ^ (format.precision : Int) := by exact_mod_cast fits
    have less := (zpow_lt_zpow_iff_right₀ one_lt_two).mp (below.trans_lt (whole ▸ above))
    rw [lastExponent]
    omega
  have power : (2 : ℚ) ^ (-lastExponent format num den) =
      ((2 ^ (lastExponent format num den).natAbs : Nat) : ℚ) := by
    push_cast
    rw [← zpow_natCast]
    congr 1
    omega
  have mantissa : roundedMantissa format num den =
      n * 2 ^ (lastExponent format num den).natAbs := by
    rw [roundedMantissa]
    refine nearest_eq (scaled_pos pos num _) ?_
    rw [scaled_ratio, whole, power, Nat.cast_mul]
  rw [rounded, mantissa, Nat.cast_mul, ← power, mul_assoc, ← zpow_add₀ two_ne_zero,
    neg_add_cancel, zpow_zero, mul_one]

omit some pos in
/-- A mantissa that has become one place longer is halved, and the exponent raised. -/
theorem rounded_of_carry (precise : 0 < format.precision)
    (carry : roundedMantissa format num den = 2 ^ format.precision) :
    rounded format num den = 2 ^ (lastExponent format num den + format.precision) ∧
      ((2 ^ format.precision / 2 : Nat) : ℚ) * 2 ^ (lastExponent format num den + 1) =
        rounded format num den := by
  have whole : rounded format num den =
      2 ^ (lastExponent format num den + format.precision) := by
    rw [rounded, carry, zpow_add₀ two_ne_zero, zpow_natCast, mul_comm]
    push_cast
    rfl
  have half : 2 ^ format.precision / 2 = 2 ^ (format.precision - 1) := by
    nth_rewrite 1 [← Nat.sub_add_cancel precise]
    rw [Nat.pow_succ, Nat.mul_div_cancel _ Nat.two_pos]
  refine ⟨whole, ?_⟩
  rw [whole, half]
  push_cast
  rw [← zpow_natCast, ← zpow_add₀ two_ne_zero]
  congr 1
  omega

theorem rounded_lt_of_not_carry (carry : roundedMantissa format num den ≠ 2 ^ format.precision) :
    rounded format num den < 2 ^ (lastExponent format num den + format.precision) := by
  have mantissa : (roundedMantissa format num den : ℚ) < 2 ^ format.precision := by
    exact_mod_cast lt_of_le_of_ne (roundedMantissa_le format some pos) carry
  rw [rounded, zpow_add₀ two_ne_zero, zpow_natCast, mul_comm]
  exact mul_lt_mul_of_pos_left mantissa (zpow_pos two_pos _)

/-- A ratio is infinite from the first power of two that has no exponent, as it is rounded. -/
theorem ofRatio_cases (precise : 0 < format.precision)
    (range : format.minExponent ≤ format.maxExponent) (negative : Bool) :
    2 ^ (format.maxExponent + format.precision) ≤ rounded format num den ∧
        ofRatio format negative num den = .infinite negative ∨
      rounded format num den < 2 ^ (format.maxExponent + format.precision) ∧
        ∃ mantissa exponent, ofRatio format negative num den =
            .finite negative mantissa exponent ∧
          (mantissa : ℚ) * 2 ^ exponent = rounded format num den := by
  have split : ofRatio format negative num den = _ := ofRatio_eq format some.ne' pos negative
  by_cases carry : roundedMantissa format num den = 2 ^ format.precision
  · obtain ⟨whole, halved⟩ := rounded_of_carry format precise carry
    rw [carry] at split
    simp only [Nat.pow_eq, beq_self_eq_true, if_true] at split
    by_cases large : format.maxExponent < lastExponent format num den + 1
    · refine .inl ⟨?_, by rw [split, if_pos large]⟩
      rw [whole]
      exact zpow_le_zpow_right₀ one_le_two (by omega)
    · refine .inr ⟨?_, _, _, by rw [split, if_neg large], halved⟩
      rw [whole]
      exact zpow_lt_zpow_right₀ one_lt_two (by omega)
  · have below := rounded_lt_of_not_carry format some pos carry
    have other : (roundedMantissa format num den == Nat.pow 2 format.precision) = false :=
      beq_false_of_ne carry
    rw [other] at split
    simp only [Bool.false_eq_true, if_false] at split
    by_cases large : format.maxExponent < lastExponent format num den
    · refine .inl ⟨?_, by rw [split, if_pos large]⟩
      refine le_trans ?_ (le_rounded format some pos (by omega) precise)
      exact zpow_le_zpow_right₀ one_le_two (by omega)
    · refine .inr ⟨below.trans_le ?_, _, _, by rw [split, if_neg large], rfl⟩
      exact zpow_le_zpow_right₀ one_le_two (by omega)

end Place

/-! ## Numerals -/

/-- What a number without a sign is read as in the format of 64 bits, as far as powers of two and
natural numbers tell. -/
inductive Rounds (negative : Bool) (x : ℚ) : Binary → Prop
  | infinite (large : (2 : ℚ) ^ 1024 - 2 ^ 970 ≤ x) : Rounds negative x (.infinite negative)
  | finite {mantissa : Nat} {exponent : Int} (small : x < 2 ^ 1024 - 2 ^ 970)
      (reaches : ∀ k : Int, 0 ≤ k →
        ((2 : ℚ) ^ k ≤ mantissa * 2 ^ exponent ↔ (2 : ℚ) ^ k - 2 ^ (k - 54) ≤ x))
      (keeps : ∀ n : Nat, n < 2 ^ 53 → x = n → (mantissa : ℚ) * 2 ^ exponent = n) :
      Rounds negative x (.finite negative mantissa exponent)

theorem rounds_ofRatio (some : 0 < num) (pos : 0 < den) (negative : Bool) :
    Rounds negative (num / den) (ofRatio .double negative num den) := by
  have reaches (k : Int) (least : 0 ≤ k) :
      (2 : ℚ) ^ k ≤ rounded .double num den ↔ (2 : ℚ) ^ k - 2 ^ (k - 54) ≤ num / den := by
    have places : k - (BinaryFormat.double.precision : Int) - 1 = k - 54 := by
      change k - 53 - 1 = k - 54
      omega
    rw [two_pow_le_rounded_iff .double some pos (by decide) (by change -1074 ≤ k - 53; omega),
      places]
  have limit : (2 : ℚ) ^ (BinaryFormat.double.maxExponent + BinaryFormat.double.precision) ≤
      rounded .double num den ↔ (2 : ℚ) ^ 1024 - 2 ^ 970 ≤ num / den :=
    reaches 1024 (by decide)
  rcases ofRatio_cases .double some pos (by decide) (by decide) negative with
    ⟨large, same⟩ | ⟨small, mantissa, exponent, same, value⟩
  · rw [same]
    exact .infinite (limit.mp large)
  · rw [same]
    refine .finite (not_le.mp (limit.not.mp (not_le.mpr small))) ?_ ?_
    · rwa [value]
    · intro n fits whole
      rw [value]
      exact rounded_eq_natCast .double some pos whole fits (by decide)

theorem half_le_sub {k : Int} (least : 0 ≤ k) : (1 / 2 : ℚ) ≤ 2 ^ k - 2 ^ (k - 54) := by
  have power : (2 : ℚ) ^ k = 2 ^ (k - 1) * 2 := by
    rw [← zpow_add_one₀ two_ne_zero, sub_add_cancel]
  have place : (2 : ℚ) ^ (k - 54) ≤ 2 ^ (k - 1) := zpow_le_zpow_right₀ one_le_two (by omega)
  have half : (2 : ℚ) ^ (-1 : Int) ≤ 2 ^ (k - 1) := zpow_le_zpow_right₀ one_le_two (by omega)
  rw [zpow_neg_one] at half
  linarith

/-- A number below one half is finite, and reaches no power of two from one on. -/
theorem rounds_zero {negative : Bool} {x : ℚ} (small : x < 1 / 2) (exponent : Int) :
    Rounds negative x (.finite negative 0 exponent) := by
  have limit : (1 / 2 : ℚ) ≤ 2 ^ 1024 - 2 ^ 970 := by
    have half : (1 / 2 : ℚ) ≤ 2 ^ (1024 : Int) - 2 ^ ((1024 : Int) - 54) := half_le_sub (by decide)
    have place : (1024 : Int) - 54 = 970 := rfl
    rwa [place, zpow_ofNat, zpow_ofNat] at half
  refine .finite (small.trans_le limit) ?_ ?_
  · intro k least
    have power : (0 : ℚ) < 2 ^ k := zpow_pos two_pos k
    have half := half_le_sub least
    rw [Nat.cast_zero, zero_mul]
    exact iff_of_false (not_le.mpr power) (by linarith)
  · intro n _ whole
    have below : (n : ℚ) < 1 := whole ▸ small.trans (by norm_num)
    obtain rfl : n = 0 := Nat.lt_one_iff.mp (by exact_mod_cast below)
    rw [Nat.cast_zero, zero_mul]

/-- A number with as many digits lies between the powers of ten next to it. -/
theorem length_toDigits_bounds {n : Nat} (some : 0 < n) :
    10 ^ ((Nat.toDigits 10 n).length - 1) ≤ n ∧ n < 10 ^ (Nat.toDigits 10 n).length ∧
      0 < (Nat.toDigits 10 n).length := by
  have length {k : Nat} (pos : 0 < k) : (Nat.toDigits 10 n).length ≤ k ↔ n < 10 ^ k :=
    Nat.length_toDigits_le_iff (by decide) pos
  refine ⟨?_, (length Nat.length_toDigits_pos).mp (Nat.le_refl _), Nat.length_toDigits_pos⟩
  rcases Nat.eq_zero_or_pos ((Nat.toDigits 10 n).length - 1) with one | more
  · rw [one]
    exact some
  · exact Nat.le_of_not_lt fun less => by
      have short := (length more).mpr less
      omega

theorem two_pow_1024_le : (2 : ℚ) ^ 1024 ≤ 10 ^ (400 : Int) := by
  have binary : ((2 : ℚ) ^ 128) ^ 8 = 2 ^ 1024 := by rw [← pow_mul]
  have decimal : ((10 : ℚ) ^ 50) ^ 8 = 10 ^ (400 : Int) := by
    rw [← pow_mul, ← zpow_natCast]
    rfl
  rw [← binary, ← decimal]
  exact pow_le_pow_left₀ (by norm_num) (by norm_num) 8

/-- A numeral is read as the number that it spells, as far as that goes: the lengths that are told
apart beforehand are those of numbers far beyond the format. -/
theorem rounds_ofDecimal (negative : Bool) (digits : Nat) (power : Int) :
    Rounds negative (digits * 10 ^ power) (ofDecimal .double negative digits power) := by
  rcases Nat.eq_zero_or_pos digits with rfl | some
  · have zero : ofDecimal .double negative 0 power = .finite negative 0 (-1074) := rfl
    rw [zero, Nat.cast_zero, zero_mul]
    exact rounds_zero (by norm_num) _
  · obtain ⟨low, high, nonempty⟩ := length_toDigits_bounds some
    have ten (k : Int) : (0 : ℚ) < 10 ^ k := zpow_pos (by norm_num) k
    have other : (digits == 0) = false := beq_false_of_ne some.ne'
    rw [ofDecimal, other]
    simp only [Bool.false_or, decide_eq_true_eq]
    split_ifs with tiny huge whole
    · refine rounds_zero ?_ _
      calc (digits : ℚ) * 10 ^ power
          < 10 ^ ((Nat.toDigits 10 digits).length : Int) * 10 ^ power :=
            mul_lt_mul_of_pos_right (by exact_mod_cast high) (ten _)
        _ = 10 ^ (((Nat.toDigits 10 digits).length : Int) + power) :=
            (zpow_add₀ (by norm_num) _ _).symm
        _ ≤ 10 ^ (-1 : Int) := zpow_le_zpow_right₀ (by norm_num) (by omega)
        _ < 1 / 2 := by norm_num
    · refine .infinite ?_
      have length : 400 ≤ (((Nat.toDigits 10 digits).length - 1 : Nat) : Int) + power := by omega
      have place : (0 : ℚ) ≤ 2 ^ 970 := pow_nonneg (by norm_num) 970
      calc (2 : ℚ) ^ 1024 - 2 ^ 970 ≤ 2 ^ 1024 := sub_le_self _ place
        _ ≤ 10 ^ (400 : Int) := two_pow_1024_le
        _ ≤ 10 ^ ((((Nat.toDigits 10 digits).length - 1 : Nat) : Int) + power) :=
            zpow_le_zpow_right₀ (by norm_num) length
        _ = 10 ^ (((Nat.toDigits 10 digits).length - 1 : Nat) : Int) * 10 ^ power :=
            zpow_add₀ (by norm_num) _ _
        _ ≤ digits * 10 ^ power :=
            mul_le_mul_of_nonneg_right (by exact_mod_cast low) (ten _).le
    · have ratio : ((digits * Nat.pow 10 power.toNat : Nat) / (1 : Nat) : ℚ) =
          digits * 10 ^ power := by
        rw [← Int.toNat_of_nonneg whole, zpow_natCast, Int.toNat_natCast, Nat.pow_eq]
        push_cast
        rw [div_one]
      rw [← ratio]
      exact rounds_ofRatio (Nat.mul_pos some (Nat.pow_pos (by decide))) Nat.one_pos negative
    · have ratio : ((digits : ℚ) / (Nat.pow 10 power.natAbs : Nat)) = digits * 10 ^ power := by
        have size : -power = (power.natAbs : Int) := by omega
        have inverse : (10 : ℚ) ^ power = (10 ^ power.natAbs)⁻¹ := by
          rw [← zpow_natCast, ← size, zpow_neg, inv_inv]
        rw [inverse, div_eq_mul_inv, Nat.pow_eq]
        push_cast
        rfl
      rw [← ratio]
      exact rounds_ofRatio some (Nat.pow_pos (by decide)) negative

end Rolewright.Binary
