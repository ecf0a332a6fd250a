import Winnow.Number.Decimal
import Winnow.Proofs.Number.Truncation

/-!
# Decimals as binary64 numbers

The value of a decimal is a rational number. The binary64 number nearest to a decimal is found
without shortcuts, and its integer part, in the range of 64 bits, is that of the decimal unless
rounding moves the decimal to another integer of the range.
-/

namespace Winnow

/-- A number without its fraction. -/
def truncation (v : ℚ) : ℤ := if v < 0 then ⌈v⌉ else ⌊v⌋

/-- The number with a sign and a magnitude. -/
def signed (negative : Bool) (a : ℚ) : ℚ := (if negative then -1 else 1) * a

theorem abs_signed (negative : Bool) {a : ℚ} (nonneg : 0 ≤ a) : |signed negative a| = a := by
  cases negative <;> simp [signed, abs_of_nonneg nonneg]

theorem truncation_signed (negative : Bool) {a : ℚ} (nonneg : 0 ≤ a) :
    truncation (signed negative a) = if negative then -(⌊a⌋₊ : ℤ) else ⌊a⌋₊ := by
  cases negative with
  | false =>
      have notNegative : ¬ signed false a < 0 := by simpa [signed] using nonneg
      rw [truncation, if_neg notNegative, Int.natCast_floor_eq_floor nonneg]
      simp [signed]
  | true =>
      rcases nonneg.eq_or_lt with rfl | positive
      · simp [truncation, signed]
      · have isNegative : signed true a < 0 := by simpa [signed] using positive
        rw [truncation, if_pos isNegative, Int.natCast_floor_eq_floor nonneg]
        simp [signed, Int.ceil_neg]

namespace Binary64

variable {num den : Nat}

theorem nearest_eq_zero (negative : Bool) (pos : 0 < den) (half : 2 * num ≤ den) :
    nearest negative num den = .finite (.zero negative) := by
  have units : nearestUnits num den = 0 := by
    have floor : num / den = 0 := by
      rcases Nat.eq_zero_or_pos num with zero | positive
      · rw [zero, Nat.zero_div]
      · exact Nat.div_eq_of_lt (by omega)
    have step : spacing 0 = 1 := rfl
    have rounded : roundHalfEven num den ≤ 0 := by
      rw [roundHalfEven_le_iff pos]
      omega
    rw [nearestUnits, floor, step, Nat.mul_one, Nat.mul_one]
    exact Nat.le_zero.mp rounded
  obtain ⟨x, same, sign, unitsEq⟩ := nearest_of_lt negative (units ▸ limit_pos)
  rw [same]
  obtain ⟨_, _, _⟩ := x
  cases sign
  cases unitsEq.trans units
  rfl

theorem nearest_eq_infinite (negative : Bool) (pos : 0 < den) (large : limit * den ≤ num) :
    nearest negative num den = .infinite negative := by
  apply nearest_of_not_lt
  have grid : spacing limit ∣ limit := by
    rw [limit_eq]
    exact spacing_two_pow_dvd _
  exact Nat.not_lt.mpr (le_nearestUnits pos grid large)

end Binary64

theorem two_pow_le_ten_pow {a b : Nat} (le : a ≤ 3 * b) : 2 ^ a ≤ 10 ^ b := by
  calc
    2 ^ a ≤ 2 ^ (3 * b) := Nat.pow_le_pow_right Nat.two_pos le
    _ = 8 ^ b := by rw [pow_mul]; rfl
    _ ≤ 10 ^ b := Nat.pow_le_pow_left (by decide) b

namespace Decimal

/-- The number that a decimal stands for. -/
def value (d : Decimal) : ℚ := signed d.negative (d.coefficient * 10 ^ d.exponent)

/-! The magnitude of a decimal as a quotient. -/

def num (d : Decimal) : Nat := d.coefficient * 10 ^ d.exponent.toNat

def den (d : Decimal) : Nat := 10 ^ (-d.exponent).toNat

theorem den_pos (d : Decimal) : 0 < d.den := Nat.pow_pos (by decide)

theorem num_div_den (d : Decimal) : (d.num / d.den : ℚ) = d.coefficient * 10 ^ d.exponent := by
  obtain ⟨negative, c, exponent⟩ := d
  rw [num, den]
  dsimp only
  rcases Int.le_total 0 exponent with nonneg | nonpos
  · obtain ⟨k, rfl⟩ := Int.eq_ofNat_of_zero_le nonneg
    simp
  · obtain ⟨k, same⟩ := Int.eq_ofNat_of_zero_le (Int.neg_nonneg_of_nonpos nonpos)
    obtain rfl : exponent = -(k : ℤ) := by omega
    simp [div_eq_mul_inv]

/-- The bounds on the exponent are shortcuts only. -/
theorem nearest_eq (d : Decimal) :
    d.nearest = Binary64.nearest d.negative (d.num * Binary64.one) d.den := by
  have unfolded : d.nearest =
      if d.coefficient = 0 then .finite (.zero d.negative)
      else if 400 < d.exponent then .infinite d.negative
      else if d.exponent < -(401 + d.coefficient.log2 : Int) then .finite (.zero d.negative)
      else Binary64.nearest d.negative (d.num * Binary64.one) d.den := rfl
  rw [unfolded]
  split_ifs with none large small
  · refine (Binary64.nearest_eq_zero d.negative d.den_pos ?_).symm
    rw [num, none]
    omega
  · refine (Binary64.nearest_eq_infinite d.negative d.den_pos ?_).symm
    have whole : d.den = 1 := by
      rw [den, Int.toNat_of_nonpos (by omega), pow_zero]
    have exponent : 2 ^ 1024 ≤ 10 ^ d.exponent.toNat := two_pow_le_ten_pow (by omega)
    rw [whole, Nat.mul_one, Binary64.limit_eq, ← Binary64.two_pow_mul_one]
    apply Nat.mul_le_mul_right
    calc
      2 ^ 1024 ≤ 10 ^ d.exponent.toNat := exponent
      _ ≤ d.num := Nat.le_mul_of_pos_left _ (Nat.pos_of_ne_zero none)
  · refine (Binary64.nearest_eq_zero d.negative d.den_pos ?_).symm
    have whole : d.num = d.coefficient := by
      rw [num, Int.toNat_of_nonpos (by omega), pow_zero, Nat.mul_one]
    rw [whole]
    calc
      2 * (d.coefficient * Binary64.one) ≤
          2 * (2 ^ (d.coefficient.log2 + 1) * 2 ^ Binary64.places) := by
        rw [← Binary64.one_eq]
        apply Nat.mul_le_mul_left
        apply Nat.mul_le_mul_right
        exact Nat.le_of_lt Nat.lt_log2_self
      _ = 2 ^ (d.coefficient.log2 + 1 + Binary64.places + 1) := by ring
      _ ≤ d.den := two_pow_le_ten_pow (by simp only [Binary64.places]; omega)
  · rfl

/-- The integer part of a decimal is found by way of the nearest binary64 number, unless that is
rounded to another integer. From `2 ^ 63 - 1` on, and from `-2 ^ 63` down, all is clamped alike. -/
theorem toInt_nearest_eq_iff (d : Decimal) :
    d.nearest.toInt64Clamp.toInt = clampInt64 (truncation d.value) ↔
      Binary64.RoundsWithin |d.value| ∨ 2 ^ 63 ≤ |d.value| ∨ 2 ^ 63 - 1 ≤ d.value := by
  have nonneg : (0 : ℚ) ≤ d.num / d.den := by positivity
  have same : d.value = signed d.negative (d.num / d.den) := by rw [value, num_div_den]
  have floor : ⌊(d.num / d.den : ℚ)⌋₊ = d.num / d.den := Nat.floor_div_eq_div d.num d.den
  rw [same, abs_signed _ nonneg, truncation_signed _ nonneg, d.nearest_eq,
    Binary64.toInt_toInt64Clamp_nearest, Binary64.roundsWithin_iff d.den_pos, floor]
  have atLeast (k : Nat) : (k : ℚ) ≤ d.num / d.den ↔ k ≤ d.num / d.den := by
    rw [← floor, Nat.le_floor_iff nonneg]
  have beyond : (2 ^ 63 : ℚ) ≤ d.num / d.den ↔ 2 ^ 63 ≤ d.num / d.den := by
    exact_mod_cast atLeast (2 ^ 63)
  have greatest : (2 ^ 63 - 1 : ℚ) ≤ signed d.negative (d.num / d.den) ↔
      d.negative = false ∧ 2 ^ 63 - 1 ≤ d.num / d.den := by
    cases d.negative with
    | false =>
        have last : ((2 ^ 63 - 1 : ℕ) : ℚ) = 2 ^ 63 - 1 := by norm_num
        simp only [signed, Bool.false_eq_true, if_false, one_mul, true_and, ← last, atLeast]
    | true =>
        simp only [signed, if_true, Bool.true_eq_false, false_and, iff_false, not_le]
        linarith
  have jump (large : 2 ^ 63 - 1 ≤ d.num / d.den) : 2 ^ 63 ≤ Binary64.nearestWhole d.num d.den := by
    rw [Nat.le_div_iff_mul_le d.den_pos] at large
    exact Binary64.two_pow_le_nearestWhole d.den_pos large
  rw [beyond, greatest]
  generalize Binary64.nearestWhole d.num d.den = rounded at *
  generalize d.num / d.den = exact at *
  unfold clampInt64
  cases d.negative with
  | false =>
      simp only [Bool.false_eq_true, if_false, true_and]
      omega
  | true =>
      simp only [if_true, Bool.true_eq_false, false_and, or_false]
      omega

end Decimal

end Winnow
