import Mathlib.Algebra.Order.Floor.Semifield
import Mathlib.Data.Nat.Log
import Mathlib.Data.Rat.Floor
import Mathlib.Tactic.LinearCombination
import Mathlib.Tactic.NormNum
import Mathlib.Tactic.Positivity
import Winnow.Proofs.Number.Rounding

/-!
# The integer part of a rounded number

A number that is not on the grid may be rounded to an integer above it, or, beyond `2 ^ 53`, to any
other integer. `roundsWithin_iff` says for which numbers the integer part is the same before and
after.
-/

namespace Winnow

/-- The nearest integer in the range of 64 signed bits. -/
def clampInt64 (n : Int) : Int := max (-2 ^ 63) (min n (2 ^ 63 - 1))

theorem toInt_ofIntClamp (n : Int) : (Int64.ofIntClamp n).toInt = clampInt64 n := by
  have least : Int64.minValue.toInt = -2 ^ 63 := rfl
  have greatest : Int64.maxValue.toInt = 2 ^ 63 - 1 := rfl
  unfold Int64.ofIntClamp clampInt64
  split_ifs with above below
  · rw [Int64.toInt_ofIntLE, min_eq_left (greatest ▸ below), max_eq_right (least ▸ above)]
  · rw [greatest]
    rw [greatest] at below
    omega
  · rw [least]
    rw [least] at above
    omega

namespace Binary64

-- The exponents are generalized so that no power is computed.

theorem one_eq : one = 2 ^ places := by
  unfold one
  generalize places = k
  rfl

theorem limit_eq : limit = 2 ^ (1024 + places) := by
  unfold limit
  generalize 1024 + places = k
  rfl

theorem one_pos : 0 < one := one_eq ▸ Nat.two_pow_pos places

theorem two_pow_mul_one (k : Nat) : 2 ^ k * one = 2 ^ (k + places) := by
  rw [one_eq, pow_add]

/-- The integer part of the number nearest to `num / den`. -/
def nearestWhole (num den : Nat) : Nat := nearestUnits (num * one) den / one

variable {num den : Nat}

theorem spacing_mul_one_dvd {w : Nat} (small : w ≤ 2 ^ 53) : spacing (w * one) ∣ w * one := by
  unfold one
  exact spacing_dvd_mul w places small

theorem le_nearestWhole (pos : 0 < den) {w : Nat} (grid : spacing (w * one) ∣ w * one)
    (le : w * den ≤ num) : w ≤ nearestWhole num den := by
  rw [nearestWhole, Nat.le_div_iff_mul_le one_pos]
  refine le_nearestUnits pos grid ?_
  calc
    w * one * den = w * den * one := by ring
    _ ≤ num * one := Nat.mul_le_mul_right one le

theorem nearest_of_lt (negative : Bool) {num den : Nat} (finite : nearestUnits num den < limit) :
    ∃ x : Finite64, nearest negative num den = .finite x ∧ x.negative = negative ∧
      x.units = nearestUnits num den := by
  simp only [nearest, dif_pos finite]
  exact ⟨_, rfl, rfl, rfl⟩

theorem nearest_of_not_lt (negative : Bool) {num den : Nat}
    (infinite : ¬ nearestUnits num den < limit) :
    nearest negative num den = .infinite negative := by
  simp only [nearest, dif_neg infinite]

theorem toInt_toInt64Clamp_nearest (negative : Bool) (num den : Nat) :
    (nearest negative (num * one) den).toInt64Clamp.toInt =
      clampInt64 (if negative then -(nearestWhole num den : Int) else nearestWhole num den) := by
  by_cases finite : nearestUnits (num * one) den < limit
  · obtain ⟨x, same, rfl, units⟩ := nearest_of_lt negative finite
    rw [same, toInt64Clamp, toInt_ofIntClamp, Finite64.truncate, units, nearestWhole]
  · have large : 2 ^ 63 ≤ nearestWhole num den := by
      rw [nearestWhole, Nat.le_div_iff_mul_le one_pos]
      refine Nat.le_trans ?_ (Nat.le_of_not_lt finite)
      rw [two_pow_mul_one, limit_eq]
      exact Nat.pow_le_pow_right Nat.two_pos (by omega)
    rw [nearest_of_not_lt negative finite]
    generalize nearestWhole num den = w at large
    cases negative with
    | false =>
        have greatest : Int64.maxValue.toInt = 2 ^ 63 - 1 := rfl
        simp only [toInt64Clamp, greatest, clampInt64, Bool.false_eq_true, if_false]
        omega
    | true =>
        have least : Int64.minValue.toInt = -2 ^ 63 := rfl
        simp only [toInt64Clamp, least, clampInt64, if_true]
        omega

/-! Where the integer part of a number stays the same. -/

/-- Where the leading bit of a number stands, seen on a scale of `2 ^ j` to the one. -/
theorem log2_mul_one_div (pos : 0 < den) {j l : Nat} (scale : j ≤ places)
    (lower : 2 ^ l * den ≤ num * 2 ^ j) (upper : num * 2 ^ j < 2 ^ (l + 1) * den) :
    (num * one / den).log2 = l + (places - j) := by
  have split : one = 2 ^ j * 2 ^ (places - j) := by
    rw [one_eq, ← pow_add, Nat.add_sub_cancel' scale]
  have unit : 0 < 2 ^ (places - j) := Nat.two_pow_pos _
  rw [split]
  generalize places - j = k at *
  have low : 2 ^ (l + k) ≤ num * (2 ^ j * 2 ^ k) / den := by
    rw [Nat.le_div_iff_mul_le pos]
    calc
      2 ^ (l + k) * den = 2 ^ l * den * 2 ^ k := by ring
      _ ≤ num * 2 ^ j * 2 ^ k := Nat.mul_le_mul_right _ lower
      _ = num * (2 ^ j * 2 ^ k) := by ring
  have high : num * (2 ^ j * 2 ^ k) / den < 2 ^ (l + k + 1) := by
    rw [Nat.div_lt_iff_lt_mul pos]
    calc
      num * (2 ^ j * 2 ^ k) = num * 2 ^ j * 2 ^ k := by ring
      _ < 2 ^ (l + 1) * den * 2 ^ k := Nat.mul_lt_mul_of_pos_right upper unit
      _ = 2 ^ (l + k + 1) * den := by ring
  have positive : 0 < num * (2 ^ j * 2 ^ k) / den := Nat.lt_of_lt_of_le (Nat.two_pow_pos _) low
  exact (Nat.log2_eq_iff (Nat.ne_of_gt positive)).mpr ⟨low, high⟩

/-- Up to one half the integer part is zero before and after. -/
theorem nearestWhole_of_le_half (pos : 0 < den) (half : 2 * num ≤ den) :
    nearestWhole num den = 0 := by
  have halfOne : one = 2 * 2 ^ (places - 1) := by
    rw [one_eq, ← pow_succ', Nat.sub_add_cancel (by decide)]
  rw [nearestWhole, Nat.div_eq_zero_iff]
  right
  refine Nat.lt_of_le_of_lt (nearestUnits_le pos (spacing_two_pow_dvd (places - 1)) ?_) ?_
  · rw [halfOne]
    calc
      num * (2 * 2 ^ (places - 1)) = 2 * num * 2 ^ (places - 1) := by ring
      _ ≤ den * 2 ^ (places - 1) := Nat.mul_le_mul_right _ half
      _ = 2 ^ (places - 1) * den := Nat.mul_comm _ _
  · have positive : 0 < 2 ^ (places - 1) := Nat.two_pow_pos _
    omega

section Steps

/-- From one half on, the leading bit of a number is that of its integer part, or the one behind the
point. -/
theorem log2_mul_one_div_of_half (pos : 0 < den) (half : den < 2 * num) :
    (num * one / den).log2 = (2 * (num / den) + 1).log2 + (places - 1) := by
  obtain ⟨w, floor⟩ : ∃ w, num / den = w := ⟨_, rfl⟩
  have below : w * den ≤ num := floor ▸ Nat.div_mul_le_self num den
  have above : num < (w + 1) * den := (Nat.div_lt_iff_lt_mul pos).mp (by omega)
  rw [floor]
  obtain ⟨l, place⟩ : ∃ l, (2 * w + 1).log2 = l := ⟨_, rfl⟩
  have leading : 2 ^ l ≤ 2 * w + 1 := place ▸ Nat.log2_self_le (by omega)
  have beyond : 2 * w + 1 < 2 ^ (l + 1) := place ▸ Nat.lt_log2_self
  rw [place]
  apply log2_mul_one_div pos (by decide)
  · cases l with
    | zero => omega
    | succ k =>
        have kept : 2 ^ k ≤ w := by omega
        calc
          2 ^ (k + 1) * den = 2 ^ k * den * 2 := by ring
          _ ≤ w * den * 2 := Nat.mul_le_mul_right 2 (Nat.mul_le_mul_right den kept)
          _ ≤ num * 2 ^ 1 := Nat.mul_le_mul_right 2 below
  · have kept : w + 1 ≤ 2 ^ l := by omega
    calc
      num * 2 ^ 1 < (w + 1) * den * 2 := Nat.mul_lt_mul_of_pos_right above Nat.two_pos
      _ ≤ 2 ^ l * den * 2 := Nat.mul_le_mul_right 2 (Nat.mul_le_mul_right den kept)
      _ = 2 ^ (l + 1) * den := by ring

theorem log2_lt_of_lt {w : Nat} (small : w < 2 ^ 53) : (2 * w + 1).log2 < 54 :=
  (Nat.log2_lt (by omega)).mpr (by omega)

/-- The steps to the one, below `2 ^ 53`. -/
theorem one_eq_spacing_mul (pos : 0 < den) (small : num < 2 ^ 53 * den) (half : den < 2 * num) :
    one = spacing (num * one / den) * 2 ^ (53 - (2 * (num / den) + 1).log2) := by
  have place := log2_lt_of_lt ((Nat.div_lt_iff_lt_mul pos).mpr small)
  rw [spacing, Nat.pow_eq, log2_mul_one_div_of_half pos half, ← pow_add, one_eq]
  congr 1
  simp only [places, fractionBits]
  omega

variable {w : Nat}

/-- Below `2 ^ 53` the integer part is kept if the number is rounded to a step before the next
integer. -/
theorem nearestWhole_eq_iff_of_lt (pos : 0 < den) (small : num < 2 ^ 53 * den)
    (half : den < 2 * num) (floor : num / den = w) {steps last : Nat}
    (stepsEq : 2 ^ (53 - (2 * w + 1).log2) = steps) (lastEq : last + 1 = (w + 1) * steps) :
    nearestWhole num den = w ↔
      2 * num * steps < (2 * last + 1) * den ∨
        2 * num * steps = (2 * last + 1) * den ∧ last % 2 = 0 := by
  have wSmall : w < 2 ^ 53 := floor ▸ (Nat.div_lt_iff_lt_mul pos).mpr small
  have below : w * den ≤ num := floor ▸ Nat.div_mul_le_self num den
  have units := one_eq_spacing_mul pos small half
  rw [floor, stepsEq] at units
  obtain ⟨step, stepEq⟩ : ∃ step, spacing (num * one / den) = step := ⟨_, rfl⟩
  rw [stepEq] at units
  have stepPos : 0 < step := stepEq ▸ spacing_pos _
  have stepsPos : 0 < steps := stepsEq ▸ Nat.two_pow_pos _
  have atLeast : w ≤ nearestWhole num den :=
    le_nearestWhole pos (spacing_mul_one_dvd (Nat.le_of_lt wSmall)) below
  have atMost : nearestWhole num den ≤ w ↔ roundHalfEven (num * one) (den * step) ≤ last := by
    rw [nearestWhole, nearestUnits, stepEq, ← Nat.lt_add_one_iff, ← Nat.lt_add_one_iff, lastEq,
      units, Nat.mul_comm _ step, Nat.mul_div_mul_left _ _ stepPos,
      Nat.div_lt_iff_lt_mul stepsPos]
  have equal : nearestWhole num den = w ↔ nearestWhole num den ≤ w :=
    ⟨Nat.le_of_eq, fun atMost => Nat.le_antisymm atMost atLeast⟩
  have left : 2 * (num * one) = step * (2 * num * steps) := by rw [units]; ring
  have right : (2 * last + 1) * (den * step) = step * ((2 * last + 1) * den) := by ring
  rw [equal, atMost, roundHalfEven_le_iff (Nat.mul_pos pos stepPos), left, right,
    Nat.mul_lt_mul_left stepPos, Nat.mul_left_cancel_iff stepPos]

/-- From `2 ^ 53` on all steps are to integers. -/
theorem spacing_mul_one_div (pos : 0 < den) (large : 2 ^ 53 * den ≤ num) (floor : num / den = w) :
    spacing (num * one / den) = one * 2 ^ (w.log2 - 52) := by
  have wLarge : 2 ^ 53 ≤ w := floor ▸ (Nat.le_div_iff_mul_le pos).mpr large
  have below : w * den ≤ num := floor ▸ Nat.div_mul_le_self num den
  have above : num < (w + 1) * den := (Nat.div_lt_iff_lt_mul pos).mp (by omega)
  have wNe : w ≠ 0 := by omega
  have place : 53 ≤ w.log2 := (Nat.le_log2 wNe).mpr wLarge
  have lower : 2 ^ w.log2 * den ≤ num * 2 ^ 0 := by
    rw [pow_zero, Nat.mul_one]
    exact Nat.le_trans (Nat.mul_le_mul_right den (Nat.log2_self_le wNe)) below
  have upper : num * 2 ^ 0 < 2 ^ (w.log2 + 1) * den := by
    rw [pow_zero, Nat.mul_one]
    exact Nat.lt_of_lt_of_le above (Nat.mul_le_mul_right den Nat.lt_log2_self)
  have exponents : w.log2 + (places - 0) - fractionBits = places + (w.log2 - 52) := by
    simp only [places, fractionBits]
    omega
  rw [spacing, Nat.pow_eq, log2_mul_one_div pos (Nat.zero_le places) lower upper, exponents,
    one_eq, ← pow_add]

/-- From `2 ^ 53` on the nearest number is an integer. -/
theorem nearestWhole_eq_mul (pos : 0 < den) (large : 2 ^ 53 * den ≤ num) (floor : num / den = w) :
    nearestWhole num den =
      roundHalfEven (num * one) (den * (one * 2 ^ (w.log2 - 52))) * 2 ^ (w.log2 - 52) := by
  rw [nearestWhole, nearestUnits, spacing_mul_one_div pos large floor, Nat.mul_left_comm,
    Nat.mul_div_cancel_left _ one_pos]

/-- From `2 ^ 53` on an integer part is kept if it is on the grid. -/
theorem nearestWhole_eq_iff_of_le (pos : 0 < den) (large : 2 ^ 53 * den ≤ num)
    (floor : num / den = w) : nearestWhole num den = w ↔ 2 ^ (w.log2 - 52) ∣ w := by
  have wLarge : 2 ^ 53 ≤ w := floor ▸ (Nat.le_div_iff_mul_le pos).mpr large
  have below : w * den ≤ num := floor ▸ Nat.div_mul_le_self num den
  have above : num < (w + 1) * den := (Nat.div_lt_iff_lt_mul pos).mp (by omega)
  have place : 53 ≤ w.log2 := (Nat.le_log2 (by omega)).mpr wLarge
  have even : 2 ^ 1 ≤ 2 ^ (w.log2 - 52) := Nat.pow_le_pow_right Nat.two_pos (by omega)
  have step := spacing_mul_one_div pos large floor
  have rounded := nearestWhole_eq_mul pos large floor
  generalize 2 ^ (w.log2 - 52) = s at *
  have stepPos : 0 < one * s := Nat.mul_pos one_pos (by omega)
  constructor
  · intro same
    exact ⟨_, same.symm.trans (rounded.trans (Nat.mul_comm _ _))⟩
  · rintro ⟨q, multiple⟩
    apply Nat.le_antisymm
    · have toMultiple : roundHalfEven (num * one) (den * (one * s)) ≤ q := by
        rw [roundHalfEven_le_iff (Nat.mul_pos pos stepPos)]
        left
        calc
          2 * (num * one) = 2 * num * one := by ring
          _ < 2 * ((w + 1) * den) * one := Nat.mul_lt_mul_of_pos_right (by omega) one_pos
          _ ≤ (2 * w + s) * den * one := by
            refine Nat.mul_le_mul_right one ?_
            rw [← Nat.mul_assoc]
            exact Nat.mul_le_mul_right den (by omega)
          _ = (2 * q + 1) * (den * (one * s)) := by rw [multiple]; ring
      calc
        nearestWhole num den ≤ q * s := by
          rw [rounded]
          exact Nat.mul_le_mul_right s toMultiple
        _ = w := by rw [Nat.mul_comm, multiple]
    · rw [nearestWhole, Nat.le_div_iff_mul_le one_pos]
      refine le_nearestUnits_of_dvd pos ?_ ?_
      · rw [step, Nat.mul_comm]
        exact Nat.mul_dvd_mul_right ⟨q, multiple⟩ one
      · calc
          w * one * den = w * den * one := by ring
          _ ≤ num * one := Nat.mul_le_mul_right one below

/-- From the last integer below `2 ^ 63` on, numbers are rounded to `2 ^ 63` at least. -/
theorem two_pow_le_nearestWhole (pos : 0 < den) (large : (2 ^ 63 - 1) * den ≤ num) :
    2 ^ 63 ≤ nearestWhole num den := by
  by_cases beyond : 2 ^ 63 * den ≤ num
  · refine le_nearestWhole pos ?_ beyond
    rw [two_pow_mul_one]
    exact spacing_two_pow_dvd (63 + places)
  · -- Here neighbours are `2 ^ 10` apart, so `2 ^ 63` is the nearest.
    have floor : num / den = 2 ^ 63 - 1 := by
      have atLeast : 2 ^ 63 - 1 ≤ num / den := by rwa [Nat.le_div_iff_mul_le pos]
      have below : num / den < 2 ^ 63 := by rwa [Nat.div_lt_iff_lt_mul pos, ← Nat.not_le]
      omega
    have place : (2 ^ 63 - 1).log2 - 52 = 10 := by decide
    have rounded := nearestWhole_eq_mul pos (by omega) floor
    rw [place] at rounded
    have stepPos : 0 < one * 2 ^ 10 := Nat.mul_pos one_pos (by decide)
    have atLeast : 2 ^ 53 ≤ roundHalfEven (num * one) (den * (one * 2 ^ 10)) := by
      by_contra less
      have less : roundHalfEven (num * one) (den * (one * 2 ^ 10)) ≤ 2 ^ 53 - 1 := by omega
      have left : 2 * (num * one) = 2 * num * one := by ring
      have right : (2 * (2 ^ 53 - 1) + 1) * (den * (one * 2 ^ 10)) =
          ((2 ^ 54 - 1) * 2 ^ 10 * den) * one := by ring
      have more : (2 ^ 54 - 1) * 2 ^ 10 * den < 2 * num := by omega
      rw [roundHalfEven_le_iff (Nat.mul_pos pos stepPos), left, right] at less
      rcases less with less | ⟨same, _⟩
      · exact Nat.lt_asymm more (Nat.lt_of_mul_lt_mul_right less)
      · exact Nat.ne_of_gt more (Nat.eq_of_mul_eq_mul_right one_pos same)
    omega

end Steps

/-- Half the distance between the integer above `w` and the binary64 number before that integer, for
`w` below `2 ^ 53`. -/
def halfGap (w : Nat) : ℚ := 2 ^ (((2 * w + 1).log2 : ℤ) - 54)

/-- The binary64 number nearest to a number has the same integer part: the number is not so near to
the next integer that it is rounded to it, or all numbers near it are integers and its integer part
is one of them. -/
inductive RoundsWithin (a : ℚ) : Prop
  | below (small : a < 2 ^ 53) (clear : a + halfGap ⌊a⌋₊ < ⌊a⌋₊ + 1)
  | tie (large : 2 ^ 52 ≤ a) (small : a < 2 ^ 53) (half : a + 1 / 2 = ⌊a⌋₊ + 1)
      (even : ⌊a⌋₊ % 2 = 0)
  | integer (large : 2 ^ 53 ≤ a) (multiple : 2 ^ (⌊a⌋₊.log2 - 52) ∣ ⌊a⌋₊)

theorem halfGap_mul {w steps : Nat} (place : (2 * w + 1).log2 < 54)
    (stepsEq : 2 ^ (53 - (2 * w + 1).log2) = steps) : halfGap w * (2 * steps) = 1 := by
  have exponents : (((2 * w + 1).log2 : ℤ) - 54) + 1 + ((53 - (2 * w + 1).log2 : ℕ) : ℤ) = 0 := by
    omega
  rw [halfGap, ← stepsEq, ← mul_assoc, Nat.cast_pow, Nat.cast_ofNat, ← zpow_natCast,
    ← zpow_add_one₀ two_ne_zero, ← zpow_add₀ two_ne_zero, exponents, zpow_zero]

theorem scale_pos {w steps : Nat} (pos : 0 < den)
    (stepsEq : 2 ^ (53 - (2 * w + 1).log2) = steps) : (0 : ℚ) < 2 * steps * den := by
  have stepsPos : 0 < steps := stepsEq ▸ Nat.two_pow_pos _
  have denPos : (0 : ℚ) < den := by exact_mod_cast pos
  positivity

section Cleared

variable {w steps last : Nat} (pos : 0 < den) (place : (2 * w + 1).log2 < 54)
  (stepsEq : 2 ^ (53 - (2 * w + 1).log2) = steps) (lastEq : last + 1 = (w + 1) * steps)

include pos place stepsEq lastEq

/-- How far a number is from being rounded to the next integer, with the denominators cleared. -/
theorem clearance_mul :
    ((w + 1 : ℚ) - (num / den + halfGap w)) * (2 * steps * den) =
      (2 * last + 1) * den - 2 * num * steps := by
  have cancel : (num / den : ℚ) * den = num := div_mul_cancel₀ _ (by exact_mod_cast pos.ne')
  have gap := halfGap_mul place stepsEq
  have lastEq : (last : ℚ) + 1 = (w + 1) * steps := by exact_mod_cast lastEq
  linear_combination (-2 * steps : ℚ) * cancel - (den : ℚ) * gap - (2 * den : ℚ) * lastEq

theorem add_halfGap_lt_iff :
    (num / den : ℚ) + halfGap w < w + 1 ↔ 2 * num * steps < (2 * last + 1) * den := by
  rw [← sub_pos, ← mul_pos_iff_of_pos_right (scale_pos pos stepsEq),
    clearance_mul pos place stepsEq lastEq, sub_pos]
  exact_mod_cast Iff.rfl

theorem add_halfGap_eq_iff :
    (num / den : ℚ) + halfGap w = w + 1 ↔ 2 * num * steps = (2 * last + 1) * den := by
  have scale := scale_pos pos stepsEq
  rw [eq_comm, ← sub_eq_zero, ← mul_eq_zero_iff_right scale.ne',
    clearance_mul pos place stepsEq lastEq, sub_eq_zero, eq_comm]
  exact_mod_cast Iff.rfl

end Cleared

/-- Only where the steps are ones can a number lie halfway and be rounded down. -/
theorem tie_iff {a : ℚ} {w steps last : Nat} (small : w < 2 ^ 53) (floor : ⌊a⌋₊ = w)
    (stepsEq : 2 ^ (53 - (2 * w + 1).log2) = steps) (lastEq : last + 1 = (w + 1) * steps) :
    2 ^ 52 ≤ a ∧ a + 1 / 2 = w + 1 ∧ w % 2 = 0 ↔ a + halfGap w = w + 1 ∧ last % 2 = 0 := by
  by_cases ones : 2 ^ 52 ≤ w
  · have place : (2 * w + 1).log2 = 53 := (Nat.log2_eq_iff (by omega)).mpr (by omega)
    have gap : halfGap w = 1 / 2 := by norm_num [halfGap, place]
    have same : last = w := by
      rw [place] at stepsEq
      subst stepsEq
      omega
    have nonneg : 0 ≤ a := (Nat.pos_of_floor_pos (show 0 < ⌊a⌋₊ by omega)).le
    have large : (2 ^ 52 : ℚ) ≤ a :=
      le_trans (by exact_mod_cast floor.symm ▸ ones) (Nat.floor_le nonneg)
    rw [gap, same]
    exact and_iff_right large
  · have notLarge : ¬ (2 ^ 52 : ℚ) ≤ a := by
      intro large
      have floorLarge : 2 ^ 52 ≤ ⌊a⌋₊ := Nat.le_floor (by exact_mod_cast large)
      omega
    have odd : last % 2 = 1 := by
      have place : (2 * w + 1).log2 < 53 := (Nat.log2_lt (by omega)).mpr (by omega)
      have even : 2 ^ 1 ∣ steps := stepsEq ▸ Nat.pow_dvd_pow 2 (by omega)
      obtain ⟨half, rfl⟩ := even
      rw [Nat.mul_left_comm] at lastEq
      omega
    constructor
    · intro ⟨large, _⟩
      exact absurd large notLarge
    · intro ⟨_, even⟩
      omega

section Kept

variable (pos : 0 < den)

include pos

theorem div_lt_two_pow_iff : (num / den : ℚ) < 2 ^ 53 ↔ num < 2 ^ 53 * den := by
  rw [div_lt_iff₀ (by exact_mod_cast pos)]
  exact_mod_cast Iff.rfl

theorem roundsWithin_of_le_half (half : 2 * num ≤ den) : RoundsWithin (num / den : ℚ) := by
  have denPos : (0 : ℚ) < den := by exact_mod_cast pos
  have floor : ⌊(num / den : ℚ)⌋₊ = 0 := by
    rw [Nat.floor_div_eq_div, Nat.div_eq_of_lt (by omega)]
  have gap : halfGap 0 < 1 / 2 := by
    have place : (2 * 0 + 1).log2 = 0 := rfl
    norm_num [halfGap, place]
  have atMost : (num / den : ℚ) ≤ 1 / 2 := by
    rw [div_le_iff₀ denPos]
    have cleared : (2 * num : ℚ) ≤ den := by exact_mod_cast half
    linarith
  refine .below ?_ ?_
  · linarith
  · rw [floor, Nat.cast_zero]
    linarith

theorem roundsWithin_iff_of_lt (small : num < 2 ^ 53 * den) (half : den < 2 * num) :
    RoundsWithin (num / den : ℚ) ↔ nearestWhole num den = num / den := by
  have floor : ⌊(num / den : ℚ)⌋₊ = num / den := Nat.floor_div_eq_div num den
  have smallRat := (div_lt_two_pow_iff pos).mpr small
  obtain ⟨w, wEq⟩ : ∃ w, num / den = w := ⟨_, rfl⟩
  rw [wEq] at floor ⊢
  have wSmall : w < 2 ^ 53 := wEq ▸ (Nat.div_lt_iff_lt_mul pos).mpr small
  obtain ⟨steps, stepsEq⟩ : ∃ steps, 2 ^ (53 - (2 * w + 1).log2) = steps := ⟨_, rfl⟩
  have stepsPos : 0 < steps := stepsEq ▸ Nat.two_pow_pos _
  obtain ⟨last, lastEq⟩ : ∃ last, last + 1 = (w + 1) * steps :=
    ⟨_, Nat.sub_add_cancel (Nat.mul_pos w.succ_pos stepsPos)⟩
  have place := log2_lt_of_lt wSmall
  rw [nearestWhole_eq_iff_of_lt pos small half wEq stepsEq lastEq,
    ← add_halfGap_lt_iff pos place stepsEq lastEq,
    ← add_halfGap_eq_iff pos place stepsEq lastEq, ← tie_iff wSmall floor stepsEq lastEq]
  constructor
  · intro within
    cases within with
    | below _ clear => exact .inl (floor ▸ clear)
    | tie large _ half even => exact .inr ⟨large, floor ▸ half, floor ▸ even⟩
    | integer large _ => exact absurd large (not_le.mpr smallRat)
  · rintro (clear | ⟨large, half, even⟩)
    · exact .below smallRat (floor.symm ▸ clear)
    · exact .tie large smallRat (floor.symm ▸ half) (floor.symm ▸ even)

theorem roundsWithin_iff_of_le (large : 2 ^ 53 * den ≤ num) :
    RoundsWithin (num / den : ℚ) ↔ nearestWhole num den = num / den := by
  have floor : ⌊(num / den : ℚ)⌋₊ = num / den := Nat.floor_div_eq_div num den
  have notSmall := mt (div_lt_two_pow_iff pos).mp (Nat.not_lt.mpr large)
  rw [nearestWhole_eq_iff_of_le pos large rfl]
  constructor
  · intro within
    cases within with
    | below small _ => exact absurd small notSmall
    | tie _ small _ _ => exact absurd small notSmall
    | integer _ multiple => exact floor ▸ multiple
  · intro multiple
    exact .integer (not_lt.mp notSmall) (floor.symm ▸ multiple)

/-- Rounding to the nearest binary64 number keeps the integer part of just the numbers that it
rounds within their integer. -/
theorem roundsWithin_iff :
    RoundsWithin (num / den : ℚ) ↔ nearestWhole num den = num / den := by
  by_cases small : num < 2 ^ 53 * den
  · by_cases half : den < 2 * num
    · exact roundsWithin_iff_of_lt pos small half
    · have half : 2 * num ≤ den := Nat.le_of_not_lt half
      refine iff_of_true (roundsWithin_of_le_half pos half) ?_
      rw [nearestWhole_of_le_half pos half, Nat.div_eq_of_lt (by omega)]
  · exact roundsWithin_iff_of_le pos (Nat.le_of_not_lt small)

end Kept

end Binary64

end Winnow
