/-!
# Binary64 numbers

A finite binary64 number is a sign and a whole number of *units*, one unit being the smallest
positive number `2 ^ -1074`. Which whole numbers occur is a matter of spacing: a number whose
leading bit stands at position `52 + k` is a multiple of `2 ^ k`.

The order of the numbers is the order of their signed units, reading an integer rounds to the
nearest number with ties to an even last bit, and truncation divides by the units of one.
-/

namespace Winnow

namespace Binary64

/-- How many bits follow the leading one. -/
def fractionBits : Nat := 52

/-- The distance between neighbours at the magnitude of `units`. -/
def spacing (units : Nat) : Nat := Nat.pow 2 (units.log2 - fractionBits)

/-- A unit stands this many binary places behind the point. -/
def places : Nat := 1074

/-- The units of the number one. -/
def one : Nat := Nat.pow 2 places

/-- The first power of two beyond the largest finite number, in units. -/
def limit : Nat := Nat.pow 2 (1024 + places)

theorem limit_pos : 0 < limit := by
  unfold limit
  generalize 1024 + places = k
  exact Nat.two_pow_pos k

/-- A magnitude that a finite number can have. -/
def Representable (units : Nat) : Prop := spacing units ∣ units ∧ units < limit

instance (units : Nat) : Decidable (Representable units) := by
  unfold Representable; infer_instance

theorem spacing_dvd_mul (r k : Nat) (h : r ≤ Nat.pow 2 (fractionBits + 1)) :
    spacing (r * Nat.pow 2 k) ∣ r * Nat.pow 2 k := by
  simp only [spacing, Nat.pow_eq] at *
  rcases Nat.lt_or_eq_of_le h with hlt | rfl
  · rcases Nat.eq_zero_or_pos r with rfl | hr
    · simp
    · have hne : r * 2 ^ k ≠ 0 := Nat.mul_ne_zero (by omega) (Nat.ne_of_gt (Nat.two_pow_pos k))
      have hlog : (r * 2 ^ k).log2 < fractionBits + 1 + k := by
        rw [Nat.log2_lt hne, Nat.pow_add]
        exact Nat.mul_lt_mul_of_pos_right hlt (Nat.two_pow_pos k)
      exact Nat.dvd_trans (Nat.pow_dvd_pow 2 (by omega)) (Nat.dvd_mul_left _ _)
  · rw [← Nat.pow_add, Nat.log2_two_pow]
    exact Nat.pow_dvd_pow 2 (by omega)

/-- The integer nearest to `num / den`, a half going to the even neighbour. -/
def roundHalfEven (num den : Nat) : Nat :=
  let q := num / den
  let r := num % den
  if 2 * r < den then q
  else if den < 2 * r then q + 1
  else q + q % 2

theorem roundHalfEven_le (num den : Nat) : roundHalfEven num den ≤ num / den + 1 := by
  simp only [roundHalfEven]
  split
  · omega
  · split <;> omega

/-- The magnitude nearest to `num / den` units, when no bound is put on magnitudes. -/
def nearestUnits (num den : Nat) : Nat :=
  let step := spacing (num / den)
  roundHalfEven num (den * step) * step

theorem spacing_dvd_nearestUnits (num den : Nat) :
    spacing (nearestUnits num den) ∣ nearestUnits num den := by
  apply spacing_dvd_mul
  apply Nat.le_trans (roundHalfEven_le _ _)
  rw [← Nat.div_div_eq_div_mul]
  apply Nat.succ_le_of_lt
  simp only [spacing, Nat.pow_eq]
  rw [Nat.div_lt_iff_lt_mul (Nat.two_pow_pos _), ← Nat.pow_add]
  apply Nat.lt_of_lt_of_le Nat.lt_log2_self
  exact Nat.pow_le_pow_right (by decide) (by omega)

end Binary64

/-- A finite binary64 number. The two zeros differ in their sign. -/
structure Finite64 where
  negative : Bool
  units : Nat
  representable : Binary64.Representable units
deriving DecidableEq

/-- A binary64 number. All NaNs are one value. -/
inductive Binary64 where
  | nan
  | infinite (negative : Bool)
  | finite (x : Finite64)
deriving DecidableEq

namespace Finite64

/-- The value in units. -/
def signed (x : Finite64) : Int :=
  if x.negative then -(x.units : Int) else x.units

def isZero (x : Finite64) : Bool := x.units == 0

def zero (negative : Bool) : Finite64 :=
  ⟨negative, 0, Nat.dvd_zero _, Binary64.limit_pos⟩

def truncate (x : Finite64) : Int :=
  let whole : Nat := x.units / Binary64.one
  if x.negative then -(whole : Int) else whole

end Finite64

namespace Binary64

/-- The number nearest to `num / den` units. From half a spacing below `limit` on this is an
infinity. -/
def nearest (negative : Bool) (num den : Nat) : Binary64 :=
  let n := nearestUnits num den
  if h : n < limit then
    .finite ⟨negative, n, spacing_dvd_nearestUnits num den, h⟩
  else
    .infinite negative

def ofInt (n : Int) : Binary64 :=
  nearest (n < 0) (n.natAbs * one) 1

/-- Where a number stands in the numeric order; `none` for NaN, which stands nowhere. -/
def rank? : Binary64 → Option Int
  | .nan => none
  | .infinite true => some (-(limit : Int))
  | .infinite false => some limit
  | .finite x => some x.signed

/-- The numeric order: the two zeros are equal and NaN is unordered. -/
def compare? (x y : Binary64) : Option Ordering := do
  return compare (← x.rank?) (← y.rank?)

/-- Numeric equality: NaN differs from itself, and the two zeros are equal. -/
def numEq (x y : Binary64) : Bool :=
  x.compare? y == some .eq

def isZero : Binary64 → Bool
  | .finite x => x.isZero
  | _ => false

/-- The integer part, clamped to the range of `Int64`; zero for NaN. -/
def toInt64Clamp : Binary64 → Int64
  | .nan => 0
  | .infinite true => Int64.minValue
  | .infinite false => Int64.maxValue
  | .finite x => Int64.ofIntClamp x.truncate

/-! Bit patterns: a sign, eleven bits of exponent, fifty-two bits of fraction. The exponent field
counts how often the spacing doubles, so that the pattern of a magnitude grows with it. -/

/-- The bits below the sign of a magnitude. -/
def magnitudeBits (units : Nat) : Nat :=
  let k := units.log2 - fractionBits
  k * Nat.pow 2 fractionBits + units / Nat.pow 2 k

/-- The magnitude with the given bits, an exponent field below 2047 being assumed. -/
def magnitudeOfBits (bits : Nat) : Nat :=
  let leading := Nat.pow 2 fractionBits
  let exponent := bits / leading
  let fraction := bits % leading
  if exponent = 0 then fraction else (leading + fraction) * Nat.pow 2 (exponent - 1)

def infinityBits : Nat := 2047 * Nat.pow 2 fractionBits

/-- The sign is the bit above the exponent. -/
def signPlace : Nat := 11 + fractionBits

def signBit (negative : Bool) : Nat := if negative then Nat.pow 2 signPlace else 0

/-- The bit pattern; `none` for NaN, which has many. -/
def toBits? : Binary64 → Option Nat
  | .nan => none
  | .infinite negative => some (signBit negative + infinityBits)
  | .finite x => some (signBit x.negative + magnitudeBits x.units)

def ofBits (bits : Nat) : Binary64 :=
  let negative : Bool := bits / Nat.pow 2 signPlace % 2 == 1
  let magnitude := bits % Nat.pow 2 signPlace
  if infinityBits < magnitude then
    .nan
  else if magnitude = infinityBits then
    .infinite negative
  else
    nearest negative (magnitudeOfBits magnitude) 1

end Binary64

end Winnow
