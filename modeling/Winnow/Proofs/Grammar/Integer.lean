import Winnow.Json.Reader
import Winnow.Proofs.Number.NumericText

/-!
# Integers in JSON text

An integer is written in decimal digits without a needless zero, after a minus sign if it is
negative; zero may have the sign too. The reader keeps such an integer as it is if it is a signed or
an unsigned word, but for the zero with a sign, which it takes for a float.
-/

namespace Winnow

/-- Decimal digits that JSON admits before a point. -/
structure DigitRow (digits : List Char) : Prop where
  ascii : ∀ c ∈ digits, c.isDigit = true
  nonempty : digits ≠ []
  shortest : digits = ['0'] ∨ digits.head? ≠ some '0'

/-- The texts of an integer. -/
inductive IntegerLiteral : List Char → ℤ → Prop
  | unsigned {digits : List Char} (row : DigitRow digits) :
      IntegerLiteral digits (placeValue digits)
  | negative {digits : List Char} (row : DigitRow digits) :
      IntegerLiteral ('-' :: digits) (-placeValue digits)

/-- The number that an integer is kept as. -/
inductive JsonNumber.Keeps : JsonNumber → ℤ → Prop
  | int (word : Int64) : Keeps (.int word) word.toInt
  | large (word : UInt64) (beyond : Int64.maxValue.toInt < word.toNat) :
      Keeps (.large word beyond) word.toNat
  | minusZero : Keeps (.float (.zero true)) 0

namespace JsonNumber

variable {n : ℤ} {number : JsonNumber}

theorem keeps_of_ofInt? (kept : ofInt? n = some number) : number.Keeps n := by
  have greatest : Int64.maxValue.toInt = 2 ^ 63 - 1 := rfl
  unfold ofInt? at kept
  split at kept
  · next word fits =>
    cases kept
    rw [← toInt_of_int64? fits]
    exact .int word
  · split at kept
    · next within =>
      cases kept
      have value : ((UInt64.ofNatLT n.toNat within.2).toNat : ℤ) = n :=
        Int.toNat_of_nonneg (by omega)
      have keeps := Keeps.large (.ofNatLT n.toNat within.2) within.1
      rw [value] at keeps
      exact keeps
    · cases kept

theorem exists_ofInt? (least : -2 ^ 63 ≤ n) (greatest : n < 2 ^ 64) :
    ∃ number, ofInt? n = some number := by
  unfold ofInt?
  cases fits : int64? n with
  | some word => exact ⟨_, rfl⟩
  | none =>
      have minimum : Int64.minValue.toInt = -2 ^ 63 := rfl
      have maximum : Int64.maxValue.toInt = 2 ^ 63 - 1 := rfl
      have size : UInt64.size = 2 ^ 64 := rfl
      unfold int64? at fits
      split at fits
      · cases fits
      · have large : Int64.maxValue.toInt < n.toNat ∧ n.toNat < UInt64.size := by omega
        exact ⟨_, dif_pos large⟩

end JsonNumber

namespace Json

namespace Token

variable {digits : List Char} (sign : Option Sign)

/-- The numeral of an integer. -/
def integerNumeral (sign : Option Sign) (digits : List Char) : Numeral :=
  ⟨sign, digits, none, none⟩

theorem proper_integerNumeral (row : DigitRow digits) : (integerNumeral sign digits).Proper where
  digits := by
    intro c member
    have inDigits : c ∈ digits := by simpa [Numeral.digits, integerNumeral] using member
    exact isDecimalDigit_of_isDigit c (row.ascii c inDigits)
  mantissa := .inl row.nonempty
  exponent := by
    intro _ _ absent
    cases absent

theorem scan?_integer (row : DigitRow digits) :
    Numeral.scan? Char.isDigit (Numeral.signChars sign ++ digits) =
      some (integerNumeral sign digits, []) := by
  have ascii : ∀ c ∈ (integerNumeral sign digits).digits, c.isDigit = true := by
    intro c member
    exact row.ascii c (by simpa [Numeral.digits, integerNumeral] using member)
  have scanned : Numeral.scan? Char.isDigit ((integerNumeral sign digits).chars 'e' ++ []) =
      some (integerNumeral sign digits, []) :=
    Numeral.scan?_chars Numeral.separates_isDigit (proper_integerNumeral sign row) ascii (.inl rfl)
      (Numeral.ends_nil Char.isDigit)
  simpa [Numeral.chars, integerNumeral, Numeral.fractionChars, Numeral.exponentChars] using scanned

/-- A minus sign or a digit begins a number. -/
theorem first?_number {c : Char} {rest : List Char} (begins : c = '-' ∨ c.isDigit = true) :
    first? (c :: rest) = do
      let (numeral, rest) ← Numeral.scan? Char.isDigit (c :: rest)
      return (.number (← number? numeral), rest) := by
  unfold first?
  split
  case h_11 same =>
    cases same
    rw [if_pos begins]
  case h_12 => contradiction
  all_goals
    next same =>
      obtain ⟨rfl, _⟩ := List.cons.inj same
      exact absurd begins (by decide)

theorem minusZero_iff :
    (integerNumeral sign digits).isNegative = true ∧ (integerNumeral sign digits).wholeValue = 0 ↔
      sign = some .minus ∧ placeValue digits = 0 := by
  rw [Numeral.wholeValue_eq]
  rcases sign with _ | _ | _ <;> simp [Numeral.isNegative, integerNumeral, Sign.apply]

theorem fraction_ne_nil : (integerNumeral sign digits).fraction ≠ some [] := by
  rintro ⟨⟩

section Row

variable (row : DigitRow digits)

include row

theorem whole_admitted :
    (integerNumeral sign digits).whole = ['0'] ∨
      (integerNumeral sign digits).whole.head?.isSome = true ∧
        (integerNumeral sign digits).whole.head? ≠ some '0' :=
  row.shortest.imp_right fun shortest => ⟨List.isSome_head?.mpr row.nonempty, shortest⟩

theorem number?_of_ofInt? {number : JsonNumber}
    (nonzero : ¬ (sign = some .minus ∧ placeValue digits = 0))
    (kept : JsonNumber.ofInt? (Sign.apply sign (placeValue digits)) = some number) :
    number? (integerNumeral sign digits) = some number := by
  have exact : (integerNumeral sign digits).isWhole = true ∧
      ¬ ((integerNumeral sign digits).isNegative = true ∧
        (integerNumeral sign digits).wholeValue = 0) :=
    ⟨rfl, mt (minusZero_iff _).mp nonzero⟩
  have value : (integerNumeral sign digits).wholeValue = Sign.apply sign (placeValue digits) :=
    Numeral.wholeValue_eq _
  rw [number?, if_pos (whole_admitted _ row), if_neg (fraction_ne_nil _)]
  simp only [if_pos exact]
  rw [value, kept]

theorem number?_minusZero (zero : placeValue digits = 0) :
    number? (integerNumeral (some .minus) digits) = some (.float (.zero true)) := by
  have coefficient : (integerNumeral (some .minus) digits).toDecimal.coefficient = 0 := by
    simpa [Numeral.toDecimal, integerNumeral, digitsValue_eq_placeValue] using zero
  have nearest : (integerNumeral (some .minus) digits).toDecimal.nearest = .finite (.zero true) :=
    if_pos coefficient
  have inexact : ¬ ((integerNumeral (some .minus) digits).isWhole = true ∧
      ¬ ((integerNumeral (some .minus) digits).isNegative = true ∧
        (integerNumeral (some .minus) digits).wholeValue = 0)) := by
    rintro ⟨_, nonzero⟩
    exact nonzero ((minusZero_iff _).mpr ⟨rfl, zero⟩)
  rw [number?, if_pos (whole_admitted _ row), if_neg (fraction_ne_nil _)]
  simp only [if_neg inexact, nearest]

end Row

/-- A text that is one token of a number is read as the number. -/
theorem read?_number {c : Char} {rest : List Char} {numeral : Numeral} {number : JsonNumber}
    (begins : c = '-' ∨ c.isDigit = true)
    (scanned : Numeral.scan? Char.isDigit (c :: rest) = some (numeral, []))
    (admitted : number? numeral = some number) :
    read? (String.ofList (c :: rest)) = some (.number number) := by
  have notSpace : isSpace c = false := by
    rcases begins with rfl | isDigit
    · rfl
    · cases space : isSpace c with
      | false => rfl
      | true =>
          have spaces : c = ' ' ∨ c = '\n' ∨ c = '\t' ∨ c = '\r' := by
            simpa [isSpace, or_assoc] using space
          rcases spaces with rfl | rfl | rfl | rfl <;> cases isDigit
  have token : first? (c :: rest) = some (.number number, []) := by
    rw [first?_number begins, scanned]
    simp [admitted]
  have finished (fuel : Nat) : cut fuel [] = some [] := by
    cases fuel <;> rfl
  have tokens : all? (c :: rest) = some [.number number] := by
    rw [all?, List.length_cons, cut]
    simp [notSpace, token, finished]
  rw [read?, decode?, String.toList_ofList, tokens]
  rfl

end Token

/-- The text of an integer is read as the number that keeps it. -/
theorem read?_integerLiteral {cs : List Char} {n : ℤ} (literal : IntegerLiteral cs n)
    (least : -2 ^ 63 ≤ n) (greatest : n < 2 ^ 64) :
    ∃ number, read? (String.ofList cs) = some (.number number) ∧ number.Keeps n := by
  obtain ⟨number, kept⟩ := JsonNumber.exists_ofInt? least greatest
  cases literal with
  | @unsigned digits row =>
      obtain ⟨c, rest, rfl⟩ := List.exists_cons_of_ne_nil row.nonempty
      have begins : c = '-' ∨ c.isDigit = true := .inr (row.ascii c List.mem_cons_self)
      have scanned := Token.scan?_integer none row
      have admitted := Token.number?_of_ofInt? none row nofun kept
      exact ⟨number, Token.read?_number begins scanned admitted,
        JsonNumber.keeps_of_ofInt? kept⟩
  | @negative digits row =>
      have scanned := Token.scan?_integer (some .minus) row
      by_cases zero : placeValue digits = 0
      · have admitted := Token.number?_minusZero row zero
        refine ⟨_, Token.read?_number (.inl rfl) scanned admitted, ?_⟩
        rw [zero]
        exact .minusZero
      · have nonzero : ¬ (some Sign.minus = some .minus ∧ placeValue digits = 0) :=
          fun ⟨_, isZero⟩ => zero isZero
        have admitted := Token.number?_of_ofInt? _ row nonzero kept
        exact ⟨number, Token.read?_number (.inl rfl) scanned admitted,
          JsonNumber.keeps_of_ofInt? kept⟩

end Json

end Winnow
