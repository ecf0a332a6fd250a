import Mathlib.Data.List.Basic
import Winnow.Scalar
import Winnow.Text.DecimalDigit

/-!
# Literals

The literal of an operand can be read back from the text of a condition: `Literal.read` finds the
operand at the start of a text and what follows it. Floats are left aside.
-/

namespace Winnow

theorem int64?_toInt (n : Int64) : int64? n.toInt = some n := by
  unfold int64?
  have inRange : Int64.minValue.toInt ≤ n.toInt ∧ n.toInt ≤ Int64.maxValue.toInt :=
    ⟨n.minValue_le_toInt, n.toInt_le⟩
  rw [dif_pos inRange]
  exact congrArg some (Int64.toInt_inj.mp Int64.toInt_ofIntLE)

/-- Taking the characters of a kind stops where others follow. -/
theorem span_append {P : Char → Bool} {cs rest : List Char} (each : ∀ c ∈ cs, P c = true)
    (other : ∀ c ∈ rest.head?, P c = false) :
    (cs ++ rest).takeWhile P = cs ∧ (cs ++ rest).dropWhile P = rest := by
  rw [List.takeWhile_append_of_pos each, List.dropWhile_append_of_pos each]
  cases rest with
  | nil => simp
  | cons c rest => simp [other c rfl]

namespace Literal

/-- The string of a literal whose opening quote has been read, and what follows the literal. A
doubled quote stands for a quote, and the first quote that is not doubled closes. -/
def readQuoted : List Char → Option (List Char × List Char)
  | [] => none
  | '\'' :: '\'' :: cs => (readQuoted cs).map fun (s, rest) => ('\'' :: s, rest)
  | '\'' :: cs => some ([], cs)
  | c :: cs => (readQuoted cs).map fun (s, rest) => (c :: s, rest)

def readInteger (negative : Bool) (cs : List Char) : Option (Scalar × List Char) :=
  let magnitude : Int := digitsValue (cs.takeWhile Char.isDigit)
  (int64? (if negative then -magnitude else magnitude)).map fun n =>
    (.int n, cs.dropWhile Char.isDigit)

/-- The operand whose literal starts a text, and what follows the literal. -/
def read : List Char → Option (Scalar × List Char)
  | 'N' :: 'U' :: 'L' :: 'L' :: cs => some (.null, cs)
  | 't' :: 'r' :: 'u' :: 'e' :: cs => some (.bool true, cs)
  | 'f' :: 'a' :: 'l' :: 's' :: 'e' :: cs => some (.bool false, cs)
  | '\'' :: cs => (readQuoted cs).map fun (s, rest) => (.string (String.ofList s), rest)
  | '-' :: cs => readInteger true cs
  | cs => readInteger false cs

/-- A literal ends before a blank, before a closing parenthesis and at the end of a text. -/
def EndsBefore (rest : List Char) : Prop :=
  ∀ c ∈ rest.head?, c = ' ' ∨ c = ')'

theorem EndsBefore.head_eq_false {rest : List Char} (ends : EndsBefore rest) {P : Char → Bool}
    (blank : P ' ' = false) (close : P ')' = false) : ∀ c ∈ rest.head?, P c = false := by
  intro c first
  rcases ends c first with rfl | rfl
  · exact blank
  · exact close

theorem readQuoted_closing {rest : List Char} (unquoted : ∀ c ∈ rest.head?, c ≠ '\'') :
    readQuoted ('\'' :: rest) = some ([], rest) := by
  cases rest with
  | nil => rfl
  | cons c rest =>
      rw [readQuoted]
      intro cs same
      exact unquoted c rfl (List.cons.inj same).1

theorem readQuoted_cons {c : Char} (other : c ≠ '\'') (cs : List Char) :
    readQuoted (c :: cs) = (readQuoted cs).map fun (s, rest) => (c :: s, rest) := by
  rw [readQuoted]
  · intro _ same _
    exact other same
  · exact other

/-- What stands between the quotes of a literal, with the closing quote, reads as the string. -/
theorem readQuoted_flatMap (s : List Char) {rest : List Char}
    (unquoted : ∀ c ∈ rest.head?, c ≠ '\'') :
    readQuoted ((s.flatMap fun c => if c = '\'' then ['\'', '\''] else [c]) ++ '\'' :: rest) =
      some (s, rest) := by
  induction s with
  | nil => exact readQuoted_closing unquoted
  | cons c s ih =>
      rw [List.flatMap_cons, List.append_assoc]
      by_cases quote : c = '\''
      · rw [if_pos quote, quote, List.cons_append, List.cons_append, List.nil_append, readQuoted,
          ih]
        rfl
      · rw [if_neg quote, List.singleton_append, readQuoted_cons quote, ih]
        rfl

theorem read_quoted (s : String) {rest : List Char} (ends : EndsBefore rest) :
    read (Scalar.quoted s.toList ++ rest) = some (.string s, rest) := by
  have unquoted : ∀ c ∈ rest.head?, c ≠ '\'' := by
    intro c first
    rcases ends c first with rfl | rfl <;> decide
  rw [Scalar.quoted, List.cons_append, List.append_assoc, List.singleton_append, read,
    readQuoted_flatMap s.toList unquoted]
  change some (Scalar.string (String.ofList s.toList), rest) = _
  rw [String.ofList_toList]

theorem isDigit_of_mem_digits {n : Nat} {c : Char} (member : c ∈ NumberLayout.digits n) :
    c.isDigit = true :=
  Nat.isDigit_of_mem_toDigits (by decide) (by decide) member

theorem readInteger_digits (negative : Bool) (n : Nat) {rest : List Char}
    (ends : EndsBefore rest) :
    readInteger negative (NumberLayout.digits n ++ rest) =
      (int64? (if negative then -(n : Int) else n)).map fun word => (.int word, rest) := by
  have value : digitsValue (NumberLayout.digits n) = n :=
    Nat.ofDigitChars_toDigits (by decide) (by decide)
  obtain ⟨taken, dropped⟩ := span_append (fun _ member => isDigit_of_mem_digits member)
    (ends.head_eq_false (by decide) (by decide))
  rw [readInteger, taken, dropped, value]

/-- A digit starts no other literal. -/
theorem read_of_isDigit {c : Char} (digit : c.isDigit = true) (cs : List Char) :
    read (c :: cs) = readInteger false (c :: cs) := by
  have other (d : Char) (ds : List Char) (notDigit : d.isDigit = false) : c :: cs ≠ d :: ds := by
    intro same
    rw [(List.cons.inj same).1, notDigit] at digit
    cases digit
  rw [read]
  all_goals
    intro _ same
    refine other _ _ ?_ same
    decide

theorem read_integerText (n : Int64) {rest : List Char} (ends : EndsBefore rest) :
    read (integerText n.toInt ++ rest) = some (.int n, rest) := by
  rw [integerText]
  by_cases negative : n.toInt < 0
  · have value : -(n.toInt.natAbs : Int) = n.toInt := by omega
    rw [decide_eq_true negative]
    change readInteger true (NumberLayout.digits n.toInt.natAbs ++ rest) = _
    rw [readInteger_digits true _ ends, if_pos rfl, value, int64?_toInt]
    rfl
  · have value : (n.toInt.natAbs : Int) = n.toInt := by omega
    rw [decide_eq_false negative]
    change read (NumberLayout.digits n.toInt.natAbs ++ rest) = _
    have unsigned : read (NumberLayout.digits n.toInt.natAbs ++ rest) =
        readInteger false (NumberLayout.digits n.toInt.natAbs ++ rest) := by
      cases digits : NumberLayout.digits n.toInt.natAbs with
      | nil => exact absurd digits Nat.toDigits_ne_nil
      | cons c cs =>
          have member : c ∈ NumberLayout.digits n.toInt.natAbs := by simp [digits]
          exact read_of_isDigit (isDigit_of_mem_digits member) (cs ++ rest)
    rw [unsigned, readInteger_digits false _ ends, if_neg Bool.false_ne_true, value, int64?_toInt]
    rfl

/-- The literal of any operand but a float reads as the operand. -/
theorem read_chars {operand : Scalar} (exact : ∀ x, operand ≠ .float x) {rest : List Char}
    (ends : EndsBefore rest) : read (operand.chars ++ rest) = some (operand, rest) := by
  cases operand with
  | null => rfl
  | bool b => cases b <;> rfl
  | int n => exact read_integerText n ends
  | float x => exact absurd rfl (exact x)
  | string s => exact read_quoted s ends

end Literal

end Winnow
