import Winnow.Proofs.Coercion.Position
import Winnow.Proofs.Number.Recognition

/-!
# Coercion of numeric texts

Coercion makes an integer of each exposed operand that looks numeric, the text `0` aside, and leaves
every other text as it is; but an operand with a foreign digit, which looks numeric all the same, it
leaves too.
-/

namespace Winnow

open NumericText

/-- A position where coercion looks for a number: the operand of an object below the root with no
leaf above it. -/
def OperandAt (root : Json) (path : List Step) : Prop :=
  ∃ holder, holder ≠ [] ∧ path = holder ++ [.operand] ∧ ExposedBelow root holder

variable {root : Json} {path : List Step} {s : String} {n : Int64}

theorem rewritesAt_iff :
    RewritesAt root path s n ↔ OperandAt root path ∧ s ≠ "0" ∧ toInt64? s = some n := by
  constructor
  · intro ⟨holder, below, same, ⟨_, notZero, reads⟩, exposed⟩
    exact ⟨⟨holder, below, same, exposed⟩, notZero, reads⟩
  · intro ⟨⟨holder, below, same, exposed⟩, notZero, reads⟩
    refine ⟨holder, below, same, ⟨?_, notZero, reads⟩, exposed⟩
    rintro rfl
    cases reads

/-- A text is rewritten, or it is kept and could not be rewritten. -/
theorem coerce_at?_string (found : root.at? path = some (.string s)) :
    (∃ n, RewritesAt root path s n ∧ (coerce root).at? path = some (.number (.int n))) ∨
      (∀ n, ¬ RewritesAt root path s n) ∧ (coerce root).at? path = some (.string s) := by
  cases path with
  | nil =>
      cases found
      exact .inr ⟨fun _ => not_rewritesAt_nil, rfl⟩
  | cons step path =>
      rw [Json.at?] at found
      obtain ⟨child, stepped, found⟩ := Option.bind_eq_some_iff.mp found
      have related := coerceNode_at? child path
      rw [found] at related
      simp only [rewritesAt_cons_iff stepped]
      rw [Json.at?, child?_coerce, stepped, Option.map_some, Option.bind_some]
      generalize (coerceNode child).at? path = after at related ⊢
      cases related with
      | some coerced =>
          cases coerced with
          | rewritten rewrites => exact .inl ⟨_, rewrites, rfl⟩
          | kept _ never => exact .inr ⟨fun n => never s n rfl, rfl⟩

/-- The text looks numeric and is not the text `0`, stands at an operand, and is in ASCII digits. -/
structure Converted (root : Json) (path : List Step) (s : String) : Prop where
  operand : OperandAt root path
  ne_zero : s ≠ "0"
  numeric : isNumeric s = true
  ascii : ¬ ForeignDigit s

theorem exists_rewritesAt_iff : (∃ n, RewritesAt root path s n) ↔ Converted root path s := by
  simp only [rewritesAt_iff, exists_and_left, ← Option.isSome_iff_exists, isSome_toInt64?_iff]
  exact ⟨fun ⟨operand, notZero, numeric, ascii⟩ => ⟨operand, notZero, numeric, ascii⟩,
    fun ⟨operand, notZero, numeric, ascii⟩ => ⟨operand, notZero, numeric, ascii⟩⟩

/-- A text looks numeric and has an integer, or neither, unless it has a foreign digit; and so
coercion makes an integer of it, or keeps it. -/
theorem recognition_agrees_iff (s : String) :
    ((isNumeric s = true ↔ ∃ n : Numeral, n.SpelledBy s.toList) ∧
      toInt64? s = if isNumeric s = true then staged? s else none) ∧
    ((isNumeric s = true ↔ (toInt64? s).isSome = true) ↔
      ¬ (isNumeric s = true ∧ ForeignDigit s)) ∧
    ∀ root path, root.at? path = some (.string s) →
      (Converted root path s →
        ∃ n, toInt64? s = some n ∧ (coerce root).at? path = some (.number (.int n))) ∧
      (¬ Converted root path s → (coerce root).at? path = some (.string s)) := by
  refine ⟨⟨isNumeric_iff, toInt64?_eq_staged? s⟩, ?agree, fun root path found => ?coerced⟩
  case agree =>
    rw [isSome_toInt64?_iff]
    tauto
  case coerced =>
    rw [← exists_rewritesAt_iff]
    rcases coerce_at?_string found with ⟨n, rewrites, coerced⟩ | ⟨never, kept⟩
    · obtain ⟨_, _, reads⟩ := rewritesAt_iff.mp rewrites
      exact ⟨fun _ => ⟨n, reads, coerced⟩, fun none => absurd ⟨n, rewrites⟩ none⟩
    · exact ⟨fun ⟨n, rewrites⟩ => absurd rewrites (never n), fun _ => kept⟩

theorem recognition_agrees_iff_blank :
    let text := "\u00a012.5 "
    let root := Json.object [("f", .object [("value", .string text)])]
    let path := [.member "f", .operand]
    root.at? path = some (.string text) ∧ Converted root path text ∧
      ∃ n, toInt64? text = some n ∧ (coerce root).at? path = some (.number (.int n)) := by
  intro text root path
  have found : root.at? path = some (.string text) := by decide +kernel
  have exposed : ExposedBelow root [.member "f"] := (exposedBelow_cons_iff rfl).mpr (exposed_nil _)
  have operand : OperandAt root path := ⟨[.member "f"], by simp, rfl, exposed⟩
  obtain ⟨numeric, ascii⟩ := isSome_toInt64?_iff.mp (by decide +kernel : (toInt64? text).isSome)
  have converted : Converted root path text := ⟨operand, by decide, numeric, ascii⟩
  exact ⟨found, converted, ((recognition_agrees_iff text).2.2 root path found).1 converted⟩

/-- The Arabic digit three looks numeric and has no integer. -/
theorem recognition_disagrees :
    let root := Json.object [("f", .object [("value", .string "\u0663")])]
    isNumeric "\u0663" = true ∧ toInt64? "\u0663" = none ∧ coerce root = root := by
  decide +kernel

end Winnow
