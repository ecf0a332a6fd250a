import Winnow.Proofs.Scalar

/-!
# Kinds of scalars

Integers and floats are one kind. Scalars are ordered when they are of one kind and neither is NaN.
The order turns around with its operands, and it is equality as far as no integer is compared with
a float.
-/

namespace Winnow

namespace Binary64

variable {x y : Binary64}

theorem rank?_eq_none_iff : x.rank? = none ↔ x = .nan := by
  cases x with
  | nan => exact iff_of_true rfl rfl
  | infinite negative => cases negative <;> exact iff_of_false nofun nofun
  | finite x => exact iff_of_false nofun nofun

theorem compare?_eq_none_iff : x.compare? y = none ↔ x = .nan ∨ y = .nan := by
  rw [← rank?_eq_none_iff, ← rank?_eq_none_iff, compare?]
  cases x.rank? with
  | none => simp
  | some r => cases y.rank? <;> simp

theorem compare?_swap (x y : Binary64) : y.compare? x = (x.compare? y).map Ordering.swap := by
  unfold compare?
  cases x.rank? with
  | none => cases y.rank? <;> rfl
  | some r =>
      cases y.rank? with
      | none => rfl
      | some s => exact congrArg some (Int.compare_swap r s).symm

theorem ofInt_ne_nan (n : ℤ) : ofInt n ≠ .nan := by
  intro unordered
  have ranked := rank?_ofInt n
  rw [unordered] at ranked
  cases ranked

end Binary64

inductive ScalarKind where
  | null
  | bool
  | number
  | string
deriving DecidableEq

namespace Scalar

def kind : Scalar → ScalarKind
  | .null => .null
  | .bool _ => .bool
  | .int _ | .float _ => .number
  | .string _ => .string

theorem kind_eq_null_iff {a : Scalar} : a.kind = .null ↔ a = .null := by
  cases a <;> simp [kind]

/-- The ways in which two scalars meet in a comparison. -/
inductive Meet : Scalar → Scalar → Prop
  | null : Meet .null .null
  | bool (a b : Bool) : Meet (.bool a) (.bool b)
  | int (m n : Int64) : Meet (.int m) (.int n)
  | float (x y : Binary64) : Meet (.float x) (.float y)
  | intFloat (m : Int64) (y : Binary64) : Meet (.int m) (.float y)
  | floatInt (x : Binary64) (n : Int64) : Meet (.float x) (.int n)
  | string (s t : String) : Meet (.string s) (.string t)
  | apart {a b : Scalar} (differ : a.kind ≠ b.kind) : Meet a b

theorem meet (a b : Scalar) : Meet a b := by
  cases a with
  | null =>
      cases b with
      | null => exact .null
      | bool | int | float | string => exact .apart nofun
  | bool a =>
      cases b with
      | bool b => exact .bool a b
      | null | int | float | string => exact .apart nofun
  | int m =>
      cases b with
      | int n => exact .int m n
      | float y => exact .intFloat m y
      | null | bool | string => exact .apart nofun
  | float x =>
      cases b with
      | int n => exact .floatInt x n
      | float y => exact .float x y
      | null | bool | string => exact .apart nofun
  | string s =>
      cases b with
      | string t => exact .string s t
      | null | bool | int | float => exact .apart nofun

/-- An integer and a float that is the same number as the one nearest to the integer. -/
inductive NearestEqual : Scalar → Scalar → Prop
  | intFloat {m : Int64} {y : Binary64} (same : (Binary64.ofInt m.toInt).numEq y = true) :
      NearestEqual (.int m) (.float y)
  | floatInt {x : Binary64} {n : Int64} (same : (Binary64.ofInt n.toInt).numEq x = true) :
      NearestEqual (.float x) (.int n)

/-! Comparison, one equation for each way to meet. -/

theorem compare?_bool (a b : Bool) : (bool a).compare? (.bool b) = some (compare a b) := rfl

theorem compare?_string (s t : String) : (string s).compare? (.string t) = some (compare s t) := rfl

-- Said of any two numbers, so that the number nearest to an integer is never computed.
theorem bind_compare? {a b : Scalar} {x y : Binary64} (left : a.toBinary64? = some x)
    (right : b.toBinary64? = some y) :
    (do (← a.toBinary64?).compare? (← b.toBinary64?)) = x.compare? y := by
  rw [left, right]
  rfl

theorem compare?_float (x y : Binary64) : (float x).compare? (.float y) = x.compare? y :=
  bind_compare? rfl rfl

theorem compare?_intFloat (m : Int64) (y : Binary64) :
    (int m).compare? (.float y) = (Binary64.ofInt m.toInt).compare? y :=
  bind_compare? rfl rfl

theorem compare?_floatInt (x : Binary64) (n : Int64) :
    (float x).compare? (.int n) = x.compare? (Binary64.ofInt n.toInt) :=
  bind_compare? rfl rfl

variable {a b : Scalar}

section Apart

variable (differ : a.kind ≠ b.kind)

include differ

theorem compare?_of_kind_ne : a.compare? b = none := by
  cases a with
  | null | bool | string => cases b <;> first | rfl | exact absurd rfl differ
  | int | float =>
      -- What a number is ordered with has a rank, so it is a number too.
      by_contra compared
      obtain ⟨order, compared⟩ := Option.ne_none_iff_exists'.mp compared
      obtain ⟨_, _, _, ranked⟩ := exists_ranks rfl compared
      cases b with
      | int | float => exact differ rfl
      | null | bool | string => cases ranked

theorem equal_of_kind_ne : a.equal b = false := by
  have ne : a ≠ b := fun same => differ (congrArg kind same)
  cases a with
  | null | bool | int | string => exact beq_eq_false_iff_ne.mpr ne
  | float =>
      cases b with
      | float => exact absurd rfl differ
      | null | bool | int | string => exact beq_eq_false_iff_ne.mpr ne

theorem not_nearestEqual_of_kind_ne : ¬ NearestEqual a b := by
  rintro (_ | _) <;> exact differ rfl

end Apart

theorem kind_eq_of_compare? {order : Ordering} (compared : a.compare? b = some order) :
    a.kind = b.kind := by
  by_contra differ
  rw [compare?_of_kind_ne differ] at compared
  cases compared

theorem compare?_swap (a b : Scalar) : b.compare? a = (a.compare? b).map Ordering.swap := by
  cases meet a b with
  | null => rfl
  | bool a b => exact congrArg some Std.OrientedCmp.eq_swap
  | int m n => exact congrArg some (Int.compare_swap _ _).symm
  | float x y => rw [compare?_float, compare?_float, Binary64.compare?_swap]
  | intFloat m y => rw [compare?_floatInt, compare?_intFloat, Binary64.compare?_swap]
  | floatInt x n => rw [compare?_floatInt, compare?_intFloat, Binary64.compare?_swap]
  | string s t => exact congrArg some Std.OrientedCmp.eq_swap
  | apart differ =>
      rw [compare?_of_kind_ne differ, compare?_of_kind_ne differ.symm]
      rfl

/-- Of one kind, only NaN is not ordered. -/
theorem compare?_eq_none_iff :
    a.compare? b = none ↔ a.kind ≠ b.kind ∨ a = .float .nan ∨ b = .float .nan := by
  cases meet a b with
  | null | bool | int | string => simp [compare?, kind]
  | float x y => simp [compare?_float, Binary64.compare?_eq_none_iff, kind]
  | intFloat m y =>
      simp [compare?_intFloat, Binary64.compare?_eq_none_iff, Binary64.ofInt_ne_nan, kind]
  | floatInt x n =>
      simp [compare?_floatInt, Binary64.compare?_eq_none_iff, Binary64.ofInt_ne_nan, kind]
  | apart differ => exact iff_of_true (compare?_of_kind_ne differ) (.inl differ)

theorem nearestEqual_intFloat {m : Int64} {y : Binary64} :
    NearestEqual (.int m) (.float y) ↔ (Binary64.ofInt m.toInt).numEq y = true :=
  ⟨fun | .intFloat same => same, .intFloat⟩

theorem nearestEqual_floatInt {x : Binary64} {n : Int64} :
    NearestEqual (.float x) (.int n) ↔ (Binary64.ofInt n.toInt).numEq x = true :=
  ⟨fun | .floatInt same => same, .floatInt⟩

/-- What is compared as equal is equal, unless an integer is compared with a float. -/
theorem compare?_eq_eq_iff :
    a.compare? b = some .eq ↔ a.equal b = true ∨ NearestEqual a b := by
  have of_equal (unmixed : ¬ NearestEqual a b)
      (same : a.compare? b = some .eq ↔ a.equal b = true) :
      a.compare? b = some .eq ↔ a.equal b = true ∨ NearestEqual a b := by
    rw [same, or_iff_left unmixed]
  cases meet a b with
  | null => exact of_equal (by rintro ⟨⟩) (iff_of_true rfl rfl)
  | bool a b =>
      refine of_equal (by rintro ⟨⟩) ?_
      rw [compare?_bool, Option.some_inj, Std.compare_eq_iff_eq]
      simp [equal]
  | int m n =>
      refine of_equal (by rintro ⟨⟩) ?_
      rw [compare?_int, Option.some_inj, Int.compare_eq_eq, Int64.toInt_inj]
      simp [equal]
  | float x y =>
      refine of_equal (by rintro ⟨⟩) ?_
      rw [compare?_float, equal, Binary64.numEq, beq_iff_eq]
  | intFloat m y =>
      rw [compare?_intFloat, nearestEqual_intFloat, Binary64.numEq, beq_iff_eq]
      simp [equal]
  | floatInt x n =>
      rw [compare?_floatInt, nearestEqual_floatInt, Binary64.numEq, beq_iff_eq,
        Binary64.compare?_swap x]
      simp [equal]
  | string s t =>
      refine of_equal (by rintro ⟨⟩) ?_
      rw [compare?_string, Option.some_inj, Std.compare_eq_iff_eq]
      simp [equal]
  | apart differ =>
      refine of_equal (not_nearestEqual_of_kind_ne differ) ?_
      rw [compare?_of_kind_ne differ, equal_of_kind_ne differ]
      simp

end Scalar

end Winnow
