import Mathlib.Data.List.Basic
import Winnow.Proofs.Coercion.Node

/-!
# The positions that coercion changes

A position in a value is the path of steps that leads to it. Coercion keeps every object with its
keys, every array with its length and every scalar but some operands of leaves. `coerce_at?` says
which: the strings that read as numbers, under the operand's key of an object below the root, if no
leaf stands between the root and the object.
-/

namespace Winnow

/-- One step down, to a member of an object or to an item of an array. -/
inductive Step where
  | member (key : String)
  | item (index : Nat)
deriving DecidableEq, Repr

/-- The step from an object to its operand. -/
def Step.operand : Step := .member RestrictionKey.value.name

namespace Json

/-- What stands one step below a value. -/
def child? : Json → Step → Option Json
  | .object members, .member key => Entries.get? members key
  | .array items, .item index => items[index]?
  | _, _ => none

/-- What stands at the end of a path. -/
def at? : Json → List Step → Option Json
  | json, [] => some json
  | json, step :: path => (json.child? step).bind (·.at? path)

/-- Null, false, zeros, the empty string, the string `0` and empty containers. -/
inductive Falsy : Json → Prop
  | null : Falsy .null
  | false : Falsy (.bool false)
  | zero : Falsy (.number (.int 0))
  | floatZero {x : Finite64} (zero : x.units = 0) : Falsy (.number (.float x))
  | empty : Falsy (.string "")
  | zeroText : Falsy (.string "0")
  | emptyArray : Falsy (.array [])
  | emptyObject : Falsy (.object [])

theorem isTruthy_eq_false_iff {json : Json} : json.isTruthy = false ↔ json.Falsy := by
  constructor
  · intro falsy
    cases json with
    | null => exact .null
    | bool b =>
        cases falsy
        exact .false
    | number n =>
        cases n with
        | int n =>
            have zero : n = 0 := by simpa [isTruthy] using falsy
            exact zero ▸ .zero
        | large n beyond => cases falsy
        | float x => exact .floatZero (by simpa [isTruthy, Finite64.isZero] using falsy)
    | string s =>
        have either : s = "0" ∨ s = "" := by simpa [isTruthy, imp_iff_or_not] using falsy
        rcases either with rfl | rfl
        · exact .zeroText
        · exact .empty
    | array items =>
        have empty : items = [] := by simpa [isTruthy] using falsy
        exact empty ▸ .emptyArray
    | object members =>
        have empty : members = [] := by simpa [isTruthy] using falsy
        exact empty ▸ .emptyObject
  · intro falsy
    cases falsy with
    | floatZero zero => simp [isTruthy, Finite64.isZero, zero]
    | _ => rfl

/-- An object with a truthy operand. -/
def IsLeaf (json : Json) : Prop :=
  ∃ members operand, json = .object members ∧
    json.child? .operand = some operand ∧ ¬ operand.Falsy

theorem isLeaf_object_iff {members : Mapping} :
    (Json.object members).IsLeaf ↔ ∃ operand, leafValue? members = some operand := by
  simp only [leafValue?_eq_some_iff, IsLeaf, ← isTruthy_eq_false_iff, Bool.not_eq_false]
  constructor
  · rintro ⟨_, operand, -, found, truthy⟩
    exact ⟨operand, found, truthy⟩
  · rintro ⟨operand, found, truthy⟩
    exact ⟨members, operand, rfl, found, truthy⟩

theorem leafValue?_eq_none_of_not_isLeaf {members : Mapping}
    (inner : ¬ (Json.object members).IsLeaf) : leafValue? members = none := by
  rw [isLeaf_object_iff, ← Option.isSome_iff_exists] at inner
  simpa using inner

end Json

/-- A string other than the falsy ones that reads as an integer. -/
structure ReadsAs (s : String) (n : Int64) : Prop where
  ne_empty : s ≠ ""
  ne_zero : s ≠ "0"
  reads : NumericText.toInt64? s = some n

/-- No leaf stands on the path before its end. -/
def Exposed (json : Json) (path : List Step) : Prop :=
  ∀ above node, above <+: path → above ≠ path → json.at? above = some node → ¬ node.IsLeaf

/-- No leaf stands on the path before its end, the root aside. -/
def ExposedBelow (root : Json) (path : List Step) : Prop :=
  ∀ above node, above <+: path → above ≠ path → above ≠ [] → root.at? above = some node →
    ¬ node.IsLeaf

/-- What coercion makes of a value, given which strings it rewrites at the value's position. -/
inductive CoercedAs (rewrites : String → Int64 → Prop) : Json → Json → Prop
  | object {before after : Mapping} (keys : after.keys = before.keys) :
      CoercedAs rewrites (.object before) (.object after)
  | array {before after : List Json} (length : after.length = before.length) :
      CoercedAs rewrites (.array before) (.array after)
  | rewritten {s n} (rewrite : rewrites s n) : CoercedAs rewrites (.string s) (.number (.int n))
  | kept {json} (scalar : json.IsScalar) (never : ∀ s n, json = .string s → ¬ rewrites s n) :
      CoercedAs rewrites json json

/-- The strings that coercion rewrites at a position: operands of objects below the root that are
exposed. -/
def RewritesAt (root : Json) (path : List Step) (s : String) (n : Int64) : Prop :=
  ∃ holder, holder ≠ [] ∧ path = holder ++ [.operand] ∧ ReadsAs s n ∧ ExposedBelow root holder

section Relative

/-- `RewritesAt` for a node below the root, with the path counted from that node. -/
def RewritesUnder (json : Json) (path : List Step) (s : String) (n : Int64) : Prop :=
  ∃ holder, path = holder ++ [.operand] ∧ ReadsAs s n ∧ Exposed json holder

variable {json child : Json} {step : Step} {path : List Step} {s : String} {n : Int64}

theorem exposed_nil (json : Json) : Exposed json [] := by
  intro above node before other
  exact absurd (List.prefix_nil.mp before) other

theorem exposed_cons_iff (found : json.child? step = some child) :
    Exposed json (step :: path) ↔ ¬ json.IsLeaf ∧ Exposed child path := by
  constructor
  · intro exposed
    refine ⟨exposed [] json List.nil_prefix (by simp) rfl, ?_⟩
    intro above node before other located
    refine exposed (step :: above) node ?_ ?_ ?_
    · exact List.cons_prefix_cons.mpr ⟨rfl, before⟩
    · simpa using other
    · rw [Json.at?, found]
      exact located
  · rintro ⟨inner, exposed⟩ above node before other located
    rcases List.prefix_cons_iff.mp before with rfl | ⟨rest, rfl, shorter⟩
    · cases located
      exact inner
    · rw [Json.at?, found] at located
      exact exposed rest node shorter (by simpa using other) located

theorem exposedBelow_cons_iff (found : json.child? step = some child) :
    ExposedBelow json (step :: path) ↔ Exposed child path := by
  constructor
  · intro exposed above node before other located
    refine exposed (step :: above) node ?_ ?_ (by simp) ?_
    · exact List.cons_prefix_cons.mpr ⟨rfl, before⟩
    · simpa using other
    · rw [Json.at?, found]
      exact located
  · intro exposed above node before other below located
    rcases List.prefix_cons_iff.mp before with rfl | ⟨rest, rfl, shorter⟩
    · exact absurd rfl below
    · rw [Json.at?, found] at located
      exact exposed rest node shorter (by simpa using other) located

theorem rewritesAt_cons_iff (found : json.child? step = some child) :
    RewritesAt json (step :: path) s n ↔ RewritesUnder child path s n := by
  constructor
  · rintro ⟨holder, below, same, reads, exposed⟩
    obtain ⟨first, rest, rfl⟩ := List.exists_cons_of_ne_nil below
    obtain ⟨rfl, rfl⟩ := List.cons.inj same
    exact ⟨rest, rfl, reads, (exposedBelow_cons_iff found).mp exposed⟩
  · rintro ⟨holder, rfl, reads, exposed⟩
    exact ⟨step :: holder, by simp, rfl, reads, (exposedBelow_cons_iff found).mpr exposed⟩

theorem not_rewritesAt_nil : ¬ RewritesAt json [] s n := by
  rintro ⟨holder, _, same, _⟩
  simp at same

theorem not_rewritesUnder_nil : ¬ RewritesUnder json [] s n := by
  rintro ⟨holder, same, _⟩
  simp at same

/-- The operand of an object below the root is always exposed. -/
theorem rewritesUnder_operand_iff : RewritesUnder json [.operand] s n ↔ ReadsAs s n := by
  constructor
  · rintro ⟨_, _, reads, _⟩
    exact reads
  · intro reads
    exact ⟨[], rfl, reads, exposed_nil json⟩

/-- What stands deeper is exposed if the object is no leaf. -/
theorem rewritesUnder_cons_iff (found : json.child? step = some child)
    (deeper : step ≠ .operand ∨ path ≠ []) :
    RewritesUnder json (step :: path) s n ↔ ¬ json.IsLeaf ∧ RewritesUnder child path s n := by
  constructor
  · rintro ⟨holder, same, reads, exposed⟩
    cases holder with
    | nil =>
        obtain ⟨rfl, rfl⟩ := List.cons.inj same
        simp at deeper
    | cons first rest =>
        obtain ⟨rfl, rfl⟩ := List.cons.inj same
        obtain ⟨inner, exposed⟩ := (exposed_cons_iff found).mp exposed
        exact ⟨inner, rest, rfl, reads, exposed⟩
  · rintro ⟨inner, holder, rfl, reads, exposed⟩
    exact ⟨step :: holder, rfl, reads, (exposed_cons_iff found).mpr ⟨inner, exposed⟩⟩

end Relative

namespace CoercedAs

variable {rewrites rewrites' : String → Int64 → Prop}

theorem rel_congr {before after : Option Json}
    (coerced : Option.Rel (CoercedAs rewrites) before after)
    (same : ∀ s n, rewrites s n ↔ rewrites' s n) :
    Option.Rel (CoercedAs rewrites') before after := by
  have equal : rewrites = rewrites' := funext fun s => funext fun n => propext (same s n)
  exact equal ▸ coerced

/-- Where nothing is rewritten every value may stay. -/
theorem refl (json : Json) (never : ∀ s n, ¬ rewrites s n) : CoercedAs rewrites json json := by
  cases json with
  | array items => exact .array rfl
  | object members => exact .object rfl
  | _ => exact .kept trivial fun s n _ => never s n

theorem rel_refl (found : Option Json) (never : ∀ s n, ¬ rewrites s n) :
    Option.Rel (CoercedAs rewrites) found found := by
  cases found with
  | none => exact .none
  | some json => exact .some (.refl json never)

theorem coercedValue (json : Json) : CoercedAs ReadsAs json (coercedValue json) := by
  cases truthy : json.isTruthy with
  | false =>
      rw [Winnow.coercedValue, truthy, if_neg Bool.false_ne_true]
      cases Json.isTruthy_eq_false_iff.mp truthy with
      | empty =>
          exact .kept trivial fun _ _ same reads => reads.ne_empty (Json.string.inj same).symm
      | zeroText =>
          exact .kept trivial fun _ _ same reads => reads.ne_zero (Json.string.inj same).symm
      | emptyArray => exact .array rfl
      | emptyObject => exact .object rfl
      | _ => exact .kept trivial fun _ _ same => by cases same
  | true =>
      rw [Winnow.coercedValue, truthy, if_pos rfl]
      cases json with
      | string s =>
          cases reads : NumericText.toInt64? s with
          | none =>
              rw [coerceOperand, reads]
              refine .kept trivial fun _ _ same found => ?_
              cases same
              cases reads.symm.trans found.reads
          | some n =>
              rw [coerceOperand, reads]
              refine .rewritten ⟨?_, ?_, reads⟩
              · rintro rfl
                cases truthy
              · rintro rfl
                cases truthy
      | array items => exact .array rfl
      | object members => exact .object rfl
      | _ => exact .kept trivial fun _ _ same => by cases same

end CoercedAs

/-! One step into a coerced node. -/

theorem child?_coerceNode_operand (json : Json) :
    (coerceNode json).child? .operand = (json.child? .operand).map coercedValue := by
  cases json with
  | array items =>
      rw [coerceNode_array]
      rfl
  | object members =>
      rw [coerceNode_object]
      exact get?_coerceObject_value members
  | _ => rfl

theorem child?_coerceNode_of_not_isLeaf {json : Json} (inner : ¬ json.IsLeaf) (step : Step) :
    (coerceNode json).child? step = (json.child? step).map coerceNode := by
  cases json with
  | array items =>
      rw [coerceNode_array]
      cases step with
      | member key => rfl
      | item index => exact List.getElem?_map
  | object members =>
      rw [coerceNode_object, coerceObject_of_not_leaf (Json.leafValue?_eq_none_of_not_isLeaf inner)]
      cases step with
      | member key => exact Entries.get?_mapValues coerceNode members key
      | item index => rfl
  | _ => rfl

theorem child?_coerceNode_of_isLeaf {json : Json} (leaf : json.IsLeaf) {step : Step}
    (other : step ≠ .operand) : (coerceNode json).child? step = json.child? step := by
  obtain ⟨members, _, rfl, _⟩ := id leaf
  obtain ⟨operand, found⟩ := Json.isLeaf_object_iff.mp leaf
  rw [coerceNode_object, coerceObject_of_leaf found]
  cases step with
  | member key =>
      have different : RestrictionKey.value.name ≠ key := by
        rintro rfl
        exact other rfl
      exact (Entries.get?_put _ _ _ _).trans (if_neg different)
  | item index => rfl

/-- Nothing stands below an operand that coercion changes. -/
theorem child?_coercedValue (json : Json) (step : Step) :
    (coercedValue json).child? step = json.child? step := by
  cases json with
  | string s =>
      rw [coercedValue, coerceOperand]
      cases NumericText.toInt64? s with
      | none => rw [ite_self]
      | some n => split <;> rfl
  | _ => simp [coercedValue, coerceOperand]

theorem at?_coerceNode_of_isLeaf {json : Json} (leaf : json.IsLeaf) {step : Step}
    {path : List Step} (deeper : step ≠ .operand ∨ path ≠ []) :
    (coerceNode json).at? (step :: path) = json.at? (step :: path) := by
  by_cases operand : step = .operand
  · have below : path ≠ [] := deeper.resolve_left (not_not_intro operand)
    obtain ⟨next, rest, rfl⟩ := List.exists_cons_of_ne_nil below
    rw [Json.at?, Json.at?, operand, child?_coerceNode_operand, Option.bind_map]
    congr 1
    funext value
    simp only [Function.comp_apply, Json.at?, child?_coercedValue]
  · rw [Json.at?, Json.at?, child?_coerceNode_of_isLeaf leaf operand]

theorem coercedAs_coerceNode (json : Json) :
    CoercedAs (RewritesUnder json []) json (coerceNode json) := by
  have never (s : String) (n : Int64) : ¬ RewritesUnder json [] s n := not_rewritesUnder_nil
  cases json with
  | array items =>
      rw [coerceNode_array]
      exact .array (List.length_map coerceNode)
  | object members =>
      rw [coerceNode_object]
      exact .object (keys_coerceObject members)
  | _ => exact .refl _ never

theorem coerceNode_at? (json : Json) (path : List Step) :
    Option.Rel (CoercedAs (RewritesUnder json path)) (json.at? path)
      ((coerceNode json).at? path) := by
  induction path generalizing json with
  | nil => exact .some (coercedAs_coerceNode json)
  | cons step path ih =>
      by_cases last : step = .operand ∧ path = []
      · obtain ⟨rfl, rfl⟩ := last
        rw [Json.at?, Json.at?, child?_coerceNode_operand]
        cases json.child? .operand with
        | none => exact .none
        | some child =>
            refine CoercedAs.rel_congr (.some (CoercedAs.coercedValue child)) ?_
            exact fun s n => rewritesUnder_operand_iff.symm
      · have deeper := Classical.not_and_iff_not_or_not.mp last
        by_cases leaf : json.IsLeaf
        · rw [at?_coerceNode_of_isLeaf leaf deeper]
          cases found : json.child? step with
          | none =>
              rw [Json.at?, found]
              exact .none
          | some child =>
              refine CoercedAs.rel_refl _ fun s n rewrites => ?_
              exact ((rewritesUnder_cons_iff found deeper).mp rewrites).1 leaf
        · rw [Json.at?, Json.at?, child?_coerceNode_of_not_isLeaf leaf]
          cases found : json.child? step with
          | none => exact .none
          | some child =>
              refine CoercedAs.rel_congr (ih child) fun s n => ?_
              rw [rewritesUnder_cons_iff found deeper, and_iff_right leaf]

theorem child?_coerce (json : Json) (step : Step) :
    (coerce json).child? step = (json.child? step).map coerceNode := by
  cases json with
  | array items =>
      rw [coerce, coerceItems_eq]
      cases step with
      | member key => rfl
      | item index => exact List.getElem?_map
  | object members =>
      rw [coerce, coerceMembers_eq]
      cases step with
      | member key => exact Entries.get?_mapValues coerceNode members key
      | item index => rfl
  | _ => rfl

theorem coercedAs_coerce (json : Json) : CoercedAs (RewritesAt json []) json (coerce json) := by
  have never (s : String) (n : Int64) : ¬ RewritesAt json [] s n := not_rewritesAt_nil
  cases json with
  | array items =>
      rw [coerce, coerceItems_eq]
      exact .array (List.length_map coerceNode)
  | object members =>
      rw [coerce, coerceMembers_eq]
      exact .object (Entries.keys_mapValues coerceNode members)
  | _ => exact .refl _ never

/-- At every position coercion leaves what was there, but for the strings that it rewrites. -/
theorem coerce_at? (json : Json) (path : List Step) :
    Option.Rel (CoercedAs (RewritesAt json path)) (json.at? path) ((coerce json).at? path) := by
  cases path with
  | nil => exact .some (coercedAs_coerce json)
  | cons step path =>
      rw [Json.at?, Json.at?, child?_coerce]
      cases found : json.child? step with
      | none => exact .none
      | some child =>
          refine CoercedAs.rel_congr (coerceNode_at? child path) ?_
          exact fun s n => (rewritesAt_cons_iff found).symm

end Winnow
