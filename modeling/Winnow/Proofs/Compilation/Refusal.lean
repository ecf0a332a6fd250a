import Winnow.Proofs.Compilation.Fault
import Winnow.Proofs.Predicate.Traversal

/-!
# Refusing unknown operators

A compiler either puts a bare field in the place of an unknown operator or refuses it. The one that
refuses makes the trees of the other that are without bare fields, and on all other demands it fails
no later than the other would.
-/

namespace Winnow

/-! Bare fields. -/

namespace Predicate

def bareField? : Predicate → Option String
  | .bare field => some field
  | _ => none

/-- The names of the bare fields of a tree, at any depth, from left to right. -/
def bareFields (p : Predicate) : List String :=
  p.postorder.filterMap bareField?

theorem bareFields_combine (connective : Connective) (parts : List Predicate) :
    (connective.combine parts).bareFields = parts.flatMap bareFields := by
  have group : bareField? (connective.combine parts) = none := by cases connective <;> rfl
  rw [bareFields, postorder_combine, List.filterMap_append, List.filterMap_flatMap,
    List.filterMap_cons_none group, List.filterMap_nil, List.append_nil]
  rfl

end Predicate

def FieldRestriction.bareFields (aliases : TableAliases) (r : FieldRestriction) : List String :=
  if r.restriction.operator.isUnknown then [r.target.qualified aliases] else []

variable {policy : UnknownOperatorPolicy} {aliases : TableAliases}

theorem Emits.bareFields_eq (r : FieldRestriction) (part : Predicate)
    (emits : Emits policy (r.target.qualified aliases) r.restriction part) :
    part.bareFields = r.bareFields aliases := by
  obtain ⟨target, restriction⟩ := r
  cases emits with
  | compare op value => rfl
  | range low high => rfl
  | bare tag operand placeholder => rfl

/-! What is emitted if unknown operators are refused. -/

theorem emits_reject_iff {field : String} {restriction : Restriction} {part : Predicate} :
    Emits .reject field restriction part ↔
      Emits .placeholder field restriction part ∧ part.bareFields = [] := by
  constructor
  · intro emits
    cases emits with
    | compare op value => exact ⟨.compare op value, rfl⟩
    | range low high => exact ⟨.range low high, rfl⟩
    | bare _ _ impossible => cases impossible
  · intro ⟨emits, without⟩
    cases emits with
    | compare op value => exact .compare op value
    | range low high => exact .range low high
    | bare => cases without

theorem nodeEmits_reject_iff {node : Node} {part : Predicate} :
    NodeEmits .reject aliases node part ↔
      NodeEmits .placeholder aliases node part ∧ part.bareFields = [] := by
  cases node with
  | leaf r => simp only [nodeEmits_leaf_iff, emits_reject_iff]
  | group connective group =>
      simp only [nodeEmits_group_iff, emits_reject_iff, forall₂_and_right_iff]
      constructor
      · rintro ⟨parts, ⟨emits, without⟩, rfl⟩
        rw [Predicate.bareFields_combine, List.flatMap_eq_nil_iff]
        exact ⟨⟨parts, emits, rfl⟩, without⟩
      · rintro ⟨⟨parts, emits, rfl⟩, without⟩
        rw [Predicate.bareFields_combine, List.flatMap_eq_nil_iff] at without
        exact ⟨parts, ⟨emits, without⟩, rfl⟩

theorem forall₂_nodeEmits_reject_iff {entries : List (String × Node)} {parts : List Predicate} :
    List.Forall₂ (fun entry part => NodeEmits .reject aliases entry.2 part) entries parts ↔
      List.Forall₂ (fun entry part => NodeEmits .placeholder aliases entry.2 part) entries parts ∧
        (joined parts).bareFields = [] := by
  rw [Predicate.apply_joined Predicate.bareFields_combine, List.flatMap_eq_nil_iff]
  simp only [nodeEmits_reject_iff, forall₂_and_right_iff]

/-! What is rejected. -/

theorem Restriction.fits_reject_iff {restriction : Restriction} :
    restriction.Fits .reject ↔
      restriction.Fits .placeholder ∧ restriction.operator.isUnknown = false := by
  obtain ⟨operator, operand⟩ := restriction
  cases operator <;> simp [Fits, OperatorTag.isUnknown]

theorem Restriction.fits_or_rejected (field : String) (restriction : Restriction) :
    restriction.Fits policy ∨ ∃ fault, Rejected policy field restriction fault := by
  obtain ⟨operator, operand⟩ := restriction
  cases operator with
  | compare op =>
      cases operand with
      | scalar value => exact .inl ⟨value, rfl⟩
      | list items => exact .inr ⟨_, .single⟩
  | range =>
      by_cases bounds : ∃ low high, operand = .list [low, high]
      · exact .inl bounds
      · exact .inr ⟨_, .pair fun low high same => bounds ⟨low, high, same⟩⟩
  | unknown tag =>
      cases policy with
      | placeholder => exact .inl rfl
      | reject => exact .inr ⟨_, .unknown rfl⟩

/-- What fits with a bare field in place of the operator is rejected for its operator only. -/
theorem Rejected.exists_unknown {field : String} {restriction : Restriction} {fault : Fault}
    (rejected : Rejected policy field restriction fault) (fits : restriction.Fits .placeholder) :
    ∃ operator, restriction.operator = .unknown operator ∧
      fault = .unknownOperator field operator := by
  cases rejected with
  | single =>
      obtain ⟨value, impossible⟩ := fits
      cases impossible
  | pair other =>
      obtain ⟨low, high, same⟩ := fits
      exact absurd same (other low high)
  | unknown => exact ⟨_, rfl, rfl⟩

theorem Rejected.reject {field : String} {restriction : Restriction} {fault : Fault}
    (rejected : Rejected .placeholder field restriction fault) :
    Rejected .reject field restriction fault := by
  cases rejected with
  | single => exact .single
  | pair other => exact .pair other
  | unknown impossible => cases impossible

theorem exists_firstRejected_or_forall_fits (policy : UnknownOperatorPolicy)
    (aliases : TableAliases) (restrictions : List FieldRestriction) :
    (∃ fault, FirstRejected policy aliases restrictions fault) ∨
      ∀ r ∈ restrictions, r.restriction.Fits policy :=
  FirstFault.exists_or_forall fun r _ => r.restriction.fits_or_rejected _

theorem bareFields_flatMap_eq_nil {restrictions : List FieldRestriction}
    (fits : ∀ r ∈ restrictions, r.restriction.Fits .reject) :
    restrictions.flatMap (FieldRestriction.bareFields aliases) = [] := by
  refine List.flatMap_eq_nil_iff.mpr fun r member => ?_
  rw [FieldRestriction.bareFields, (Restriction.fits_reject_iff.mp (fits r member)).2]
  rfl

/-- The first restriction that is refused is the one that the leftmost bare field stands for. -/
theorem FirstRejected.of_head_bareFields {restrictions : List FieldRestriction} {field : String}
    (fits : ∀ r ∈ restrictions, r.restriction.Fits .placeholder)
    (head : (restrictions.flatMap (FieldRestriction.bareFields aliases)).head? = some field) :
    ∃ operator, FirstRejected .reject aliases restrictions (.unknownOperator field operator) := by
  obtain ⟨fault, first⟩ | known := exists_firstRejected_or_forall_fits .reject aliases restrictions
  · obtain ⟨before, r, after, rfl, known, rejected⟩ := first
    obtain ⟨operator, unknown, rfl⟩ := rejected.exists_unknown (fits r List.mem_append_cons_self)
    -- What is accepted leaves no bare field: the leftmost one is that of the refused restriction.
    have leftmost : r.bareFields aliases = [r.target.qualified aliases] := by
      rw [FieldRestriction.bareFields, unknown]
      rfl
    rw [List.flatMap_append, bareFields_flatMap_eq_nil known, List.nil_append, List.flatMap_cons,
      leftmost] at head
    cases head
    exact ⟨operator, before, r, after, rfl, known, rejected⟩
  · rw [bareFields_flatMap_eq_nil known] at head
    cases head

theorem Demand.fits_of_emits {demand : Demand} {parts : List Predicate}
    (emits : List.Forall₂ (fun entry part => NodeEmits policy aliases entry.2 part)
      demand.entries parts) :
    ∀ r ∈ demand.restrictions, r.restriction.Fits policy := by
  have each := (exists_forall₂_nodeEmits_iff aliases).mp ⟨parts, emits⟩
  simp only [Node.fits_iff] at each
  exact List.forall_mem_flatMap.mpr each

/-- The restriction that is rejected first with bare fields is rejected first without them, or an
operator before it is refused. -/
theorem FirstRejected.of_rejected {before after : List FieldRestriction} {r : FieldRestriction}
    {fault : Fault} (fits : ∀ earlier ∈ before, earlier.restriction.Fits .placeholder)
    (rejected : Rejected .placeholder (r.target.qualified aliases) r.restriction fault) :
    FirstRejected .reject aliases (before ++ r :: after) fault ∨
      ∃ earlier ∈ before, ∃ operator, earlier.restriction.operator = .unknown operator ∧
        FirstRejected .reject aliases (before ++ r :: after)
          (.unknownOperator (earlier.target.qualified aliases) operator) := by
  obtain ⟨fault', first⟩ | known := exists_firstRejected_or_forall_fits .reject aliases before
  · have whole : FirstRejected .reject aliases (before ++ r :: after) fault' :=
      FirstFault.append_iff.mpr (.inl first)
    obtain ⟨front, earlier, back, rfl, _, refused⟩ := first
    have member : earlier ∈ front ++ earlier :: back := List.mem_append_cons_self
    obtain ⟨operator, unknown, rfl⟩ := refused.exists_unknown (fits earlier member)
    exact .inr ⟨earlier, member, operator, unknown, whole⟩
  · exact .inl ⟨before, r, after, rfl, known, rejected.reject⟩

/-! Compiling. -/

namespace Compiler

variable {raw : Mapping} {tree : Predicate}

theorem tree?_reject_eq_ok_iff :
    tree? ⟨.reject⟩ aliases raw = .ok tree ↔
      tree? ⟨.placeholder⟩ aliases raw = .ok tree ∧ tree.bareFields = [] := by
  simp only [tree?_eq_ok_iff, forall₂_nodeEmits_reject_iff]
  constructor
  · rintro ⟨demand, read, parts, ⟨emits, without⟩, rfl⟩
    exact ⟨⟨demand, read, parts, emits, rfl⟩, without⟩
  · rintro ⟨⟨demand, read, parts, emits, rfl⟩, without⟩
    exact ⟨demand, read, parts, ⟨emits, without⟩, rfl⟩

theorem exists_tree?_reject_eq_error {field : String}
    (compiled : tree? ⟨.placeholder⟩ aliases raw = .ok tree)
    (leftmost : tree.bareFields.head? = some field) :
    ∃ operator, tree? ⟨.reject⟩ aliases raw = .error (.unknownOperator field operator) := by
  obtain ⟨demand, read, parts, emits, rfl⟩ := tree?_eq_ok_iff.mp compiled
  rw [Demand.apply_eq Predicate.bareFields_combine Emits.bareFields_eq emits] at leftmost
  obtain ⟨operator, first⟩ := FirstRejected.of_head_bareFields (Demand.fits_of_emits emits) leftmost
  exact ⟨operator, (tree?_eq_error_iff_of_read read).mpr first⟩

/-- A compiler that refuses unknown operators makes the trees of one that puts bare fields in their
place, as far as these have none. Where there are some, it refuses the operator that the leftmost of
them stands for. A demand that cannot be read has the same fault under both. One that has been read
has the fault of the same restriction, unless an operator before it is refused. -/
theorem tree?_reject (aliases : TableAliases) (raw : Mapping) :
    (∀ tree, tree? ⟨.reject⟩ aliases raw = .ok tree ↔
      tree? ⟨.placeholder⟩ aliases raw = .ok tree ∧ tree.bareFields = []) ∧
    (∀ tree field, tree? ⟨.placeholder⟩ aliases raw = .ok tree →
      tree.bareFields.head? = some field →
        ∃ operator, tree? ⟨.reject⟩ aliases raw = .error (.unknownOperator field operator)) ∧
    (∀ fault, Demand.read (coerceDemand raw) = .error fault →
      tree? ⟨.placeholder⟩ aliases raw = .error fault ∧
        tree? ⟨.reject⟩ aliases raw = .error fault) ∧
    ∀ demand fault, Demand.read (coerceDemand raw) = .ok demand →
      tree? ⟨.placeholder⟩ aliases raw = .error fault →
        List.Forall₂ (fun written r => Spells written.1 r.target ∧
          CoercedReading written.2 r.restriction) (demandRestrictions raw) demand.restrictions ∧
        ∃ before r after, demand.restrictions = before ++ r :: after ∧
          (∀ earlier ∈ before, earlier.restriction.Fits .placeholder) ∧
          Rejected .placeholder (r.target.qualified aliases) r.restriction fault ∧
          (tree? ⟨.reject⟩ aliases raw = .error fault ∨
            ∃ earlier ∈ before, ∃ operator, earlier.restriction.operator = .unknown operator ∧
              tree? ⟨.reject⟩ aliases raw =
                .error (.unknownOperator (earlier.target.qualified aliases) operator)) := by
  refine ⟨fun tree => tree?_reject_eq_ok_iff, fun tree field => exists_tree?_reject_eq_error,
    fun fault unread => ⟨tree?_eq_error_of_read unread, tree?_eq_error_of_read unread⟩, ?_⟩
  intro demand fault read failed
  obtain ⟨before, r, after, split, fits, rejected⟩ := (tree?_eq_error_iff_of_read read).mp failed
  refine ⟨Demand.coerced_readInOrder read, before, r, after, split, fits, rejected, ?_⟩
  simp only [tree?_eq_error_iff_of_read read, split]
  exact FirstRejected.of_rejected fits rejected

/-- A group with several bare fields, a range without bounds behind an operator that is refused, and
such an operator before a key that is no alias. -/
theorem tree?_reject_leftmost :
    let equal : Json := .object [("operator", .string "EQ"), ("value", .null)]
    let like : Json := .object [("operator", .string "LIKE"), ("value", .null)]
    let range : Json := .object [("operator", .string "-"), ("value", .null)]
    let aliases : TableAliases := [("t", "q")]
    let group : Mapping := [("u-g", equal),
      ("or-1", .object [("t-h", .array [equal, like]), ("u-f", like)])]
    let behind : Mapping := [("t-h", like), ("u-g", range), ("u-f", like)]
    let unread : Mapping := [("t-f", like), ("t", equal)]
    (∃ operator, tree? ⟨.reject⟩ aliases group = .error (.unknownOperator "q.h" operator)) ∧
      (∃ field operator,
        tree? ⟨.reject⟩ aliases behind = .error (.unknownOperator field operator)) ∧
      tree? ⟨.reject⟩ aliases unread = .error (.malformedAlias "t" .noSeparator) := by
  intro equal like range aliases group behind unread
  have compiled : tree? ⟨.placeholder⟩ aliases group = .ok (.conj [.compare "g" .eq .null,
      .disj [.compare "q.h" .eq .null, .bare "q.h", .bare "f"]]) := by
    decide +kernel
  have notRead : Demand.read (coerceDemand unread) = .error (.malformedAlias "t" .noSeparator) := by
    decide +kernel
  refine ⟨(tree?_reject aliases group).2.1 _ _ compiled rfl, ?_,
    ((tree?_reject aliases unread).2.2.1 _ notRead).2⟩
  have read : Demand.read (coerceDemand behind) = .ok ⟨[
      ("t-h", .leaf ⟨⟨"t", "h"⟩, ⟨.unknown "LIKE", .scalar .null⟩⟩),
      ("u-g", .leaf ⟨⟨"u", "g"⟩, ⟨.range, .scalar .null⟩⟩),
      ("u-f", .leaf ⟨⟨"u", "f"⟩, ⟨.unknown "LIKE", .scalar .null⟩⟩)]⟩ := by
    decide +kernel
  have failed : tree? ⟨.placeholder⟩ aliases behind = .error (.invalidOperand "g" .pair) := by
    decide +kernel
  have other : tree? ⟨.reject⟩ aliases behind ≠ .error (.invalidOperand "g" .pair) := by
    decide +kernel
  obtain ⟨_, _, _, _, _, _, _, same | ⟨_, _, operator, _, refused⟩⟩ :=
    (tree?_reject aliases behind).2.2.2 _ _ read failed
  · exact absurd same other
  · exact ⟨_, operator, refused⟩

end Compiler

end Winnow
