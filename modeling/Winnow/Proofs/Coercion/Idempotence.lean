import Winnow.Proofs.Coercion.Node

/-!
# Coercing twice

A leaf whose operand reads as zero holds the integer zero once it is coerced. Zero is not truthy,
so a second pass does not see a leaf there any more: it visits the members that the first pass left
alone. `coerce_coerce_eq_iff` says that this is the only way in which coercing twice differs from
coercing once.
-/

namespace Winnow

/-- The leaves that coercion comes to at a node or below it. -/
inductive ReachesLeaf : Json → Mapping → Prop
  | here {members : Mapping} {value : Json} (leaf : leafValue? members = some value) :
      ReachesLeaf (.object members) members
  | member {members found : Mapping} {entry : String × Json} (inner : leafValue? members = none)
      (member : entry ∈ members) (below : ReachesLeaf entry.2 found) :
      ReachesLeaf (.object members) found
  | item {items : List Json} {item : Json} {found : Mapping} (member : item ∈ items)
      (below : ReachesLeaf item found) : ReachesLeaf (.array items) found

/-- The leaves that coercion of a whole value comes to. The root itself is none of them. -/
def VisitsLeaf (json : Json) (leaf : Mapping) : Prop :=
  ∃ child ∈ json.children, ReachesLeaf child leaf

/-- The operand of a leaf is a string that reads as an integer. -/
def LeafReadsAs (leaf : Mapping) (n : Int64) : Prop :=
  ∃ s, leafValue? leaf = some (.string s) ∧ NumericText.toInt64? s = some n

/-! Properties of all leaves at a node or below it, by the shape of the node. -/

def AllLeaves (json : Json) (P : Mapping → Prop) : Prop :=
  ∀ leaf, ReachesLeaf json leaf → P leaf

theorem allLeaves_of_isScalar {json : Json} {P : Mapping → Prop} (scalar : json.IsScalar) :
    AllLeaves json P := by
  intro leaf reached
  cases reached <;> exact scalar.elim

theorem allLeaves_array {items : List Json} {P : Mapping → Prop} :
    AllLeaves (.array items) P ↔ ∀ item ∈ items, AllLeaves item P := by
  constructor
  · intro all item member leaf below
    exact all leaf (.item member below)
  · intro all leaf reached
    cases reached with
    | item member below => exact all _ member leaf below

theorem allLeaves_of_leaf {members : Mapping} {value : Json} {P : Mapping → Prop}
    (leaf : leafValue? members = some value) : AllLeaves (.object members) P ↔ P members := by
  constructor
  · intro all
    exact all members (.here leaf)
  · intro holds found reached
    cases reached with
    | here _ => exact holds
    | member inner _ _ => rw [leaf] at inner; contradiction

theorem allLeaves_of_not_leaf {members : Mapping} {P : Mapping → Prop}
    (inner : leafValue? members = none) :
    AllLeaves (.object members) P ↔ ∀ entry ∈ members, AllLeaves entry.2 P := by
  constructor
  · intro all entry member leaf below
    exact all leaf (.member inner member below)
  · intro all found reached
    cases reached with
    | here leaf => rw [leaf] at inner; contradiction
    | member _ member below => exact all _ member found below

theorem forall_visitsLeaf {json : Json} {P : Mapping → Prop} :
    (∀ leaf, VisitsLeaf json leaf → P leaf) ↔ ∀ child ∈ json.children, AllLeaves child P := by
  constructor
  · intro all child member leaf below
    exact all leaf ⟨child, member, below⟩
  · intro all leaf ⟨child, member, below⟩
    exact all child member leaf below

/-! Which nodes stay as they are. -/

theorem coerceOperand_eq_self_iff {members : Mapping} {value : Json}
    (leaf : leafValue? members = some value) :
    coerceOperand value = value ↔ ∀ n, ¬ LeafReadsAs members n := by
  constructor
  · intro unchanged n ⟨s, found, read⟩
    cases leaf.symm.trans found
    simp [coerceOperand, read] at unchanged
  · intro never
    cases value with
    | string s =>
        cases read : NumericText.toInt64? s with
        | none => simp [coerceOperand, read]
        | some n => exact absurd ⟨s, leaf, read⟩ (never n)
    | _ => rfl

theorem coerceObject_eq_self_of_leaf {members : Mapping} {value : Json}
    (leaf : leafValue? members = some value) :
    coerceObject members = members ↔ ∀ n, ¬ LeafReadsAs members n := by
  have found := (leafValue?_eq_some_iff.mp leaf).1
  rw [← coerceOperand_eq_self_iff leaf, coerceObject_of_leaf leaf]
  constructor
  · intro unchanged
    have written := Entries.get?_put members RestrictionKey.value.name (coerceOperand value)
      RestrictionKey.value.name
    rw [unchanged, found, if_pos rfl] at written
    exact (Option.some.inj written).symm
  · intro unchanged
    rw [unchanged, Entries.put_of_get? found]

theorem mapValues_coerceNode_eq_self_iff (members : Mapping) :
    members.mapValues coerceNode = members ↔ ∀ entry ∈ members, coerceNode entry.2 = entry.2 := by
  conv => lhs; rhs; rw [← Entries.mapValues_id members]
  exact Entries.mapValues_inj coerceNode id members

theorem map_coerceNode_eq_self_iff (items : List Json) :
    items.map coerceNode = items ↔ ∀ item ∈ items, coerceNode item = item := by
  conv => lhs; rhs; rw [← List.map_id items]
  exact List.map_inj_left

theorem coerceNode_eq_self_iff (json : Json) :
    coerceNode json = json ↔ AllLeaves json fun leaf => ∀ n, ¬ LeafReadsAs leaf n := by
  induction json using Json.induction with
  | scalar json scalar =>
      simp only [coerceNode_of_isScalar scalar, allLeaves_of_isScalar scalar]
  | array items ih =>
      rw [coerceNode_array, Json.array.injEq, map_coerceNode_eq_self_iff, allLeaves_array]
      exact forall₂_congr ih
  | object members ih =>
      rw [coerceNode_object, Json.object.injEq]
      cases leaf : leafValue? members with
      | some value => rw [allLeaves_of_leaf leaf, coerceObject_eq_self_of_leaf leaf]
      | none =>
          rw [allLeaves_of_not_leaf leaf, coerceObject_of_not_leaf leaf,
            mapValues_coerceNode_eq_self_iff]
          exact forall₂_congr ih

/-- Coercion changes a value unless no leaf that it comes to reads as an integer. -/
theorem coerce_eq_self_iff (json : Json) :
    coerce json = json ↔ ∀ leaf, VisitsLeaf json leaf → ∀ n, ¬ LeafReadsAs leaf n := by
  rw [forall_visitsLeaf]
  simp only [← coerceNode_eq_self_iff]
  cases json with
  | array items =>
      rw [coerce, coerceItems_eq, Json.array.injEq, map_coerceNode_eq_self_iff, Json.children]
  | object members =>
      rw [coerce, coerceMembers_eq, Json.object.injEq, mapValues_coerceNode_eq_self_iff,
        Json.children, List.forall_mem_map]
  | _ => simp [coerce, Json.children]

/-! The second pass. -/

@[simp] theorem coerceOperand_coerceOperand (value : Json) :
    coerceOperand (coerceOperand value) = coerceOperand value := by
  cases value with
  | string s =>
      cases read : NumericText.toInt64? s with
      | none => simp [coerceOperand, read]
      | some n => simp [coerceOperand, read]
  | _ => rfl

/-- The new operand of a leaf is truthy like the old one, unless it is zero. -/
theorem isTruthy_coerceOperand {members : Mapping} {value : Json}
    (leaf : leafValue? members = some value) (nonzero : ¬ LeafReadsAs members 0) :
    (coerceOperand value).isTruthy := by
  have truthy := (leafValue?_eq_some_iff.mp leaf).2
  cases value with
  | string s =>
      cases read : NumericText.toInt64? s with
      | none => simpa [coerceOperand, read] using truthy
      | some n =>
          have ne : n ≠ 0 := by
            rintro rfl
            exact nonzero ⟨s, leaf, read⟩
          simpa [coerceOperand, read, Json.isTruthy] using ne
  | _ => exact truthy

theorem coerceObject_coerceObject_of_leaf {members : Mapping} {value : Json}
    (leaf : leafValue? members = some value) (nonzero : ¬ LeafReadsAs members 0) :
    coerceObject (coerceObject members) = coerceObject members := by
  have written : leafValue? (coerceObject members) = some (coerceOperand value) := by
    refine leafValue?_eq_some_iff.mpr ⟨?_, isTruthy_coerceOperand leaf nonzero⟩
    rw [coerceObject_of_leaf leaf, Entries.get?_put, if_pos rfl]
  rw [coerceObject_of_leaf written, coerceOperand_coerceOperand]
  exact Entries.put_of_get? (leafValue?_eq_some_iff.mp written).1

/-- A leaf that reads as zero is visited like any other node by the second pass. -/
theorem coerceObject_coerceObject_of_zero {members : Mapping} (zero : LeafReadsAs members 0) :
    coerceObject (coerceObject members) = coerceObject members ↔
      ∀ entry ∈ members, coerceNode entry.2 = entry.2 := by
  obtain ⟨s, leaf, read⟩ := zero
  have found := (leafValue?_eq_some_iff.mp leaf).1
  have written : coerceObject members =
      members.put RestrictionKey.value.name (.number (.int 0)) := by
    rw [coerceObject_of_leaf leaf, coerceOperand, read]
  have inner : leafValue? (coerceObject members) = none := by
    rw [leafValue?_eq_none_iff, written, Entries.get?_put, if_pos rfl]
    rintro value ⟨⟩
    rfl
  rw [coerceObject_of_not_leaf inner, mapValues_coerceNode_eq_self_iff, written]
  exact Entries.forall_mem_put (P := fun json => coerceNode json = json) found
    (coerceNode_of_isScalar trivial) (coerceNode_of_isScalar trivial)

theorem coerceObject_coerceObject_of_not_leaf {members : Mapping}
    (inner : leafValue? members = none) :
    coerceObject (coerceObject members) = coerceObject members ↔
      ∀ entry ∈ members, coerceNode (coerceNode entry.2) = coerceNode entry.2 := by
  have still : leafValue? (coerceObject members) = none := by
    rw [leafValue?_eq_none_iff, coerceObject_of_not_leaf inner, Entries.get?_mapValues]
    intro value found
    obtain ⟨old, foundOld, rfl⟩ := Option.map_eq_some_iff.mp found
    have falsy := leafValue?_eq_none_iff.mp inner old foundOld
    rwa [coerceNode_of_not_truthy falsy]
  rw [coerceObject_of_not_leaf still, coerceObject_of_not_leaf inner, Entries.mapValues_mapValues]
  exact Entries.mapValues_inj (coerceNode ∘ coerceNode) coerceNode members

theorem coerceNode_coerceNode_eq_iff (json : Json) :
    coerceNode (coerceNode json) = coerceNode json ↔
      AllLeaves json fun outer =>
        LeafReadsAs outer 0 → ∀ entry ∈ outer, coerceNode entry.2 = entry.2 := by
  induction json using Json.induction with
  | scalar json scalar =>
      simp only [coerceNode_of_isScalar scalar, allLeaves_of_isScalar scalar]
  | array items ih =>
      rw [coerceNode_array, coerceNode_array, Json.array.injEq, List.map_map, List.map_inj_left,
        allLeaves_array]
      exact forall₂_congr ih
  | object members ih =>
      rw [coerceNode_object, coerceNode_object, Json.object.injEq]
      cases leaf : leafValue? members with
      | some value =>
          rw [allLeaves_of_leaf leaf]
          by_cases zero : LeafReadsAs members 0
          · rw [coerceObject_coerceObject_of_zero zero]
            exact ⟨fun fixed _ => fixed, fun fixed => fixed zero⟩
          · simp only [coerceObject_coerceObject_of_leaf leaf zero, zero, false_implies]
      | none =>
          rw [allLeaves_of_not_leaf leaf, coerceObject_coerceObject_of_not_leaf leaf]
          exact forall₂_congr ih

theorem coerce_coerce_eq_iff_forall_children (json : Json) :
    coerce (coerce json) = coerce json ↔
      ∀ child ∈ json.children, coerceNode (coerceNode child) = coerceNode child := by
  cases json with
  | array items =>
      simp only [coerce, coerceItems_eq, Json.array.injEq, List.map_map, List.map_inj_left,
        Json.children, Function.comp_apply]
  | object members =>
      simp only [coerce, coerceMembers_eq, Json.object.injEq, Entries.mapValues_mapValues,
        Entries.mapValues_inj, Json.children, List.forall_mem_map, Function.comp_apply]
  | _ => simp [coerce, Json.children]

/-- Coercing twice is coercing once, unless a leaf that reads as zero holds another leaf that reads
as an integer. -/
theorem coerce_coerce_eq_iff (json : Json) :
    coerce (coerce json) = coerce json ↔
      ∀ outer inner, VisitsLeaf json outer → LeafReadsAs outer 0 →
        VisitsLeaf (.object outer) inner → ∀ n, ¬ LeafReadsAs inner n := by
  have members (outer : Mapping) :
      (∀ entry ∈ outer, coerceNode entry.2 = entry.2) ↔
        ∀ inner, VisitsLeaf (.object outer) inner → ∀ n, ¬ LeafReadsAs inner n := by
    rw [forall_visitsLeaf, Json.children, List.forall_mem_map]
    exact forall₂_congr fun entry _ => coerceNode_eq_self_iff entry.2
  rw [coerce_coerce_eq_iff_forall_children]
  simp only [coerceNode_coerceNode_eq_iff, members, ← forall_visitsLeaf]
  constructor
  · intro once outer inner visited zero below
    exact once outer visited zero inner below
  · intro once outer visited zero inner below
    exact once outer inner visited zero below

/-- Here the outer leaf holds one half, which becomes zero, and the inner one becomes five only in
the second pass. -/
theorem coerce_coerce_ne :
    let inner : Json := .object [("value", .string "5")]
    let outer : Json := .object [("value", .string "0.5"), ("inner", inner)]
    let json : Json := .object [("outer", outer)]
    coerce (coerce json) ≠ coerce json := by
  decide +kernel

end Winnow
