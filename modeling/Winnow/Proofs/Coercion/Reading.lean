import Winnow.Demand.Basic
import Winnow.Proofs.Coercion.Node
import Winnow.Proofs.Outcome

/-!
# Reading a coerced demand

Coercion knows nothing of entries, groups and operators, yet reading a coerced demand is reading the
raw one with some operands changed: the faults are the same, and so is everything that is read but
the operands that were strings and the tags of operators that are no scalars.
-/

namespace Winnow

/-- The operand of a coerced restriction. -/
def Operand.coerced : Operand → Operand
  | .scalar (.string s) =>
    if s = "" ∨ s = "0" then .scalar (.string s)
    else
      match NumericText.toInt64? s with
      | some n => .scalar (.int n)
      | none => .scalar (.string s)
  | operand => operand

/-- How two restrictions are related that are read from a source and from the coerced source. -/
structure CoercedRestriction (source : Json) (before after : Restriction) : Prop where
  operand : after.operand = before.operand.coerced
  operator : ∀ tag, source.member? RestrictionKey.operator.name = some tag → tag.IsScalar →
    after.operator = before.operator
  unknown : after.operator = before.operator ∨
    before.operator.isUnknown ∧ after.operator.isUnknown

structure CoercedMember (source : String × Json) (before after : Member) : Prop where
  target : after.target = before.target
  restrictions : Aligned CoercedRestriction source.2.listed before.restrictions after.restrictions

inductive CoercedNode : Json → Node → Node → Prop
  | leaf {source target before after} (restriction : CoercedRestriction source before after) :
      CoercedNode source (.leaf ⟨target, before⟩) (.leaf ⟨target, after⟩)
  | group {source : Mapping} {connective key before after}
      (members : Aligned CoercedMember source before after) :
      CoercedNode (.object source) (.group connective ⟨key, before⟩)
        (.group connective ⟨key, after⟩)

structure CoercedEntry (source : String × Json) (before after : String × Node) : Prop where
  key_before : before.1 = source.1
  key_after : after.1 = source.1
  node : CoercedNode source.2 before.2 after.2

/-! Operands. -/

theorem isTruthy_string_iff (s : String) :
    (Json.string s).isTruthy = true ↔ ¬ (s = "" ∨ s = "0") := by
  simp [Json.isTruthy]

theorem coercedValue_of_not_string {json : Json} (other : json.string? = none) :
    coercedValue json = json := by
  cases json with
  | string s => cases other
  | _ => simp [coercedValue, coerceOperand]

theorem Operand.read_coercedValue (place : Place) (json : Json) :
    Operand.read place (coercedValue json) = Operand.coerced <$> Operand.read place json := by
  cases json with
  | string s =>
      by_cases kept : s = "" ∨ s = "0"
      · have falsy : ¬ (Json.string s).isTruthy = true := by
          rw [isTruthy_string_iff]
          exact fun h => h kept
        simp [coercedValue, falsy, Operand.read, Scalar.ofJson?, Operand.coerced, kept]
      · have truthy := (isTruthy_string_iff s).mpr kept
        cases read : NumericText.toInt64? s with
        | none =>
            simp [coercedValue, truthy, coerceOperand, Operand.read, Scalar.ofJson?,
              Operand.coerced, kept, read]
        | some n =>
            simp [coercedValue, truthy, coerceOperand, Operand.read, Scalar.ofJson?,
              Operand.coerced, kept, read]
  | array items =>
      rw [coercedValue_of_not_string rfl]
      cases outcome : Operand.read place (.array items) with
      | error fault => rfl
      | ok operand =>
          obtain ⟨scalars, _, rfl⟩ := Outcome.map_eq_ok_iff.mp outcome
          rfl
  | number n =>
      rw [coercedValue_of_not_string rfl]
      cases n <;> rfl
  | null | bool _ | object _ =>
      rw [coercedValue_of_not_string rfl]
      rfl

/-! Restrictions. -/

theorem Restriction.require_coerceObject_value (place : Place) (members : Mapping) :
    require place (coerceObject members) .value =
      coercedValue <$> require place members .value := by
  rw [require, require, get?_coerceObject_value]
  cases members.get? RestrictionKey.value.name <;> rfl

/-- A tag that is no string is unknown, coerced or not. -/
theorem isUnknown_operatorTag {json : Json} (other : json.string? = none) :
    (Restriction.operatorTag json).isUnknown := by
  cases json with
  | string s => cases other
  | _ => rfl

theorem string?_coerceNode (json : Json) : (coerceNode json).string? = json.string? := by
  cases json with
  | object members => rw [coerceNode_object]; rfl
  | _ => rfl

/-- The operator of a coerced restriction. -/
theorem Restriction.require_coerceObject_operator (place : Place) (members : Mapping) :
    Agree (fun before after => members.get? RestrictionKey.operator.name = some before ∧
        (after = before ∨ after = coerceNode before))
      (require place members .operator) (require place (coerceObject members) .operator) := by
  rw [require, require]
  have key : RestrictionKey.operator.name ≠ RestrictionKey.value.name := by decide
  rcases get?_coerceObject_of_ne members key with kept | coerced
  · rw [kept]
    cases found : members.get? RestrictionKey.operator.name with
    | none => exact .error _
    | some tag => exact .ok ⟨rfl, .inl rfl⟩
  · rw [coerced]
    cases found : members.get? RestrictionKey.operator.name with
    | none => exact .error _
    | some tag => exact .ok ⟨rfl, .inr rfl⟩

theorem Restriction.read_coerceObject (place : Place) (members : Mapping) :
    Agree (CoercedRestriction (.object members)) (Restriction.read place members)
      (Restriction.read place (coerceObject members)) := by
  refine (Restriction.require_coerceObject_operator place members).bind ?_
  intro before after ⟨found, same⟩
  rw [Restriction.require_coerceObject_value]
  cases Restriction.require place members .value with
  | error fault => exact .error fault
  | ok given =>
      simp only [Except.map_ok, Outcome.ok_bind, Operand.read_coercedValue]
      cases Operand.read place given with
      | error fault => exact .error fault
      | ok operand =>
          refine .ok ⟨rfl, ?_, ?_⟩
          · intro tag foundTag scalar
            cases found.symm.trans foundTag
            rcases same with rfl | rfl
            · rfl
            · rw [coerceNode_of_isScalar scalar]
          · rcases same with rfl | rfl
            · exact .inl rfl
            · cases text : before.string? with
              | some s =>
                  left
                  rw [coerceNode_of_isScalar]
                  cases before with
                  | string _ => trivial
                  | _ => cases text
              | none =>
                  right
                  exact ⟨isUnknown_operatorTag text,
                    isUnknown_operatorTag ((string?_coerceNode before).trans text)⟩

theorem Restriction.read_coerceNode (place : Place) (json : Json) :
    Agree (CoercedRestriction json) (expectMapping place json >>= Restriction.read place)
      (expectMapping place (coerceNode json) >>= Restriction.read place) := by
  cases json with
  | object members =>
      rw [coerceNode_object]
      exact Restriction.read_coerceObject place members
  | array items =>
      rw [coerceNode_array]
      exact .error _
  | _ => exact .error _

theorem Restriction.readMany_coerceNode (group key : String) (json : Json) :
    Agree (Aligned CoercedRestriction json.listed) (readMany group key json)
      (readMany group key (coerceNode json)) := by
  cases json with
  | object members =>
      rw [coerceNode_object]
      refine (Restriction.read_coerceObject _ members).bind ?_
      intro before after coerced
      exact .ok (.cons coerced .nil)
  | array items =>
      rw [coerceNode_array, readMany, readMany, List.zipIdx_map, List.mapM_map]
      have steps := Agree.mapM (R := fun (item : Json × Nat) => CoercedRestriction item.1)
        items.zipIdx fun item _ =>
          Restriction.read_coerceNode (.listed group key item.2) item.1
      refine steps.imp fun before after aligned => ?_
      rw [Json.listed, ← List.zipIdx_map_fst 0 items]
      exact Aligned.map_left Prod.fst aligned
  | _ => exact .error _

/-! Groups. -/

theorem Node.readMember_coerceNode (group : String) (entry : String × Json) :
    Agree (CoercedMember entry) (readMember group entry)
      (readMember group (entry.1, coerceNode entry.2)) := by
  rw [readMember, readMember]
  cases FieldAlias.read entry.1 with
  | error fault => exact .error fault
  | ok target =>
      refine (Restriction.readMany_coerceNode group entry.1 entry.2).bind ?_
      intro before after aligned
      exact .ok ⟨rfl, aligned⟩

/-- The key of an operand is no field alias, so that a group with such a member is refused. -/
theorem FieldAlias.read_value :
    FieldAlias.read RestrictionKey.value.name =
      .error (.malformedAlias RestrictionKey.value.name .noSeparator) := by
  decide

theorem Node.readMember_value (group : String) (json : Json) :
    readMember group (RestrictionKey.value.name, json) =
      .error (.malformedAlias RestrictionKey.value.name .noSeparator) := by
  rw [readMember, FieldAlias.read_value]
  rfl

/-- A write under a key at which a step fails anyhow is not seen. -/
theorem Entries.mapM_put_of_error {ε α β : Type} {f : String × α → Except ε β} {k : String}
    {e : ε} (failed : ∀ v, f (k, v) = .error e) (entries : Entries α) (v : α)
    (member : k ∈ entries.keys) : (entries.put k v).mapM f = entries.mapM f := by
  induction entries with
  | nil => cases member
  | cons entry rest ih =>
      obtain ⟨key, old⟩ := entry
      by_cases equality : key = k
      · subst equality
        simp only [Entries.put, if_pos, List.mapM_cons, failed, Outcome.error_bind]
      · have later : k ∈ Entries.keys rest := by
          rcases List.mem_cons.mp member with rfl | later
          · exact absurd rfl equality
          · exact later
        simp only [Entries.put, if_neg equality, List.mapM_cons, ih later]

theorem Node.mapM_readMember_coerceObject (group : String) (members : Mapping) :
    Agree (Aligned CoercedMember members) (members.mapM (readMember group))
      ((coerceObject members).mapM (readMember group)) := by
  cases leaf : leafValue? members with
  | none =>
      rw [coerceObject_of_not_leaf leaf, Entries.mapValues, List.mapM_map]
      exact Agree.mapM members fun entry _ => readMember_coerceNode group entry
  | some value =>
      -- Coercion takes such a group for a leaf; it is refused before and after.
      have found := (leafValue?_eq_some_iff.mp leaf).1
      have member : RestrictionKey.value.name ∈ members.keys := by
        rw [← Entries.isSome_get?_iff, found]
        rfl
      rw [coerceObject_of_leaf leaf,
        Entries.mapM_put_of_error (readMember_value group) members _ member]
      obtain ⟨fault, failed⟩ := Outcome.exists_mapM_eq_error (Entries.mem_of_get? found)
        ⟨_, readMember_value group value⟩
      rw [failed]
      exact .error fault

theorem Node.readGroup_coerceObject (key : String) (members : Mapping) :
    Agree (CoercedNode (.object members)) (readGroup key members)
      (readGroup key (coerceObject members)) := by
  rw [readGroup, readGroup]
  cases Connective.ofKey key with
  | error fault => exact .error fault
  | ok connective =>
      refine (mapM_readMember_coerceObject key members).bind ?_
      intro before after aligned
      exact .ok (.group aligned)

/-! Entries. -/

theorem Node.read_coerceNode (key : String) (json : Json) :
    Agree (CoercedNode json) (read key json) (read key (coerceNode json)) := by
  cases json with
  | object members =>
      rw [coerceNode_object]
      have sameKeys :
          (Entries.get? (coerceObject members) RestrictionKey.operator.name).isSome =
            (Entries.get? members RestrictionKey.operator.name).isSome := by
        rw [Bool.eq_iff_iff, Entries.isSome_get?_iff, Entries.isSome_get?_iff, keys_coerceObject]
      simp only [read, expectMapping, Outcome.ok_bind, sameKeys]
      split
      · cases FieldAlias.read key with
        | error fault => exact .error fault
        | ok target =>
            refine (Restriction.read_coerceObject (.entry key) members).bind ?_
            intro before after coerced
            exact .ok (.leaf coerced)
      · exact readGroup_coerceObject key members
  | array items =>
      rw [coerceNode_array]
      exact .error _
  | _ => exact .error _

theorem Demand.readEntry_coerceNode (entry : String × Json) :
    Agree (CoercedEntry entry) (readEntry entry) (readEntry (entry.1, coerceNode entry.2)) := by
  refine (Node.read_coerceNode entry.1 entry.2).bind ?_
  intro before after coerced
  exact .ok ⟨rfl, rfl, coerced⟩

theorem coerceDemand_eq (raw : Mapping) : coerceDemand raw = raw.mapValues coerceNode :=
  coerceMembers_eq raw

theorem Demand.mapM_readEntry_coerceDemand (raw : Mapping) :
    Agree (Aligned CoercedEntry raw) (raw.mapM readEntry)
      ((coerceDemand raw).mapM readEntry) := by
  rw [coerceDemand_eq, Entries.mapValues, List.mapM_map]
  exact Agree.mapM raw fun entry _ => readEntry_coerceNode entry

/-- A coerced demand reads as the raw demand does, faults and order included, with coerced
operands. -/
theorem Demand.read_coerceDemand (raw : Mapping) :
    Agree (fun before after : Demand => Aligned CoercedEntry raw before.entries after.entries)
      (read raw) (read (coerceDemand raw)) := by
  refine (mapM_readEntry_coerceDemand raw).bind ?_
  intro before after aligned
  exact .ok aligned

end Winnow
