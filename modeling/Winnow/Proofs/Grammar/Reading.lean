import Winnow.Demand.Basic
import Winnow.Proofs.Entries
import Winnow.Proofs.Grammar.Key
import Winnow.Proofs.Json

/-!
# The grammar of demands

What a raw entry reads as, said without the order in which it is read and without faults. Each
relation is what the reader of the same level accepts.
-/

namespace Winnow

inductive OperandReads : Json → Operand → Prop
  | scalar {json value} (read : Scalar.ofJson? json = some value) :
      OperandReads json (.scalar value)
  | list {items values}
      (read : List.Forall₂ (fun item value => Scalar.ofJson? item = some value) items values) :
      OperandReads (.array items) (.list values)

inductive RestrictionReads : Json → Restriction → Prop
  | intro {members : Mapping} {tag json operand}
      (operator : members.get? RestrictionKey.operator.name = some tag)
      (value : members.get? RestrictionKey.value.name = some json)
      (read : OperandReads json operand) :
      RestrictionReads (.object members) ⟨Restriction.operatorTag tag, operand⟩

structure MemberReads (entry : String × Json) (member : Member) : Prop where
  target : Spells entry.1 member.target
  restrictions : List.Forall₂ RestrictionReads entry.2.listed member.restrictions

/-- An object with an operator is a leaf, any other is a group. -/
inductive NodeReads : String × Json → Node → Prop
  | leaf {key target restriction} {members : Mapping}
      (operator : RestrictionKey.operator.name ∈ members.keys) (spelled : Spells key target)
      (read : RestrictionReads (.object members) restriction) :
      NodeReads (key, .object members) (.leaf ⟨target, restriction⟩)
  | group {key connective group} {members : Mapping}
      (operator : RestrictionKey.operator.name ∉ members.keys)
      (connects : Connects key connective) (read : List.Forall₂ MemberReads members group) :
      NodeReads (key, .object members) (.group connective ⟨key, group⟩)

theorem Operand.read_eq_ok_iff {place : Place} {json : Json} {operand : Operand} :
    read place json = .ok operand ↔ OperandReads json operand := by
  unfold read
  cases scalar : Scalar.ofJson? json with
  | some value =>
      constructor
      · intro read
        cases read
        exact .scalar scalar
      · intro reads
        cases reads with
        | scalar read => cases scalar.symm.trans read; rfl
        | list read => cases scalar
  | none =>
      cases json with
      | array items =>
          simp only [Outcome.map_eq_ok_iff, Outcome.mapM_eq_ok_iff]
          constructor
          · intro ⟨values, read, same⟩
            rw [← same]
            refine .list (read.imp fun item value step => ?_)
            split at step
            · next found => rw [found, Except.ok.inj step]
            · cases step
          · intro reads
            cases reads with
            | scalar read => cases read
            | list read =>
                refine ⟨_, read.imp fun item value found => ?_, rfl⟩
                rw [found]
      | object members =>
          refine ⟨fun impossible => (by cases impossible), ?_⟩
          intro reads
          cases reads with
          | scalar read => cases read
      | number n => cases n <;> cases scalar
      | null | bool _ | string _ => cases scalar

theorem OperandReads.unique {json : Json} {operand operand' : Operand}
    (reads : OperandReads json operand) (reads' : OperandReads json operand') :
    operand = operand' := by
  have read : Operand.read .root json = .ok operand := Operand.read_eq_ok_iff.mpr reads
  rw [Operand.read_eq_ok_iff.mpr reads'] at read
  exact (Except.ok.inj read).symm

theorem Restriction.require_eq_ok_iff {place : Place} {members : Mapping} {key : RestrictionKey}
    {json : Json} : require place members key = .ok json ↔ members.get? key.name = some json := by
  rw [require]
  cases members.get? key.name <;> simp

theorem Restriction.read_eq_ok_iff {place : Place} {members : Mapping}
    {restriction : Restriction} :
    read place members = .ok restriction ↔ RestrictionReads (.object members) restriction := by
  simp only [read, Outcome.bind_eq_ok_iff, require_eq_ok_iff, Operand.read_eq_ok_iff]
  constructor
  · intro ⟨tag, operator, json, value, operand, read, same⟩
    cases same
    exact .intro operator value read
  · intro reads
    cases reads with
    | intro operator value read => exact ⟨_, operator, _, value, _, read, rfl⟩

theorem expectMapping_eq_ok_iff {place : Place} {json : Json} {members : Mapping} :
    expectMapping place json = .ok members ↔ json = .object members := by
  cases json <;> simp [expectMapping]

theorem RestrictionReads.exists_members {json : Json} {restriction : Restriction}
    (reads : RestrictionReads json restriction) : ∃ members, json = .object members := by
  cases reads with
  | intro => exact ⟨_, rfl⟩

theorem RestrictionReads.unique {json : Json} {restriction restriction' : Restriction}
    (reads : RestrictionReads json restriction) (reads' : RestrictionReads json restriction') :
    restriction = restriction' := by
  obtain ⟨members, rfl⟩ := reads.exists_members
  have read : Restriction.read .root members = .ok restriction :=
    Restriction.read_eq_ok_iff.mpr reads
  rw [Restriction.read_eq_ok_iff.mpr reads'] at read
  exact (Except.ok.inj read).symm

theorem Restriction.read_expectMapping_eq_ok_iff {place : Place} {json : Json}
    {restriction : Restriction} :
    (expectMapping place json >>= read place) = .ok restriction ↔
      RestrictionReads json restriction := by
  simp only [Outcome.bind_eq_ok_iff, expectMapping_eq_ok_iff, read_eq_ok_iff]
  constructor
  · intro ⟨members, same, reads⟩
    rw [same]
    exact reads
  · intro reads
    obtain ⟨members, rfl⟩ := reads.exists_members
    exact ⟨members, rfl, reads⟩

theorem Restriction.readMany_eq_ok_iff {group key : String} {json : Json}
    {restrictions : List Restriction} :
    readMany group key json = .ok restrictions ↔
      List.Forall₂ RestrictionReads json.listed restrictions := by
  cases json with
  | object members =>
      simp only [readMany, Outcome.bind_eq_ok_iff, read_eq_ok_iff, Json.listed,
        List.forall₂_cons_left_iff, List.forall₂_nil_left_iff]
      constructor
      · intro ⟨restriction, reads, same⟩
        cases same
        exact ⟨restriction, [], reads, rfl, rfl⟩
      · intro ⟨restriction, _, reads, last, same⟩
        rw [same, last]
        exact ⟨restriction, reads, rfl⟩
  | array items =>
      rw [readMany, Outcome.mapM_eq_ok_iff, Json.listed]
      simp only [read_expectMapping_eq_ok_iff]
      -- Positions are read for the faults alone.
      rw [← List.forall₂_map_left_iff (f := Prod.fst) (R := RestrictionReads),
        List.zipIdx_map_fst]
  | _ =>
      refine ⟨fun impossible => (by cases impossible), ?_⟩
      intro reads
      cases reads with
      | cons first _ => cases first

theorem Node.readMember_eq_ok_iff {group : String} {entry : String × Json} {member : Member} :
    readMember group entry = .ok member ↔ MemberReads entry member := by
  simp only [readMember, Outcome.bind_eq_ok_iff, FieldAlias.read_eq_ok_iff,
    Restriction.readMany_eq_ok_iff]
  constructor
  · intro ⟨target, spelled, restrictions, reads, same⟩
    cases same
    exact ⟨spelled, reads⟩
  · intro ⟨spelled, reads⟩
    exact ⟨_, spelled, _, reads, rfl⟩

theorem Node.readGroup_eq_ok_iff {key : String} {members : Mapping} {node : Node} :
    readGroup key members = .ok node ↔
      ∃ connective group, Connects key connective ∧ List.Forall₂ MemberReads members group ∧
        node = .group connective ⟨key, group⟩ := by
  simp only [readGroup, Outcome.bind_eq_ok_iff, Connective.ofKey_eq_ok_iff,
    Outcome.mapM_eq_ok_iff, readMember_eq_ok_iff]
  constructor
  · intro ⟨connective, connects, grouped, reads, same⟩
    cases same
    exact ⟨connective, grouped, connects, reads, rfl⟩
  · intro ⟨connective, grouped, connects, reads, same⟩
    rw [same]
    exact ⟨connective, connects, grouped, reads, rfl⟩

/-- Reading an entry accepts what the grammar does, and as the same node. -/
theorem Node.read_eq_ok_iff {key : String} {json : Json} {node : Node} :
    read key json = .ok node ↔ NodeReads (key, json) node := by
  rw [read]
  simp only [Outcome.bind_eq_ok_iff, expectMapping_eq_ok_iff, Entries.isSome_get?_iff]
  constructor
  · intro ⟨members, same, reads⟩
    rw [same]
    split at reads
    · next operator =>
      simp only [Outcome.bind_eq_ok_iff, FieldAlias.read_eq_ok_iff,
        Restriction.read_eq_ok_iff] at reads
      obtain ⟨target, spelled, restriction, reads, ⟨⟩⟩ := reads
      exact .leaf operator spelled reads
    · next operator =>
      obtain ⟨connective, group, connects, groupReads, rfl⟩ := readGroup_eq_ok_iff.mp reads
      exact .group operator connects groupReads
  · intro reads
    cases reads with
    | @leaf _ _ _ members operator spelled reads =>
        refine ⟨members, rfl, ?_⟩
        rw [if_pos operator]
        simp only [Outcome.bind_eq_ok_iff, FieldAlias.read_eq_ok_iff,
          Restriction.read_eq_ok_iff]
        exact ⟨_, spelled, _, reads, rfl⟩
    | @group _ _ _ members operator connects reads =>
        refine ⟨members, rfl, ?_⟩
        rw [if_neg operator]
        exact readGroup_eq_ok_iff.mpr ⟨_, _, connects, reads, rfl⟩

theorem Demand.readEntry_eq_ok_iff {entry : String × Json} {result : String × Node} :
    readEntry entry = .ok result ↔ result.1 = entry.1 ∧ NodeReads entry result.2 := by
  simp only [readEntry, Outcome.bind_eq_ok_iff, Node.read_eq_ok_iff]
  constructor
  · intro ⟨node, reads, same⟩
    cases same
    exact ⟨rfl, reads⟩
  · intro ⟨sameKey, reads⟩
    exact ⟨result.2, reads, congrArg Except.ok (Prod.ext sameKey.symm rfl)⟩

theorem Demand.exists_readEntry_iff {entry : String × Json} :
    (∃ result, readEntry entry = .ok result) ↔ ∃ node, NodeReads entry node := by
  simp only [readEntry_eq_ok_iff]
  constructor
  · intro ⟨result, _, reads⟩
    exact ⟨result.2, reads⟩
  · intro ⟨node, reads⟩
    exact ⟨(_, node), rfl, reads⟩

theorem Demand.read_eq_ok_iff_mapM {raw : Mapping} {demand : Demand} :
    read raw = .ok demand ↔ raw.mapM readEntry = .ok demand.entries := by
  obtain ⟨entries⟩ := demand
  rw [read]
  cases raw.mapM readEntry with
  | error fault => simp
  | ok found => exact ⟨fun same => by cases same; rfl, fun same => by cases same; rfl⟩

end Winnow
