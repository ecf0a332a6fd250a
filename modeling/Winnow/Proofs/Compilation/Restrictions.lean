import Winnow.Proofs.Compilation.Meaning

/-!
# The restrictions of a demand in order

A tree is put together from what restrictions emit, in their order, so that what is read off a tree
from left to right is read off its restrictions, one after the other. The restrictions that a demand
has once read are those that are written in it, entry by entry and member by member.
-/

namespace Winnow

/-- The restrictions of a node with their fields, in order. -/
def Node.restrictions : Node → List FieldRestriction
  | .leaf r => [r]
  | .group _ grouped => grouped.restrictions

def Demand.restrictions (demand : Demand) : List FieldRestriction :=
  demand.entries.flatMap fun entry => entry.2.restrictions

/-! Reading something off a tree. -/

section Contribution

variable {α : Type u} {f : Predicate → List α} {g : FieldRestriction → List α}
variable {policy : UnknownOperatorPolicy} {aliases : TableAliases}

theorem Predicate.apply_joined
    (combine : ∀ (connective : Connective) parts,
      f (connective.combine parts) = parts.flatMap f) (parts : List Predicate) :
    f (joined parts) = parts.flatMap f := by
  match parts with
  | [part] => rw [joined, List.flatMap_singleton]
  | [] | first :: second :: rest => exact combine .all _

theorem flatMap_eq_of_forall₂ {σ : Type v} {h : σ → List α} {sources : List σ}
    {parts : List Predicate} (each : List.Forall₂ (fun s part => f part = h s) sources parts) :
    parts.flatMap f = sources.flatMap h := by
  induction each with
  | nil => rfl
  | cons head _ ih => rw [List.flatMap_cons, List.flatMap_cons, head, ih]

variable (combine : ∀ (connective : Connective) parts,
  f (connective.combine parts) = parts.flatMap f)
variable (each : ∀ (r : FieldRestriction) part,
  Emits policy (r.target.qualified aliases) r.restriction part → f part = g r)

include combine each

theorem NodeEmits.apply_eq {node : Node} {part : Predicate}
    (emits : NodeEmits policy aliases node part) : f part = node.restrictions.flatMap g := by
  cases emits with
  | @leaf target restriction part emits =>
      rw [Node.restrictions, List.flatMap_singleton, each ⟨target, restriction⟩ part emits]
  | group emits =>
      rw [combine, Node.restrictions]
      exact flatMap_eq_of_forall₂ (emits.imp each)

theorem Demand.apply_eq {demand : Demand} {parts : List Predicate}
    (emits : List.Forall₂ (fun entry part => NodeEmits policy aliases entry.2 part)
      demand.entries parts) :
    f (joined parts) = demand.restrictions.flatMap g := by
  have nodes := emits.imp fun (entry : String × Node) part => NodeEmits.apply_eq combine each
  rw [Predicate.apply_joined combine, flatMap_eq_of_forall₂ nodes, restrictions, List.flatMap_assoc]

end Contribution

/-! Written restrictions. -/

/-- The restrictions of an entry as they are written, each with the key it stands under. -/
def entryRestrictions (entry : String × Json) : List (String × Json) :=
  match entry.2 with
  | .object members =>
    if RestrictionKey.operator.name ∈ Entries.keys members then [entry]
    else writtenRestrictions members
  | _ => []

def demandRestrictions (raw : Mapping) : List (String × Json) :=
  raw.flatMap entryRestrictions

/-- The alias of the field that a written restriction is about, for each comparison or bare field
that it stands for: twice for a range, and once otherwise. -/
inductive Mentions : String × Json → List FieldAlias → Prop
  | range {key json target} (spelled : Spells key target)
      (range : json.member? RestrictionKey.operator.name = some (.string OperatorTag.rangeTag)) :
      Mentions (key, json) [target, target]
  | single {key json target} (spelled : Spells key target)
      (other : json.member? RestrictionKey.operator.name ≠ some (.string OperatorTag.rangeTag)) :
      Mentions (key, json) [target]

def FieldRestriction.mentions (r : FieldRestriction) : List FieldAlias :=
  match r.restriction.operator with
  | .range => [r.target, r.target]
  | _ => [r.target]

theorem CoercedReading.operator_eq_range_iff {json : Json} {restriction : Restriction}
    (reading : CoercedReading json restriction) :
    restriction.operator = .range ↔
      json.member? RestrictionKey.operator.name = some (.string OperatorTag.rangeTag) := by
  obtain ⟨before, reads, coerced⟩ := reading
  cases reads with
  | @intro members tag _ _ operator =>
      have written : (Json.object members).member? RestrictionKey.operator.name = some tag :=
        operator
      rw [written, Option.some.injEq, ← Restriction.operatorTag_eq_range_iff]
      rcases coerced.unknown with same | ⟨unknownBefore, unknownAfter⟩
      · rw [same]
      · constructor
        · intro range
          rw [range] at unknownAfter
          cases unknownAfter
        · intro range
          rw [range] at unknownBefore
          cases unknownBefore

theorem CoercedReading.mentions {written : String × Json} {r : FieldRestriction}
    (spelled : Spells written.1 r.target) (reading : CoercedReading written.2 r.restriction) :
    Mentions written r.mentions := by
  have same := reading.operator_eq_range_iff
  rw [FieldRestriction.mentions]
  split
  · next range => exact .range spelled (same.mp range)
  · next other => exact .single spelled fun range => other (same.mpr range)

theorem entryRestrictions_leaf {key : String} {members : Mapping}
    (operator : RestrictionKey.operator.name ∈ members.keys) :
    entryRestrictions (key, .object members) = [(key, .object members)] :=
  if_pos operator

theorem entryRestrictions_group {key : String} {members : Mapping}
    (operator : RestrictionKey.operator.name ∉ members.keys) :
    entryRestrictions (key, .object members) = writtenRestrictions members :=
  if_neg operator

theorem NodeReads.readInOrder {entry : String × Json} {node : Node}
    (reads : NodeReads entry node) :
    ReadInOrder RestrictionReads (entryRestrictions entry) node.restrictions := by
  cases reads with
  | leaf operator spelled read =>
      rw [entryRestrictions_leaf operator]
      exact .cons ⟨spelled, read⟩ .nil
  | group operator connects reads =>
      rw [entryRestrictions_group operator]
      exact Group.readInOrder (reads.imp fun _ _ read => ⟨read.target, read.restrictions⟩)

theorem CoercedNode.readInOrder {entry : String × Json} {before after : Node}
    (reads : NodeReads entry before) (coerced : CoercedNode entry.2 before after) :
    ReadInOrder CoercedReading (entryRestrictions entry) after.restrictions := by
  cases reads with
  | leaf operator spelled read =>
      cases coerced with
      | leaf restriction =>
          rw [entryRestrictions_leaf operator]
          exact .cons ⟨spelled, _, read, restriction⟩ .nil
  | group operator connects reads =>
      cases coerced with
      | group aligned =>
          rw [entryRestrictions_group operator]
          exact CoercedMemberReading.flatten ((aligned.forall₂ reads).imp
            fun _ _ ⟨_, read, coerced⟩ => coerced.reading read)

theorem Demand.readInOrder {raw : Mapping} {demand : Demand} (read : Demand.read raw = .ok demand) :
    ReadInOrder RestrictionReads (demandRestrictions raw) demand.restrictions := by
  have entries := Outcome.mapM_eq_ok_iff.mp (read_eq_ok_iff_mapM.mp read)
  exact List.rel_flatMap entries fun _ _ entry => (readEntry_eq_ok_iff.mp entry).2.readInOrder

/-- Each entry of a raw demand has its restrictions in the entry that it reads as once coerced. -/
theorem Demand.entries_readInOrder {raw : Mapping} {demand : Demand}
    (read : Demand.read (coerceDemand raw) = .ok demand) :
    List.Forall₂ (fun written entry =>
      ReadInOrder CoercedReading (entryRestrictions written) entry.2.restrictions)
      raw demand.entries :=
  (coerced_readings read).imp fun _ _ ⟨_, reads, coerced⟩ => coerced.readInOrder reads

theorem Demand.coerced_readInOrder {raw : Mapping} {demand : Demand}
    (read : Demand.read (coerceDemand raw) = .ok demand) :
    ReadInOrder CoercedReading (demandRestrictions raw) demand.restrictions :=
  List.rel_flatMap (entries_readInOrder read) fun _ _ entry => entry

/-- There is one way to read what is written. -/
theorem ReadInOrder.unique {written : List (String × Json)}
    {restrictions restrictions' : List FieldRestriction}
    (read : ReadInOrder RestrictionReads written restrictions)
    (read' : ReadInOrder RestrictionReads written restrictions') :
    restrictions = restrictions' := by
  refine List.right_unique_forall₂' (fun written r r' reads reads' => ?_) read read'
  obtain ⟨target, restriction⟩ := r
  obtain ⟨target', restriction'⟩ := r'
  obtain rfl : target = target' := reads.1.unique reads'.1
  obtain rfl : restriction = restriction' := reads.2.unique reads'.2
  rfl

theorem Demand.forall₂_mentions {raw : Mapping} {demand : Demand}
    (read : Demand.read (coerceDemand raw) = .ok demand) :
    List.Forall₂ Mentions (demandRestrictions raw)
      (demand.restrictions.map FieldRestriction.mentions) := by
  rw [List.forall₂_map_right_iff]
  exact (coerced_readInOrder read).imp fun _ _ ⟨spelled, reading⟩ => reading.mentions spelled

/-! Names of fields. -/

/-- How a predicate refers to the field of an alias: behind the query alias of its table, if the
table has one. -/
inductive RefersTo (aliases : TableAliases) (target : FieldAlias) : String → Prop
  | mapped {query} (found : aliases.get? target.table = some query) :
      RefersTo aliases target (query ++ "." ++ target.field)
  | unmapped (absent : aliases.get? target.table = none) : RefersTo aliases target target.field

theorem refersTo_qualified (aliases : TableAliases) (target : FieldAlias) :
    RefersTo aliases target (target.qualified aliases) := by
  rw [FieldAlias.qualified]
  cases found : aliases.get? target.table with
  | some query => exact .mapped found
  | none => exact .unmapped found

end Winnow
