import Winnow.Compiler
import Winnow.Proofs.Effects

/-!
# The tree that a demand compiles to

`Compiler.tree?` is the predicate tree of a raw demand. What each level of a demand emits is said
by a relation, and the compiler succeeds where the relation has a tree, with that tree.
-/

namespace Winnow

/-- The predicate tree of a raw demand, or why there is none. -/
def Compiler.tree? (compiler : Compiler) (aliases : TableAliases) (raw : Mapping) :
    Except Fault Predicate :=
  outcome (compiler.compile aliases Builder.tree raw)

/-- What a restriction on a field emits. -/
inductive Emits (policy : UnknownOperatorPolicy) (field : String) : Restriction → Predicate → Prop
  | compare (op value) :
      Emits policy field ⟨.compare op, .scalar value⟩ (.compare field op value)
  | range (low high) :
      Emits policy field ⟨.range, .list [low, high]⟩
        (.conj [.compare field .gte low, .compare field .lte high])
  | bare (tag operand) (placeholder : policy = .placeholder) :
      Emits policy field ⟨.unknown tag, operand⟩ (.bare field)

def Connective.combine : Connective → List Predicate → Predicate
  | .any, parts => .disj parts
  | .all, parts => .conj parts

/-- The operation that a builder has for a connective. -/
def Connective.build {m : Type → Type} {P : Type} (b : Builder m P) : Connective → List P → m P
  | .any => b.disj
  | .all => b.conj

inductive NodeEmits (policy : UnknownOperatorPolicy) (aliases : TableAliases) :
    Node → Predicate → Prop
  | leaf {target restriction part}
      (emits : Emits policy (target.qualified aliases) restriction part) :
      NodeEmits policy aliases (.leaf ⟨target, restriction⟩) part
  | group {connective group parts}
      (emits : List.Forall₂
        (fun r part => Emits policy (r.target.qualified aliases) r.restriction part)
        (Group.restrictions group) parts) :
      NodeEmits policy aliases (.group connective group) (connective.combine parts)

theorem nodeEmits_leaf_iff {policy : UnknownOperatorPolicy} {aliases : TableAliases}
    {r : FieldRestriction} {part : Predicate} :
    NodeEmits policy aliases (.leaf r) part ↔
      Emits policy (r.target.qualified aliases) r.restriction part := by
  constructor
  · intro emits
    cases emits with
    | leaf emits => exact emits
  · exact .leaf

theorem nodeEmits_group_iff {policy : UnknownOperatorPolicy} {aliases : TableAliases}
    {connective : Connective} {group : Group} {part : Predicate} :
    NodeEmits policy aliases (.group connective group) part ↔
      ∃ parts, List.Forall₂
        (fun r part => Emits policy (r.target.qualified aliases) r.restriction part)
        group.restrictions parts ∧ connective.combine parts = part := by
  constructor
  · intro emits
    cases emits with
    | group emits => exact ⟨_, emits, rfl⟩
  · intro ⟨parts, emits, same⟩
    rw [← same]
    exact .group emits

/-- One part stands for itself; any other number of parts is a conjunction. -/
def joined : List Predicate → Predicate
  | [part] => part
  | parts => .conj parts

theorem Operand.eq_list_of_pair? {operand : Operand} {low high : Scalar}
    (pair : operand.pair? = some (low, high)) : operand = .list [low, high] := by
  unfold pair? at pair
  split at pair
  · cases pair
    rfl
  · cases pair

namespace Compiler

variable {compiler : Compiler} {aliases : TableAliases}

/-! What each level of compilation does with the levels below it, where building has no effects. -/

section Builders

variable {P : Type} (b : Builder Id P)

theorem outcome_compileNode_group (connective : Connective) (group : Group) :
    outcome (compiler.compileNode aliases b (.group connective group)) =
      (connective.build b · |>.run) <$> outcome (compiler.compileGroup aliases b group) := by
  cases connective <;> rw [compileNode, outcome_bind] <;>
    cases outcome (compiler.compileGroup aliases b group) <;> rfl

theorem outcome_compileDemand (demand : Demand) :
    outcome (compiler.compileDemand aliases b demand) =
      (join b · |>.run) <$> demand.entries.mapM fun entry =>
        outcome (compiler.compileNode aliases b entry.2) := by
  rw [compileDemand, outcome_bind, outcome_mapM]
  cases demand.entries.mapM fun entry => outcome (compiler.compileNode aliases b entry.2) with
  | error fault => rfl
  | ok parts => rfl

theorem outcome_compile (raw : Mapping) :
    outcome (compiler.compile aliases b raw) =
      Demand.read (coerceDemand raw) >>= fun demand =>
        outcome (compiler.compileDemand aliases b demand) := by
  rw [compile, outcome_bind, outcome_ofExcept]

end Builders

/-! The tree. -/

theorem outcome_compileRestriction_eq_ok_iff {target : FieldAlias} {restriction : Restriction}
    {part : Predicate} :
    outcome (compiler.compileRestriction aliases Builder.tree target restriction) = .ok part ↔
      Emits compiler.unknownOperator (target.qualified aliases) restriction part := by
  constructor
  · intro compiled
    obtain ⟨operator, operand⟩ := restriction
    cases operator with
    | compare op =>
        cases operand with
        | scalar value =>
            have same : .compare (target.qualified aliases) op value = part := by
              simpa [compileRestriction, Operand.scalar?] using compiled
            rw [← same]
            exact .compare op value
        | list values => cases compiled
    | range =>
        rw [compileRestriction] at compiled
        cases bounds : operand.pair? with
        | none => simp [bounds] at compiled
        | some pair =>
            obtain ⟨low, high⟩ := pair
            have same : .conj [.compare (target.qualified aliases) .gte low,
                .compare (target.qualified aliases) .lte high] = part := by
              simpa [bounds, outcome_bind, Builder.tree] using compiled
            rw [← same, Operand.eq_list_of_pair? bounds]
            exact .range low high
    | unknown tag =>
        cases policy : compiler.unknownOperator with
        | placeholder =>
            have same : .bare (target.qualified aliases) = part := by
              simpa [compileRestriction, policy, Builder.tree] using compiled
            rw [← same]
            exact .bare tag operand rfl
        | reject =>
            simp [compileRestriction, policy] at compiled
  · intro emits
    cases emits with
    | compare op value => cases op <;> rfl
    | range low high => rfl
    | bare tag operand placeholder => simp [compileRestriction, placeholder]; rfl

theorem outcome_compileGroup_eq_ok_iff {group : Group} {parts : List Predicate} :
    outcome (compiler.compileGroup aliases Builder.tree group) = .ok parts ↔
      List.Forall₂ (fun r part =>
        Emits compiler.unknownOperator (r.target.qualified aliases) r.restriction part)
        group.restrictions parts := by
  rw [compileGroup, outcome_mapM, Outcome.mapM_eq_ok_iff]
  simp only [outcome_compileRestriction_eq_ok_iff]

theorem outcome_compileNode_eq_ok_iff {node : Node} {part : Predicate} :
    outcome (compiler.compileNode aliases Builder.tree node) = .ok part ↔
      NodeEmits compiler.unknownOperator aliases node part := by
  cases node with
  | leaf r => rw [compileNode, outcome_compileRestriction_eq_ok_iff, nodeEmits_leaf_iff]
  | group connective group =>
      have combined (parts : List Predicate) :
          (connective.build (m := Id) Builder.tree parts).run = connective.combine parts := by
        cases connective <;> rfl
      rw [outcome_compileNode_group, Outcome.map_eq_ok_iff, nodeEmits_group_iff]
      simp only [outcome_compileGroup_eq_ok_iff, combined]

theorem join_tree (parts : List Predicate) :
    (join (m := Id) Builder.tree parts).run = joined parts := by
  cases parts with
  | nil => rfl
  | cons part rest => cases rest <;> rfl

theorem outcome_compileDemand_eq_ok_iff {demand : Demand} {tree : Predicate} :
    outcome (compiler.compileDemand aliases Builder.tree demand) = .ok tree ↔
      ∃ parts, List.Forall₂
        (fun entry part => NodeEmits compiler.unknownOperator aliases entry.2 part)
        demand.entries parts ∧ joined parts = tree := by
  rw [outcome_compileDemand, Outcome.map_eq_ok_iff]
  simp only [Outcome.mapM_eq_ok_iff, outcome_compileNode_eq_ok_iff, join_tree]

/-- A raw demand has a tree if it reads as a demand once coerced and each entry of that emits a
part. -/
theorem tree?_eq_ok_iff {raw : Mapping} {tree : Predicate} :
    compiler.tree? aliases raw = .ok tree ↔
      ∃ demand, Demand.read (coerceDemand raw) = .ok demand ∧
        ∃ parts, List.Forall₂
          (fun entry part => NodeEmits compiler.unknownOperator aliases entry.2 part)
          demand.entries parts ∧ joined parts = tree := by
  rw [tree?, outcome_compile, Outcome.bind_eq_ok_iff]
  simp only [outcome_compileDemand_eq_ok_iff]

end Compiler

end Winnow
