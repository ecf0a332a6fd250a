import Winnow.Proofs.Compilation.Extension
import Winnow.Proofs.Compilation.Restrictions

/-!
# Restrictions that are kept

Compilation drops no restriction, makes none twice and keeps their order: the fields of a tree are
those of the written restrictions, and its parts are those of the entries.
-/

namespace Winnow

variable {policy : UnknownOperatorPolicy} {aliases : TableAliases}

/-! Fields. -/

theorem Emits.fields_eq (r : FieldRestriction) (part : Predicate)
    (emits : Emits policy (r.target.qualified aliases) r.restriction part) :
    part.fields = r.mentions.map (·.qualified aliases) := by
  obtain ⟨target, restriction⟩ := r
  cases emits with
  | compare op value => rfl
  | range low high => rfl
  | bare tag operand placeholder => rfl

theorem forall₂_refersTo (targets : List FieldAlias) :
    List.Forall₂ (RefersTo aliases) targets (targets.map (·.qualified aliases)) := by
  rw [List.forall₂_map_right_iff]
  exact List.forall₂_same.mpr fun target _ => refersTo_qualified aliases target

theorem Demand.forall₂_refersTo {demand : Demand} {parts : List Predicate}
    (emits : List.Forall₂ (fun entry part => NodeEmits policy aliases entry.2 part)
      demand.entries parts) :
    List.Forall₂ (RefersTo aliases) (demand.restrictions.map FieldRestriction.mentions).flatten
      (joined parts).fields := by
  rw [apply_eq Predicate.fields_combine Emits.fields_eq emits, ← List.map_flatMap,
    List.flatMap_def]
  exact Winnow.forall₂_refersTo _

/-! Trees without parts. -/

theorem Predicate.isTrivial_iff {p : Predicate} : p.isTrivial = true ↔ p = .conj [] := by
  unfold isTrivial
  split
  · simp
  · next other => simpa using other

theorem joined_eq_conj_nil_iff {parts : List Predicate} :
    joined parts = .conj [] ↔ parts = [] ∨ parts = [.conj []] := by
  unfold joined
  split
  · simp
  · next other =>
    rw [Predicate.conj.injEq]
    exact ⟨.inl, fun single => single.resolve_right (other _)⟩

/-- A group all of whose restrictions are to hold, and it has none. -/
inductive EmptyConjunction : String × Json → Prop
  | intro {key} {members : Mapping} (group : RestrictionKey.operator.name ∉ members.keys)
      (connects : Connects key .all) (empty : writtenRestrictions members = []) :
      EmptyConjunction (key, .object members)

theorem nodeEmits_conj_nil_iff {node : Node} :
    NodeEmits policy aliases node (.conj []) ↔
      ∃ group, node = .group .all group ∧ group.restrictions = [] := by
  constructor
  · intro emits
    cases node with
    | leaf r =>
        obtain ⟨target, restriction⟩ := r
        cases nodeEmits_leaf_iff.mp emits
    | group connective group =>
        obtain ⟨parts, emits, same⟩ := nodeEmits_group_iff.mp emits
        cases connective with
        | any => cases same
        | all =>
            cases same
            exact ⟨group, rfl, List.forall₂_nil_right_iff.mp emits⟩
  · intro ⟨group, same, empty⟩
    rw [same]
    exact nodeEmits_group_iff.mpr ⟨[], empty ▸ .nil, rfl⟩

theorem emptyConjunction_iff {entry : String × Json} {before after : Node}
    (reads : NodeReads entry before) (coerced : CoercedNode entry.2 before after) :
    NodeEmits policy aliases after (.conj []) ↔ EmptyConjunction entry := by
  rw [nodeEmits_conj_nil_iff]
  have restrictions := coerced.readInOrder reads
  cases reads with
  | leaf operator =>
      cases coerced with
      | leaf =>
          constructor
          · rintro ⟨_, impossible, _⟩
            cases impossible
          · intro conjunction
            cases conjunction with
            | intro group => exact absurd operator group
  | group operator connects =>
      cases coerced with
      | group =>
          rw [entryRestrictions_group operator] at restrictions
          constructor
          · rintro ⟨grouped, same, empty⟩
            cases same
            rw [Node.restrictions, empty] at restrictions
            exact .intro operator connects (List.forall₂_nil_right_iff.mp restrictions)
          · intro conjunction
            cases conjunction with
            | intro _ all empty =>
                cases connects.unique all
                rw [empty] at restrictions
                exact ⟨_, rfl, List.forall₂_nil_left_iff.mp restrictions⟩

theorem NodeEmits.unique {node : Node} {part part' : Predicate}
    (emits : NodeEmits policy aliases node part) (emits' : NodeEmits policy aliases node part') :
    part = part' := by
  have compiled : outcome (Compiler.compileNode ⟨policy⟩ aliases Builder.tree node) = .ok part :=
    Compiler.outcome_compileNode_eq_ok_iff.mpr emits
  rw [Compiler.outcome_compileNode_eq_ok_iff.mpr emits'] at compiled
  exact (Except.ok.inj compiled).symm

theorem isTrivial_joined_iff {raw : Mapping} {parts : List Predicate}
    (each : List.Forall₂ (fun entry part => part = .conj [] ↔ EmptyConjunction entry) raw parts) :
    (joined parts).isTrivial = true ↔
      raw = [] ∨ ∃ entry, raw = [entry] ∧ EmptyConjunction entry := by
  rw [Predicate.isTrivial_iff, joined_eq_conj_nil_iff]
  match each with
  | .nil => simp
  | .cons head .nil => simp [head]
  | .cons _ (.cons _ _) => simp

theorem Demand.forall₂_emptyConjunction {raw : Mapping} {demand : Demand} {parts : List Predicate}
    (read : Demand.read (coerceDemand raw) = .ok demand)
    (emits : List.Forall₂ (fun entry part => NodeEmits policy aliases entry.2 part)
      demand.entries parts) :
    List.Forall₂ (fun entry part => part = .conj [] ↔ EmptyConjunction entry) raw parts := by
  refine (forall₂_comp (coerced_readings read) emits).imp ?_
  intro entry part ⟨after, ⟨before, reads, coerced⟩, emits⟩
  have empty : NodeEmits policy aliases after.2 (.conj []) ↔ EmptyConjunction entry :=
    emptyConjunction_iff reads coerced
  rw [← empty]
  exact ⟨fun same => same ▸ emits, emits.unique⟩

theorem eq_singleton_joined {parts : List Predicate} (single : parts.length = 1) :
    parts = [joined parts] := by
  obtain ⟨part, rfl⟩ := List.length_eq_one_iff.mp single
  rfl

theorem joined_eq_conj {parts : List Predicate} (other : parts.length ≠ 1) :
    joined parts = .conj parts := by
  match parts with
  | [] | first :: second :: rest => rfl
  | [part] => exact absurd rfl other

namespace Compiler

/-- Compilation loses no restriction, repeats none and keeps their order: the fields of the tree are
those that the restrictions are about, each once, or twice for a range. A single entry makes the
tree, and any other number of entries the parts of a conjunction. The tree is trivial if there is no
entry, or a single one that is an empty conjunction, and in no other case. -/
theorem tree?_keeps_restrictions {compiler : Compiler} {aliases : TableAliases} {raw : Mapping}
    {tree : Predicate} (compiled : compiler.tree? aliases raw = .ok tree) :
    (∃ mentions, List.Forall₂ Mentions (demandRestrictions raw) mentions ∧
      List.Forall₂ (RefersTo aliases) mentions.flatten tree.fields) ∧
    (∃ parts, List.Forall₂ (EntryEmits compiler.unknownOperator aliases) raw parts ∧
      (raw.length = 1 → parts = [tree]) ∧ (raw.length ≠ 1 → tree = .conj parts)) ∧
    (tree.isTrivial = true ↔ raw = [] ∨ ∃ entry, raw = [entry] ∧ EmptyConjunction entry) := by
  refine ⟨?_, ?_, ?_⟩
  · obtain ⟨demand, read, parts, emits, rfl⟩ := tree?_eq_ok_iff.mp compiled
    exact ⟨_, Demand.forall₂_mentions read, Demand.forall₂_refersTo emits⟩
  · obtain ⟨parts, emits, rfl⟩ := tree?_eq_ok_iff_entries.mp compiled
    rw [emits.length_eq]
    exact ⟨parts, emits, eq_singleton_joined, joined_eq_conj⟩
  · obtain ⟨demand, read, parts, emits, rfl⟩ := tree?_eq_ok_iff.mp compiled
    exact isTrivial_joined_iff (Demand.forall₂_emptyConjunction read emits)

/-- A range on a table with a query alias, and a group with a list of restrictions. -/
theorem tree?_keeps_restrictions_grouped :
    let range : Json := .object [("operator", .string "-"), ("value", .array [.null, .null])]
    let equal : Json := .object [("operator", .string "EQ"), ("value", .string "5")]
    let other : Json := .object [("operator", .array []), ("value", .null)]
    let raw : Mapping := [("t-f", range),
      ("and-1", .object [("u-g", .array [other, range]), ("t-h", equal), ("t-f-1", .array [])])]
    let aliases : TableAliases := [("t", "q")]
    let tree : Predicate := .conj [
      .conj [.compare "q.f" .gte .null, .compare "q.f" .lte .null],
      .conj [.bare "g", .conj [.compare "g" .gte .null, .compare "g" .lte .null],
        .compare "q.h" .eq (.int 5)]]
    tree? ⟨.placeholder⟩ aliases raw = .ok tree ∧
      ∃ mentions, List.Forall₂ Mentions
        [("t-f", range), ("u-g", other), ("u-g", range), ("t-h", equal)] mentions ∧
        List.Forall₂ (RefersTo aliases) mentions.flatten
          ["q.f", "q.f", "g", "g", "g", "q.h"] := by
  intro range equal other raw aliases tree
  have compiled : tree? ⟨.placeholder⟩ aliases raw = .ok tree := by decide +kernel
  exact ⟨compiled, (tree?_keeps_restrictions compiled).1⟩

end Compiler

end Winnow
