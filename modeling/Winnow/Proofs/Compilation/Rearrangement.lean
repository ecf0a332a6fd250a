import Mathlib.Data.List.Perm.Basic
import Mathlib.Logic.Relation
import Winnow.Proofs.Compilation.Extension
import Winnow.Proofs.Predicate.Interchange

/-!
# Rearranging a demand

Entries are compiled one by one, and so are the members of a group and the restrictions of a member.
Neither their order matters to the records that a demand selects, nor what a grouping key has behind
its first separator.
-/

namespace Winnow

/-- One item of a list gives way to a related one, and the others stay. -/
inductive ReplacesOne {α : Type u} (R : α → α → Prop) : List α → List α → Prop
  | intro {a a'} (before after : List α) (replaced : R a a') :
      ReplacesOne R (before ++ a :: after) (before ++ a' :: after)

namespace ReplacesOne

variable {α : Type u} {β : Type v} {R : α → α → Prop} {as as' : List α}

instance [Std.Symm R] : Std.Symm (ReplacesOne R) where
  symm _ _
    | .intro before after replaced => .intro before after (symm replaced)

theorem map_eq {f : α → β} (same : ∀ a a', R a a' → f a = f a')
    (replaces : ReplacesOne R as as') : as.map f = as'.map f := by
  cases replaces with
  | intro before after replaced => simp only [List.map_append, List.map_cons, same _ _ replaced]

theorem exists_forall₂ {S : α → β → Prop} {T : β → β → Prop} {bs : List β} (refl : ∀ b, T b b)
    (step : ∀ a a', R a a' → ∀ b, S a b → ∃ b', S a' b' ∧ T b b')
    (replaces : ReplacesOne R as as') (related : List.Forall₂ S as bs) :
    ∃ bs', List.Forall₂ S as' bs' ∧ List.Forall₂ T bs bs' := by
  have unchanged (bs : List β) : List.Forall₂ T bs bs := List.forall₂_same.mpr fun b _ => refl b
  cases replaces with
  | intro before after replaced =>
      obtain ⟨first, _, relatedBefore, others, rfl⟩ := forall₂_append_left_iff.mp related
      cases others with
      | cons head tail =>
          obtain ⟨b', related', changed⟩ := step _ _ replaced _ head
          refine ⟨_, List.rel_append relatedBefore (.cons related' tail), ?_⟩
          exact List.rel_append (unchanged first) (.cons changed (unchanged _))

end ReplacesOne

/-! Rearrangements. -/

/-- A grouping key gives way to one that is the same before the first separator, be it in use
elsewhere or not. -/
inductive RenamesGroup : String × Json → String × Json → Prop
  | intro {key key'} {members : Mapping} (group : RestrictionKey.operator.name ∉ members.keys)
      (sameStart : firstSegment key.toList = firstSegment key'.toList) :
      RenamesGroup (key, .object members) (key', .object members)

/-- The restrictions of a member in another order. -/
inductive PermutesRestrictions : String × Json → String × Json → Prop
  | intro {key items items'} (permuted : items.Perm items') :
      PermutesRestrictions (key, .array items) (key, .array items')

inductive RearrangesMembers : Mapping → Mapping → Prop
  | members {members members' : Mapping} (permuted : members.Perm members') :
      RearrangesMembers members members'
  | restrictions {members members' : Mapping}
      (replaces : ReplacesOne PermutesRestrictions members members') :
      RearrangesMembers members members'

inductive RearrangesGroup : String × Json → String × Json → Prop
  | members {key} {members members' : Mapping}
      (group : RestrictionKey.operator.name ∉ members.keys)
      (rearranges : RearrangesMembers members members') :
      RearrangesGroup (key, .object members) (key, .object members')
  | key {entry entry'} (renames : RenamesGroup entry entry') : RearrangesGroup entry entry'

/-- One step of a rearrangement of a raw demand. -/
inductive Rearranges : Mapping → Mapping → Prop
  | entries {raw raw' : Mapping} (permuted : raw.Perm raw') : Rearranges raw raw'
  | group {raw raw' : Mapping} (replaces : ReplacesOne RearrangesGroup raw raw') :
      Rearranges raw raw'

instance : Std.Symm RenamesGroup where
  symm _ _
    | .intro group sameStart => .intro group sameStart.symm

instance : Std.Symm PermutesRestrictions where
  symm _ _
    | .intro permuted => .intro permuted.symm

theorem PermutesRestrictions.key_eq {entry entry' : String × Json}
    (permutes : PermutesRestrictions entry entry') : entry.1 = entry'.1 := by
  cases permutes with
  | intro permuted => rfl

theorem RearrangesMembers.keys_perm {members members' : Mapping}
    (rearranges : RearrangesMembers members members') : members.keys.Perm members'.keys := by
  cases rearranges with
  | members permuted => exact permuted.map Prod.fst
  | restrictions replaces =>
      exact .of_eq (replaces.map_eq fun _ _ permutes => permutes.key_eq)

instance : Std.Symm RearrangesMembers where
  symm _ _
    | .members permuted => .members permuted.symm
    | .restrictions replaces => .restrictions (symm replaces)

theorem RearrangesMembers.group {members members' : Mapping}
    (rearranges : RearrangesMembers members members')
    (group : RestrictionKey.operator.name ∉ members.keys) :
    RestrictionKey.operator.name ∉ members'.keys :=
  fun operator => group (rearranges.keys_perm.mem_iff.mpr operator)

instance : Std.Symm RearrangesGroup where
  symm _ _
    | .members group rearranges => .members (rearranges.group group) (symm rearranges)
    | .key renames => .key (symm renames)

instance : Std.Symm Rearranges where
  symm _ _
    | .entries permuted => .entries permuted.symm
    | .group replaces => .group (symm replaces)

/-! What a group emits. -/

section Emission

variable {policy : UnknownOperatorPolicy} {aliases : TableAliases}

/-- What a raw restriction on a field emits. -/
def RestrictionEmits (policy : UnknownOperatorPolicy) (field : String) (json : Json)
    (part : Predicate) : Prop :=
  ∃ restriction, RestrictionReads (coerceNode json) restriction ∧
    Emits policy field restriction part

/-- The parts that a raw member of a group emits. -/
def MemberEmits (policy : UnknownOperatorPolicy) (aliases : TableAliases) (entry : String × Json)
    (parts : List Predicate) : Prop :=
  ∃ member, MemberReads (entry.1, coerceNode entry.2) member ∧
    List.Forall₂ (Emits policy (member.target.qualified aliases)) member.restrictions parts

theorem memberEmits_array_iff {key : String} {items : List Json} {parts : List Predicate} :
    MemberEmits policy aliases (key, .array items) parts ↔
      ∃ target, Spells key target ∧
        List.Forall₂ (RestrictionEmits policy (target.qualified aliases)) items parts := by
  have listed : (coerceNode (.array items)).listed = items.map coerceNode := by
    rw [coerceNode_array, Json.listed]
  constructor
  · rintro ⟨member, ⟨spelled, reads⟩, emits⟩
    rw [listed, List.forall₂_map_left_iff] at reads
    exact ⟨member.target, spelled, forall₂_comp reads emits⟩
  · rintro ⟨target, spelled, emitted⟩
    obtain ⟨restrictions, reads, emits⟩ := exists_forall₂_comp_iff.mpr emitted
    refine ⟨⟨target, restrictions⟩, ⟨spelled, ?_⟩, emits⟩
    rw [listed, List.forall₂_map_left_iff]
    exact reads

theorem not_memberReads_value {json : Json} {member : Member} :
    ¬ MemberReads (RestrictionKey.value.name, json) member := by
  intro reads
  have read := FieldAlias.read_eq_ok_iff.mpr reads.target
  rw [FieldAlias.read_value] at read
  cases read

theorem forall₂_memberReads_coerceObject_iff {members : Mapping} {group : List Member} :
    List.Forall₂ MemberReads (coerceObject members) group ↔
      List.Forall₂ (fun entry => MemberReads (entry.1, coerceNode entry.2)) members group := by
  cases leaf : leafValue? members with
  | none => rw [coerceObject_of_not_leaf leaf, Entries.mapValues, List.forall₂_map_left_iff]
  | some value =>
      -- Such a group is coerced as a leaf. The key of the operand keeps it from being read anyhow.
      have found := (leafValue?_eq_some_iff.mp leaf).1
      constructor
      · intro reads
        have coerced : (coerceObject members).get? RestrictionKey.value.name =
            some (coercedValue value) := by
          rw [get?_coerceObject_value, found, Option.map_some]
        obtain ⟨_, refused⟩ := exists_forall₂_iff.mp ⟨_, reads⟩ _ (Entries.mem_of_get? coerced)
        exact absurd refused not_memberReads_value
      · intro reads
        obtain ⟨_, refused⟩ := exists_forall₂_iff.mp ⟨_, reads⟩ _ (Entries.mem_of_get? found)
        exact absurd refused not_memberReads_value

theorem entryEmits_group_iff {key : String} {members : Mapping} {part : Predicate}
    (group : RestrictionKey.operator.name ∉ members.keys) :
    EntryEmits policy aliases (key, .object members) part ↔
      ∃ connective, Connects key connective ∧
        ∃ partss, List.Forall₂ (MemberEmits policy aliases) members partss ∧
          connective.combine partss.flatten = part := by
  simp only [EntryEmits, Demand.readEntry_eq_ok_iff, coerceNode_object]
  constructor
  · intro ⟨⟨_, node⟩, ⟨_, reads⟩, emits⟩
    cases reads with
    | leaf operator =>
        rw [keys_coerceObject] at operator
        exact absurd operator group
    | group operator connects reads =>
        obtain ⟨_, emitted, same⟩ := nodeEmits_group_iff.mp emits
        obtain ⟨partss, memberwise, rfl⟩ :=
          (forall₂_flatMap_left_iff fun _ _ => List.forall₂_map_left_iff).mp emitted
        have reads := forall₂_memberReads_coerceObject_iff.mp reads
        exact ⟨_, connects, partss, forall₂_comp reads memberwise, same⟩
  · intro ⟨connective, connects, partss, emitted, same⟩
    obtain ⟨read, reads, emitted⟩ := exists_forall₂_comp_iff.mpr emitted
    refine ⟨(key, .group connective ⟨key, read⟩), ⟨rfl, .group ?_ connects ?_⟩, ?_⟩
    · rw [keys_coerceObject]
      exact group
    · exact forall₂_memberReads_coerceObject_iff.mpr reads
    · refine nodeEmits_group_iff.mpr ⟨_, ?_, same⟩
      exact (forall₂_flatMap_left_iff fun _ _ => List.forall₂_map_left_iff).mpr
        ⟨partss, emitted, rfl⟩

/-! What a step does to what is emitted. -/

theorem RenamesGroup.emits {entry entry' : String × Json} {part : Predicate}
    (renames : RenamesGroup entry entry') (emits : EntryEmits policy aliases entry part) :
    EntryEmits policy aliases entry' part := by
  cases renames with
  | intro group sameStart =>
      rw [entryEmits_group_iff group] at emits ⊢
      simpa only [Connects, head?_segments, sameStart] using emits

theorem PermutesRestrictions.emits {entry entry' : String × Json} {parts : List Predicate}
    (permutes : PermutesRestrictions entry entry')
    (emits : MemberEmits policy aliases entry parts) :
    ∃ parts', MemberEmits policy aliases entry' parts' ∧ parts.Perm parts' := by
  cases permutes with
  | intro permuted =>
      obtain ⟨target, spelled, emitted⟩ := memberEmits_array_iff.mp emits
      obtain ⟨parts', emitted', same⟩ := List.perm_comp_forall₂ permuted.symm emitted
      exact ⟨parts', memberEmits_array_iff.mpr ⟨target, spelled, emitted'⟩, same.symm⟩

theorem RearrangesMembers.emits {members members' : Mapping} {partss : List (List Predicate)}
    (rearranges : RearrangesMembers members members')
    (emits : List.Forall₂ (MemberEmits policy aliases) members partss) :
    ∃ partss', List.Forall₂ (MemberEmits policy aliases) members' partss' ∧
      partss.flatten.Perm partss'.flatten := by
  cases rearranges with
  | members permuted =>
      obtain ⟨partss', emits', same⟩ := List.perm_comp_forall₂ permuted.symm emits
      exact ⟨partss', emits', same.symm.flatten⟩
  | restrictions replaces =>
      obtain ⟨partss', emits', same⟩ := replaces.exists_forall₂ List.Perm.refl
        (fun _ _ permutes _ => permutes.emits) emits
      exact ⟨partss', emits', .flatten_congr same⟩

theorem RearrangesGroup.emits {entry entry' : String × Json} {part : Predicate}
    (rearranges : RearrangesGroup entry entry') (emits : EntryEmits policy aliases entry part) :
    ∃ part', EntryEmits policy aliases entry' part' ∧ part.Interchangeable part' := by
  cases rearranges with
  | members group rearranges =>
      obtain ⟨connective, connects, partss, emitted, rfl⟩ := (entryEmits_group_iff group).mp emits
      obtain ⟨partss', emitted', permuted⟩ := rearranges.emits emitted
      refine ⟨_, ?_, .combine_perm connective permuted⟩
      exact (entryEmits_group_iff (rearranges.group group)).mpr
        ⟨connective, connects, partss', emitted', rfl⟩
  | key renames => exact ⟨part, renames.emits emits, .refl part⟩

end Emission

namespace Compiler

variable {compiler : Compiler} {aliases : TableAliases} {raw raw' : Mapping}
variable {tree tree' : Predicate}

theorem tree?_of_rearranges (rearranges : Rearranges raw raw')
    (compiled : compiler.tree? aliases raw = .ok tree) :
    ∃ tree', compiler.tree? aliases raw' = .ok tree' ∧ tree.Interchangeable tree' := by
  obtain ⟨parts, emits, rfl⟩ := tree?_eq_ok_iff_entries.mp compiled
  cases rearranges with
  | entries permuted =>
      obtain ⟨parts', emits', same⟩ := List.perm_comp_forall₂ permuted.symm emits
      exact ⟨_, tree?_eq_ok_iff_entries.mpr ⟨parts', emits', rfl⟩, .joined_perm same.symm⟩
  | group replaces =>
      obtain ⟨parts', emits', same⟩ := replaces.exists_forall₂ Predicate.Interchangeable.refl
        (fun _ _ rearranges _ => rearranges.emits) emits
      exact ⟨_, tree?_eq_ok_iff_entries.mpr ⟨parts', emits', rfl⟩, .joined_congr same⟩

theorem tree?_of_reflTransGen_rearranges (rearranged : Relation.ReflTransGen Rearranges raw raw')
    (compiled : compiler.tree? aliases raw = .ok tree) :
    ∃ tree', compiler.tree? aliases raw' = .ok tree' ∧ tree.Interchangeable tree' := by
  induction rearranged with
  | refl => exact ⟨tree, compiled, .refl tree⟩
  | tail _ step ih =>
      obtain ⟨between, compiledBetween, same⟩ := ih
      obtain ⟨tree', compiled', same'⟩ := tree?_of_rearranges step compiledBetween
      exact ⟨tree', compiled', same.trans same'⟩

theorem tree?_of_renamesGroup (renames : ReplacesOne RenamesGroup raw raw')
    (compiled : compiler.tree? aliases raw = .ok tree) :
    compiler.tree? aliases raw' = .ok tree := by
  obtain ⟨parts, emits, rfl⟩ := tree?_eq_ok_iff_entries.mp compiled
  obtain ⟨parts', emits', same⟩ := renames.exists_forall₂ (T := (· = ·)) (fun _ => rfl)
    (fun _ _ renames part emits => ⟨part, renames.emits emits, rfl⟩) emits
  rw [List.forall₂_eq_eq_eq] at same
  rw [same]
  exact tree?_eq_ok_iff_entries.mpr ⟨parts', emits', rfl⟩

theorem tree?_of_reflTransGen_renamesGroup
    (renamed : Relation.ReflTransGen (ReplacesOne RenamesGroup) raw raw')
    (compiled : compiler.tree? aliases raw = .ok tree) :
    compiler.tree? aliases raw' = .ok tree := by
  induction renamed with
  | refl => exact compiled
  | tail _ step ih => exact tree?_of_renamesGroup step ih

end Compiler

/-- Entries, members of groups and restrictions of members may change places and grouping keys may
change behind their first separator: a demand compiles as before, to a predicate of the same fields
that judges and filters records that have these fields as before. If keys alone change the predicate
stays the same. -/
theorem Compiler.tree?_rearranged (compiler : Compiler) (aliases : TableAliases)
    {raw raw' : Mapping} :
    (Relation.ReflTransGen Rearranges raw raw' →
      ((∃ tree, compiler.tree? aliases raw = .ok tree) ↔
        ∃ tree', compiler.tree? aliases raw' = .ok tree') ∧
      ∀ tree tree', compiler.tree? aliases raw = .ok tree →
        compiler.tree? aliases raw' = .ok tree' →
        tree.fields.Perm tree'.fields ∧
        ∀ {ρ : Type} [Record ρ],
          (∀ record : ρ, (∀ field ∈ tree.fields, (Record.value? record field).isSome) →
            ∃ answer, tree.eval record = .ok answer ∧ tree'.eval record = .ok answer) ∧
          ∀ records : List ρ,
            (∀ record ∈ records, ∀ field ∈ tree.fields, (Record.value? record field).isSome) →
            ∃ found, tree.filter records = .ok found ∧ tree'.filter records = .ok found) ∧
    (Relation.ReflTransGen (ReplacesOne RenamesGroup) raw raw' →
      ∀ tree, compiler.tree? aliases raw = .ok tree ↔ compiler.tree? aliases raw' = .ok tree) := by
  constructor
  · intro rearranged
    refine ⟨⟨?_, ?_⟩, ?_⟩
    · intro ⟨_, compiled⟩
      obtain ⟨tree', compiled', _⟩ := tree?_of_reflTransGen_rearranges rearranged compiled
      exact ⟨tree', compiled'⟩
    · intro ⟨_, compiled'⟩
      obtain ⟨tree, compiled, _⟩ := tree?_of_reflTransGen_rearranges (symm rearranged) compiled'
      exact ⟨tree, compiled⟩
    · intro tree tree' compiled compiled'
      obtain ⟨_, found, same⟩ := tree?_of_reflTransGen_rearranges rearranged compiled
      cases compiled'.symm.trans found
      exact ⟨same.fields, fun record present => same.exists_eval present,
        fun records present => same.exists_filter present⟩
  · intro renamed tree
    exact ⟨tree?_of_reflTransGen_renamesGroup renamed,
      tree?_of_reflTransGen_renamesGroup (symm renamed)⟩

/-- A demand with another key for its group, and that one with all in the opposite order. -/
theorem Compiler.tree?_rearranged_reversed :
    let least : Json := .object [("operator", .string "GTE"), ("value", .string "1")]
    let three : Json := .object [("operator", .string "EQ"), ("value", .string "3")]
    let four : Json := .object [("operator", .string "EQ"), ("value", .string "4")]
    let members : Mapping := [("t-g", .array [three, four]), ("t-h", three)]
    let raw : Mapping := [("t-f", least), ("or-1", .object members)]
    let renamed : Mapping := [("t-f", least), ("or-2", .object members)]
    let reversed : Mapping :=
      [("or-2", .object [("t-h", three), ("t-g", .array [four, three])]), ("t-f", least)]
    let record (f g h : Int64) : Mapping :=
      [("f", .number (.int f)), ("g", .number (.int g)), ("h", .number (.int h))]
    Relation.ReflTransGen (ReplacesOne RenamesGroup) raw renamed ∧
      Relation.ReflTransGen Rearranges raw reversed ∧
      ∃ tree tree', tree? ⟨.reject⟩ [] raw = .ok tree ∧ tree? ⟨.reject⟩ [] renamed = .ok tree ∧
        tree? ⟨.reject⟩ [] reversed = .ok tree' ∧
        tree'.filter [record 1 4 0, record 0 4 0, record 1 0 0] = .ok [record 1 4 0] := by
  intro least three four members raw renamed reversed record
  have renames : RenamesGroup ("or-1", .object members) ("or-2", .object members) :=
    .intro (by decide) (by decide)
  have renamedOnly : Relation.ReflTransGen (ReplacesOne RenamesGroup) raw renamed :=
    .single (.intro [("t-f", least)] [] renames)
  have rearranged : Relation.ReflTransGen Rearranges raw reversed := by
    refine .head (.group (.intro [("t-f", least)] [] (.key renames))) ?_
    refine .head (.group (.intro [("t-f", least)] [] (.members (by decide) (.restrictions
      (.intro [] [("t-h", three)] (.intro (List.Perm.swap four three []))))))) ?_
    refine .head (.group (.intro [("t-f", least)] [] (.members (by decide) (.members
      (List.Perm.swap _ _ []))))) ?_
    exact .single (.entries (List.Perm.swap _ _ []))
  let tree : Predicate := .conj [.compare "f" .gte (.int 1),
    .disj [.compare "g" .eq (.int 3), .compare "g" .eq (.int 4), .compare "h" .eq (.int 3)]]
  have compiled : tree? ⟨.reject⟩ [] raw = .ok tree := by decide +kernel
  obtain ⟨succeeds, agrees⟩ := (tree?_rearranged ⟨.reject⟩ []).1 rearranged
  obtain ⟨tree', compiled'⟩ := succeeds.mp ⟨_, compiled⟩
  have sameRenamed := ((tree?_rearranged ⟨.reject⟩ []).2 renamedOnly tree).mp compiled
  refine ⟨renamedOnly, rearranged, tree, tree', compiled, sameRenamed, compiled', ?_⟩
  obtain ⟨found, first, second⟩ := (agrees tree tree' compiled compiled').2.2
    [record 1 4 0, record 0 4 0, record 1 0 0] (by decide +kernel)
  have kept : tree.filter [record 1 4 0, record 0 4 0, record 1 0 0] = .ok [record 1 4 0] := by
    decide +kernel
  cases kept.symm.trans first
  exact second

end Winnow
