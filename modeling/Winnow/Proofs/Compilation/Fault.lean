import Winnow.Proofs.Compilation.Acceptance
import Winnow.Proofs.Compilation.Restrictions
import Winnow.Proofs.Grammar.Place

/-!
# Which fault a demand has

A demand that does not compile fails with the fault of its first entry that cannot be read, or, if
all of them can be read, with that of the first restriction whose operand does not fit its operator
or whose operator is refused.
-/

namespace Winnow

/-- Why nothing can be built for a restriction that has been read. -/
inductive Rejected (policy : UnknownOperatorPolicy) (field : String) : Restriction → Fault → Prop
  | single {op items} :
      Rejected policy field ⟨.compare op, .list items⟩ (.invalidOperand field (.single op))
  | pair {operand} (other : ∀ low high, operand ≠ .list [low, high]) :
      Rejected policy field ⟨.range, operand⟩ (.invalidOperand field .pair)
  | unknown {tag operand} (reject : policy = .reject) :
      Rejected policy field ⟨.unknown tag, operand⟩ (.unknownOperator field tag)

/-- The first of some restrictions that is rejected has the fault. -/
def FirstRejected (policy : UnknownOperatorPolicy) (aliases : TableAliases) :
    List FieldRestriction → Fault → Prop :=
  FirstFault (fun r => r.restriction.Fits policy)
    (fun r => Rejected policy (r.target.qualified aliases) r.restriction)

/-- The first entry that cannot be read has the fault. -/
def FirstUnread : Mapping → Fault → Prop :=
  FirstFault (fun entry => ∃ node, NodeReads entry node) EntryFault

/-- Why a raw demand does not compile. Nothing is built before all has been read, and then the
restrictions are built in the order in which they are written. -/
inductive DemandFault (policy : UnknownOperatorPolicy) (aliases : TableAliases)
    (raw : Mapping) : Fault → Prop
  | unread {fault : Fault} (first : FirstUnread raw fault) : DemandFault policy aliases raw fault
  | unbuilt {restrictions : List FieldRestriction} {fault : Fault}
      (reads : ∀ entry ∈ raw, ∃ node, NodeReads entry node)
      (written : ReadInOrder CoercedReading (demandRestrictions raw) restrictions)
      (coerced : ReadInOrder RestrictionReads (demandRestrictions (coerceDemand raw)) restrictions)
      (first : FirstRejected policy aliases restrictions fault) :
      DemandFault policy aliases raw fault

/-! Coercion makes no entry readable or unreadable. -/

theorem Demand.agree_coerceDemand (raw : Mapping) :
    Agree (fun _ _ => True) (Demand.read raw) (Demand.read (coerceDemand raw)) :=
  (mapM_readEntry_coerceDemand raw).bind fun _ _ _ => .ok trivial

theorem firstUnread_coerceDemand_iff {raw : Mapping} {fault : Fault} :
    FirstUnread (coerceDemand raw) fault ↔ FirstUnread raw fault := by
  have same : Demand.read (coerceDemand raw) = .error fault ↔ Demand.read raw = .error fault :=
    (Demand.agree_coerceDemand raw).eq_error_iff.symm
  exact Demand.read_eq_error_iff.symm.trans (same.trans Demand.read_eq_error_iff)

theorem Demand.exists_read_coerceDemand_iff {raw : Mapping} :
    (∃ demand, Demand.read (coerceDemand raw) = .ok demand) ↔
      ∀ entry ∈ raw, ∃ node, NodeReads entry node := by
  have agree := (Demand.agree_coerceDemand raw).exists_ok_iff (P := fun _ => True)
    (Q := fun _ => True) fun _ _ _ => Iff.rfl
  simp only [and_true] at agree
  rw [← agree]
  simp only [← exists_readEntry_iff, ← Outcome.exists_mapM_eq_ok_iff, read_eq_ok_iff_mapM]
  constructor
  · intro ⟨demand, read⟩
    exact ⟨demand.entries, read⟩
  · intro ⟨entries, read⟩
    exact ⟨⟨entries⟩, read⟩

theorem Node.fits_iff {policy : UnknownOperatorPolicy} {node : Node} :
    node.Fits policy ↔ ∀ r ∈ node.restrictions, r.restriction.Fits policy := by
  cases node with
  | leaf r => simp only [Fits, restrictions, List.forall_mem_singleton]
  | group connective group => exact Group.forall_mem_restrictions.symm

theorem Operand.pair?_eq_none_iff {operand : Operand} :
    operand.pair? = none ↔ ∀ low high, operand ≠ .list [low, high] := by
  constructor
  · intro none low high same
    rw [same] at none
    cases none
  · intro other
    unfold pair?
    split
    · next low high => exact absurd rfl (other low high)
    · rfl

namespace Compiler

variable {compiler : Compiler} {aliases : TableAliases} {fault : Fault}

theorem outcome_compileRestriction_eq_error_iff {target : FieldAlias} {restriction : Restriction} :
    outcome (compiler.compileRestriction aliases Builder.tree target restriction) = .error fault ↔
      Rejected compiler.unknownOperator (target.qualified aliases) restriction fault := by
  constructor
  · intro failed
    obtain ⟨operator, operand⟩ := restriction
    cases operator with
    | compare op =>
        cases operand with
        | scalar value => simp [compileRestriction, Operand.scalar?] at failed
        | list items =>
            cases failed
            exact .single
    | range =>
        rw [compileRestriction] at failed
        cases bounds : operand.pair? with
        | some pair => simp [bounds, Builder.tree] at failed
        | none =>
            simp only [bounds] at failed
            cases failed
            exact .pair (Operand.pair?_eq_none_iff.mp bounds)
    | unknown tag =>
        cases policy : compiler.unknownOperator with
        | placeholder => simp [compileRestriction, policy, Builder.tree] at failed
        | reject =>
            simp only [compileRestriction, policy] at failed
            cases failed
            exact .unknown rfl
  · intro rejected
    cases rejected with
    | single => rfl
    | pair other => simp [compileRestriction, Operand.pair?_eq_none_iff.mpr other]
    | unknown reject => simp [compileRestriction, reject]

theorem outcome_compileNode_eq_error_iff {node : Node} :
    outcome (compiler.compileNode aliases Builder.tree node) = .error fault ↔
      FirstRejected compiler.unknownOperator aliases node.restrictions fault := by
  cases node with
  | leaf r =>
      rw [compileNode, outcome_compileRestriction_eq_error_iff, FirstRejected, Node.restrictions,
        FirstFault.singleton_iff]
  | group connective group =>
      rw [outcome_compileNode_group, Outcome.map_eq_error_iff, compileGroup, outcome_mapM,
        Outcome.mapM_eq_error_iff]
      simp only [outcome_compileRestriction_eq_ok_iff, outcome_compileRestriction_eq_error_iff,
        exists_emits_iff]
      rfl

theorem outcome_compileDemand_eq_error_iff {demand : Demand} :
    outcome (compiler.compileDemand aliases Builder.tree demand) = .error fault ↔
      FirstRejected compiler.unknownOperator aliases demand.restrictions fault := by
  rw [outcome_compileDemand, Outcome.map_eq_error_iff, Outcome.mapM_eq_error_iff]
  simp only [outcome_compileNode_eq_ok_iff, outcome_compileNode_eq_error_iff, exists_nodeEmits_iff,
    Node.fits_iff]
  exact FirstFault.flatMap_iff.symm

theorem tree?_eq_error_of_read {raw : Mapping}
    (unread : Demand.read (coerceDemand raw) = .error fault) :
    compiler.tree? aliases raw = .error fault := by
  rw [tree?, outcome_compile, unread, Outcome.error_bind]

theorem tree?_eq_error_iff_of_read {raw : Mapping} {demand : Demand}
    (read : Demand.read (coerceDemand raw) = .ok demand) :
    compiler.tree? aliases raw = .error fault ↔
      FirstRejected compiler.unknownOperator aliases demand.restrictions fault := by
  rw [tree?, outcome_compile, read, Outcome.ok_bind, outcome_compileDemand_eq_error_iff]

/-- There is no tree for one of two reasons: an entry cannot be read, or a restriction is
rejected. -/
theorem tree?_eq_error_iff {raw : Mapping} :
    compiler.tree? aliases raw = .error fault ↔
      DemandFault compiler.unknownOperator aliases raw fault := by
  constructor
  · intro failed
    cases outcome : Demand.read (coerceDemand raw) with
    | error fault' =>
        have same := failed.symm.trans (tree?_eq_error_of_read outcome)
        cases same
        exact .unread (firstUnread_coerceDemand_iff.mp (Demand.read_eq_error_iff.mp outcome))
    | ok demand =>
        exact .unbuilt (Demand.exists_read_coerceDemand_iff.mp ⟨demand, outcome⟩)
          (Demand.coerced_readInOrder outcome) (Demand.readInOrder outcome)
          ((tree?_eq_error_iff_of_read outcome).mp failed)
  · intro faulted
    cases faulted with
    | unread first =>
        have unread := Demand.read_eq_error_iff.mpr (firstUnread_coerceDemand_iff.mpr first)
        exact tree?_eq_error_of_read unread
    | @unbuilt restrictions _ reads _ coerced first =>
        obtain ⟨demand, read⟩ := Demand.exists_read_coerceDemand_iff.mpr reads
        have same : restrictions = demand.restrictions :=
          ReadInOrder.unique coerced (Demand.readInOrder read)
        exact (tree?_eq_error_iff_of_read read).mpr (same ▸ first)

theorem outcome_compile_eq_error_iff {P : Type} (b : Builder Id P) {raw : Mapping} :
    outcome (compiler.compile aliases b raw) = .error fault ↔
      DemandFault compiler.unknownOperator aliases raw fault := by
  rw [← tree?_eq_error_iff]
  exact ((Builder.related_true b .tree).compile compiler aliases raw).eq_error_iff

end Compiler

theorem FirstUnread.located {raw : Mapping} {fault : Fault} (first : FirstUnread raw fault) :
    Located raw fault := by
  obtain ⟨before, entry, after, split, _, faulted⟩ := first
  exact faulted.located (split ▸ List.mem_append_cons_self)

theorem DemandFault.located {policy : UnknownOperatorPolicy} {aliases : TableAliases}
    {raw : Mapping} {fault : Fault} (faulted : DemandFault policy aliases raw fault) :
    Located raw fault ∧ Located (coerceDemand raw) fault := by
  cases faulted with
  | unread first =>
      exact ⟨first.located, (firstUnread_coerceDemand_iff.mpr first).located⟩
  | unbuilt _ _ _ first =>
      obtain ⟨_, ⟨_, restriction⟩, _, _, _, rejected⟩ := first
      cases rejected <;> exact ⟨located_of_place?_eq_none rfl, located_of_place?_eq_none rfl⟩

/-- A demand does not compile, with any builder, exactly if it has a fault, and fails with that
fault. The first entry that cannot be read has the same fault in the raw demand and in the coerced
one. Where a fault names a place, a node stands there, in both, that it is about. -/
theorem Compiler.compile_fails_iff (compiler : Compiler) (aliases : TableAliases) (raw : Mapping) :
    (∀ {P : Type} (b : Builder Id P) (fault : Fault),
      outcome (compiler.compile aliases b raw) = .error fault ↔
        DemandFault compiler.unknownOperator aliases raw fault) ∧
    (∀ {m : Type → Type} [Monad m] [LawfulMonad m] {P : Type} (b : Builder m P) (fault : Fault),
      DemandFault compiler.unknownOperator aliases raw fault →
        FailsWith fault (compiler.compile aliases b raw)) ∧
    (∀ fault, FirstUnread (coerceDemand raw) fault ↔ FirstUnread raw fault) ∧
    ∀ fault, DemandFault compiler.unknownOperator aliases raw fault →
      Located raw fault ∧ Located (coerceDemand raw) fault := by
  refine ⟨fun b fault => outcome_compile_eq_error_iff b, ?_,
    fun fault => firstUnread_coerceDemand_iff, fun fault => DemandFault.located⟩
  intro m _ _ P b fault faulted
  have realizes := compiler.realizes_compile aliases b raw
  rw [(outcome_compile_eq_error_iff b.deferred).mpr faulted, Realizes.error_iff] at realizes
  exact realizes

/-- Of an operator that is refused, a restriction without an operand and a key that is no alias, the
second is reported, though it comes after the first: it is found while reading. Of three operators
that are refused, the one in the list of the first member of a group is reported, and not that of
its second member or of the entry after the group. -/
theorem Compiler.compile_fails_listed :
    let refused (tag : String) : Json := .object [("operator", .string tag), ("value", .null)]
    let equal : Json := .object [("operator", .string "EQ"), ("value", .string "5")]
    let bare : Json := .object [("operator", .string "EQ")]
    let group : Json := .object [("t-f", .array [equal, bare]), ("other", equal)]
    let unread : Mapping := [("t-f", refused "LIKE"), ("or-1", group)]
    let refusing : Json := .object [("t-f", .array [equal, refused "LIKE", equal]),
      ("u-g", refused "ILIKE")]
    let unbuilt : Mapping := [("t-e", equal), ("or-1", refusing), ("t-h", refused "GLOB")]
    let counted : Builder (StateM Nat) Predicate := Builder.noting (fun _ => modify Nat.succ) .tree
    let missing : Fault := .missingKey (.listed "or-1" "t-f" 1) .value
    (FailsWith missing (compile ⟨.reject⟩ [] counted unread) ∧
        ∃ json, StandsAt unread "or-1.t-f[1]" json ∧ Offends json missing) ∧
      FailsWith (.unknownOperator "f" "LIKE") (compile ⟨.reject⟩ [] counted unbuilt) := by
  intro refused equal bare group unread refusing unbuilt counted missing
  constructor
  · have failed : tree? ⟨.reject⟩ [] unread = .error missing := by decide +kernel
    obtain ⟨fails, failsCounted, _, located⟩ := compile_fails_iff ⟨.reject⟩ [] unread
    have faulted := (fails Builder.tree missing).mp failed
    exact ⟨failsCounted counted missing faulted, (located missing faulted).1 _ rfl⟩
  · have failed : tree? ⟨.reject⟩ [] unbuilt = .error (.unknownOperator "f" "LIKE") := by
      decide +kernel
    obtain ⟨fails, failsCounted, _⟩ := compile_fails_iff ⟨.reject⟩ [] unbuilt
    exact failsCounted counted _ ((fails Builder.tree _).mp failed)

end Winnow
