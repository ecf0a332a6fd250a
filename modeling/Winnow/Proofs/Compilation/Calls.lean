import Winnow.Proofs.Compilation.Fault
import Winnow.Proofs.Effects.Interruption
import Winnow.Proofs.Predicate.Traversal

/-!
# The order in which a demand is built

A builder is not called before the whole demand has been read. After that it is called for each node
of the tree in post-order, and if a restriction is rejected, for the nodes of what stands before it:
neither its group nor the demand is then joined.
-/

namespace Winnow

/-- Building stops at a restriction that is rejected. By then the parts of the entries before its
entry have been built, and the parts of the restrictions before it in its entry. -/
inductive StopsAfter (policy : UnknownOperatorPolicy) (aliases : TableAliases) :
    Demand → List Predicate → Fault → Prop
  | intro {before : List (String × Node)} {entry : String × Node} {after : List (String × Node)}
      {preceding : List FieldRestriction} {r : FieldRestriction}
      {following : List FieldRestriction} {parts parts' : List Predicate} {fault : Fault}
      (entries : List.Forall₂ (fun entry part => NodeEmits policy aliases entry.2 part)
        before parts)
      (split : entry.2.restrictions = preceding ++ r :: following)
      (restrictions : List.Forall₂
        (fun r part => Emits policy (r.target.qualified aliases) r.restriction part)
        preceding parts')
      (rejected : Rejected policy (r.target.qualified aliases) r.restriction fault) :
      StopsAfter policy aliases ⟨before ++ entry :: after⟩ (parts ++ parts') fault

theorem Realizes.eq_lift_fold {m : Type → Type} [Monad m] {P : Type} {b : Builder m P}
    {x : ExceptT Fault m P} {plan : Except Fault (m P)} {part : Predicate}
    (realizes : Realizes x plan)
    (agree : Agree (fun build p => build = Predicate.fold b p) plan (.ok part)) :
    x = ExceptT.lift (part.fold b) := by
  obtain ⟨build, planned, same⟩ := agree.exists_of_ok
  rw [planned, Realizes.ok_iff] at realizes
  rw [realizes, same]

namespace Compiler

variable {compiler : Compiler} {aliases : TableAliases} {fault : Fault}

theorem exists_stopsAfter {demand : Demand}
    (failed : outcome (compiler.compileDemand aliases Builder.tree demand) = .error fault) :
    ∃ built, StopsAfter compiler.unknownOperator aliases demand built fault := by
  obtain ⟨entries⟩ := demand
  rw [outcome_compileDemand, Outcome.map_eq_error_iff, Outcome.mapM_eq_error_iff] at failed
  simp only [outcome_compileNode_eq_ok_iff, outcome_compileNode_eq_error_iff] at failed
  obtain ⟨before, entry, after, rfl, earlier, preceding, r, following, split, fits, rejected⟩ :=
    failed
  obtain ⟨parts, entries⟩ := exists_forall₂_iff.mpr earlier
  obtain ⟨parts', restrictions⟩ := exists_forall₂_iff.mpr fun r member =>
    (exists_emits_iff (r.target.qualified aliases)).mpr (fits r member)
  exact ⟨_, .intro entries split restrictions rejected⟩

section Effects

variable {m : Type → Type} [Monad m] {P : Type} {b : Builder m P}

theorem compileRestriction_eq_throw {target : FieldAlias} {restriction : Restriction}
    (rejected : Rejected compiler.unknownOperator (target.qualified aliases) restriction fault) :
    compiler.compileRestriction aliases b target restriction = throw fault := by
  cases rejected with
  | single => rfl
  | pair other => simp [compileRestriction, Operand.pair?_eq_none_iff.mpr other]
  | unknown reject => simp [compileRestriction, reject]

variable [LawfulMonad m]

theorem compileRestriction_eq_lift (dispatches : b.Dispatches) {target : FieldAlias}
    {restriction : Restriction} {part : Predicate}
    (emits : Emits compiler.unknownOperator (target.qualified aliases) restriction part) :
    compiler.compileRestriction aliases b target restriction = ExceptT.lift (part.fold b) := by
  have agree := dispatches.deferred_related_tree.compileRestriction compiler aliases target
    restriction
  rw [outcome_compileRestriction_eq_ok_iff.mpr emits] at agree
  exact (compiler.realizes_compileRestriction aliases b target restriction).eq_lift_fold agree

theorem compileNode_eq_lift (dispatches : b.Dispatches) {node : Node} {part : Predicate}
    (emits : NodeEmits compiler.unknownOperator aliases node part) :
    compiler.compileNode aliases b node = ExceptT.lift (part.fold b) := by
  have agree := dispatches.deferred_related_tree.compileNode compiler aliases node
  rw [outcome_compileNode_eq_ok_iff.mpr emits] at agree
  exact (compiler.realizes_compileNode aliases b node).eq_lift_fold agree

/-- A node is built up to the restriction that is rejected. -/
theorem compileNode_eq_interrupted (dispatches : b.Dispatches) {node : Node}
    {preceding : List FieldRestriction} {r : FieldRestriction}
    {following : List FieldRestriction} {parts : List Predicate}
    (split : node.restrictions = preceding ++ r :: following)
    (emits : List.Forall₂ (fun r part =>
      Emits compiler.unknownOperator (r.target.qualified aliases) r.restriction part)
      preceding parts)
    (rejected : Rejected compiler.unknownOperator (r.target.qualified aliases) r.restriction
      fault) :
    compiler.compileNode aliases b node = interrupted (parts.mapM (Predicate.fold b)) fault := by
  have stops : compiler.compileRestriction aliases b r.target r.restriction =
      interrupted (List.mapM (Predicate.fold b) []) fault := by
    rw [compileRestriction_eq_throw rejected, List.mapM_nil, throw_eq_interrupted]
  cases node with
  | leaf only =>
      obtain ⟨rfl, rfl, rfl⟩ : preceding = [] ∧ r = only ∧ following = [] := by
        cases preceding <;> simp_all [Node.restrictions]
      cases emits
      rw [compileNode, stops]
  | group connective group =>
      have each : List.Forall₂ (fun (r : FieldRestriction) part =>
          compiler.compileRestriction aliases b r.target r.restriction =
            ExceptT.lift (Predicate.fold b part)) preceding parts :=
        emits.imp fun _ _ => compileRestriction_eq_lift dispatches
      have grouped : compiler.compileGroup aliases b group =
          interrupted (parts.mapM (Predicate.fold b)) fault := by
        have split : group.restrictions = preceding ++ r :: following := split
        rw [compileGroup, split, mapM_eq_interrupted each stops following, List.append_nil]
      cases connective <;> rw [compileNode, grouped, interrupted_bind]

theorem compileDemand_eq_interrupted (dispatches : b.Dispatches) {demand : Demand}
    {built : List Predicate}
    (stops : StopsAfter compiler.unknownOperator aliases demand built fault) :
    compiler.compileDemand aliases b demand =
      interrupted (built.mapM (Predicate.fold b)) fault := by
  cases stops with
  | @intro before entry after _ _ _ parts parts' _ entries split restrictions rejected =>
      have each : List.Forall₂ (fun (entry : String × Node) part =>
          compiler.compileNode aliases b entry.2 = ExceptT.lift (Predicate.fold b part))
          before parts :=
        entries.imp fun _ _ => compileNode_eq_lift dispatches
      have last := compileNode_eq_interrupted dispatches split restrictions rejected
      rw [compileDemand, mapM_eq_interrupted each last after, interrupted_bind]

/-- A demand that cannot be read has no effects but its fault. -/
theorem compile_eq_throw {raw : Mapping} (unread : Demand.read (coerceDemand raw) = .error fault) :
    compiler.compile aliases b raw = throw fault := by
  rw [compile, unread]
  change throw fault >>= compiler.compileDemand aliases b = throw fault
  rw [throw_eq_interrupted PUnit.unit, interrupted_bind, throw_eq_interrupted PUnit.unit]

theorem compile_eq_compileDemand {raw : Mapping} {demand : Demand}
    (reads : Demand.read (coerceDemand raw) = .ok demand) :
    compiler.compile aliases b raw = compiler.compileDemand aliases b demand := by
  rw [compile, reads]
  exact pure_bind demand (compiler.compileDemand aliases b)

theorem compile_eq_lift (dispatches : b.Dispatches) {raw : Mapping} {tree : Predicate}
    (compiled : compiler.tree? aliases raw = .ok tree) :
    compiler.compile aliases b raw = ExceptT.lift (tree.fold b) := by
  have realizes := compiler.realizes_fold aliases dispatches raw
  rw [compiled] at realizes
  exact Realizes.ok_iff.mp realizes

end Effects

/-! Recorded calls. -/

section Recording

variable {P : Type}

/-- What a compilation with a recording builder returns, and the log of the calls by then. -/
def recorded (compiler : Compiler) (aliases : TableAliases) (b : Builder Id P) (raw : Mapping)
    (log : List (Invocation P)) : Except Fault P × List (Invocation P) :=
  (compiler.compile aliases b.recording raw).run.run log

/-- A builder is called in the post-order of the tree, once for each node; not at all if the demand
cannot be read; and if building stops at a restriction, only for the nodes of what has been built by
then. The restrictions of each entry are those that are written in it, in their order. -/
theorem recorded_postorder (compiler : Compiler) (aliases : TableAliases) (b : Builder Id P)
    (raw : Mapping) (log : List (Invocation P)) :
    (∀ fault, Demand.read (coerceDemand raw) = .error fault →
      compiler.recorded aliases b raw log = (.error fault, log)) ∧
    (∀ tree, compiler.tree? aliases raw = .ok tree →
      compiler.recorded aliases b raw log =
        (.ok (tree.image b), log ++ tree.postorder.map (Predicate.invocation b))) ∧
    ∀ demand, Demand.read (coerceDemand raw) = .ok demand →
      List.Forall₂ (fun written entry =>
        ReadInOrder CoercedReading (entryRestrictions written) entry.2.restrictions)
        raw demand.entries ∧
      ∀ fault,
        (compiler.tree? aliases raw = .error fault →
          ∃ built, StopsAfter compiler.unknownOperator aliases demand built fault) ∧
        ∀ built, StopsAfter compiler.unknownOperator aliases demand built fault →
          compiler.recorded aliases b raw log =
            (.error fault,
              log ++ (built.flatMap Predicate.postorder).map (Predicate.invocation b)) := by
  refine ⟨?_, ?_, ?_⟩
  · intro fault unread
    rw [recorded, compile_eq_throw unread]
    rfl
  · intro tree compiled
    rw [recorded, compile_eq_lift b.dispatches_recording compiled, run_lift,
      tree.run_fold_recording]
    rfl
  · intro demand reads
    refine ⟨Demand.entries_readInOrder reads, fun fault => ⟨?_, ?_⟩⟩
    · intro failed
      rw [tree?, compile_eq_compileDemand reads] at failed
      exact exists_stopsAfter failed
    · intro built stops
      rw [recorded, compile_eq_compileDemand reads,
        compileDemand_eq_interrupted b.dispatches_recording stops, run_interrupted,
        Predicate.run_mapM_recording fun part _ => part.run_fold_recording, List.map_flatMap]
      rfl

/-- The bounds of a range and their conjunction are built, then the restrictions of a group, one
member after the other, up to one that is refused. A demand with a key that is no alias is refused
before that. -/
theorem recorded_postorder_refused :
    let range : Json := .object [("operator", .string "-"),
      ("value", .array [.null, .string "9"])]
    let written (tag operand : String) : Json :=
      .object [("operator", .string tag), ("value", .string operand)]
    let group : Json := .object [("t-g", .array [written "EQ" "9", written "LT" "5"]),
      ("u-h", .array [written "GT" "1", written "LIKE" "2", written "EQ" "3"])]
    let raw : Mapping := [("t-f", range), ("or-1", group), ("t-h", written "EQ" "9")]
    let text : Builder Id String := .trace
    recorded ⟨.reject⟩ [] text raw [] =
        (.error (.unknownOperator "h" "LIKE"),
          [.compare .gte "f" .null, .compare .lte "f" (.string "9"),
            .group .all ["gte(f, NULL)", "lte(f, '9')"], .compare .eq "g" (.int 9),
            .compare .lt "g" (.int 5), .compare .gt "h" (.int 1)]) ∧
      recorded ⟨.reject⟩ [] text (raw ++ [("f", written "EQ" "9")]) [] =
        (.error (.malformedAlias "f" .noSeparator), []) := by
  intro range written group raw text
  constructor
  · let first : Predicate := .conj [.compare "f" .gte .null, .compare "f" .lte (.string "9")]
    let parts : List Predicate :=
      [.compare "g" .eq (.int 9), .compare "g" .lt (.int 5), .compare "h" .gt (.int 1)]
    let g : Member := ⟨⟨"t", "g"⟩, [.compare .eq (.int 9), .compare .lt (.int 5)]⟩
    let refused : Restriction := ⟨.unknown "LIKE", .scalar (.int 2)⟩
    let h : Member := ⟨⟨"u", "h"⟩, [.compare .gt (.int 1), refused, .compare .eq (.int 3)]⟩
    let node : Node := .group .any ⟨"or-1", [g, h]⟩
    let demand : Demand := ⟨[("t-f", .leaf ⟨⟨"t", "f"⟩, .range .null (.string "9")⟩),
      ("or-1", node), ("t-h", .leaf ⟨⟨"t", "h"⟩, .compare .eq (.int 9)⟩)]⟩
    have reads : Demand.read (coerceDemand raw) = .ok demand := by decide +kernel
    have entries : List.Forall₂
        (fun (entry : String × Node) part => NodeEmits .reject [] entry.2 part)
        (demand.entries.take 1) [first] := .cons (.leaf (.range _ _)) .nil
    have split : node.restrictions =
        [⟨g.target, .compare .eq (.int 9)⟩, ⟨g.target, .compare .lt (.int 5)⟩,
          ⟨h.target, .compare .gt (.int 1)⟩] ++
        ⟨h.target, refused⟩ :: [⟨h.target, .compare .eq (.int 3)⟩] := rfl
    have stops : StopsAfter .reject [] demand ([first] ++ parts) (.unknownOperator "h" "LIKE") :=
      .intro entries split
        (.cons (.compare _ _) (.cons (.compare _ _) (.cons (.compare _ _) .nil))) (.unknown rfl)
    obtain ⟨_, _, stopped⟩ := recorded_postorder ⟨.reject⟩ [] text raw []
    rw [((stopped demand reads).2 _).2 _ stops]
    rfl
  · have unread : Demand.read (coerceDemand (raw ++ [("f", written "EQ" "9")])) =
        .error (.malformedAlias "f" .noSeparator) := by decide +kernel
    exact (recorded_postorder ⟨.reject⟩ [] text _ []).1 _ unread

end Recording

end Compiler

end Winnow
