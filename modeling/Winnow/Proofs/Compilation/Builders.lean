import Winnow.Proofs.Compilation.Tree

/-!
# Compiling with any builder

A compiler does the same whatever the builder is: builders whose operations are related build
related predicates, and fail with the same faults. The effects of a builder can be put off, so that
this is a matter of builders without effects alone.
-/

namespace Winnow

/-! Related builders. -/

/-- The operations of two builders without effects make related predicates of related parts. -/
structure Builder.Related {P Q : Type} (R : P → Q → Prop) (b : Builder Id P) (c : Builder Id Q) :
    Prop where
  compare : ∀ field op operand,
    R (b.compare field op operand).run (c.compare field op operand).run
  gte : ∀ field operand, R (b.gte field operand).run (c.gte field operand).run
  lte : ∀ field operand, R (b.lte field operand).run (c.lte field operand).run
  bare : ∀ field, R (b.bare field).run (c.bare field).run
  conj : ∀ parts parts', List.Forall₂ R parts parts' → R (b.conj parts).run (c.conj parts').run
  disj : ∀ parts parts', List.Forall₂ R parts parts' → R (b.disj parts).run (c.disj parts').run

theorem Builder.related_true {P Q : Type} (b : Builder Id P) (c : Builder Id Q) :
    Builder.Related (fun _ _ => True) b c := by
  constructor <;> intros <;> trivial

namespace Builder.Related

variable {P Q : Type} {R : P → Q → Prop} {b : Builder Id P} {c : Builder Id Q}
variable (related : Builder.Related R b c) (compiler : Compiler) (aliases : TableAliases)

include related

theorem compileRestriction (target : FieldAlias) (restriction : Restriction) :
    Agree R (outcome (compiler.compileRestriction aliases b target restriction))
      (outcome (compiler.compileRestriction aliases c target restriction)) := by
  obtain ⟨operator, operand⟩ := restriction
  rw [Compiler.compileRestriction, Compiler.compileRestriction]
  cases operator with
  | compare op =>
      cases operand.scalar? with
      | none => exact .error _
      | some value => exact .ok (related.compare _ op value)
  | range =>
      cases operand.pair? with
      | none => exact .error _
      | some bounds =>
          refine .ok (related.conj _ _ ?_)
          exact .cons (related.gte _ bounds.1) (.cons (related.lte _ bounds.2) .nil)
  | unknown tag =>
      cases compiler.unknownOperator with
      | placeholder => exact .ok (related.bare _)
      | reject => exact .error _

theorem compileGroup (group : Group) :
    Agree (List.Forall₂ R) (outcome (compiler.compileGroup aliases b group))
      (outcome (compiler.compileGroup aliases c group)) := by
  rw [Compiler.compileGroup, Compiler.compileGroup, outcome_mapM, outcome_mapM]
  have each := Agree.mapM (R := fun _ => R) group.restrictions fun r _ =>
    related.compileRestriction compiler aliases r.target r.restriction
  exact each.imp fun _ _ aligned => aligned.forall₂_right fun _ _ _ part => part

theorem compileNode (node : Node) :
    Agree R (outcome (compiler.compileNode aliases b node))
      (outcome (compiler.compileNode aliases c node)) := by
  cases node with
  | leaf r => exact related.compileRestriction compiler aliases r.target r.restriction
  | group connective group =>
      rw [Compiler.outcome_compileNode_group, Compiler.outcome_compileNode_group]
      refine (related.compileGroup compiler aliases group).map fun parts parts' each => ?_
      cases connective with
      | any => exact related.disj parts parts' each
      | all => exact related.conj parts parts' each

theorem join {parts : List P} {parts' : List Q} (each : List.Forall₂ R parts parts') :
    R (Compiler.join b parts).run (Compiler.join c parts').run := by
  match each with
  | .nil => exact related.conj _ _ .nil
  | .cons head .nil => exact head
  | .cons head (.cons next rest) => exact related.conj _ _ (.cons head (.cons next rest))

theorem compileDemand (demand : Demand) :
    Agree R (outcome (compiler.compileDemand aliases b demand))
      (outcome (compiler.compileDemand aliases c demand)) := by
  rw [Compiler.outcome_compileDemand, Compiler.outcome_compileDemand]
  have each := Agree.mapM (R := fun _ => R) demand.entries fun entry _ =>
    related.compileNode compiler aliases entry.2
  exact each.map fun _ _ aligned => related.join (aligned.forall₂_right fun _ _ _ part => part)

/-- Compilation cannot tell related builders apart. -/
theorem compile (raw : Mapping) :
    Agree R (outcome (compiler.compile aliases b raw))
      (outcome (compiler.compile aliases c raw)) := by
  rw [Compiler.outcome_compile, Compiler.outcome_compile]
  cases Demand.read (coerceDemand raw) with
  | error fault => exact .error fault
  | ok demand => exact related.compileDemand compiler aliases demand

end Builder.Related

/-! Builders with effects. -/

section Effects

variable {m : Type → Type} [Monad m] {P : Type}

/-- Builds computations, to be run when the predicate they are part of is built. -/
def Builder.deferred (b : Builder m P) : Builder Id (m P) where
  eq field operand := pure (b.eq field operand)
  gt field operand := pure (b.gt field operand)
  gte field operand := pure (b.gte field operand)
  lt field operand := pure (b.lt field operand)
  lte field operand := pure (b.lte field operand)
  conj parts := pure (parts.mapM id >>= b.conj)
  disj parts := pure (parts.mapM id >>= b.disj)
  bare field := pure (b.bare field)
  compare field op operand := pure (b.compare field op operand)

namespace Compiler

variable [LawfulMonad m] (compiler : Compiler) (aliases : TableAliases) (b : Builder m P)

theorem realizes_compileRestriction (target : FieldAlias) (restriction : Restriction) :
    Realizes (compiler.compileRestriction aliases b target restriction)
      (outcome (compiler.compileRestriction aliases b.deferred target restriction)) := by
  obtain ⟨operator, operand⟩ := restriction
  rw [compileRestriction, compileRestriction]
  cases operator with
  | compare op =>
      cases operand.scalar? with
      | none => exact .throw _
      | some value => exact .ok rfl
  | range =>
      cases operand.pair? with
      | none => exact .throw _
      | some bounds =>
          let least := b.gte (target.qualified aliases) bounds.1
          let greatest := b.lte (target.qualified aliases) bounds.2
          refine Realizes.ok (y := [least, greatest].mapM id >>= b.conj) ?_
          change (ExceptT.lift least >>= fun low => ExceptT.lift greatest >>= fun high =>
            ExceptT.lift (b.conj [low, high])) = _
          simp
  | unknown tag =>
      cases compiler.unknownOperator with
      | placeholder => exact .ok rfl
      | reject => exact .throw _

theorem realizes_compileGroup (group : Group) :
    Realizes (compiler.compileGroup aliases b group)
      (List.mapM id <$> outcome (compiler.compileGroup aliases b.deferred group)) := by
  rw [compileGroup, compileGroup, outcome_mapM]
  exact Realizes.mapM (fun r : FieldRestriction =>
    compiler.realizes_compileRestriction aliases b r.target r.restriction) group.restrictions

theorem realizes_compileNode (node : Node) :
    Realizes (compiler.compileNode aliases b node)
      (outcome (compiler.compileNode aliases b.deferred node)) := by
  cases node with
  | leaf r => exact compiler.realizes_compileRestriction aliases b r.target r.restriction
  | group connective group =>
      have built := (compiler.realizes_compileGroup aliases b group).map (connective.build b)
      rw [Functor.map_map] at built
      rw [outcome_compileNode_group]
      cases connective <;> exact built

/-- Whether there is a single part does not depend on when the parts are run. -/
theorem join_deferred (parts : List (m P)) :
    (join b.deferred parts).run = parts.mapM id >>= join b := by
  match parts with
  | [] => simp [join, Builder.deferred]
  | [part] => simp [join]
  | first :: second :: rest => simp [join, Builder.deferred]

theorem realizes_compileDemand (demand : Demand) :
    Realizes (compiler.compileDemand aliases b demand)
      (outcome (compiler.compileDemand aliases b.deferred demand)) := by
  have parts := Realizes.mapM (fun entry : String × Node =>
    compiler.realizes_compileNode aliases b entry.2) demand.entries
  have joined := parts.map (join b)
  rw [Functor.map_map] at joined
  simp only [outcome_compileDemand, join_deferred]
  exact joined

/-- The effects of compilation are those of the computation that is built without effects. -/
theorem realizes_compile (raw : Mapping) :
    Realizes (compiler.compile aliases b raw)
      (outcome (compiler.compile aliases b.deferred raw)) := by
  rw [outcome_compile, compile]
  cases Demand.read (coerceDemand raw) with
  | error fault => exact .error ((failsWith_throw fault).bind _)
  | ok demand =>
      change Realizes (pure demand >>= compiler.compileDemand aliases b) _
      rw [pure_bind]
      exact compiler.realizes_compileDemand aliases b demand

end Compiler

end Effects

end Winnow
