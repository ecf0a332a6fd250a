import Winnow.Proofs.Compilation.Builders
import Winnow.Proofs.Predicate.Structure

/-!
# The tree and the other query layers

What a builder makes of a demand is what it makes of the demand's tree: compiling with the builder
is compiling to the tree and building the tree anew. A builder without effects makes of a tree its
`Predicate.image`.
-/

namespace Winnow

/-! Building a tree anew. -/

namespace Predicate

section Fold

variable {m : Type → Type} [Monad m] [LawfulMonad m] {P : Type} (b : Builder m P)

theorem foldParts_eq (parts : List Predicate) : foldParts b parts = parts.mapM (fold b) := by
  induction parts with
  | nil => rw [foldParts, List.mapM_nil]
  | cons part rest ih => rw [foldParts, List.mapM_cons, ih]

theorem fold_combine (connective : Connective) (parts : List Predicate) :
    fold b (connective.combine parts) = parts.mapM (fold b) >>= connective.build b := by
  cases connective <;> rw [Connective.combine, fold, foldParts_eq] <;> rfl

/-- Putting off the effects of a builder, and then running what it has built of the parts of a
group, builds the parts anew. -/
theorem mapM_id_of_fold {computations : List (m P)} {parts : List Predicate}
    (each : List.Forall₂ (fun x part => x = fold b part) computations parts) :
    computations.mapM id = parts.mapM (fold b) := by
  induction each with
  | nil => rw [List.mapM_nil, List.mapM_nil]
  | cons head _ ih => rw [List.mapM_cons, List.mapM_cons, ih, head, id]

end Fold

mutual

/-- What a builder without effects makes of a tree, when each comparison is made by the operation
of its name. -/
def image {P : Type} (b : Builder Id P) : Predicate → P
  | .compare field op operand =>
    (op.select b.eq b.gt b.gte b.lt b.lte field operand).run
  | .bare field => (b.bare field).run
  | .conj parts => (b.conj (partImages b parts)).run
  | .disj parts => (b.disj (partImages b parts)).run

def partImages {P : Type} (b : Builder Id P) : List Predicate → List P
  | [] => []
  | part :: rest => image b part :: partImages b rest

end

section Image

variable {P : Type} (b : Builder Id P)

theorem partImages_eq (parts : List Predicate) : partImages b parts = parts.map (image b) := by
  induction parts with
  | nil => rfl
  | cons part rest ih => rw [partImages, List.map_cons, ih]

theorem image_combine (connective : Connective) (parts : List Predicate) :
    image b (connective.combine parts) = (connective.build b (parts.map (image b))).run := by
  cases connective <;> rw [Connective.combine, image, partImages_eq] <;> rfl

end Image

end Predicate

/-- A builder that has no way of its own to compare by an operator. -/
def Builder.Dispatches {m : Type → Type} {P : Type} (b : Builder m P) : Prop :=
  ∀ field op operand, b.compare field op operand =
    op.select b.eq b.gt b.gte b.lt b.lte field operand

theorem Predicate.run_fold {P : Type} {b : Builder Id P} (dispatches : b.Dispatches)
    (p : Predicate) : (p.fold b).run = p.image b := by
  induction p using Predicate.induction with
  | compare field op operand => rw [fold, image, dispatches]
  | bare field => rw [fold, image]
  | group connective parts ih =>
      have built : (parts.mapM (fold b)).run = parts.map (image b) := by
        rw [List.idRun_mapM]
        exact List.map_congr_left ih
      rw [fold_combine, image_combine, ← built, Id.run_bind]

/-! Compiling. -/

theorem Agree.eq_map {ε : Type u} {α β : Type v} {f : α → β} {x : Except ε β} {y : Except ε α}
    (agree : Agree (fun b a => b = f a) x y) : x = f <$> y := by
  cases agree with
  | ok related => exact congrArg Except.ok related
  | error e => rfl

/-- Without effects, what realizes a plan is the plan. -/
theorem Realizes.outcome_eq {ε α : Type} {x : ExceptT ε Id α} {plan : Except ε (Id α)}
    (realizes : Realizes x plan) : outcome x = Id.run <$> plan := by
  cases realizes with
  | ok same =>
      rw [same]
      rfl
  | error failed =>
      obtain ⟨before, same⟩ := failed
      rw [same]
      rfl

section Tree

variable {m : Type → Type} [Monad m] [LawfulMonad m] {P : Type} {b : Builder m P}

/-- Building now and running later agrees with the tree, built anew. The bounds of a range do not go
through `compare`, so a builder that compares in a way of its own builds another range. -/
theorem Builder.Dispatches.deferred_related_tree (dispatches : b.Dispatches) :
    Builder.Related (fun x p => x = p.fold b) b.deferred (Builder.tree (m := Id)) where
  compare field op operand := by
    rw [compare_tree]
    exact (Predicate.fold.eq_1 b field op operand).symm
  gte field operand := by
    change b.gte field operand = Predicate.fold b (.compare field .gte operand)
    rw [Predicate.fold, dispatches]
    rfl
  lte field operand := by
    change b.lte field operand = Predicate.fold b (.compare field .lte operand)
    rw [Predicate.fold, dispatches]
    rfl
  bare field := (Predicate.fold.eq_2 b field).symm
  conj computations parts each := by
    change computations.mapM id >>= b.conj = Predicate.fold b (.conj parts)
    rw [Predicate.mapM_id_of_fold b each]
    exact (Predicate.fold_combine b .all parts).symm
  disj computations parts each := by
    change computations.mapM id >>= b.disj = Predicate.fold b (.disj parts)
    rw [Predicate.mapM_id_of_fold b each]
    exact (Predicate.fold_combine b .any parts).symm

namespace Compiler

variable (compiler : Compiler) (aliases : TableAliases)

/-- A compilation has the effects of building the tree anew, part after part, and fails as there is
no tree. -/
theorem realizes_fold (dispatches : b.Dispatches) (raw : Mapping) :
    Realizes (compiler.compile aliases b raw)
      (Predicate.fold b <$> compiler.tree? aliases raw) := by
  have agree := dispatches.deferred_related_tree.compile compiler aliases raw
  rw [tree?, ← agree.eq_map]
  exact compiler.realizes_compile aliases b raw

end Compiler

end Tree

/-- A builder without effects fails on a raw demand where there is no tree, with the same fault, and
makes the image of the tree where there is one. -/
theorem Compiler.outcome_compile_eq_image {P : Type} (compiler : Compiler)
    (aliases : TableAliases) (b : Builder Id P) (dispatches : b.Dispatches) (raw : Mapping) :
    outcome (compiler.compile aliases b raw) =
      Predicate.image b <$> compiler.tree? aliases raw := by
  rw [(compiler.realizes_fold aliases dispatches raw).outcome_eq, Functor.map_map]
  apply congrArg (· <$> compiler.tree? aliases raw)
  funext p
  exact Predicate.run_fold dispatches p

/-- A range, and a group with an operator that is not known, compiled to a text. -/
theorem Compiler.outcome_compile_trace_range :
    let range : Json := .object [("operator", .string "-"),
      ("value", .array [.string "a", .string "b"])]
    let equal : Json := .object [("operator", .string "EQ"), ("value", .string "x")]
    let other : Json := .object [("operator", .string "LIKE"), ("value", .null)]
    let group : Json := .object [("t-g", .array [equal, other])]
    let text : Builder Id String := .trace
    text.Dispatches ∧
      outcome (compile ⟨.placeholder⟩ [("t", "q")] text [("t-f", range), ("or-1", group)]) =
        .ok "andX(andX(gte(q.f, 'a'), lte(q.f, 'b')), orX(eq(q.g, 'x'), field(q.g)))" := by
  intro range equal other group text
  have dispatches : text.Dispatches := fun _ _ _ => rfl
  let tree : Predicate := .conj [
    .conj [.compare "q.f" .gte (.string "a"), .compare "q.f" .lte (.string "b")],
    .disj [.compare "q.g" .eq (.string "x"), .bare "q.g"]]
  have compiled : tree? ⟨.placeholder⟩ [("t", "q")] [("t-f", range), ("or-1", group)] =
      .ok tree := by decide +kernel
  refine ⟨dispatches, ?_⟩
  rw [outcome_compile_eq_image _ _ text dispatches, compiled]
  have image : tree.image text =
      "andX(andX(gte(q.f, 'a'), lte(q.f, 'b')), orX(eq(q.g, 'x'), field(q.g)))" := by
    decide +kernel
  exact congrArg Except.ok image

end Winnow
