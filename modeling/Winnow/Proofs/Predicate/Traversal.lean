import Winnow.Proofs.Compilation.Universality

/-!
# The calls that build a predicate

A predicate is built from the leaves up: the parts of a group from left to right, and then the
group. A builder that records its calls is called once for each node, in post-order.
-/

namespace Winnow

namespace Predicate

mutual

/-- The nodes of a tree, each after its parts. -/
def postorder : Predicate → List Predicate
  | .compare field op operand => [.compare field op operand]
  | .bare field => [.bare field]
  | .conj parts => partPostorders parts ++ [.conj parts]
  | .disj parts => partPostorders parts ++ [.disj parts]

def partPostorders : List Predicate → List Predicate
  | [] => []
  | part :: rest => postorder part ++ partPostorders rest

end

theorem partPostorders_eq (parts : List Predicate) :
    partPostorders parts = parts.flatMap postorder := by
  induction parts with
  | nil => rfl
  | cons part rest ih => rw [partPostorders, List.flatMap_cons, ih]

theorem postorder_combine (connective : Connective) (parts : List Predicate) :
    (connective.combine parts).postorder =
      parts.flatMap postorder ++ [connective.combine parts] := by
  cases connective <;> rw [Connective.combine, postorder, partPostorders_eq]

end Predicate

/-- A call of a builder with its arguments. -/
inductive Invocation (P : Type) where
  | compare (op : Comparison) (field : String) (operand : Scalar)
  | bare (field : String)
  | group (connective : Connective) (parts : List P)

section Recording

variable {P : Type} (b : Builder Id P)

/-- What a builder without effects makes when it is called. -/
def Builder.perform : Invocation P → P
  | .compare op field operand => (op.select b.eq b.gt b.gte b.lt b.lte field operand).run
  | .bare field => (b.bare field).run
  | .group connective parts => (connective.build b parts).run

def Builder.record (call : Invocation P) : StateM (List (Invocation P)) P := do
  modify (· ++ [call])
  return b.perform call

/-- Does what another builder does, and keeps a log of its calls. -/
def Builder.recording : Builder (StateM (List (Invocation P))) P where
  eq field operand := b.record (.compare .eq field operand)
  gt field operand := b.record (.compare .gt field operand)
  gte field operand := b.record (.compare .gte field operand)
  lt field operand := b.record (.compare .lt field operand)
  lte field operand := b.record (.compare .lte field operand)
  conj parts := b.record (.group .all parts)
  disj parts := b.record (.group .any parts)
  bare field := b.record (.bare field)

theorem Builder.run_record (call : Invocation P) (log : List (Invocation P)) :
    (b.record call).run log = (b.perform call, log ++ [call]) := rfl

theorem Builder.dispatches_recording : b.recording.Dispatches := fun _ _ _ => rfl

theorem Builder.compare_recording (field : String) (op : Comparison) (operand : Scalar) :
    b.recording.compare field op operand = b.record (.compare op field operand) := by
  cases op <;> rfl

theorem Connective.build_recording (connective : Connective) (parts : List P) :
    connective.build b.recording parts = b.record (.group connective parts) := by
  cases connective <;> rfl

namespace Predicate

/-- The call that makes a node when its parts have been made. -/
def invocation : Predicate → Invocation P
  | .compare field op operand => .compare op field operand
  | .bare field => .bare field
  | .conj parts => .group .all (parts.map (image b))
  | .disj parts => .group .any (parts.map (image b))

/-- The calls that make a tree, one for each node. -/
def invocations (p : Predicate) : List (Invocation P) :=
  p.postorder.map (invocation b)

theorem invocations_combine (connective : Connective) (parts : List Predicate) :
    (connective.combine parts).invocations b =
      parts.flatMap (invocations b) ++ [.group connective (parts.map (image b))] := by
  rw [invocations, postorder_combine, List.map_append, List.map_flatMap]
  cases connective <;> rfl

variable {b}

/-- If each part adds its calls to the log, the parts add theirs one after the other. -/
theorem run_mapM_recording {parts : List Predicate}
    (each : ∀ part ∈ parts, ∀ log,
      (part.fold b.recording).run log = (part.image b, log ++ part.invocations b))
    (log : List (Invocation P)) :
    (parts.mapM (fold b.recording)).run log =
      (parts.map (image b), log ++ parts.flatMap (invocations b)) := by
  induction parts generalizing log with
  | nil =>
      rw [List.mapM_nil, List.map_nil, List.flatMap_nil, List.append_nil]
      rfl
  | cons part rest ih =>
      obtain ⟨first, others⟩ := List.forall_mem_cons.mp each
      rw [List.mapM_cons, StateT.run_bind, first]
      change ((rest.mapM (fold b.recording) >>= fun built => pure (part.image b :: built)).run
        (log ++ part.invocations b)) = _
      rw [StateT.run_bind, ih others, List.map_cons, List.flatMap_cons, ← List.append_assoc]
      rfl

theorem run_fold_recording (p : Predicate) (log : List (Invocation P)) :
    (p.fold b.recording).run log = (p.image b, log ++ p.invocations b) := by
  induction p using Predicate.induction generalizing log with
  | compare field op operand =>
      rw [fold, Builder.compare_recording, Builder.run_record, image]
      rfl
  | bare field =>
      rw [fold, image]
      rfl
  | group connective parts ih =>
      rw [fold_combine, StateT.run_bind, run_mapM_recording ih, image_combine, invocations_combine,
        ← List.append_assoc]
      change (connective.build b.recording (parts.map (image b))).run _ = _
      rw [Connective.build_recording, Builder.run_record, Builder.perform]

end Predicate

end Recording

end Winnow
