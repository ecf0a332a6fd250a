import Winnow.Predicate.Basic

/-!
# Builders

A builder makes the predicates of a query layer. Its operations may have effects, so that the order
in which they are called is part of what a compiler does. `Builder.tree` makes `Predicate` trees,
and `Predicate.fold` sends a tree through any builder.
-/

namespace Winnow

/-- One of five, by a comparison. -/
def Comparison.select {α : Type u} (eq gt gte lt lte : α) : Comparison → α
  | .eq => eq
  | .gt => gt
  | .gte => gte
  | .lt => lt
  | .lte => lte

structure Builder (m : Type → Type) (P : Type) where
  eq : String → Scalar → m P
  gt : String → Scalar → m P
  gte : String → Scalar → m P
  lt : String → Scalar → m P
  lte : String → Scalar → m P
  conj : List P → m P
  disj : List P → m P
  /-- A bare field, in place of a comparison that has no meaning here. -/
  bare : String → m P
  /-- The comparison that an operator names, unless a query layer has a way of its own. -/
  compare : String → Comparison → Scalar → m P := fun field op operand =>
    op.select eq gt gte lt lte field operand

namespace Builder

variable {m : Type → Type} {P : Type}

def tree [Monad m] : Builder m Predicate where
  eq field operand := pure (.compare field .eq operand)
  gt field operand := pure (.compare field .gt operand)
  gte field operand := pure (.compare field .gte operand)
  lt field operand := pure (.compare field .lt operand)
  lte field operand := pure (.compare field .lte operand)
  conj parts := pure (.conj parts)
  disj parts := pure (.disj parts)
  bare field := pure (.bare field)

@[simp] theorem compare_tree [Monad m] (field : String) (op : Comparison) (operand : Scalar) :
    (tree (m := m)).compare field op operand = pure (.compare field op operand) := by
  cases op <;> rfl

inductive Call where
  | eq
  | gt
  | gte
  | lt
  | lte
  | conj
  | disj
  | bare
deriving DecidableEq, Repr

def Call.name : Call → String
  | .eq => "eq"
  | .gt => "gt"
  | .gte => "gte"
  | .lt => "lt"
  | .lte => "lte"
  | .conj => "andX"
  | .disj => "orX"
  | .bare => "field"

/-- Does what another builder does, and notes each call before it is made. -/
def noting {m : Type → Type} [Monad m] (note : Call → m Unit) (b : Builder m P) :
    Builder m P where
  eq field operand := do note .eq; b.eq field operand
  gt field operand := do note .gt; b.gt field operand
  gte field operand := do note .gte; b.gte field operand
  lt field operand := do note .lt; b.lt field operand
  lte field operand := do note .lte; b.lte field operand
  conj parts := do note .conj; b.conj parts
  disj parts := do note .disj; b.disj parts
  bare field := do note .bare; b.bare field

def Call.text (call : Call) (operands : List String) : String :=
  call.name ++ "(" ++ String.intercalate ", " operands ++ ")"

/-- Makes texts that show how a predicate was built. -/
def trace [Monad m] : Builder m String where
  eq field operand := pure (Call.text .eq [field, operand.text])
  gt field operand := pure (Call.text .gt [field, operand.text])
  gte field operand := pure (Call.text .gte [field, operand.text])
  lt field operand := pure (Call.text .lt [field, operand.text])
  lte field operand := pure (Call.text .lte [field, operand.text])
  conj parts := pure (Call.text .conj parts)
  disj parts := pure (Call.text .disj parts)
  bare field := pure (Call.text .bare [field])

end Builder

namespace Predicate

variable {m : Type → Type} [Monad m] {P : Type}

mutual

/-- Builds a tree anew with another builder: parts first, left to right, then the node. -/
def fold (b : Builder m P) : Predicate → m P
  | .compare field op operand => b.compare field op operand
  | .bare field => b.bare field
  | .conj parts => do b.conj (← foldParts b parts)
  | .disj parts => do b.disj (← foldParts b parts)

def foldParts (b : Builder m P) : List Predicate → m (List P)
  | [] => pure []
  | part :: rest => do
    let first ← fold b part
    return first :: (← foldParts b rest)

end

end Predicate

end Winnow
