import Winnow.Demand.Basic
import Winnow.Demand.Coercion
import Winnow.Policy
import Winnow.Predicate.Builder

/-!
# Compiling demands

`Compiler.compile` coerces a raw demand, reads it and builds the predicate of any query layer: one
predicate for each entry, and a conjunction of these unless there is exactly one. A fault ends the
compilation, and reading is complete before the first predicate is built.
-/

namespace Winnow

structure Compiler where
  unknownOperator : UnknownOperatorPolicy
deriving DecidableEq, Repr, Inhabited

namespace Compiler

variable {m : Type → Type} [Monad m] {P : Type}

def compileRestriction (compiler : Compiler) (aliases : TableAliases) (b : Builder m P)
    (target : FieldAlias) (restriction : Restriction) : ExceptT Fault m P :=
  let field := target.qualified aliases
  match restriction.operator with
  | .compare op =>
    match restriction.operand.scalar? with
    | some value => b.compare field op value
    | none => throw (.invalidOperand field (.single op))
  | .range =>
    match restriction.operand.pair? with
    | some (low, high) => do
      let least ← b.gte field low
      let greatest ← b.lte field high
      b.conj [least, greatest]
    | none => throw (.invalidOperand field .pair)
  | .unknown tag =>
    match compiler.unknownOperator with
    | .placeholder => b.bare field
    | .reject => throw (.unknownOperator field tag)

def compileGroup (compiler : Compiler) (aliases : TableAliases) (b : Builder m P)
    (group : Group) : ExceptT Fault m (List P) :=
  group.restrictions.mapM fun r => compiler.compileRestriction aliases b r.target r.restriction

def compileNode (compiler : Compiler) (aliases : TableAliases) (b : Builder m P) :
    Node → ExceptT Fault m P
  | .leaf r => compiler.compileRestriction aliases b r.target r.restriction
  | .group .any group => do b.disj (← compiler.compileGroup aliases b group)
  | .group .all group => do b.conj (← compiler.compileGroup aliases b group)

/-- One part stands for itself; otherwise the parts are joined. -/
def join (b : Builder m P) : List P → m P
  | [part] => pure part
  | parts => b.conj parts

def compileDemand (compiler : Compiler) (aliases : TableAliases) (b : Builder m P)
    (demand : Demand) : ExceptT Fault m P := do
  let parts ← demand.entries.mapM fun entry => compiler.compileNode aliases b entry.2
  ExceptT.lift (join b parts)

/-- Coerces, reads and compiles a raw demand. -/
def compile (compiler : Compiler) (aliases : TableAliases) (b : Builder m P)
    (raw : Mapping) : ExceptT Fault m P := do
  let demand ← MonadExcept.ofExcept (Demand.read (coerceDemand raw))
  compiler.compileDemand aliases b demand

end Compiler

end Winnow
