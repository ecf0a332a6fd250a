import Winnow.Demand.FieldAlias
import Winnow.Policy

/-!
# Settings

What a filter is made from: its providers by id and kind, how their demands are combined, what is
done about unknown operators, and the query aliases of tables. Every field may be left out and then
has its default.

`Settings.assemble?` puts settings together from the fields of some document; the JSON and the YAML
form differ only in how they give a field's value.
-/

namespace Winnow

structure Settings where
  /-- Kinds of providers by their ids, in the order in which they are asked. -/
  providers : Entries String := []
  merge : MergePolicy := .merge
  unknownOperator : UnknownOperatorPolicy := .placeholder
  tableAliases : TableAliases := []
deriving DecidableEq, Inhabited

namespace Settings

inductive Field where
  | providers
  | merge
  | unknownOperator
  | tableAliases
deriving DecidableEq, Repr

def Field.name : Field → String
  | .providers => "providers"
  | .merge => "merge"
  | .unknownOperator => "unknown_operator"
  | .tableAliases => "table_aliases"

/-- The fields in the order in which they are written. -/
def Field.all : List Field := [.providers, .merge, .unknownOperator, .tableAliases]

/-- A field that is left out has its default. -/
def orDefault {ν : Type u} {α : Type v} (default : α) (decode : ν → Option α) :
    Option ν → Option α
  | none => some default
  | some value => decode value

/-- Settings from the values of their fields. `table?` reads a table of strings and `word?` the name
of a policy. -/
def assemble? {ν : Type} (table? : ν → Option (Entries String)) (word? : ν → Option String)
    (value? : Field → Option ν) : Option Settings := do
  let providers ← orDefault [] table? (value? .providers)
  let policy ← orDefault .merge (word? · >>= MergePolicy.ofName?) (value? .merge)
  let unknownOperator ←
    orDefault .placeholder (word? · >>= UnknownOperatorPolicy.ofName?) (value? .unknownOperator)
  let tableAliases ← orDefault [] table? (value? .tableAliases)
  return { providers, merge := policy, unknownOperator, tableAliases }

/-- Settings from named fields, each of them known and none given twice. -/
def ofFields? {ν : Type} (table? : ν → Option (Entries String)) (word? : ν → Option String)
    (fields : Entries ν) : Option Settings :=
  if fields.Distinct ∧ ∀ key ∈ fields.keys, key ∈ Field.all.map Field.name then
    assemble? table? word? fun field => fields.get? field.name
  else
    none

end Settings

end Winnow
