import Winnow.Fault

/-!
# Field aliases and grouping keys

Keys of a demand are segments between hyphens. A field alias is a table and a field, and whatever
follows a second hyphen is not read. A grouping key starts with the name of a connective; what
follows its first hyphen only tells one group from another.
-/

namespace Winnow

/-- Query aliases of tables. -/
abbrev TableAliases := Entries String

/-- Parts a key into segments. -/
def separator : Char := '-'

/-- The text before the first separator. -/
def firstSegment (cs : List Char) : List Char :=
  cs.takeWhile (· ≠ separator)

/-- The text after the first separator, if there is one. -/
def afterSegment? (cs : List Char) : Option (List Char) :=
  (cs.dropWhile (· ≠ separator)).tail?

structure FieldAlias where
  table : String
  field : String
deriving DecidableEq, Repr

namespace FieldAlias

def ofChars (cs : List Char) : Except AliasFlaw FieldAlias :=
  match afterSegment? cs with
  | none => .error .noSeparator
  | some rest =>
    let table := firstSegment cs
    let field := firstSegment rest
    if table.isEmpty then .error .emptyTable
    else if field.isEmpty then .error .emptyField
    else .ok ⟨String.ofList table, String.ofList field⟩

def read (key : String) : Except Fault FieldAlias :=
  (ofChars key.toList).mapError (.malformedAlias key)

def text (target : FieldAlias) : String :=
  target.table ++ String.singleton separator ++ target.field

/-- The field that a key names, its table aside. -/
def resolve (key : String) : Except Fault String :=
  FieldAlias.field <$> read key

/-- How a predicate refers to the field: with the query alias of the table, if it has one. -/
def qualified (target : FieldAlias) (aliases : TableAliases) : String :=
  match aliases.get? target.table with
  | some query => query ++ "." ++ target.field
  | none => target.field

end FieldAlias

/-- How the restrictions of a group are combined. -/
inductive Connective where
  | any
  | all
deriving DecidableEq, Repr

namespace Connective

def name : Connective → String
  | .any => "or"
  | .all => "and"

/-- The connective that a grouping key starts with. -/
def ofKey (key : String) : Except Fault Connective :=
  let start := String.ofList (firstSegment key.toList)
  if start = any.name then .ok .any
  else if start = all.name then .ok .all
  else .error (.missingGroup key)

end Connective

end Winnow
