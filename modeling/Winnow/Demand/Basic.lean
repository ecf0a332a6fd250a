import Winnow.Demand.FieldAlias
import Winnow.Demand.Restriction

/-!
# Demands

A demand is a list of entries, each a restriction on one field or a group of restrictions on
several. `Demand.read` decides once what each entry of a raw mapping is: a mapping with an operator
is a restriction, any other is a group.
-/

namespace Winnow

structure FieldRestriction where
  target : FieldAlias
  restriction : Restriction
deriving DecidableEq

/-- One field of a group with all its restrictions. -/
structure Member where
  target : FieldAlias
  restrictions : List Restriction
deriving DecidableEq

structure Group where
  /-- The grouping key as written. -/
  key : String
  members : List Member
deriving DecidableEq

/-- Every restriction of a group with its field, in order. -/
def Group.restrictions (group : Group) : List FieldRestriction :=
  group.members.flatMap fun member => member.restrictions.map (⟨member.target, ·⟩)

inductive Node where
  | leaf (restriction : FieldRestriction)
  | group (connective : Connective) (group : Group)
deriving DecidableEq

namespace Node

def readMember (group : String) (entry : String × Json) : Except Fault Member :=
  return ⟨← FieldAlias.read entry.1, ← Restriction.readMany group entry.1 entry.2⟩

/-- The group that stands under a grouping key. -/
def readGroup (key : String) (members : Mapping) : Except Fault Node := do
  let connective ← Connective.ofKey key
  return .group connective ⟨key, ← members.mapM (readMember key)⟩

def read (key : String) (json : Json) : Except Fault Node := do
  let members ← expectMapping (.entry key) json
  if (members.get? RestrictionKey.operator.name).isSome then
    return .leaf ⟨← FieldAlias.read key, ← Restriction.read (.entry key) members⟩
  else
    readGroup key members

end Node

/-- Top-level nodes with their keys, in order. -/
structure Demand where
  entries : List (String × Node)
deriving DecidableEq

namespace Demand

def readEntry (entry : String × Json) : Except Fault (String × Node) :=
  return (entry.1, ← Node.read entry.1 entry.2)

def read (raw : Mapping) : Except Fault Demand :=
  return ⟨← raw.mapM readEntry⟩

/-- Any JSON value may be offered as a demand; it has to be a mapping. -/
def ofJson (json : Json) : Except Fault Demand := do
  read (← expectMapping .root json)

end Demand

end Winnow
