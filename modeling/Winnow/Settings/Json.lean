import Winnow.Json.Reader
import Winnow.Settings.Basic

/-!
# Settings as JSON

Settings are written as an object with all four fields. They are read from an object with some of
them, or from an array of the first few in order. A policy is a string, or an object whose only
member has the policy's name and no value.
-/

namespace Winnow.Settings

def tableJson (table : Entries String) : Json :=
  .object (table.mapValues .string)

def toJson (settings : Settings) : Json :=
  .object [
    (Field.providers.name, tableJson settings.providers),
    (Field.merge.name, .string settings.merge.name),
    (Field.unknownOperator.name, .string settings.unknownOperator.name),
    (Field.tableAliases.name, tableJson settings.tableAliases)]

def stringMember? (member : String × Json) : Option (String × String) := do
  return (member.1, ← member.2.string?)

/-- A table of strings. Of a key that is written several times the last value is kept. -/
def jsonTable? (json : Json) : Option (Entries String) := do
  let members ← json.mapping?
  Entries.ofList <$> members.mapM stringMember?

def jsonWord? : Json → Option String
  | .string name => some name
  | .object [(name, .null)] => some name
  | _ => none

/-- Settings from a value whose objects have their members as written. -/
def ofJson? : Json → Option Settings
  | .object members => ofFields? jsonTable? jsonWord? members
  | .array items =>
    if items.length ≤ Field.all.length then
      assemble? jsonTable? jsonWord? fun field => items[Field.all.idxOf field]?
    else
      none
  | _ => none

def ofJsonText? (text : String) : Option Settings := do
  ofJson? (← Json.decode? text)

end Winnow.Settings
