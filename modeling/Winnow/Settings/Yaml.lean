import Winnow.Settings.Basic
import Winnow.Yaml.Json

/-!
# Settings as YAML

Settings are a mapping of their fields, and a document that holds nothing has the defaults. Scalars
stand for their text, whatever it looks like. A policy is a scalar, or a tag of its name without a
value.
-/

namespace Winnow.Settings

open Winnow.Yaml (Linked)

/-- The members of a mapping. A scalar without text counts as an empty one. -/
def yamlMembers (linked : Linked) (node : Yaml.Node Nat) :
    Linked.Reading (List (Yaml.Node Nat × Yaml.Node Nat)) := do
  match ← linked.follow node with
  | .mapping _ members => return members
  | .scalar _ true "" => return []
  | _ => failure

/-- A table of strings. Of a key that is written several times the last value is kept. -/
def yamlTable (linked : Linked) (node : Yaml.Node Nat) : Linked.Reading (Entries String) := do
  let members ← yamlMembers linked node
  Entries.ofList <$> members.mapM fun (key, value) => do
    let key ← linked.text key
    return (key, ← linked.text value)

def yamlWord (linked : Linked) (node : Yaml.Node Nat) : Linked.Reading String := do
  match ← linked.follow node with
  | .scalar properties plain text =>
    match properties.tag with
    | some tag =>
      if !Yaml.isLocalTag tag then return text
      else if plain && (text == "" || Yaml.Resolved.isNull text) then
        return String.ofList (tag.toList.drop 1)
      else failure
    | none => return text
  | _ => failure

def ofYamlText? (text : String) : Option Settings := do
  match (← Yaml.Document.read? text).root with
  | none => return {}
  | some root =>
    let linked ← Linked.ofNode? root
    let fields : Entries (Yaml.Node Nat) ← StateT.run' (do
      let members ← yamlMembers linked linked.root
      members.mapM fun (key, value) => return (← linked.text key, value)) 0
    ofFields? (fun node => (yamlTable linked node).run' 0)
      (fun node => (yamlWord linked node).run' 0) fields

end Winnow.Settings
