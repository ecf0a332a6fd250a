import Winnow.Yaml.Anchor
import Winnow.Yaml.Schema

/-!
# YAML as JSON

A document as a JSON value. Keys are scalars and keep their text; tags of one's own have no meaning
here. Collections may be nested 128 deep, aliases resolved.
-/

namespace Winnow.Yaml

/-- Is a tag one's own, rather than a standard one? -/
def isLocalTag (tag : String) : Bool := tag.toList.head? == some '!'

def Properties.isLocal {ρ : Type} (properties : Properties ρ) : Bool :=
  properties.tag.any isLocalTag

def scalarJson? (tag : Option String) (plain : Bool) (text : String) : Option Json := do
  let resolved ←
    match tag with
    | some tag => Resolved.ofTagged? tag text
    | none => some (if plain then .ofPlain text else .string)
  resolved.toJson? text

namespace Linked

/-- The value of a node, where `inner` reads the nodes in a collection if there may be one. -/
def nodeJson (linked : Linked) (inner : Option (Node Nat → Reading Json)) (node : Node Nat) :
    Reading Json := do
  match ← linked.follow node, inner with
  | .scalar properties plain text, _ =>
    if properties.isLocal then failure
    else
      match scalarJson? properties.tag plain text with
      | some json => return json
      | none => failure
  | .sequence properties items, some inner =>
    if properties.isLocal then failure
    else return .array (← items.mapM inner)
  | .mapping properties members, some inner =>
    if properties.isLocal then failure
    else
      let members ← members.mapM fun (key, value) => do
        let key ← linked.text key
        return (key, ← inner value)
      return .object (Entries.ofList members)
  | _, _ => failure

/-- The value of a node with at most `depth` collections one in another. -/
def json (linked : Linked) : Nat → Node Nat → Reading Json
  | 0 => linked.nodeJson none
  | depth + 1 => linked.nodeJson (some (linked.json depth))

end Linked

def maxDepth : Nat := 128

/-- The JSON value of a document; null if it holds nothing. -/
def readJson? (text : String) : Option Json := do
  match (← Document.read? text).root with
  | none => return .null
  | some root =>
    let linked ← Linked.ofNode? root
    (linked.json maxDepth linked.root).run' 0

end Winnow.Yaml
