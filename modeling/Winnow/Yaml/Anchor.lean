import Winnow.Yaml.Node

/-!
# Anchors and aliases

An anchor is numbered by how many names were anchored before it; anchoring a name again adds none.
An alias has the number that its name has where the alias stands, and means the last node with that
number in the whole document. So an alias may stand inside the node it means.
-/

namespace Winnow.Yaml

/-- The numbers of the names that have been anchored. -/
abbrev AnchorNumbers := Entries Nat

namespace Node

def number (properties : Properties String) : StateT AnchorNumbers Option (Properties Nat) :=
  match properties.anchor with
  | none => return ⟨none, properties.tag⟩
  | some name => do
    let numbers ← get
    set (numbers.put name numbers.length)
    return ⟨some numbers.length, properties.tag⟩

mutual

/-- Numbers the anchors of a tree in the order of the text. An alias of a name that has not been
anchored means nothing. -/
def link? : Node String → StateT AnchorNumbers Option (Node Nat)
  | .scalar properties plain text => return .scalar (← number properties) plain text
  | .sequence properties items => do
    let properties ← number properties
    return .sequence properties (← linkItems? items)
  | .mapping properties members => do
    let properties ← number properties
    return .mapping properties (← linkMembers? members)
  | .reference name => do
    match (← get).get? name with
    | some n => return .reference n
    | none => failure

def linkItems? : List (Node String) → StateT AnchorNumbers Option (List (Node Nat))
  | [] => return []
  | item :: rest => do
    let item ← link? item
    return item :: (← linkItems? rest)

def linkMembers? : List (Node String × Node String) →
    StateT AnchorNumbers Option (List (Node Nat × Node Nat))
  | [] => return []
  | (key, value) :: rest => do
    let key ← link? key
    let value ← link? value
    return (key, value) :: (← linkMembers? rest)

end

def anchor? {ρ : Type} : Node ρ → Option ρ
  | .scalar properties _ _ | .sequence properties _ | .mapping properties _ => properties.anchor
  | .reference _ => none

mutual

/-- A node and all nodes in it, in the order of the text. -/
def all {ρ : Type} : Node ρ → List (Node ρ)
  | .scalar properties plain text => [.scalar properties plain text]
  | .sequence properties items => .sequence properties items :: allItems items
  | .mapping properties members => .mapping properties members :: allMembers members
  | .reference name => [.reference name]

def allItems {ρ : Type} : List (Node ρ) → List (Node ρ)
  | [] => []
  | item :: rest => all item ++ allItems rest

def allMembers {ρ : Type} : List (Node ρ × Node ρ) → List (Node ρ)
  | [] => []
  | (key, value) :: rest => all key ++ all value ++ allMembers rest

end

/-- Collections count twice, for where they start and where they end. -/
def weight {ρ : Type} : Node ρ → Nat
  | .scalar .. | .reference _ => 1
  | .sequence .. | .mapping .. => 2

end Node

structure Linked where
  root : Node Nat
  /-- The anchored nodes with their numbers, the last one first. -/
  targets : List (Nat × Node Nat)
  /-- How many aliases may be followed, so that a short text cannot stand for a huge value. -/
  limit : Nat

namespace Linked

def ofNode? (node : Node String) : Option Linked := do
  let (root, _) ← (node.link?).run []
  let nodes := root.all
  let targets := nodes.filterMap fun node => node.anchor?.map (·, node)
  return ⟨root, targets.reverse, 100 * nodes.foldl (fun total node => total + node.weight) 0⟩

/-- What reading a linked tree keeps track of: how many aliases have been followed. -/
abbrev Reading := StateT Nat Option

/-- The node that a node means. An alias is followed, and counted. -/
def follow (linked : Linked) (node : Node Nat) : Reading (Node Nat) :=
  match node with
  | .reference n => do
    let count := (← get) + 1
    set count
    match linked.targets.lookup n with
    | some target => if count ≤ linked.limit then return target else failure
    | none => failure
  | node => return node

def text (linked : Linked) (node : Node Nat) : Reading String := do
  match ← linked.follow node with
  | .scalar _ _ text => return text
  | _ => failure

end Linked

end Winnow.Yaml
