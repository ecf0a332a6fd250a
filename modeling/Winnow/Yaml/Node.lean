import Winnow.Yaml.Lexer

/-!
# YAML nodes

The tree of a document: scalars, sequences, mappings, and aliases of other nodes. `Document.read?`
builds it from tokens, one function for each kind of collection. A collection's function takes the
tokens behind the one that opens it, and returns those behind the one that closes it.
-/

namespace Winnow.Yaml

/-- What may stand before a node. Anchors are named by `ρ`. -/
structure Properties (ρ : Type) where
  anchor : Option ρ := none
  /-- The tag with its handle resolved. -/
  tag : Option String := none

inductive Node (ρ : Type) where
  | scalar (properties : Properties ρ) (plain : Bool) (text : String)
  | sequence (properties : Properties ρ) (items : List (Node ρ))
  | mapping (properties : Properties ρ) (members : List (Node ρ × Node ρ))
  | reference (name : ρ)

namespace Node

/-- The node of a place where nothing is written. -/
def empty {ρ : Type} : Node ρ := .scalar {} true ""

end Node

abbrev TagHandles := Entries String

namespace TagHandles

/-- The handles that need no directive. -/
def standard : TagHandles := [("!", "!"), ("!!", "tag:yaml.org,2002:")]

def resolve? (handles : TagHandles) (tag : Tag) : Option String :=
  if tag.handle = "" then some tag.suffix
  else (handles.get? tag.handle).map (· ++ tag.suffix)

end TagHandles

namespace Node

/-- An anchor and a tag, in either order. -/
def takeProperties? (handles : TagHandles) (tokens : List Token) :
    Option (Properties String × List Token) :=
  match tokens with
  | .anchor name :: .tag tag :: rest | .tag tag :: .anchor name :: rest => do
    return (⟨some name, some (← handles.resolve? tag)⟩, rest)
  | .anchor name :: rest => some (⟨some name, none⟩, rest)
  | .tag tag :: rest => do return (⟨none, some (← handles.resolve? tag)⟩, rest)
  | rest => some ({}, rest)

/-- A tag of one exclamation mark says that a scalar is not to be tagged. -/
def scalarProperties (properties : Properties String) : Properties String :=
  if properties.tag = some "!" then { properties with tag := none } else properties

/-- What a node may be, depending on where it stands. -/
structure Place where
  /-- Block collections are allowed. -/
  block : Bool
  /-- A sequence may start without indentation of its own. -/
  indentless : Bool := false

mutual

/-- A node. With properties it may be empty. -/
def take? (handles : TagHandles) : Nat → Place → List Token → Option (Node String × List Token)
  | 0, _, _ => none
  | fuel + 1, place, tokens =>
    match tokens with
    | .reference name :: rest => some (.reference name, rest)
    | tokens => do
      let (properties, tokens) ← takeProperties? handles tokens
      match tokens with
      | .scalar plain text :: rest =>
        return (.scalar (scalarProperties properties) plain text, rest)
      | .flowSequence :: rest => do
        let (items, rest) ← flowItems? handles fuel true rest
        return (.sequence properties items, rest)
      | .flowMapping :: rest => do
        let (members, rest) ← flowMembers? handles fuel true rest
        return (.mapping properties members, rest)
      | tokens =>
        match tokens, place with
        | .blockEntry :: _, ⟨_, true⟩ => do
          let (items, rest) ← indentlessItems? handles fuel tokens
          return (.sequence properties items, rest)
        | .blockSequence :: rest, ⟨true, _⟩ => do
          let (items, rest) ← blockItems? handles fuel rest
          return (.sequence properties items, rest)
        | .blockMapping :: rest, ⟨true, _⟩ => do
          let (members, rest) ← blockMembers? handles fuel rest
          return (.mapping properties members, rest)
        | tokens, _ =>
          if properties.anchor.isSome || properties.tag.isSome then
            return (.scalar properties true "", tokens)
          else
            none

/-- A node, or an empty one before a token that cannot start one here. -/
def takeOrEmpty? (handles : TagHandles) (stops : List Token) :
    Nat → Place → List Token → Option (Node String × List Token)
  | 0, _, _ => none
  | fuel + 1, place, tokens =>
    match tokens with
    | [] => none
    | token :: _ => if token ∈ stops then some (.empty, tokens) else take? handles fuel place tokens

def blockItems? (handles : TagHandles) :
    Nat → List Token → Option (List (Node String) × List Token)
  | 0, _ => none
  | fuel + 1, tokens =>
    match tokens with
    | .blockEntry :: rest => do
      let (item, rest) ← takeOrEmpty? handles [.blockEntry, .blockEnd] fuel ⟨true, false⟩ rest
      let (items, rest) ← blockItems? handles fuel rest
      return (item :: items, rest)
    | .blockEnd :: rest => some ([], rest)
    | _ => none

/-- The items of a sequence that is not indented against the key it belongs to. -/
def indentlessItems? (handles : TagHandles) :
    Nat → List Token → Option (List (Node String) × List Token)
  | 0, _ => none
  | fuel + 1, tokens =>
    match tokens with
    | .blockEntry :: rest => do
      let (item, rest) ←
        takeOrEmpty? handles [.blockEntry, .key, .value, .blockEnd] fuel ⟨true, false⟩ rest
      let (items, rest) ← indentlessItems? handles fuel rest
      return (item :: items, rest)
    | tokens => some ([], tokens)

def blockMembers? (handles : TagHandles) :
    Nat → List Token → Option (List (Node String × Node String) × List Token)
  | 0, _ => none
  | fuel + 1, tokens =>
    match tokens with
    | .key :: rest => do
      let (key, rest) ← takeOrEmpty? handles [.key, .value, .blockEnd] fuel ⟨true, true⟩ rest
      let (value, rest) ←
        match rest with
        | .value :: rest => takeOrEmpty? handles [.key, .value, .blockEnd] fuel ⟨true, true⟩ rest
        | rest => some (.empty, rest)
      let (members, rest) ← blockMembers? handles fuel rest
      return ((key, value) :: members, rest)
    | .blockEnd :: rest => some ([], rest)
    | _ => none

/-- The items of a flow sequence. A comma stands before each but the first, and may stand before the
closing bracket. A key stands for a mapping with one member. -/
def flowItems? (handles : TagHandles) :
    Nat → Bool → List Token → Option (List (Node String) × List Token)
  | 0, _, _ => none
  | fuel + 1, first, tokens =>
    match tokens with
    | .flowSequenceEnd :: rest => some ([], rest)
    | tokens => do
      let tokens ←
        match first, tokens with
        | true, tokens => some tokens
        | false, .flowEntry :: rest => some rest
        | false, _ => none
      match tokens with
      | .flowSequenceEnd :: rest => return ([], rest)
      | .key :: rest => do
        let (member, rest) ← flowPair? handles fuel rest
        let (items, rest) ← flowItems? handles fuel false rest
        return (.mapping {} [member] :: items, rest)
      | tokens => do
        let (item, rest) ← take? handles fuel ⟨false, false⟩ tokens
        let (items, rest) ← flowItems? handles fuel false rest
        return (item :: items, rest)

/-- A key and its value in a flow sequence. An empty key takes up the token behind it. -/
def flowPair? (handles : TagHandles) :
    Nat → List Token → Option ((Node String × Node String) × List Token)
  | 0, _ => none
  | fuel + 1, tokens => do
    let (key, rest) ←
      match tokens with
      | .value :: rest | .flowEntry :: rest | .flowSequenceEnd :: rest => some (.empty, rest)
      | tokens => take? handles fuel ⟨false, false⟩ tokens
    let (value, rest) ←
      match rest with
      | .value :: rest =>
        takeOrEmpty? handles [.flowEntry, .flowSequenceEnd] fuel ⟨false, false⟩ rest
      | rest => some (.empty, rest)
    return ((key, value), rest)

/-- The members of a flow mapping. A node that is no key stands for a key without a value. -/
def flowMembers? (handles : TagHandles) :
    Nat → Bool → List Token → Option (List (Node String × Node String) × List Token)
  | 0, _, _ => none
  | fuel + 1, first, tokens =>
    match tokens with
    | .flowMappingEnd :: rest => some ([], rest)
    | tokens => do
      let tokens ←
        match first, tokens with
        | true, tokens => some tokens
        | false, .flowEntry :: rest => some rest
        | false, _ => none
      match tokens with
      | .flowMappingEnd :: rest => return ([], rest)
      | .key :: rest => do
        let (key, rest) ←
          takeOrEmpty? handles [.value, .flowEntry, .flowMappingEnd] fuel ⟨false, false⟩ rest
        let (value, rest) ←
          match rest with
          | .value :: rest =>
            takeOrEmpty? handles [.flowEntry, .flowMappingEnd] fuel ⟨false, false⟩ rest
          | rest => some (.empty, rest)
        let (members, rest) ← flowMembers? handles fuel false rest
        return ((key, value) :: members, rest)
      | tokens => do
        let (key, rest) ← take? handles fuel ⟨false, false⟩ tokens
        let (members, rest) ← flowMembers? handles fuel false rest
        return ((key, .empty) :: members, rest)

end

end Node

/-- What a text holds: at most one node. -/
structure Document (ρ : Type) where
  root : Option (Node ρ)

namespace Document

/-- Takes directives. A handle may be defined once, and so may the version. -/
def takeDirectives? (version : Bool) (handles : TagHandles) :
    List Token → Option (TagHandles × List Token)
  | .version major minor :: rest =>
    if !version && major == 1 && (minor == 1 || minor == 2) then takeDirectives? true handles rest
    else none
  | .handle handle meaning :: rest =>
    if (handles.get? handle).isSome then none
    else takeDirectives? version (handles.put handle meaning) rest
  | rest => some (handles, rest)

/-- Behind a document only end marks may follow. -/
def closes : List Token → Bool
  | [] => true
  | .documentEnd :: rest => closes rest
  | _ => false

def ofNode? (handles : TagHandles) (tokens : List Token) : Option (Document String) := do
  let (root, rest) ← Node.take? handles (8 * (tokens.length + 1)) ⟨true, false⟩ tokens
  if closes rest then some ⟨some root⟩ else none

/-- The document of a list of tokens. Without directives it needs no start mark. -/
def ofTokens? (tokens : List Token) : Option (Document String) :=
  match tokens with
  | [] => some ⟨none⟩
  | .version .. :: _ | .handle .. :: _ | .documentStart :: _ => do
    let (handles, rest) ← takeDirectives? false [] tokens
    let handles := handles ++ TagHandles.standard
    match rest with
    | .documentStart :: rest =>
      if closes rest then some ⟨some .empty⟩ else ofNode? handles rest
    | _ => none
  | tokens => ofNode? TagHandles.standard tokens

def read? (text : String) : Option (Document String) :=
  Token.all? text >>= ofTokens?

end Document

end Winnow.Yaml
