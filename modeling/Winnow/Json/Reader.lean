import Winnow.Json.Token

/-!
# Reading JSON

Tokens are fed one by one to a reader whose state is what it is doing in the innermost container
and a stack of the containers around it. Only so many containers may be open at once.

`Json.decode?` keeps the members of an object as written. `Json.read?` settles keys that occur
several times.
-/

namespace Winnow.Json

/-- A container that waits for one of its values; items and members are in reverse. -/
inductive Frame where
  | array (items : List Json)
  | object (members : List (String × Json)) (key : String)

inductive Work where
  | value
  | arrayOpened
  | afterItem (items : List Json)
  | objectOpened
  | key (members : List (String × Json))
  | afterKey (members : List (String × Json)) (key : String)
  | afterMember (members : List (String × Json))
  | finished (result : Json)

structure Reader where
  stack : List Frame
  work : Work

namespace Reader

def start : Reader := ⟨[], .value⟩

def maxDepth : Nat := 127

/-- Hands a complete value to the container that waits for it. -/
def deliver (value : Json) : List Frame → Reader
  | [] => ⟨[], .finished value⟩
  | .array items :: stack => ⟨stack, .afterItem (value :: items)⟩
  | .object members key :: stack => ⟨stack, .afterMember ((key, value) :: members)⟩

def beginValue (stack : List Frame) : Token → Option Reader
  | .null => some (deliver .null stack)
  | .bool b => some (deliver (.bool b) stack)
  | .number n => some (deliver (.number n) stack)
  | .string s => some (deliver (.string s) stack)
  | .arrayOpen => if stack.length < maxDepth then some ⟨stack, .arrayOpened⟩ else none
  | .objectOpen => if stack.length < maxDepth then some ⟨stack, .objectOpened⟩ else none
  | _ => none

def step (reader : Reader) (token : Token) : Option Reader :=
  match reader.work, token with
  | .value, token => beginValue reader.stack token
  | .arrayOpened, .arrayClose => some (deliver (.array []) reader.stack)
  | .arrayOpened, token => beginValue (.array [] :: reader.stack) token
  | .afterItem items, .comma => some ⟨.array items :: reader.stack, .value⟩
  | .afterItem items, .arrayClose => some (deliver (.array items.reverse) reader.stack)
  | .objectOpened, .objectClose => some (deliver (.object []) reader.stack)
  | .objectOpened, .string key => some ⟨reader.stack, .afterKey [] key⟩
  | .key members, .string key => some ⟨reader.stack, .afterKey members key⟩
  | .afterKey members key, .colon => some ⟨.object members key :: reader.stack, .value⟩
  | .afterMember members, .comma => some ⟨reader.stack, .key members⟩
  | .afterMember members, .objectClose => some (deliver (.object members.reverse) reader.stack)
  | _, _ => none

def result? (reader : Reader) : Option Json :=
  match reader.work with
  | .finished value => some value
  | _ => none

end Reader

/-- The value of a text, with the members of each object as written. -/
def decode? (text : String) : Option Json := do
  let tokens ← Token.all? text.toList
  (← tokens.foldlM Reader.step Reader.start).result?

def read? (text : String) : Option Json :=
  (decode? text).map settle

end Winnow.Json
