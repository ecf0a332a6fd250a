import Winnow.Entries
import Winnow.Number.Binary64
import Winnow.Number.Word

/-!
# JSON values

Objects are tables of members as they are written, and `Json.settle` keeps one member for each key.
A number keeps how it was written: an integer that fits 64 signed bits, a larger one that fits 64
unsigned bits, or else a finite binary64 number.
-/

namespace Winnow

inductive JsonNumber where
  | int (n : Int64)
  | large (n : UInt64) (beyond : Int64.maxValue.toInt < n.toNat)
  | float (x : Finite64)
deriving DecidableEq

inductive Json where
  | null
  | bool (b : Bool)
  | number (n : JsonNumber)
  | string (s : String)
  | array (items : List Json)
  | object (members : List (String × Json))

/-- An object's members: an ordered table of values. -/
abbrev Mapping := Entries Json

namespace JsonNumber

def toBinary64 : JsonNumber → Binary64
  | .int n => .ofInt n.toInt
  | .large n _ => .ofInt n.toNat
  | .float x => .finite x

/-- The number for an integer literal of unlimited size; `none` if it fits neither kind of
integer. -/
def ofInt? (n : Int) : Option JsonNumber :=
  match int64? n with
  | some word => some (.int word)
  | none =>
    if h : Int64.maxValue.toInt < n.toNat ∧ n.toNat < UInt64.size then
      some (.large (UInt64.ofNatLT n.toNat h.2) (by simpa using h.1))
    else
      none

end JsonNumber

namespace Json

def mapping? : Json → Option Mapping
  | .object members => some members
  | _ => none

def string? : Json → Option String
  | .string s => some s
  | _ => none

mutual

/-- Of a key that an object has several times, the last value is kept, in the first place. -/
def settle : Json → Json
  | .array items => .array (settleAll items)
  | .object members => .object (Entries.ofList (settleMembers members))
  | json => json

def settleAll : List Json → List Json
  | [] => []
  | item :: rest => settle item :: settleAll rest

def settleMembers : List (String × Json) → List (String × Json)
  | [] => []
  | (key, value) :: rest => (key, settle value) :: settleMembers rest

end

mutual

def decEq : (a b : Json) → Decidable (a = b)
  | .null, .null => isTrue rfl
  | .bool a, .bool b => decidable_of_iff (a = b) (by simp)
  | .number a, .number b => decidable_of_iff (a = b) (by simp)
  | .string a, .string b => decidable_of_iff (a = b) (by simp)
  | .array a, .array b =>
    have := decEqAll a b
    decidable_of_iff (a = b) (by simp)
  | .object a, .object b =>
    have := decEqMembers a b
    decidable_of_iff (a = b) (by simp)
  | .null, .bool _ | .null, .number _ | .null, .string _ | .null, .array _ | .null, .object _
  | .bool _, .null | .bool _, .number _ | .bool _, .string _ | .bool _, .array _
  | .bool _, .object _ | .number _, .null | .number _, .bool _ | .number _, .string _
  | .number _, .array _ | .number _, .object _ | .string _, .null | .string _, .bool _
  | .string _, .number _ | .string _, .array _ | .string _, .object _ | .array _, .null
  | .array _, .bool _ | .array _, .number _ | .array _, .string _ | .array _, .object _
  | .object _, .null | .object _, .bool _ | .object _, .number _ | .object _, .string _
  | .object _, .array _ => isFalse (by simp)

def decEqAll : (a b : List Json) → Decidable (a = b)
  | [], [] => isTrue rfl
  | [], _ :: _ | _ :: _, [] => isFalse (by simp)
  | a :: as, b :: bs =>
    have := decEq a b
    have := decEqAll as bs
    decidable_of_iff (a = b ∧ as = bs) (by simp)

def decEqMembers : (a b : List (String × Json)) → Decidable (a = b)
  | [], [] => isTrue rfl
  | [], _ :: _ | _ :: _, [] => isFalse (by simp)
  | (k, a) :: as, (l, b) :: bs =>
    have := decEq a b
    have := decEqMembers as bs
    decidable_of_iff ((k = l ∧ a = b) ∧ as = bs) (by simp)

end

instance : DecidableEq Json := decEq

end Json

end Winnow
