import Winnow.Comparison
import Winnow.Json.Basic

/-!
# Faults

What can go wrong between a demand and its predicate, each with its cause and its place. Wording is
left to `Fault.message`.
-/

namespace Winnow

inductive Place where
  | root
  | entry (key : String)
  | member (group key : String)
  /-- One of the restrictions that are listed for a member, counted from zero. -/
  | listed (group key : String) (index : Nat)
deriving DecidableEq, Repr

def Place.text : Place → String
  | .root => "$"
  | .entry key => key
  | .member group key => group ++ "." ++ key
  | .listed group key index => group ++ "." ++ key ++ "[" ++ toString index ++ "]"

inductive AliasFlaw where
  | noSeparator
  | emptyTable
  | emptyField
deriving DecidableEq, Repr

def AliasFlaw.message : AliasFlaw → String
  | .noSeparator => "expected '<table>-<field>'"
  | .emptyTable => "empty table segment"
  | .emptyField => "empty field segment"

inductive JsonKind where
  | null
  | bool
  | number
  | string
  | array
  | object
deriving DecidableEq, Repr

def Json.kind : Json → JsonKind
  | .null => .null
  | .bool _ => .bool
  | .number _ => .number
  | .string _ => .string
  | .array _ => .array
  | .object _ => .object

def JsonKind.describe : JsonKind → String
  | .null => "null"
  | .bool => "a boolean"
  | .number => "a number"
  | .string => "a string"
  | .array => "a list"
  | .object => "a mapping"

inductive Misfit where
  | notMapping (found : JsonKind)
  | notRestriction
  | notOperand
  | nestedOperand
deriving DecidableEq, Repr

def Misfit.message : Misfit → String
  | .notMapping found => "expected a mapping, got " ++ found.describe
  | .notRestriction => "expected a restriction or a list of restrictions"
  | .notOperand => "value must be a scalar or a list"
  | .nestedOperand => "list operands must be scalars"

inductive RestrictionKey where
  | operator
  | value
deriving DecidableEq, Repr

def RestrictionKey.name : RestrictionKey → String
  | .operator => "operator"
  | .value => "value"

/-- The operand that an operator asks for and was not given. -/
inductive Expected where
  | single (op : Comparison)
  | pair
deriving DecidableEq, Repr

def Expected.tag : Expected → String
  | .single op => op.tag
  | .pair => OperatorTag.rangeTag

def Expected.message : Expected → String
  | .single _ => "expected a single value, got a list"
  | .pair => "expected a [low, high] pair"

/-- The two written forms of settings and demands. -/
inductive Format where
  | json
  | yaml
deriving DecidableEq, Repr

def Format.name : Format → String
  | .json => "JSON"
  | .yaml => "YAML"

inductive Fault where
  | malformedAlias (key : String) (flaw : AliasFlaw)
  | malformedDemand (place : Place) (misfit : Misfit)
  | missingKey (place : Place) (key : RestrictionKey)
  /-- A grouping key names neither connective. -/
  | missingGroup (key : String)
  | invalidOperand (field : String) (expected : Expected)
  | unknownOperator (field operator : String)
  | invalidField (field : String)
  | unknownProviderKind (id kind : String)
  | provider (id message : String)
  /-- A text is not of its format. -/
  | malformedText (format : Format)
  /-- A settings file is not of its format. -/
  | malformedFile (path : String) (format : Format)
  | unreadableFile
deriving DecidableEq, Repr

namespace Fault

def message : Fault → String
  | .malformedAlias key flaw => "malformed alias '" ++ key ++ "': " ++ flaw.message
  | .malformedDemand place misfit =>
    "malformed demand at '" ++ place.text ++ "': " ++ misfit.message
  | .missingKey place key => "missing key '" ++ key.name ++ "' at '" ++ place.text ++ "'"
  | .missingGroup key => "grouping alias '" ++ key ++ "' has no 'and' group"
  | .invalidOperand field expected =>
    "invalid value for '" ++ expected.tag ++ "' on field '" ++ field ++ "': " ++ expected.message
  | .unknownOperator field operator =>
    "unsupported operator '" ++ operator ++ "' on field '" ++ field ++ "'"
  | .invalidField field => "unknown field reference '" ++ field ++ "'"
  | .unknownProviderKind id kind =>
    "provider '" ++ id ++ "' has unregistered type '" ++ kind ++ "'"
  | .provider id message => "provider '" ++ id ++ "' failed: " ++ message
  | .malformedText format => "invalid " ++ format.name
  | .malformedFile path format =>
    "invalid configuration in " ++ path ++ ": invalid " ++ format.name
  | .unreadableFile => "unreadable file"

end Fault

end Winnow
