/-!
# Comparisons and operator tags

A comparison admits some of the three orderings of a field's value against an operand. A demand
names its operator by a tag: a comparison, an inclusive range, or a tag that nothing is known of.
-/

namespace Winnow

inductive Comparison where
  | eq
  | gt
  | gte
  | lt
  | lte
deriving DecidableEq, Repr

namespace Comparison

/-- Does the comparison hold of a value that stands so to the operand? -/
def admits : Comparison → Ordering → Bool
  | .eq, o => o == .eq
  | .gt, o => o == .gt
  | .gte, o => o != .lt
  | .lt, o => o == .lt
  | .lte, o => o != .gt

/-- How a demand names the comparison. -/
def tag : Comparison → String
  | .eq => "EQ"
  | .gt => "GT"
  | .gte => "GTE"
  | .lt => "LT"
  | .lte => "LTE"

/-- How a condition writes the comparison. -/
def symbol : Comparison → String
  | .eq => "="
  | .gt => ">"
  | .gte => ">="
  | .lt => "<"
  | .lte => "<="

def all : List Comparison := [.eq, .gt, .gte, .lt, .lte]

def ofTag? (tag : String) : Option Comparison :=
  all.find? fun op => op.tag == tag

end Comparison

inductive OperatorTag where
  | compare (op : Comparison)
  | range
  | unknown (tag : String)
deriving DecidableEq, Repr

namespace OperatorTag

def rangeTag : String := "-"

/-- Tags are matched exactly; any other tag is kept as it is. -/
def ofText (tag : String) : OperatorTag :=
  match Comparison.ofTag? tag with
  | some op => .compare op
  | none => if tag = rangeTag then .range else .unknown tag

/-- The tag as a demand writes it. -/
def text : OperatorTag → String
  | .compare op => op.tag
  | .range => rangeTag
  | .unknown tag => tag

def isUnknown : OperatorTag → Bool
  | .unknown _ => true
  | _ => false

end OperatorTag

end Winnow
