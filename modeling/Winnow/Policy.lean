/-!
# Policies

The two choices that settings leave open, with the names that settings files give them.
-/

namespace Winnow

/-- How the demands of several providers are combined. -/
inductive MergePolicy where
  /-- Later providers override entries of earlier ones. -/
  | merge
  /-- Only the last provider's demand counts. -/
  | lastWins
deriving DecidableEq, Repr, Inhabited

def MergePolicy.name : MergePolicy → String
  | .merge => "merge"
  | .lastWins => "last_wins"

def MergePolicy.ofName? (name : String) : Option MergePolicy :=
  [MergePolicy.merge, .lastWins].find? fun policy => policy.name == name

/-- The policy as a description shows it. -/
def MergePolicy.title : MergePolicy → String
  | .merge => "Merge"
  | .lastWins => "LastWins"

/-- What is done about an operator that is not known. -/
inductive UnknownOperatorPolicy where
  /-- A bare field stands in for the restriction. -/
  | placeholder
  /-- The demand is refused. -/
  | reject
deriving DecidableEq, Repr, Inhabited

def UnknownOperatorPolicy.name : UnknownOperatorPolicy → String
  | .placeholder => "placeholder"
  | .reject => "reject"

def UnknownOperatorPolicy.ofName? (name : String) : Option UnknownOperatorPolicy :=
  [UnknownOperatorPolicy.placeholder, .reject].find? fun policy => policy.name == name

/-- The policy as a description shows it. -/
def UnknownOperatorPolicy.title : UnknownOperatorPolicy → String
  | .placeholder => "Placeholder"
  | .reject => "Reject"

end Winnow
