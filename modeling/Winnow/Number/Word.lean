/-!
# Integers of 64 bits

Which integers are words. `int64?` finds the signed word of an integer, and `toInt_of_int64?` says
that it has the integer's value.
-/

namespace Winnow

/-- The signed word with the given value, if there is one. -/
def int64? (n : Int) : Option Int64 :=
  if h : Int64.minValue.toInt ≤ n ∧ n ≤ Int64.maxValue.toInt then
    some (Int64.ofIntLE n h.1 h.2)
  else
    none

theorem toInt_of_int64? {n : Int} {word : Int64} (h : int64? n = some word) : word.toInt = n := by
  unfold int64? at h
  split at h
  · cases h
    exact Int64.toInt_ofIntLE
  · cases h

end Winnow
