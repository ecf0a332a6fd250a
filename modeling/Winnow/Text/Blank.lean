/-!
# Blank characters

The characters with the Unicode property `White_Space`, and cutting them from both ends of a text.
-/

namespace Winnow

/-- First and last members of the runs of blank characters. -/
def blankRuns : List (Nat × Nat) :=
  [(0x9, 0xD), (0x20, 0x20), (0x85, 0x85), (0xA0, 0xA0), (0x1680, 0x1680), (0x2000, 0x200A),
   (0x2028, 0x2029), (0x202F, 0x202F), (0x205F, 0x205F), (0x3000, 0x3000)]

def isBlank (c : Char) : Bool :=
  blankRuns.any fun (first, last) => decide (first ≤ c.toNat ∧ c.toNat ≤ last)

example : (blankRuns.map fun (first, last) => last + 1 - first).sum = 25 := rfl

end Winnow
