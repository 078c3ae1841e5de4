/-!
# Ranges of code points

A character class is a sorted list of closed ranges. Membership is a plain
search: the tables are short and only characters outside ASCII reach them.
-/

namespace Persona.Character

/-- The code point lies in one of the closed ranges. -/
def inRanges (ranges : List (Nat × Nat)) (code : Nat) : Bool :=
  ranges.any fun range => range.1 ≤ code && code ≤ range.2

end Persona.Character
