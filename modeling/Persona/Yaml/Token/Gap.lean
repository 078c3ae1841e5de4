import Persona.Yaml.Stream

/-!
# Gaps in scalars

A scalar of several lines is folded: the blanks around a line break do not count,
one break is a space, and of several the first one is dropped. A gap is what stands
between two words of a scalar; what it means is clear only when the next word comes,
because a gap at the end of a plain scalar does not belong to it.
-/

namespace Persona.Yaml

/-- What stands between two words: blanks, or breaks, of which the first counts in a way
of its own, or breaks behind one that was escaped. -/
inductive Gap where
  | blanks (codes : List Nat)
  | breaks (first : Nat) (others : List Nat)
  | continued (others : List Nat)

namespace Gap

/-- No gap. -/
def none : Gap := .blanks []

/-- One more blank; next to a break it does not count. -/
def blank (code : Nat) : Gap → Gap
  | .blanks codes => .blanks (codes ++ [code])
  | gap => gap

/-- One more break, which makes the blanks before it not count. -/
def newLine (code : Nat) : Gap → Gap
  | .blanks _ => .breaks (breakContent code) []
  | .breaks first others => .breaks first (others ++ [breakContent code])
  | .continued others => .continued (others ++ [breakContent code])

/-- There is a break in the gap. -/
def hasBreak : Gap → Bool
  | .blanks _ => false
  | _ => true

/-- There is nothing in the gap. -/
def isNone : Gap → Bool
  | .blanks [] => true
  | _ => false

/-- What is read for a gap. Only a line feed is folded. -/
def text : Gap → List Nat
  | .blanks codes => codes
  | .breaks first others =>
    if first = 10 then (if others.isEmpty then [32] else others) else first :: others
  | .continued others => others

end Gap

/-- A mark between documents: three dashes or dots and then no more of a word. -/
def isMark (mark : Nat) (codes : List Nat) : Bool :=
  codes.take 3 == [mark, mark, mark] && endsWord (codes.drop 3)

/-- Either of the marks between documents. -/
def isAnyMark (codes : List Nat) : Bool := isMark 45 codes || isMark 46 codes

end Persona.Yaml
