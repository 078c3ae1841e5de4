import Persona.Yaml.Token.Gap

/-!
# Plain scalars

A plain scalar ends before a colon that ends a word, before a comment and, between
brackets, before their punctuation. In a block it is continued on the lines below as
long as they are indented far enough.
-/

namespace Persona.Yaml

/-- The punctuation of bracketed lists and mappings that ends a plain scalar. -/
def isBracketCode (code : Nat) : Bool :=
  code = 44 || code = 63 || code = 91 || code = 93 || code = 123 || code = 125

/-- A plain scalar may start here. -/
def startsPlain (bracketed : Bool) : List Nat → Bool
  | [] => false
  | code :: rest =>
    if code = 45 then !((rest.head?.map isBlankCode).getD false)
    else if code = 63 || code = 58 then !bracketed && !endsWord rest
    else !(isBlankCode code || isBreakCode code || isBracketCode code ||
      [35, 38, 42, 33, 124, 62, 39, 34, 37, 64, 96].contains code)

/-- A plain scalar that was read: its text, what follows it, and whether a line break was
passed on the way there. -/
structure PlainScalar where
  text : List Nat
  rest : List Nat
  crossed : Bool

/-- The characters of a plain scalar behind a gap. `least` is the first column in which it
can be continued. A tab that stands before that column is malformed. -/
def plainAfter? (bracketed : Bool) (least : Nat) : Gap → (column : Nat) → List Nat →
    Option PlainScalar
  | gap, _, [] => some ⟨[], [], gap.hasBreak⟩
  | gap, column, code :: rest =>
    if isBlankCode code then
      if gap.hasBreak && code = 9 && column < least then none
      else plainAfter? bracketed least (gap.blank code) (column + 1) rest
    else if isBreakCode code then plainAfter? bracketed least (gap.newLine code) 0 rest
    else
      let left := !gap.isNone && ((!bracketed && column < least) || code = 35 ||
        (column = 0 && isAnyMark (code :: rest)))
      if left || (code = 58 && endsWord rest) || (bracketed && isBracketCode code) then
        some ⟨[], code :: rest, gap.hasBreak⟩
      else
        (plainAfter? bracketed least .none (column + 1) rest).map fun more =>
          { more with text := gap.text ++ code :: more.text }

end Persona.Yaml
