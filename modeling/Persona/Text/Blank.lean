import Persona.Text.Character

/-!
# Blanks around a text

Trimming removes every Unicode white-space character at both ends, so that a
name typed with a no-break space around it is still recognised. The blanks that
separate tokens of a document are fewer: only six ASCII characters.
-/

namespace Persona

namespace Character

/-- The white-space characters of Unicode. -/
def isBlank (code : Nat) : Bool :=
  (9 ≤ code && code ≤ 13) || code = 0x20 || code = 0x85 || code = 0xA0 || code = 0x1680 ||
    (0x2000 ≤ code && code ≤ 0x200A) || code = 0x2028 || code = 0x2029 || code = 0x202F ||
    code = 0x205F || code = 0x3000

/-- The characters that may stand between tokens: space, tab, line feed, carriage
return, vertical tab and form feed. -/
def isSeparator (code : Nat) : Bool :=
  (9 ≤ code && code ≤ 13) || code = 0x20

end Character

namespace Text

/-- The text without the white space at its two ends. -/
def trim (text : Text) : Text :=
  let blank (c : Character) : Bool := Character.isBlank c.code
  ofCharacters ((text.characters.dropWhile blank).reverse.dropWhile blank).reverse

/-- The words of a text: what stands between white space. -/
def words (text : Text) : List Text :=
  let step (c : Character) (parts : List Text) : List Text :=
    if Character.isBlank c.code then [] :: parts
    else match parts with
      | [] => [c.bytes]
      | word :: others => (c.bytes ++ word) :: others
  (text.characters.foldr step [[]]).filter fun word => !word.isEmpty

end Text

end Persona
