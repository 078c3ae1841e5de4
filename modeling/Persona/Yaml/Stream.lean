import Persona.Text.Character

/-!
# The characters of a YAML stream

A stream is UTF-8, or UTF-16 if it starts with the byte order mark of that. Its
characters are those that can be shown, and tabs and line breaks; there are four
kinds of breaks. A carriage return, with or without a line feed after it, is the
same as a line feed.

A stream is decoded in portions of 512 bytes. A portion with something in it that may
not occur cannot be used at all, but what stands before it can, as long as nothing
behind it is asked for.
-/

namespace Persona.Yaml

/-- A space or a tab. -/
def isBlankCode (code : Nat) : Bool := code = 32 || code = 9

/-- A line break: a line feed, a next line, a line separator or a paragraph separator. -/
def isBreakCode (code : Nat) : Bool := code = 10 || code = 0x85 || code = 0x2028 ||
    code = 0x2029

/-- What a line break is in the text of a scalar; the separators are kept. -/
def breakContent (code : Nat) : Nat := if code = 0x85 then 10 else code

/-- A blank or a break comes next, or there is nothing left. -/
def endsWord : List Nat → Bool
  | [] => true
  | code :: _ => isBlankCode code || isBreakCode code

/-- What follows the blanks at the head. -/
def afterBlanks (codes : List Nat) : List Nat := codes.dropWhile isBlankCode

/-- What follows the rest of a line that says nothing: blanks, perhaps a comment, and the
break. -/
def lineEnd? (codes : List Nat) : Option (List Nat) :=
  let content := afterBlanks codes
  let ending := if content.head? = some 35 then content.dropWhile fun code =>
    !isBreakCode code else content
  match ending with
  | [] => some []
  | code :: rest => if isBreakCode code then some rest else none

/-- The value of a hexadecimal digit. -/
def hexCode? (code : Nat) : Option Nat :=
  if 48 ≤ code && code ≤ 57 then some (code - 48)
  else if 97 ≤ code && code ≤ 102 then some (code - 87)
  else if 65 ≤ code && code ≤ 70 then some (code - 55)
  else none

/-- The mark that may stand at the beginning of a stream. -/
def orderMark : Nat := 0xFEFF

/-- The characters that may occur. -/
def isAllowed (code : Nat) : Bool :=
  code = 9 || code = 10 || code = 13 || (0x20 ≤ code && code ≤ 0x7E) || code = 0x85 ||
    (0xA0 ≤ code && code ≤ 0xD7FF) || (0xE000 ≤ code && code ≤ 0xFFFD) || 0x10000 ≤ code

/-- A character as it is decoded: its code, unless it is malformed, and its bytes. -/
structure Decoded where
  code : Option Nat
  width : Nat

/-- The characters of a text in sixteen-bit units; `value` tells how two bytes make one.
Surrogates must come in pairs. -/
def decodedUnits (value : (first second : UInt8) → Nat) : Text → List Decoded
  | [] => []
  | [_] => [⟨none, 1⟩]
  | first :: second :: rest =>
    let unit := value first second
    if 0xDC00 ≤ unit && unit ≤ 0xDFFF then [⟨none, 2⟩]
    else if 0xD800 ≤ unit && unit ≤ 0xDBFF then
      match rest with
      | third :: fourth :: more =>
        let low := value third fourth
        if 0xDC00 ≤ low && low ≤ 0xDFFF then
          ⟨some (0x10000 + (unit - 0xD800) * 1024 + (low - 0xDC00)), 4⟩ ::
            decodedUnits value more
        else [⟨none, 4⟩]
      | _ => [⟨none, 4⟩]
    else ⟨some unit, 2⟩ :: decodedUnits value rest

/-- The characters of a text in the encoding that its first bytes ask for. -/
def decoded (text : Text) : List Decoded :=
  match text with
  | 0xFF :: 0xFE :: _ =>
    decodedUnits (fun first second => second.toNat * 256 + first.toNat) text
  | 0xFE :: 0xFF :: _ =>
    decodedUnits (fun first second => first.toNat * 256 + second.toNat) text
  | _ => text.characters.map fun c => ⟨if c.isUndecodable then none else some c.code, c.width⟩

/-- The bytes that are decoded at once. -/
def portionSize : Nat := 512

/-- The portions of a stream up to the first one that cannot be used, and whether there is
such a one. `portion` is what has been decoded of the present one, the last character
first, and `taken` the number of its bytes. -/
def portions : (taken : Nat) → (portion : List Nat) → List Decoded → List (List Nat) × Bool
  | _, portion, [] => ([portion.reverse], false)
  | taken, portion, c :: rest =>
    let full := portionSize < taken + c.width
    match c.code.filter isAllowed with
    | none => (if full then [portion.reverse] else [], true)
    | some code =>
      if full then
        let (later, broken) := portions c.width [code] rest
        (portion.reverse :: later, broken)
      else portions (taken + c.width) (code :: portion) rest

/-- A line feed for every carriage return, and for one that a line feed follows. -/
def unifyBreaks : List Nat → List Nat
  | 13 :: 10 :: rest => 10 :: unifyBreaks rest
  | code :: rest => (if code = 13 then 10 else code) :: unifyBreaks rest
  | [] => []

/-- A stream: its characters as far as they can be used, whether there is something behind
them that cannot, and how many of them are in the first portion. -/
structure Stream where
  codes : List Nat
  broken : Bool
  first : Nat

/-- The stream of a text. A byte order mark at its beginning does not count. -/
def Stream.ofText (text : Text) : Stream :=
  let unmarked (codes : List Nat) : List Nat :=
    if codes.head? = some orderMark then codes.drop 1 else codes
  let (usable, broken) := portions 0 [] (decoded text)
  ⟨unifyBreaks (unmarked usable.flatten), broken,
    (unifyBreaks (unmarked (usable.headD []))).length⟩

/-- The bytes of characters. -/
def textOf (codes : List Nat) : Text := codes.flatMap Character.encode

end Persona.Yaml
