import Persona.Text

/-!
# Characters of a text

A text is read as a sequence of characters. A well-formed UTF-8 sequence is one character;
a byte that starts none is a character of its own, standing for U+FFFD. Each character
keeps its bytes, so the characters of a text always concatenate to the text and an
undecodable byte can still be told from an encoded U+FFFD.
-/

namespace Persona

/-- One character of a text: its code point and the bytes that spelled it. -/
structure Character where
  code : Nat
  bytes : Text
deriving DecidableEq, Repr

namespace Character

/-- The code point that stands for an undecodable byte. -/
def replacement : Nat := 0xFFFD

/-- The number of bytes the character takes. -/
def width (c : Character) : Nat := c.bytes.length

/-- An undecodable byte: the only character for U+FFFD that is one byte wide. -/
def isUndecodable (c : Character) : Bool :=
  c.code == replacement && c.bytes.length == 1

/-- Continuation bytes carry six bits under the marker `10`. -/
def isContinuation (b : UInt8) : Bool :=
  0x80 ≤ b && b ≤ 0xBF

/-- The six bits of a continuation byte. -/
def payload (b : UInt8) : Nat := b.toNat % 64

/-- The second byte of a sequence is narrowed where the first leaves room for an
overlong form, a surrogate or a code point above U+10FFFF. -/
def isSecondAfter (first second : UInt8) : Bool :=
  if first = 0xE0 then 0xA0 ≤ second && second ≤ 0xBF
  else if first = 0xED then 0x80 ≤ second && second ≤ 0x9F
  else if first = 0xF0 then 0x90 ≤ second && second ≤ 0xBF
  else if first = 0xF4 then 0x80 ≤ second && second ≤ 0x8F
  else isContinuation second

/-- The character for a byte that starts no well-formed sequence. -/
def undecodable (b : UInt8) : Character := ⟨replacement, [b]⟩

/-- The character at the head of `first :: rest`. -/
def read (first : UInt8) (rest : Text) : Character :=
  if first < 0x80 then ⟨first.toNat, [first]⟩
  else if first < 0xC2 then undecodable first
  else if first < 0xE0 then
    match rest with
    | b :: _ =>
      if isContinuation b then ⟨first.toNat % 32 * 64 + payload b, [first, b]⟩
      else undecodable first
    | [] => undecodable first
  else if first < 0xF0 then
    match rest with
    | b :: c :: _ =>
      if isSecondAfter first b && isContinuation c then
        ⟨(first.toNat % 16 * 64 + payload b) * 64 + payload c, [first, b, c]⟩
      else undecodable first
    | _ => undecodable first
  else if first < 0xF5 then
    match rest with
    | b :: c :: d :: _ =>
      if isSecondAfter first b && isContinuation c && isContinuation d then
        ⟨((first.toNat % 8 * 64 + payload b) * 64 + payload c) * 64 + payload d,
          [first, b, c, d]⟩
      else undecodable first
    | _ => undecodable first
  else undecodable first

/-- The UTF-8 bytes of a code point; a surrogate or a number above U+10FFFF is
written as U+FFFD. -/
def encode (code : Nat) : Text :=
  let byte (n : Nat) : UInt8 := UInt8.ofNat n
  if code < 0x80 then [byte code]
  else if code < 0x800 then [byte (0xC0 + code / 64), byte (0x80 + code % 64)]
  else if (0xD800 ≤ code && code ≤ 0xDFFF) || 0x10FFFF < code then [0xEF, 0xBF, 0xBD]
  else if code < 0x10000 then
    [byte (0xE0 + code / 4096), byte (0x80 + code / 64 % 64), byte (0x80 + code % 64)]
  else
    [byte (0xF0 + code / 262144), byte (0x80 + code / 4096 % 64), byte (0x80 + code / 64 % 64),
      byte (0x80 + code % 64)]

end Character

namespace Text

/-- The characters of a text whose first `pending` bytes belong to a character
already read. -/
def charactersAfter : (pending : Nat) → Text → List Character
  | _, [] => []
  | pending + 1, _ :: rest => charactersAfter pending rest
  | 0, first :: rest =>
    let c := Character.read first rest
    c :: charactersAfter (c.width - 1) rest

/-- The characters of a text, in order. -/
def characters (text : Text) : List Character := charactersAfter 0 text

/-- The bytes of a sequence of characters. -/
def ofCharacters (cs : List Character) : Text := cs.flatMap Character.bytes

/-- No byte of the text is undecodable. -/
def isUtf8 (text : Text) : Bool :=
  text.characters.all fun c => !c.isUndecodable

/-- Every undecodable byte replaced by an encoded U+FFFD. -/
def toUtf8 (text : Text) : Text :=
  text.characters.flatMap fun c =>
    if c.isUndecodable then Character.encode Character.replacement else c.bytes

/-- Change a text character by character; an undecodable byte comes out as U+FFFD unless
it is mapped elsewhere. -/
def mapCodes (f : Nat → Nat) (text : Text) : Text :=
  text.characters.flatMap fun c => Character.encode (f c.code)

end Text

end Persona
