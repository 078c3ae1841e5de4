import Persona.Text

/-!
# Bytes in base sixty-four

Three bytes are written as four digits. The last group is filled up with equals
signs, which say how many bytes it holds. Line breaks between the digits do not
count.
-/

namespace Persona.Base64

/-- The digits of base sixty-four. -/
def digits : Text := "ABCDEFGHIJKLMNOPQRSTUVWXYZabcdefghijklmnopqrstuvwxyz0123456789+/"

/-- One digit of base sixty-four. -/
def digit (value : Nat) : UInt8 := digits.getD (value % 64) 61

/-- Bytes in base sixty-four. -/
def encode : Text → Text
  | a :: b :: c :: rest =>
    let word := (a.toNat * 256 + b.toNat) * 256 + c.toNat
    [digit (word / 262144), digit (word / 4096), digit (word / 64), digit word] ++ encode rest
  | [a, b] =>
    let word := a.toNat * 256 + b.toNat
    [digit (word / 1024), digit (word / 16), digit (word * 4), 61]
  | [a] => [digit (a.toNat / 4), digit (a.toNat * 16), 61, 61]
  | [] => []

/-- The value of a digit. -/
def value? (b : UInt8) : Option Nat := digits.findIdx? (· == b)

/-- The bytes that groups of four digits write. -/
def decodeGroups : Text → Option Text
  | [] => some []
  | [a, b, 61, 61] => do
    let word := (← value? a) * 64 + (← value? b)
    return [UInt8.ofNat (word / 16)]
  | [a, b, c, 61] => do
    let word := ((← value? a) * 64 + (← value? b)) * 64 + (← value? c)
    return [UInt8.ofNat (word / 1024), UInt8.ofNat (word / 4)]
  | a :: b :: c :: d :: rest => do
    let word := (((← value? a) * 64 + (← value? b)) * 64 + (← value? c)) * 64 + (← value? d)
    let more ← decodeGroups rest
    return UInt8.ofNat (word / 65536) :: UInt8.ofNat (word / 256) :: UInt8.ofNat word :: more
  | _ => none

/-- The bytes that a text in base sixty-four writes. -/
def decode? (text : Text) : Option Text :=
  decodeGroups (text.filter fun b => !(b = 10 || b = 13))

end Persona.Base64
