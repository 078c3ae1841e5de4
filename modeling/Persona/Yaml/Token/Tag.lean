import Persona.Yaml.Stream
import Persona.Yaml.Token

/-!
# Anchors, tags and directives

An anchor is a short name. A tag is an address that is written out between angle
brackets, or a handle and the end of an address; what a handle stands for is said by
a directive at the beginning of the document. A directive has a line for itself.
-/

namespace Persona.Yaml

/-- A character of a name: a letter, a digit, a low line or a dash. -/
def isNameCode (code : Nat) : Bool :=
  (48 ≤ code && code ≤ 57) || (65 ≤ code && code ≤ 90) || (97 ≤ code && code ≤ 122) ||
    code = 95 || code = 45

/-- A character of an address, apart from those that are escaped by a percent sign. -/
def isAddressCode (code : Nat) : Bool :=
  isNameCode code ||
    [59, 47, 63, 58, 64, 38, 61, 43, 36, 44, 46, 33, 126, 42, 39, 40, 41, 91, 93].contains code

/-- An anchor behind its mark, and what follows it. -/
def anchor? (codes : List Nat) : Option (Text × List Nat) :=
  let name := codes.takeWhile isNameCode
  let rest := codes.drop name.length
  let ends := endsWord rest ||
    (rest.head?.map [63, 58, 44, 93, 125, 37, 64, 96].contains).getD false
  if !name.isEmpty && ends then some (textOf name, rest) else none

/-- How many bytes the character with this first byte has. -/
def widthOfLead (lead : Nat) : Nat :=
  if lead < 0x80 then 1
  else if lead < 0xC0 then 0
  else if lead < 0xE0 then 2
  else if lead < 0xF0 then 3
  else if lead < 0xF8 then 4
  else 0

/-- The bytes of an address and what follows it. Of a character that is escaped byte by
byte `due` more bytes have to come. -/
def addressAfter? : (due : Nat) → List Nat → Option (Text × List Nat)
  | due, 37 :: a :: b :: rest =>
    match hexCode? a, hexCode? b with
    | some high, some low =>
      let octet := high * 16 + low
      let more := if due = 0 then widthOfLead octet else due
      if more = 0 || (due != 0 && widthOfLead octet != 0) || 0xF8 ≤ octet then none
      else (addressAfter? (more - 1) rest).map fun (bytes, left) =>
        (UInt8.ofNat octet :: bytes, left)
    | _, _ => none
  | 0, code :: rest =>
    if isAddressCode code then
      (addressAfter? 0 rest).map fun (bytes, left) => (UInt8.ofNat code :: bytes, left)
    else if code = 37 then none
    else some ([], code :: rest)
  | 0, [] => some ([], [])
  | _ + 1, _ => none

/-- An address, which has at least one character. -/
def address? (codes : List Nat) : Option (Text × List Nat) :=
  match addressAfter? 0 codes with
  | some ([], _) => none
  | result => result

/-- A handle behind its first exclamation mark: its name, and a second mark if there is
one. The result has the first mark too. -/
def handle (codes : List Nat) : Text × List Nat :=
  let name := codes.takeWhile isNameCode
  match codes.drop name.length with
  | 33 :: rest => (textOf (33 :: name ++ [33]), rest)
  | rest => (textOf (33 :: name), rest)

/-- A tag behind its exclamation mark, and what follows it. An exclamation mark alone is
the whole of a tag. -/
def tag? (codes : List Nat) : Option (Token × List Nat) :=
  let read : Option (Token × List Nat) := match codes with
    | 60 :: rest =>
      match address? rest with
      | some (address, 62 :: behind) => some (.tag [] address, behind)
      | _ => none
    | _ =>
      let (name, rest) := handle codes
      if 1 < name.length && name.getLast? = some 33 then
        (address? rest).map fun (address, left) => (.tag name address, left)
      else
        (addressAfter? 0 rest).map fun (address, left) =>
          let whole := name.drop 1 ++ address
          (if whole.isEmpty then .tag [] "!" else .tag "!" whole, left)
  match read with
  | some (token, rest) => if endsWord rest then some (token, rest) else none
  | none => none

/-- A number of one or two digits, and what follows it. -/
def versionNumber? (codes : List Nat) : Option (Nat × List Nat) :=
  let digits := codes.takeWhile fun code => 48 ≤ code && code ≤ 57
  if digits.isEmpty || 2 < digits.length then none
  else some (digits.foldl (fun value d => value * 10 + (d - 48)) 0, codes.drop digits.length)

/-- The version that a document asks for. -/
def version? (codes : List Nat) : Option (Token × List Nat) :=
  match versionNumber? (afterBlanks codes) with
  | some (major, 46 :: behind) =>
    (versionNumber? behind).map fun (minor, rest) => (.version major minor, rest)
  | _ => none

/-- What a handle stands for in a document. -/
def handleMeaning? (codes : List Nat) : Option (Token × List Nat) :=
  match afterBlanks codes with
  | 33 :: behind =>
    let (name, rest) := handle behind
    if name.getLast? = some 33 && (rest.head?.map isBlankCode).getD false then
      match address? (afterBlanks rest) with
      | some (address, left) =>
        if endsWord left then some (.handle name address, left) else none
      | none => none
    else none
  | _ => none

/-- A directive behind its percent sign, and what follows its line. -/
def directive? (codes : List Nat) : Option (Token × List Nat) :=
  let name := codes.takeWhile isNameCode
  let rest := codes.drop name.length
  let read : Option (Token × List Nat) :=
    if !endsWord rest then none
    else if textOf name = "YAML" then version? rest
    else if textOf name = "TAG" then handleMeaning? rest
    else none
  match read with
  | some (token, behind) => (lineEnd? behind).map fun left => (token, left)
  | none => none

end Persona.Yaml
