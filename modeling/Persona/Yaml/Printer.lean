import Persona.Yaml
import Persona.Yaml.Stream

/-!
# Writing YAML

Mappings are written one entry a line, four spaces deeper for every level. A text
is written without quotes wherever it would be read back as the same text.
Otherwise it is put into single quotes, or into double quotes if it holds a
character that has to be escaped or would mean something other than a text. A
text of several lines becomes a block, as far as a block can hold it.
-/

namespace Persona.Yaml

/-- The width of one level. -/
def step : Nat := 4

/-- The spaces before an entry. -/
def margin (indent : Nat) : Text := List.replicate indent 32

/-- A character that is written as it is. The characters beyond U+FFFF are not. -/
def isPlainCode (code : Nat) : Bool :=
  code = 10 || (0x20 ≤ code && code ≤ 0x7E) || (0xA0 ≤ code && code ≤ 0xD7FF) ||
    (0xE000 ≤ code && code ≤ 0xFFFD && code != 0xFEFF)

/-- The upper-case hexadecimal numeral of a code. -/
def upperHex (width code : Nat) : Text := (Text.hex width code).map Text.upperByte

/-- The letter that names a character behind a backslash. -/
def escapeLetter? (code : Nat) : Option Text :=
  [(0, "0"), (7, "a"), (8, "b"), (9, "t"), (10, "n"), (11, "v"), (12, "f"), (13, "r"),
   (27, "e"), (34, "\""), (92, "\\"), (0x85, "N"), (0xA0, "_"), (0x2028, "L"),
   (0x2029, "P")].lookup code |>.map Text.ofString

/-- A character between double quotes. Line breaks are escaped even where they could be
written as they are. -/
def writeEscaped (always : Bool) (code : Nat) : Text :=
  if !always && isPlainCode code && !isBreakCode code && code != 34 && code != 92 then
    Character.encode code
  else match escapeLetter? code with
    | some letter => "\\" ++ letter
    | none =>
      if code ≤ 0xFF then "\\x" ++ upperHex 2 code
      else if code ≤ 0xFFFF then "\\u" ++ upperHex 4 code
      else "\\U" ++ upperHex 8 code

/-- A text between double quotes. Behind a byte order mark at its beginning every
character is escaped. -/
def writeDouble (codes : List Nat) : Text :=
  "\"" ++ codes.flatMap (writeEscaped (codes.head? = some orderMark)) ++ "\""

/-- Characters of which the first one of every line stands behind the indentation. -/
def writeLines (indent : Nat) (write : Nat → Text) : (lineStart : Bool) → List Nat → Text
  | _, [] => []
  | lineStart, code :: rest =>
    if isBreakCode code then Character.encode code ++ writeLines indent write true rest
    else (if lineStart then margin indent else []) ++ write code ++
      writeLines indent write false rest

/-- A text between single quotes. -/
def writeSingle (indent : Nat) (codes : List Nat) : Text :=
  "'" ++ writeLines indent (fun code =>
    if code = 39 then "''" else Character.encode code) false codes ++ "'"

/-- The words that other readers take for truth values. -/
def oldTruthWords : List Text :=
  ["y", "Y", "yes", "Yes", "YES", "on", "On", "ON", "n", "N", "no", "No", "NO", "off",
    "Off", "OFF"]

/-- The part of a numeral in base sixty behind its first colon: one or two digits below
sixty, any number of times, and perhaps a fraction. -/
def isSexagesimalTail : (fuel : Nat) → Text → Bool
  | 0, _ => false
  | fuel + 1, text =>
    match Scalar.shortNumber? text with
    | none => false
    | some (value, rest) =>
      value < 60 && match rest with
        | [] => true
        | 58 :: more => isSexagesimalTail fuel more
        | 46 :: more => more.all fun b => Text.isDigitByte b || b = 95
        | _ => false

/-- A numeral in base sixty, which other readers take for a number. -/
def isSexagesimal (text : Text) : Bool :=
  let unsigned := match text with
    | 45 :: rest => rest
    | 43 :: rest => rest
    | rest => rest
  let isDigitOrLine (b : UInt8) : Bool := Text.isDigitByte b || b = 95
  (unsigned.head?.map Text.isDigitByte).getD false &&
    match unsigned.dropWhile isDigitOrLine with
    | 58 :: rest => isSexagesimalTail rest.length.succ rest
    | _ => false

/-- A plain scalar with this text would be taken for something other than a text. -/
def isMisleading (text : Text) : Bool :=
  Scalar.plainMeaning true text != .text text || oldTruthWords.contains text ||
    isSexagesimal text

/-- The characters that cannot start a plain scalar. -/
def isIndicator (code : Nat) : Bool :=
  [35, 44, 91, 93, 123, 125, 38, 42, 33, 124, 62, 39, 34, 37, 64, 96].contains code

/-- The rest starts with a blank or is empty. -/
def beforeBlank : List Nat → Bool
  | [] => true
  | code :: _ => isBlankCode code

/-- A colon before a blank, or a comment mark behind one, which a plain scalar
cannot hold. -/
def hasMark : (afterBlank : Bool) → List Nat → Bool
  | _, [] => false
  | afterBlank, code :: rest =>
    (code = 58 && beforeBlank rest) || (code = 35 && afterBlank) ||
      hasMark (isBlankCode code) rest

/-- A text that cannot start a plain scalar. -/
def startsBadly : List Nat → Bool
  | [] => false
  | code :: rest =>
    isIndicator code || ((code = 45 || code = 63 || code = 58) && beforeBlank rest) ||
      [[45, 45, 45], [46, 46, 46]].contains ((code :: rest).take 3)

/-- A space at the beginning or at the end. -/
def hasOuterSpace (codes : List Nat) : Bool :=
  codes.head? = some 32 || codes.getLast? = some 32

/-- A space directly before a break, which a block would lose. -/
def hasSpaceBeforeBreak : List Nat → Bool
  | 32 :: code :: rest => isBreakCode code || hasSpaceBeforeBreak (code :: rest)
  | _ :: rest => hasSpaceBeforeBreak rest
  | [] => false

/-- A space directly behind a break, which quotes would lose. -/
def hasSpaceAfterBreak : List Nat → Bool
  | code :: 32 :: rest => isBreakCode code || hasSpaceAfterBreak (32 :: rest)
  | _ :: rest => hasSpaceAfterBreak rest
  | [] => false

/-- A character that has to be escaped; a tab is one only outside of blocks. -/
def hasSpecial (codes : List Nat) : Bool :=
  codes.any fun code => !(isPlainCode code || code = 9)

/-- The marks of a block: how far it is indented, if its first line is empty or starts
with a space, and whether it ends without a break or in an empty line. -/
def blockHeader (codes : List Nat) : Text :=
  let first := codes.head?.getD 0
  let hint : Text := if first = 32 || isBreakCode first then Text.ofNat step else []
  let ending : Text := match codes.reverse with
    | last :: before =>
      if !isBreakCode last then "-" else if (before.head?.map isBreakCode).getD true then
        "+" else []
    | [] => "-"
  "|" ++ hint ++ ending

/-- A block. A break at the beginning of the text ends the line with the marks. -/
def writeBlock (indent : Nat) (codes : List Nat) : Text :=
  blockHeader codes ++ (if (codes.head?.map isBreakCode).getD false then [] else "\n") ++
    writeLines indent Character.encode true codes

/-- Cut into lines of seventy characters; the last break belongs to the text. -/
def wrapped : (fuel : Nat) → Text → Text
  | 0, text => text
  | fuel + 1, text =>
    if text.isEmpty then [] else text.take 70 ++ [10] ++ wrapped fuel (text.drop 70)

/-- Bytes that are no text, under the tag that says so. -/
def writeBinary (indent : Nat) (bytes : Text) : Text :=
  let digits := Base64.encode bytes
  "!!binary " ++
    if digits.length < 70 then digits
    else writeBlock (indent + step) ((wrapped digits.length digits).map UInt8.toNat)

/-- A text as a scalar of a mapping whose entries are indented by `indent`. -/
def writeText (indent : Nat) (text : Text) : Text :=
  let codes := text.characters.map Character.code
  if !text.isUtf8 then writeBinary indent text
  else if codes.contains 10 then
    if hasSpecial codes || codes.getLast? = some 32 ||
      hasSpaceBeforeBreak codes then writeDouble codes
    else writeBlock (indent + step) codes
  else if isMisleading text || hasSpecial codes || codes.contains 9 ||
    hasSpaceBeforeBreak codes ||
      hasSpaceAfterBreak codes then writeDouble codes
  else if hasOuterSpace codes || startsBadly codes || hasMark true codes ||
    codes.any isBreakCode then
    writeSingle (indent + step) codes
  else text

/-- A scalar: a text by the rules above, a word as it is. -/
def writeScalar (indent : Nat) (s : Scalar) : Text :=
  if s.quoted then writeText indent s.text else s.text

/-- A scalar at the end of its line. A block that ends in a break needs no other one. -/
def writeLine (indent : Nat) (s : Scalar) : Text :=
  let written := writeScalar indent s
  let ended := (written.characters.getLast?.map fun c => isBreakCode c.code).getD false
  if ended then written else written ++ "\n"

mutual

/-- A value behind the colon of an entry that is indented by `indent`. -/
def writeValue (indent : Nat) : Yaml → Text
  | .scalar value => " " ++ writeLine indent value
  | .list [] => " []\n"
  | .list (item :: items) => "\n" ++ writeItems (indent + step) (item :: items)
  | .mapping [] => " \x7b\x7d\n"
  | .mapping (entry :: entries) => "\n" ++ writeEntries (indent + step) (entry :: entries)

/-- The items of a list, each behind a dash. -/
def writeItems (indent : Nat) : List Yaml → Text
  | [] => []
  | item :: items =>
    margin indent ++ "-" ++ writeValue indent item ++ writeItems indent items

/-- The entries of a mapping. -/
def writeEntries (indent : Nat) : List (Scalar × Yaml) → Text
  | [] => []
  | (key, value) :: entries =>
    margin indent ++ writeScalar indent key ++ ":" ++ writeValue indent value ++
      writeEntries indent entries

end

/-- A document. -/
def write : Yaml → Text
  | .scalar value => writeLine 0 value
  | .list items => writeItems 0 items
  | .mapping entries => writeEntries 0 entries

end Persona.Yaml
