import Persona.Token
import Persona.Text.Blank
import Persona.Text.Letter
import Persona.Text.Digit
import Persona.Text.Quoted

/-!
# From text to tokens

Between tokens stand six blank characters, line comments and nested block
comments. A token is the longest run of its class; there are no escapes in
strings, and a string ends on its line.

Scanning stops at the first character that fits nowhere. A scanner that has
failed keeps its first error and answers every further request with a failure
token, and one that has reached the end keeps answering with the end.
-/

namespace Persona

/-- Why no token could be read. -/
inductive LexError.Cause where
  | unexpected (code : Nat)
  | loneLess
  | unclosedString
  | lineFeedInString
  | missingFraction
  | malformedNumber
  | unclosedComment
deriving DecidableEq, Repr

/-- A failure to read a token: the bytes concerned and the text shown with them. -/
structure LexError where
  cause : LexError.Cause
  token : Text
  start : Nat
  stop : Nat
deriving DecidableEq, Repr

/-- The wording of each cause. -/
def LexError.Cause.message : LexError.Cause → Text
  | .unexpected code => "unexpected character " ++ Text.quotedCharacter code
  | .loneLess => "unexpected character '<' (did you mean '<->'?)"
  | .unclosedString => "unterminated string literal"
  | .lineFeedInString => "newline in string literal"
  | .missingFraction => "malformed number: expected digits after '.'"
  | .malformedNumber => "malformed number"
  | .unclosedComment => "unclosed block comment"

namespace Token

/-- What the blank skipper is inside of. A block comment knows where it opened and how
many comments are open. -/
inductive Gap where
  | open
  | line
  | block (opened : Nat) (depth : Nat)
deriving DecidableEq, Repr

/-- Skip blanks and comments from `offset`. The answer is the offset and the characters of
the next token, or where a block comment was left open and where the text ended. -/
def skipGap : Gap → (offset : Nat) → List Character → Except (Nat × Nat) (Nat × List Character)
  | .block opened _, offset, [] => .error (opened, offset)
  | _, offset, [] => .ok (offset, [])
  | .open, offset, c :: rest =>
    if Character.isSeparator c.code then skipGap .open (offset + c.width) rest
    else match rest with
      | d :: after =>
        if c.code = 47 && d.code = 47 then skipGap .line (offset + 2) after
        else if c.code = 47 && d.code = 42 then skipGap (.block offset 1) (offset + 2) after
        else .ok (offset, c :: d :: after)
      | [] => .ok (offset, [c])
  | .line, offset, c :: rest =>
    skipGap (if c.code = 10 then .open else .line) (offset + c.width) rest
  | .block opened depth, offset, c :: rest =>
    match rest with
    | d :: after =>
      if c.code = 47 && d.code = 42 then skipGap (.block opened (depth + 1)) (offset + 2) after
      else if c.code = 42 && d.code = 47 then
        skipGap (if depth ≤ 1 then .open else .block opened (depth - 1)) (offset + 2) after
      else skipGap (.block opened depth) (offset + c.width) (d :: after)
    | [] => skipGap (.block opened depth) (offset + c.width) []

/-- The characters a token takes, what they are, and the characters after them. -/
structure Lexeme where
  verdict : Except LexError.Cause Kind
  taken : List Character
  left : List Character

/-- A name continues with letters, digits of any script and underscores. -/
def continuesName (code : Nat) : Bool :=
  code = 95 || Character.isLetter code || Character.isDecimalDigit code

/-- A number that runs into one of these was mistyped. -/
def spoilsNumber (code : Nat) : Bool :=
  code = 46 || code = 95 || Character.isLetter code

/-- A number whose digits are `taken`, with `left` after them. -/
def closeNumber (taken left : List Character) : Lexeme :=
  match left with
  | c :: left' =>
    if spoilsNumber c.code then ⟨.error .malformedNumber, taken ++ [c], left'⟩
    else ⟨.ok .number, taken, left⟩
  | [] => ⟨.ok .number, taken, left⟩

/-- A number: digits, and perhaps a point and more digits. -/
def numberLexeme (first : Character) (rest : List Character) : Lexeme :=
  let digit (c : Character) : Bool := Character.isAsciiDigit c.code
  let whole := first :: rest.takeWhile digit
  match rest.dropWhile digit with
  | point :: afterPoint =>
    if point.code = 46 then
      let fraction := afterPoint.takeWhile digit
      if fraction.isEmpty then ⟨.error .missingFraction, whole ++ [point], afterPoint⟩
      else closeNumber (whole ++ point :: fraction) (afterPoint.dropWhile digit)
    else closeNumber whole (point :: afterPoint)
  | [] => closeNumber whole []

/-- A string: everything up to the next double quote on the same line. -/
def stringLexeme (quote : Character) (rest : List Character) : Lexeme :=
  let inside (c : Character) : Bool := c.code != 34 && c.code != 10
  let content := rest.takeWhile inside
  match rest.dropWhile inside with
  | c :: left =>
    if c.code = 34 then ⟨.ok .string, quote :: content ++ [c], left⟩
    else ⟨.error .lineFeedInString, quote :: content, c :: left⟩
  | [] => ⟨.error .unclosedString, quote :: content, []⟩

/-- A word: a keyword or a name. -/
def wordLexeme (first : Character) (rest : List Character) : Lexeme :=
  let inside (c : Character) : Bool := continuesName c.code
  let taken := first :: rest.takeWhile inside
  ⟨.ok ((Kind.ofWord? (Text.ofCharacters taken)).getD .name), taken, rest.dropWhile inside⟩

/-- The symbols that are one character and start no longer symbol. -/
def symbol? (code : Nat) : Option Kind :=
  [(123, Kind.braceOpen), (125, .braceClose), (40, .parenOpen), (41, .parenClose),
   (44, .comma), (58, .colon), (59, .semicolon), (62, .greater), (43, .plus), (45, .minus),
   (42, .times), (47, .divide), (0x2192, .arrow)].lookup code

/-- The symbols that are two characters. -/
def doubleSymbol? (code next : Nat) : Option Kind :=
  [((43, 61), Kind.plusAssign), ((45, 61), .minusAssign), ((45, 62), .arrow)].lookup
    (code, next)

/-- The only symbol that starts with a less-than sign is the double arrow. -/
def lessLexeme (less : Character) : List Character → Lexeme
  | a :: b :: left =>
    if a.code = 45 && b.code = 62 then ⟨.ok .biArrow, [less, a, b], left⟩
    else if a.code = 45 then ⟨.error .loneLess, [less, a], b :: left⟩
    else ⟨.error .loneLess, [less], a :: b :: left⟩
  | [a] =>
    if a.code = 45 then ⟨.error .loneLess, [less, a], []⟩ else ⟨.error .loneLess, [less], [a]⟩
  | [] => ⟨.error .loneLess, [less], []⟩

/-- A token that is not a less-than sign or a two-character symbol. -/
def simpleLexeme (first : Character) (rest : List Character) : Lexeme :=
  match symbol? first.code with
  | some kind => ⟨.ok kind, [first], rest⟩
  | none =>
    if first.code = 34 then stringLexeme first rest
    else if Character.isAsciiDigit first.code then numberLexeme first rest
    else if Character.isLetter first.code then wordLexeme first rest
    else ⟨.error (.unexpected first.code), [first], rest⟩

/-- The token that starts with the character `first`. -/
def lexeme (first : Character) (rest : List Character) : Lexeme :=
  if first.code = 60 then lessLexeme first rest
  else match rest with
    | next :: left =>
      match doubleSymbol? first.code next.code with
      | some kind => ⟨.ok kind, [first, next], left⟩
      | none => simpleLexeme first rest
    | [] => simpleLexeme first rest

/-- The value of a token: strings lose their quotes. -/
def valueOf (kind : Kind) (taken : List Character) : Text :=
  match kind with
  | .string => Text.ofCharacters (taken.drop 1).dropLast
  | _ => Text.ofCharacters taken

end Token

/-- A reader of tokens. After a failure it holds the error and the bytes that every later
failure token covers. -/
structure Scanner where
  offset : Nat
  rest : List Character
  failure : Option (LexError × Nat × Nat)

namespace Scanner

/-- A scanner at the start of a text. -/
def ofText (text : Text) : Scanner := ⟨0, text.characters, none⟩

/-- The next token and the scanner after it. -/
def next (s : Scanner) : Token × Scanner :=
  match s.failure with
  | some (_, start, stop) => (⟨.failure, [], start, stop⟩, s)
  | none =>
    match Token.skipGap .open s.offset s.rest with
    | .error (opened, stop) =>
      (⟨.failure, [], opened, stop⟩,
        ⟨stop, [], some (⟨.unclosedComment, [], opened, stop⟩, opened, stop)⟩)
    | .ok (offset, []) => (⟨.endOfInput, [], offset, offset⟩, ⟨offset, [], none⟩)
    | .ok (offset, first :: rest) =>
      let lexeme := Token.lexeme first rest
      let written := Text.ofCharacters lexeme.taken
      let stop := offset + written.length
      match lexeme.verdict with
      | .ok kind =>
        (⟨kind, Token.valueOf kind lexeme.taken, offset, stop⟩, ⟨stop, lexeme.left, none⟩)
      | .error cause =>
        (⟨.failure, written, offset, stop⟩,
          ⟨stop, lexeme.left, some (⟨cause, written, offset, stop⟩, stop, stop)⟩)

/-- The answers to `count` requests, each with the scanner after it. -/
def take : (count : Nat) → Scanner → List (Token × Scanner)
  | 0, _ => []
  | count + 1, s =>
    let answer := s.next
    answer :: take count answer.2

/-- The tokens of a document: those before the end, and the end itself. -/
structure Stream where
  tokens : List Token
  last : Token
deriving DecidableEq, Repr

/-- Read tokens until the end or the first failure. Every token takes at least one
character, so `fuel` above the number of characters is never used up. -/
def collect : (fuel : Nat) → Scanner → Except LexError Stream
  | 0, s => .ok ⟨[], ⟨.endOfInput, [], s.offset, s.offset⟩⟩
  | fuel + 1, s =>
    let (token, after) := s.next
    match after.failure with
    | some (error, _, _) => .error error
    | none =>
      if token.kind = .endOfInput then .ok ⟨[], token⟩
      else (collect fuel after).map fun stream => ⟨token :: stream.tokens, stream.last⟩

end Scanner

/-- All tokens of a text, or the first failure to read one. -/
def Token.scan (text : Text) : Except LexError Scanner.Stream :=
  let s := Scanner.ofText text
  s.collect (s.rest.length + 1)

end Persona
