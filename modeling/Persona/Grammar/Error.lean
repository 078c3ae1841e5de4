import Persona.Token.Lexer
import Persona.Source
import Persona.Number.Layout
import Persona.Log
import Persona.Folder

/-!
# What can be wrong with a document

An error is a cause together with the bytes it concerns. Its code, its wording
and its place in the source are all read off the cause, so that the grammar only
has to say what it met.

Besides the error that ends the reading there are events: entries that were
skipped and words that were taken for something more general. A skipped entry is
also a notice, which a strict reading turns into an error.
-/

namespace Persona

/-- The parts of an entry that are recognised by their first word. -/
inductive Form where
  | modifier | context | timeUnit | level | condition | action | trigger | effect
deriving DecidableEq, Repr

/-- What is asked for where a form was expected. -/
def Form.wanted : Form → Text
  | .modifier => "modifier"
  | .context => "context"
  | .timeUnit => "time unit (day, week, month, year)"
  | .level => "knowledge level (beginner, intermediate, advanced, expert)"
  | .condition => "condition"
  | .action => "action"
  | .trigger => "trigger"
  | .effect => "effect"

/-- How an unknown first word of a form is called. -/
def Form.subject : Form → Text
  | .context => "context kind"
  | form => form.wanted

/-- Why the tokens do not form a document. -/
inductive SyntaxError.Cause where
  | expected (kind : Kind) (got : Token)
  | expectedNumber (got : Token)
  | expectedForm (form : Form) (got : Token)
  | expectedName (role : Text) (got : Token)
  | expectedSeparator (list : Text) (got : Token)
  | expectedSection (got : Token)
  | expectedEntry (name : Text) (got : Token)
  | unknownWord (form : Form) (word : Text)
  | unclosedList (list : Text)
  | emptyDocument
  | sectionOrder (kind : Kind)
  | trailing (after : Text) (got : Token)
  | tooDeep (limit : Int)
  | divisionByZero
  | invalidNumber (literal : Text)
  | numberOutOfRange
  | notWhole (value : Binary64)
  | countOutOfRange (value : Binary64)
  | topicForConnection (name : Text)
deriving DecidableEq, Repr

/-- A syntax error: the cause, and the token it is reported at. -/
structure SyntaxError where
  cause : SyntaxError.Cause
  token : Text
  start : Nat
  stop : Nat
deriving DecidableEq, Repr

/-- A token as messages call it. -/
def Token.described (t : Token) : Text :=
  match t.kind with
  | .string => "string " ++ t.value.quoted
  | .number => "number " ++ t.value
  | .name => "name " ++ t.value
  | kind => kind.text

namespace SyntaxError

/-- An error reported at a token. -/
def atToken (t : Token) (cause : Cause) : SyntaxError := ⟨cause, t.value, t.start, t.stop⟩

/-- One of two codes, depending on whether the input had ended. -/
def codeUnlessEnded (got : Token) (code : Text) : Text :=
  if got.kind = .endOfInput then "S0203" else code

/-- The code of each cause. -/
def Cause.code : Cause → Text
  | .expected _ got => codeUnlessEnded got "S0202"
  | .expectedNumber got => codeUnlessEnded got "S0201"
  | .expectedForm _ _ => "S0201"
  | .expectedName _ _ => "S0204"
  | .expectedSeparator _ _ => "S0202"
  | .expectedSection got => codeUnlessEnded got "S0202"
  | .expectedEntry _ _ => "S0201"
  | .unknownWord _ _ => "S0209"
  | .unclosedList _ => "S0203"
  | .emptyDocument => "S0212"
  | .sectionOrder _ => "S0207"
  | .trailing _ _ => "S0211"
  | .tooDeep _ => "S0208"
  | .divisionByZero => "S0205"
  | .invalidNumber _ => "L0104"
  | .numberOutOfRange => "S0213"
  | .notWhole _ => "S0206"
  | .countOutOfRange _ => "S0213"
  | .topicForConnection _ => "S0201"

/-- The wording of each cause. -/
def Cause.message : Cause → Text
  | .expected kind got => "Expected " ++ kind.text ++ " but got " ++ got.described
  | .expectedNumber got => "Expected number but got " ++ got.described
  | .expectedForm form got => "Expected " ++ form.wanted ++ " but got " ++ got.described
  | .expectedName role got => "Expected " ++ role ++ " name but got " ++ got.described
  | .expectedSeparator list got =>
    "Expected ; or \x7d after " ++ list ++ " entry but got " ++ got.described
  | .expectedSection got =>
    let wanted : Text := if got.kind = .endOfInput then "\x7d" else "section or \x7d"
    "Expected " ++ wanted ++ " but got " ++ got.described
  | .expectedEntry name got =>
    "Expected : or -> after " ++ name.quoted ++ " but got " ++ got.described
  | .unknownWord form word => "unknown " ++ form.subject ++ " " ++ word.quoted
  | .unclosedList list => "unexpected end of input in " ++ list
  | .emptyDocument => "empty document: expected personality declaration"
  | .sectionOrder kind =>
    "section " ++ kind.text ++
      " is repeated or out of order (expected traits, knowledge, behaviors, evolution)"
  | .trailing after got => "unexpected " ++ got.described ++ " after " ++ after
  | .tooDeep limit => "nesting exceeds maximum depth " ++ Text.ofInt limit
  | .divisionByZero => "division by zero"
  | .invalidNumber literal => "invalid number " ++ literal
  | .numberOutOfRange => "number out of range"
  | .notWhole value => "expected a whole number but got " ++ value.text
  | .countOutOfRange value => "count " ++ value.text ++ " out of range"
  | .topicForConnection name => "expected connection but got topic " ++ name.quoted

end SyntaxError

/-- The code of each lexical cause. -/
def LexError.Cause.code : LexError.Cause → Text
  | .unexpected _ => "L0101"
  | .loneLess => "L0101"
  | .unclosedString => "L0102"
  | .lineFeedInString => "L0103"
  | .missingFraction => "L0104"
  | .malformedNumber => "L0104"
  | .unclosedComment => "L0105"

/-- What happened during a reading besides its result. -/
inductive Event where
  | skipped (list : Text) (error : SyntaxError)
  | unknownCondition (word : Token)
  | unknownTrigger (word : Token)
deriving DecidableEq, Repr

/-- What a located error is about. -/
inductive Fault where
  | lexical (error : LexError)
  | grammatical (error : SyntaxError)
  | skipped (list : Text) (error : SyntaxError)
  | unreadable (error : AccessError)
  | stated (code message : Text)
deriving DecidableEq, Repr

/-- A fault and where it is. -/
structure ParseError where
  fault : Fault
  location : Location
deriving DecidableEq, Repr

namespace ParseError

/-- A lexical error located in a source. -/
def ofLexError (s : Source) (e : LexError) : ParseError :=
  ⟨.lexical e, s.span e.start e.stop⟩

/-- A syntax error located in a source. -/
def ofSyntaxError (s : Source) (e : SyntaxError) : ParseError :=
  ⟨.grammatical e, s.span e.start e.stop⟩

/-- The notice of a skipped entry stands where the error of the entry stands. -/
def ofSkipped (s : Source) (list : Text) (e : SyntaxError) : ParseError :=
  ⟨.skipped list e, s.span e.start e.stop⟩

/-- A file that cannot be read is reported at its beginning. -/
def ofUnreadable (e : AccessError) : ParseError :=
  ⟨.unreadable e, ⟨e.path, 1, 1, 1, 1⟩⟩

/-- The code of an error. -/
def code (e : ParseError) : Text :=
  match e.fault with
  | .lexical error => error.cause.code
  | .grammatical error => error.cause.code
  | .skipped _ _ => "S0210"
  | .unreadable _ => "F0001"
  | .stated code _ => code

/-- The family of an error. -/
def family (e : ParseError) : Text :=
  match e.fault with
  | .lexical _ => "lex error"
  | .unreadable _ => "file error"
  | _ => "syntax error"

/-- The wording of an error. -/
def message (e : ParseError) : Text :=
  match e.fault with
  | .lexical error => error.cause.message
  | .grammatical error => error.cause.message
  | .skipped list error => "skipped malformed " ++ list ++ " entry: " ++ error.cause.message
  | .unreadable error => "cannot read " ++ error.path ++ ": " ++ error.text
  | .stated _ message => message

/-- The text of the token an error is reported at. -/
def token (e : ParseError) : Text :=
  match e.fault with
  | .lexical error => error.token
  | .grammatical error => error.token
  | .skipped _ error => error.token
  | _ => []

/-- The error because of which an entry was skipped. -/
def cause? (e : ParseError) : Option ParseError :=
  match e.fault with
  | .skipped _ error => some ⟨.grammatical error, e.location⟩
  | _ => none

/-- The line that reports an error. -/
def text (e : ParseError) : Text :=
  e.location.text ++ ": " ++ e.family ++ " " ++ e.code ++ ": " ++ e.message

end ParseError

/-- Several messages as one text: the only one, or their number and one on each line. -/
def joinMessages : List Text → Text
  | [] => "no errors"
  | [message] => message
  | messages =>
    let indented : Text := messages.flatMap fun message => Text.ofString "\n\t" ++ message
    Text.ofNat messages.length ++ " errors:" ++ indented

/-- The text of a list of errors. -/
def ParseError.textOfList (errors : List ParseError) : Text :=
  joinMessages (errors.map ParseError.text)

namespace Event

/-- The notice of an event, if it is a skipped entry. -/
def notice? (s : Source) : Event → Option ParseError
  | .skipped list error => some (.ofSkipped s list error)
  | _ => none

/-- What is recorded of an event. -/
def record (s : Source) (event : Event) : Log.Record :=
  let place (start stop : Nat) : Log.Value := .text (s.span start stop).text
  let record : Log.Record := match event with
    | .skipped list error =>
      ⟨.warn, "skipping malformed entry",
        [("section", .text list), ("location", place error.start error.stop),
         ("error", .text error.cause.message)]⟩
    | .unknownCondition word =>
      ⟨.debug, "unknown condition treated as context match",
        [("condition", .text word.value), ("location", place word.start word.stop)]⟩
    | .unknownTrigger word =>
      ⟨.warn, "unknown trigger treated as feedback score",
        [("trigger", .text word.value), ("location", place word.start word.stop)]⟩
  record.within "parser"

end Event

end Persona
