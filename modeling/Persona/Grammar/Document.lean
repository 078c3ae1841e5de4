import Persona.Grammar.Rules
import Persona.Logged

/-!
# Documents and fragments

A document is a personality with its sections in a fixed order, each at most
once. A fragment is a single entry or part of one, the way structured outputs
store it.

Reading a document answers with the personality or with every error there is to
report: the lexical error, the syntax error that ended the reading, and in a
strict reading the skipped entries before it. A strict reading that only skipped
entries fails with those.
-/

namespace Persona

namespace Grammar

open Grammar.Parser

/-- A section that may be left out. -/
def optionalSection {α : Type} (kind : Kind) (body : Parser (List α)) : Parser (List α) := do
  if ← check kind then
    let _ ← advance
    body
  else return []

/-- The keywords that open a section. -/
def isSection (kind : Kind) : Bool :=
  kind = .traits || kind = .knowledge || kind = .behaviors || kind = .evolution

/-- What must follow the sections: the closing brace and the end of the input. -/
def documentEnd : Parser Unit := do
  let token ← current
  if isSection token.kind then failAt token (.sectionOrder token.kind)
  else if token.kind = .braceClose then
    let _ ← advance
    let following ← current
    if following.kind = .endOfInput then return ()
    else failAt following (.trailing "personality" following)
  else failAt token (.expectedSection token)

/-- A whole document. -/
def document : Parser Personality := do
  let token ← current
  if token.kind = .endOfInput then failAt token .emptyDocument
  else
    let _ ← expect .personality
    let called ← name "personality"
    let _ ← expect .braceOpen
    let traits ← optionalSection .traits (entries "traits" false trait)
    let knowledge ← optionalSection .knowledge (entries "knowledge" true domain)
    let behaviors ← optionalSection .behaviors (entries "behaviors" false behavior)
    let evolution ← optionalSection .evolution (entries "evolution" false evolutionRule)
    documentEnd
    return ⟨called, traits, knowledge, behaviors, evolution⟩

/-- A part that takes all the tokens. -/
def whole {α : Type} (what : Text) (p : Parser α) : Parser α := do
  let value ← p
  let token ← current
  if token.kind = .endOfInput then return value else failAt token (.trailing what token)

/-- The nesting limit where none is asked for. -/
def defaultLimit : Int := 100

end Grammar

/-- How a document is read: the name used in locations, whether skipped entries are
errors, and the nesting limit, which is none unless it is positive. -/
structure ReadingOptions where
  file : Text := []
  strict : Bool := false
  limit : Int := Grammar.defaultLimit

/-- The outcome of reading a document: the notices of skipped entries, what was recorded,
and the personality or the errors. -/
structure Reading where
  notices : List ParseError
  records : List Log.Record
  result : Except (List ParseError) Personality

namespace Personality

/-- Read a document. -/
def read (options : ReadingOptions) (text : Text) : Reading :=
  let source := Source.ofText options.file text
  match Token.scan text with
  | .error e => ⟨[], [], .error [.ofLexError source e]⟩
  | .ok stream =>
    let reply := Grammar.document ⟨stream.last, options.limit, 0⟩ stream.tokens
    let notices := reply.events.filterMap (Event.notice? source)
    let held := if options.strict then notices else []
    let result : Except (List ParseError) Personality :=
      match reply.outcome with
      | .error e => .error (held ++ [.ofSyntaxError source e])
      | .ok (personality, _) => if held.isEmpty then .ok personality else .error held
    ⟨notices, reply.events.map (Event.record source), result⟩

/-- Read the document in a file, which gives its name to the locations. -/
def readAt (folder : Folder) (path : Text) : Reading :=
  match folder.read path with
  | .error e => ⟨[], [], .error [.ofUnreadable e]⟩
  | .ok text => read { file := path } text

end Personality

namespace Fragment

/-- Read a text that is one part of a document, called `what` in messages. -/
def read {α : Type} (what : Text) (p : Grammar.Parser α) (text : Text) : Logged ParseError α :=
  let source := Source.ofText [] text
  match Token.scan text with
  | .error e => ⟨[], .error (.ofLexError source e)⟩
  | .ok stream =>
    let reply := Grammar.whole what p ⟨stream.last, Grammar.defaultLimit, 0⟩ stream.tokens
    ⟨reply.events.map (Event.record source),
      match reply.outcome with
      | .error e => .error (.ofSyntaxError source e)
      | .ok (value, _) => .ok value⟩

/-- Read a trait modifier. -/
def modifier : Text → Logged ParseError Modifier := read "modifier" Grammar.modifier

/-- Read a behavior rule. -/
def behavior : Text → Logged ParseError BehaviorRule := read "behavior" Grammar.behavior

/-- Read an evolution rule. -/
def evolutionRule : Text → Logged ParseError EvolutionRule :=
  read "evolution rule" Grammar.evolutionRule

/-- Read a condition. -/
def condition : Text → Logged ParseError Condition := read "condition" Grammar.condition

/-- Read an action. -/
def action : Text → Logged ParseError Action := read "action" Grammar.action

/-- Read a trigger. -/
def trigger : Text → Logged ParseError Trigger := read "trigger" Grammar.trigger

/-- Read an effect. -/
def effect : Text → Logged ParseError Effect := read "effect" Grammar.effect

/-- Read a connection entry of the domain called `owner`; a double arrow gives two
connections, and a topic is refused as a whole. -/
def connections (owner text : Text) : Logged ParseError (List Connection) :=
  let reading := read "connection" (Grammar.domainEntry owner) text
  ⟨reading.records,
    match reading.result with
    | .error e => .error e
    | .ok (.connections values) => .ok values
    | .ok (.topic topic) =>
      .error (.ofSyntaxError (Source.ofText [] text)
        ⟨.topicForConnection topic.name, [], 0, text.length⟩)⟩

end Fragment

end Persona
