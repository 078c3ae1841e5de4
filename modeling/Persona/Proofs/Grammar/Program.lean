import Persona.Grammar.Document

/-!
# The grammar as a program with a cursor

The parsers of the grammar are handed the tokens that are left and how deeply they are
nested, and their loops are bounded from outside. Here the same grammar is a program the
way a machine runs it. All tokens, the end with them, stand in one array, and one cursor
is moved over it. A counter goes up on the way into a nested part and down on the way out.

Such a program may have no answer: where it looks outside the array, and where one of its
loops takes more turns than it is waited for. A loop is not cut short: it ends when it is
done, or there is no answer at all. So a program comes to its end if it has an answer for
whoever is patient enough.

What it does on the way is marked in the cursor: every position it moves to, every turn of
a loop, every entry that is begun and every entry that is skipped. A mark is never taken
back, so the marks of a run speak about the whole of it and not only about its end.
-/

namespace Persona.Grammar

/-- What a program reads: an array of tokens, the nesting limit, and how many turns of a
loop, or calls of an expression inside another one, it is waited for. -/
structure Tape where
  tokens : List Token
  limit : Int
  patience : Nat
deriving DecidableEq, Repr

/-- How many tokens there are. -/
def Tape.size (tape : Tape) : Nat := tape.tokens.length

/-- The loops of the grammar. -/
inductive Loop where
  | list (called : Text)
  | sections
  | modifiers
  | operators
deriving DecidableEq, Repr

/-- What a program has done: it moved to a position, it began an entry of a list at a
nesting depth, it skipped the entry from `start` after reading as far as `failed` and went
on at `stop`, or a turn of a loop led from `start` to `stop`. -/
inductive Mark where
  | moved (position : Nat)
  | began (called : Text) (depth : Int)
  | skipped (called : Text) (start failed stop : Nat)
  | turned (loop : Loop) (start stop : Nat)
deriving DecidableEq, Repr

/-- What a program changes: its position, its nesting depth, the events it notes, and the
marks it leaves. -/
structure Cursor where
  position : Nat
  depth : Int
  events : List Event
  marks : List Mark
deriving DecidableEq, Repr

/-- A program with a value or a syntax error, if it looks at tokens only and ends. -/
abbrev Program (α : Type) : Type := ReaderT Tape (ExceptT SyntaxError (StateT Cursor Option)) α

namespace Program

variable {α : Type}

/-- The token at an index; there is none outside the array. -/
def tokenAt (index : Nat) : Program Token := fun tape cursor =>
  tape.tokens[index]?.map fun token => (.ok token, cursor)

/-- What the program reads from. -/
def input : Program Tape := fun tape cursor => some (.ok tape, cursor)

/-- How many turns are waited for. -/
def patience : Program Nat := fun tape cursor => some (.ok tape.patience, cursor)

/-- What is waited for no longer. -/
def never : Program α := fun _ _ => none

/-- The position. -/
def position : Program Nat := fun _ cursor => some (.ok cursor.position, cursor)

/-- The nesting depth. -/
def depth : Program Int := fun _ cursor => some (.ok cursor.depth, cursor)

/-- Leave a mark. -/
def mark (done : Mark) : Program Unit := fun _ cursor =>
  some (.ok (), { cursor with marks := cursor.marks ++ [done] })

/-- Note an event. -/
def note (event : Event) : Program Unit := fun _ cursor =>
  some (.ok (), { cursor with events := cursor.events ++ [event] })

/-- Move to a position. -/
def moveTo (position : Nat) : Program Unit := fun _ cursor =>
  some (.ok (),
    { cursor with position := position, marks := cursor.marks ++ [.moved position] })

/-- Change the nesting depth. -/
def deepen (change : Int) : Program Unit := fun _ cursor =>
  some (.ok (), { cursor with depth := cursor.depth + change })

/-- Stop with an error. -/
def stop (e : SyntaxError) : Program α := fun _ cursor => some (.error e, cursor)

/-- Go on after an error, with the error in hand. -/
def attempt (m : Program α) : Program (Except SyntaxError α) := fun tape cursor => do
  let (outcome, after) ← m tape cursor
  return (.ok outcome, after)

/-- The token `ahead` places further on; past the last one it is the last one. -/
def peek (ahead : Nat) : Program Token := do
  let size := (← input).size
  let index := (← position) + ahead
  if size ≤ index then tokenAt (size - 1) else tokenAt index

/-- The token to be read next. -/
def current : Program Token := peek 0

/-- Take one token; the last one is never passed. -/
def advance : Program Token := do
  let token ← current
  let size := (← input).size
  let position ← position
  if position < size - 1 then moveTo (position + 1)
  return token

/-- The next token is of this kind. -/
def check (kind : Kind) : Program Bool := do
  let token ← current
  return token.kind = kind

/-- Fail at a token. -/
def failAt (token : Token) (cause : SyntaxError.Cause) :
    Program α := stop (.atToken token cause)

/-- Fail at the next token, which the cause may mention. -/
def fail (cause : Token → SyntaxError.Cause) : Program α := do
  let token ← current
  failAt token (cause token)

/-- Take a token of this kind. -/
def expect (kind : Kind) : Program Token := do
  let token ← current
  if token.kind = kind then advance else failAt token (.expected kind token)

/-- Go one level deeper. Where the limit forbids it, the counter is set back at once. -/
def enter : Program Unit := do
  deepen 1
  let limit := (← input).limit
  if 0 < limit && limit < (← depth) then
    deepen (-1)
    fail fun _ => .tooDeep limit

/-- Back up by one level. -/
def leave (after : Cursor) : Cursor := { after with depth := after.depth - 1 }

/-- Back up by one level when the part comes to its end, whether it has a value
or an error. -/
def leaving (m : Program α) : Program α := fun tape cursor => do
  let (outcome, after) ← m tape cursor
  return (outcome, leave after)

/-- Read one level deeper. -/
def nested (m : Program α) : Program α := do
  enter
  leaving m

/-- Read a part between parentheses. -/
def parenthesized (m : Program α) : Program α := do
  let _ ← expect .parenOpen
  let value ← m
  let _ ← expect .parenClose
  return value

/-- The index of the next semicolon outside all brackets opened from `index` on, `depth`
of which are open. -/
def separatorFrom (tape : Tape) (depth index : Nat) : Option Nat :=
  if inside : index < tape.size then
    match (tape.tokens.get ⟨index, inside⟩).kind with
    | .braceOpen => separatorFrom tape (depth + 1) (index + 1)
    | .parenOpen => separatorFrom tape (depth + 1) (index + 1)
    | .parenClose => separatorFrom tape (if 0 < depth then depth - 1 else depth) (index + 1)
    | .braceClose => if depth = 0 then none else separatorFrom tape (depth - 1) (index + 1)
    | .semicolon => if depth = 0 then some index else separatorFrom tape depth (index + 1)
    | .endOfInput => none
    | _ => separatorFrom tape depth (index + 1)
  else none
termination_by tape.size - index

/-- Move past the semicolon that ends the entry at `start`, and tell whether
there is one. -/
def recover (start : Nat) : Program Bool := do
  match separatorFrom (← input) 0 start with
  | some index =>
    moveTo (index + 1)
    return true
  | none => return false

/-- The value of an entry, or after a failure none if the entry can be skipped. -/
def settle (list : Text) (start : Nat) : Except SyntaxError α → Program (Option α)
  | .ok value => return some value
  | .error e => do
    let failed ← position
    if ← recover start then
      mark (.skipped list start failed (← position))
      note (.skipped list e)
      return none
    else stop e

/-- An entry with the separator after it. Before the closing brace it needs none, and
where `optional` holds it never does. -/
def separated (list : Text) (optional : Bool) (entry : Program α) : Program α := do
  let value ← entry
  let token ← current
  if token.kind = .semicolon then
    let _ ← advance
    return value
  else if token.kind = .braceClose || optional then return value
  else failAt token (.expectedSeparator list token)

/-- Mark that an entry of a list is begun. -/
def beginEntry (list : Text) : Program Unit := do
  let depth ← depth
  mark (.began list depth)

/-- One turn of the loop over a list: an entry that is read, or one that is skipped. -/
def turn (list : Text) (optional : Bool) (entry : Program α) : Program (Option α) := do
  let start ← position
  beginEntry list
  let outcome ← attempt (separated list optional entry)
  let value ← settle list start outcome
  mark (.turned (.list list) start (← position))
  return value

/-- The turns of the loop over a list, up to the closing brace, with the brace. -/
def entriesFrom (list : Text) (optional : Bool) (entry : Program α) :
    (turns : Nat) → Program (List α)
  | 0 => never
  | turns + 1 => do
    let token ← current
    if token.kind = .braceClose then
      let _ ← advance
      return []
    else if token.kind = .endOfInput then failAt token (.unclosedList list)
    else
      let value ← turn list optional entry
      let values ← entriesFrom list optional entry turns
      return value.toList ++ values

/-- A list of entries between braces. -/
def entries (list : Text) (optional : Bool) (entry : Program α) : Program (List α) := do
  let _ ← expect .braceOpen
  entriesFrom list optional entry (← patience)

/-- A name: a word, a string or a keyword. -/
def name (role : Text) : Program Text := do
  let token ← current
  if isName token then
    let _ ← advance
    return nameOf token
  else failAt token (.expectedName role token)

/-- The content of a string. -/
def string : Program Text := do
  let token ← expect .string
  return token.value

/-- The unit named by the next word. -/
def timeUnit : Program TimeUnit := do
  let token ← current
  match if token.kind = .name then TimeUnit.ofWord? token.value else none with
  | some unit =>
    let _ ← advance
    return unit
  | none => failAt token (.expectedForm .timeUnit token)

/-- The level named by the next word or string. -/
def level : Program Level := do
  let token ← current
  match if token.kind = .name || token.kind = .string then Level.ofWord? token.value
    else none with
  | some level =>
    let _ ← advance
    return level
  | none => failAt token (.expectedForm .level token)

/-- The value of an operation, which is reported at its operator when it has none. -/
def apply (operator : Token) (left right : Binary64) : Program Binary64 :=
  match operator.kind with
  | .plus => return left.add right
  | .minus => return left.sub right
  | .times => return left.mul right
  | _ =>
    if right.same .zero then failAt operator .divisionByZero
    else return left.div right

/-- The value of a literal; one too large for a number is refused. -/
def literal (token : Token) : Program Binary64 :=
  match Binary64.read? token.value with
  | some value => return value
  | none => failAt token (.invalidNumber token.value)

/-- A literal, a negated operand or an expression in parentheses, where `expression power`
reads an expression whose operators bind more tightly than `power`. -/
def operand (expression : Nat → Program Binary64) : Program Binary64 := do
  let token ← current
  match token.kind with
  | .number =>
    let _ ← advance
    literal token
  | .minus =>
    let _ ← advance
    let value ← expression signPower
    return value.neg
  | .parenOpen =>
    let _ ← advance
    let value ← expression 0
    let _ ← expect .parenClose
    return value
  | _ => failAt token (.expectedNumber token)

/-- The turns of the loop over the operators that bind more tightly than `power`. -/
def operators (expression : Nat → Program Binary64) (power : Nat) :
    (turns : Nat) → Binary64 → Program Binary64
  | 0, _ => never
  | turns + 1, left => do
    let operator ← current
    let following ← peek 1
    if power < bindingPower operator.kind &&
      !(operator.kind = .divide && isTimeUnit following) then
      let start ← position
      let _ ← advance
      let right ← expression (bindingPower operator.kind)
      let value ← apply operator left right
      mark (.turned .operators start (← position))
      operators expression power turns value
    else return left

/-- An operand and the operators after it, one level deeper. -/
def expressionWithin : (calls : Nat) → (power : Nat) → Program Binary64
  | 0, _ => never
  | calls + 1, power => nested do
    let left ← operand (expressionWithin calls)
    operators (expressionWithin calls) power (← patience) left

/-- An expression whose operators bind more tightly than `power`. -/
def expression (power : Nat) : Program Binary64 := do
  expressionWithin (← patience) power

/-- An expression with a finite value. -/
def number : Program Binary64 := do
  let token ← current
  let value ← expression 0
  if value.isFinite then return value else failAt token .numberOutOfRange

/-- An expression whose value is a whole number of sixty-four bits. -/
def count : Program Int := do
  let token ← current
  let value ← number
  match value.toInt? with
  | none => failAt token (.notWhole value)
  | some n =>
    if n < -0x8000000000000000 || 0x8000000000000000 ≤ n then
      failAt token (.countOutOfRange value)
    else return n

/-- A circumstance: a string, or one of four kinds and a string. -/
def context : Program Context := do
  let token ← current
  if token.kind = .string then
    let _ ← advance
    return .topic token.value
  else
    let following ← peek 1
    if token.kind = .name && following.kind = .colon then
      let _ ← advance
      let _ ← advance
      let value ← string
      if token.value = "topic" then return .topic value
      else if token.value = "situation" then return .situation value
      else if token.value = "time" then return .timeOfDay value
      else if token.value = "mood" || token.value = "emotion" then return .mood value
      else failAt token (.unknownWord .context token.value)
    else failAt token (.expectedForm .context token)

/-- The rate and the unit of a decay. -/
def decay : Program Modifier := parenthesized do
  let rate ← number
  let _ ← expect .divide
  let unit ← timeUnit
  return .decay rate unit

/-- The target and the factor of an amplification. -/
def amplification : Program Modifier := parenthesized do
  let target ← name "trait"
  let _ ← expect .comma
  let factor ← number
  return .amplifies target factor

/-- The target, the factor and the count of a transformation. -/
def transformation : Program Modifier := parenthesized do
  let target ← name "trait"
  let _ ← expect .comma
  let factor ← number
  let _ ← expect .comma
  let periods ← count
  return .transformsTo target factor periods

/-- A modifier of a trait. -/
def modifier : Program Modifier := do
  let token ← current
  if token.kind = .when then
    let _ ← advance
    let inner ← parenthesized context
    return .when inner
  else if token.kind = .name then
    if token.value = "decay" then
      let _ ← advance
      decay
    else if token.value = "unless" then
      let _ ← advance
      let inner ← parenthesized context
      return .unless inner
    else if token.value = "amplifies" then
      let _ ← advance
      amplification
    else if token.value = "transforms_to" then
      let _ ← advance
      transformation
    else failAt token (.unknownWord .modifier token.value)
  else failAt token (.expectedForm .modifier token)

/-- The turns of the loop over modifiers, one after each comma. -/
def modifiersFrom : (turns : Nat) → Program (List Modifier)
  | 0 => never
  | turns + 1 => do
    let start ← position
    let first ← modifier
    if ← check .comma then
      let _ ← advance
      mark (.turned .modifiers start (← position))
      let others ← modifiersFrom turns
      return first :: others
    else
      mark (.turned .modifiers start (← position))
      return [first]

/-- Modifiers separated by commas; there is at least one. -/
def modifiers : Program (List Modifier) := do
  modifiersFrom (← patience)

/-- A trait: its name, its strength and perhaps modifiers. -/
def trait : Program Trait := do
  let called ← name "trait"
  let _ ← expect .colon
  let strength ← number
  if ← check .with then
    let _ ← advance
    let all ← modifiers
    return ⟨called, strength, all.map some⟩
  else return ⟨called, strength, []⟩

/-- What an arrow points to, from `source`; a double arrow draws the way back as well. -/
def connection (source : Text) : Program DomainEntry := do
  let arrow ← advance
  let target ← name "domain"
  let _ ← expect .parenOpen
  let strength ← number
  let rate ← (do
    if ← check .comma then
      let _ ← advance
      let value ← number
      return some value
    else return none : Program (Option Binary64))
  let _ ← expect .parenClose
  let forth : Connection := ⟨source, target, strength, rate⟩
  let back : Connection := ⟨target, source, strength, rate⟩
  return .connections (if arrow.kind = .biArrow then [forth, back] else [forth])

/-- An entry of the domain called `owner`, from which an arrow without a name leaves. -/
def domainEntry (owner : Text) : Program DomainEntry := do
  let token ← current
  if isArrow token then connection owner
  else
    let called ← name "topic"
    let following ← current
    if following.kind = .colon then
      let _ ← advance
      let level ← level
      return .topic ⟨called, level⟩
    else if isArrow following then connection called
    else failAt token (.expectedEntry called following)

/-- A knowledge domain. -/
def domain : Program Domain := do
  let _ ← expect .domain
  let called ← parenthesized (name "domain")
  let all ← entries ("domain " ++ called) false (domainEntry called)
  return ⟨called, topicsOf all, connectionsOf all⟩

/-- A condition that is a word, called like a function when `call` holds. -/
def wordCondition (token : Token) (call : Bool) : Program Condition := do
  if token.value = "tired" || token.value = "motivated" then
    let _ ← advance
    if call then
      let _ ← advance
      let _ ← expect .parenClose
    return if token.value = "tired" then .tired else .motivated
  else if token.value = "context" && call then
    let _ ← advance
    let value ← parenthesized string
    return .context value
  else if token.value = "time" && call then
    let _ ← advance
    let _ ← advance
    let start ← string
    let _ ← expect .comma
    let stop ← string
    let _ ← expect .parenClose
    return .timeRange start stop
  else if call then
    let _ ← advance
    let _ ← advance
    if ← check .string then
      let _ ← advance
    let _ ← expect .parenClose
    note (.unknownCondition token)
    return .context token.value
  else
    let _ ← advance
    return .context token.value

/-- The condition of a behavior. -/
def condition : Program Condition := do
  let token ← current
  let following ← peek 1
  if isName token && following.kind = .greater then
    let called ← name "trait"
    let _ ← advance
    let threshold ← number
    return .traitAbove called threshold
  else if token.kind = .string then
    let _ ← advance
    return .context token.value
  else if token.kind = .name then wordCondition token (following.kind = .parenOpen)
  else failAt token (.expectedForm .condition token)

/-- A string, with or without parentheses around it. -/
def looseString : Program Text := do
  if ← check .parenOpen then parenthesized string else string

/-- The action of a behavior. -/
def action : Program Action := do
  let token ← current
  if token.kind = .name then
    if token.value = "prefer" then
      let _ ← advance
      let value ← looseString
      return .prefer value
    else if token.value = "seek" then
      let _ ← advance
      let value ← looseString
      return .seek value
    else if token.value = "avoid" then
      let _ ← advance
      let value ← looseString
      return .avoid value
    else if token.value = "style" || token.value = "set_style" then
      let _ ← advance
      parenthesized do
        let key ← name "style"
        let _ ← expect .comma
        let value ← string
        return .setStyle key value
    else failAt token (.unknownWord .action token.value)
  else failAt token (.expectedForm .action token)

/-- A behavior rule. -/
def behavior : Program BehaviorRule := do
  let _ ← expect .when
  let condition ← condition
  let _ ← expect .arrow
  let action ← action
  return ⟨some condition, some action⟩

/-- The argument of a trigger that compares: after a greater sign or in parentheses. -/
def compared (value : Program α) : Program α := do
  if ← check .greater then
    let _ ← advance
    value
  else parenthesized value

/-- The trigger of an evolution rule. -/
def trigger : Program Trigger := do
  let token ← current
  if token.kind = .name then
    if token.value = "learns" then
      let _ ← advance
      let topic ← parenthesized (name "topic")
      return .learns topic
    else if token.value = "time_in" then
      let _ ← advance
      parenthesized do
        let domain ← name "domain"
        let _ ← expect .comma
        let periods ← count
        let unit ← timeUnit
        return .timeIn domain unit periods
    else if token.value = "interactions" then
      let _ ← advance
      let times ← compared count
      return .interactions times
    else if token.value = "feedback" then
      let _ ← advance
      let score ← compared number
      return .feedback score
    else
      let following ← peek 1
      if following.kind = .parenOpen then
        let _ ← advance
        let score ← parenthesized number
        note (.unknownTrigger token)
        return .feedback score
      else failAt token (.unknownWord .trigger token.value)
  else failAt token (.expectedForm .trigger token)

/-- An adjustment of a trait, from its name on. -/
def adjustment : Program Effect := do
  let called ← name "trait"
  let operator ← advance
  let delta ← number
  return .adjust called (if operator.kind = .minusAssign then delta.neg else delta)

/-- A new connection written as an arrow, from its source on. -/
def arrowEffect : Program Effect := do
  let source ← name "domain"
  let _ ← advance
  let target ← name "domain"
  let strength ← parenthesized number
  return .connect source target strength

/-- A behavior between braces, which is one level deeper. -/
def adoption : Program Effect := nested do
  let _ ← expect .braceOpen
  let rule ← behavior
  if ← check .semicolon then
    let _ ← advance
  let _ ← expect .braceClose
  return .adopt rule

/-- The effect of an evolution rule. -/
def effect : Program Effect := do
  let token ← current
  let following ← peek 1
  if isName token && (following.kind = .plusAssign || following.kind = .minusAssign) then
    adjustment
  else if isName token && following.kind = .arrow then arrowEffect
  else if token.kind = .name then
    if token.value = "unlock" then
      let _ ← advance
      let domain ← parenthesized (name "domain")
      return .unlock domain
    else if token.value = "connect" then
      let _ ← advance
      parenthesized do
        let source ← name "domain"
        let _ ← expect .comma
        let target ← name "domain"
        let _ ← expect .comma
        let strength ← number
        return .connect source target strength
    else if token.value = "new_behavior" then
      let _ ← advance
      adoption
    else failAt token (.unknownWord .effect token.value)
  else failAt token (.expectedForm .effect token)

/-- An evolution rule. -/
def evolutionRule : Program EvolutionRule := do
  let _ ← expect .if
  let trigger ← trigger
  let _ ← expect .then
  let effect ← effect
  return ⟨some trigger, some effect⟩

/-- The place of a section among the sections; zero is no section. -/
def sectionRank : Kind → Nat
  | .traits => 1
  | .knowledge => 2
  | .behaviors => 3
  | .evolution => 4
  | _ => 0

/-- The body of the section of this rank, added to what was read. -/
def sectionBody (rank : Nat) (read : Personality) : Program Personality :=
  match rank with
  | 1 => return { read with traits := ← entries "traits" false trait }
  | 2 => return { read with knowledge := ← entries "knowledge" true domain }
  | 3 => return { read with behaviors := ← entries "behaviors" false behavior }
  | _ => return { read with evolution := ← entries "evolution" false evolutionRule }

/-- There are four sections. -/
theorem sectionRank_le (kind : Kind) : sectionRank kind ≤ 4 := by
  cases kind <;> decide

/-- The turns of the loop over the sections after the one of rank `last`. The rank goes up
with every turn. -/
def sectionsFrom (last : Nat) (read : Personality) : Program Personality := do
  let token ← current
  let rank := sectionRank token.kind
  if rank = 0 then return read
  else if _back : rank ≤ last then failAt token (.sectionOrder token.kind)
  else
    let start ← position
    let _ ← advance
    let more ← sectionBody rank read
    mark (.turned .sections start (← position))
    sectionsFrom rank more
termination_by 4 - last
decreasing_by
  have bound := sectionRank_le token.kind
  omega

/-- What must follow the sections: the closing brace and the end of the input. -/
def ending (read : Personality) : Program Personality := do
  let token ← current
  if token.kind = .braceClose then
    let _ ← advance
    let following ← current
    if following.kind = .endOfInput then return read
    else failAt following (.trailing "personality" following)
  else failAt token (.expectedSection token)

/-- A whole document. -/
def document : Program Personality := do
  let token ← current
  if token.kind = .endOfInput then failAt token .emptyDocument
  else
    let _ ← expect .personality
    let called ← name "personality"
    let _ ← expect .braceOpen
    let read ← sectionsFrom 0 ⟨called, [], [], [], []⟩
    ending read

/-- A part that takes all the tokens. -/
def whole (what : Text) (m : Program α) : Program α := do
  let value ← m
  let token ← current
  if token.kind = .endOfInput then return value else failAt token (.trailing what token)

end Program

end Persona.Grammar
