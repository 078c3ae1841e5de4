import Persona.Grammar.Entries

/-!
# Entries of a document

The parsers of traits, domains, behaviors and evolution rules. Words of the
language are recognised by where they stand: a trait may be called `tired` and
still be compared, because a comparison is looked for before the word.

Two forms are read generously. An unknown condition written like a call matches
the context of its name, and an unknown trigger with a number is taken for a
feedback score; both are noted.
-/

namespace Persona.Grammar

open Grammar.Parser

/-- A circumstance: a string, or one of four kinds and a string. -/
def context : Parser Context := do
  let token ← current
  if token.kind = .string then
    let _ ← advance
    return .topic token.value
  else
    let following ← peek 1
    if token.kind = .name && following.kind = .colon then
      let _ ← advance
      let _ ← advance
      let value ← string
      if token.value = "topic" then return .topic value
      else if token.value = "situation" then return .situation value
      else if token.value = "time" then return .timeOfDay value
      else if token.value = "mood" || token.value = "emotion" then return .mood value
      else failAt token (.unknownWord .context token.value)
    else failAt token (.expectedForm .context token)

/-- The rate and the unit of a decay. -/
def decay : Parser Modifier := parenthesized do
  let rate ← number
  let _ ← expect .divide
  let unit ← timeUnit
  return .decay rate unit

/-- The target and the factor of an amplification. -/
def amplification : Parser Modifier := parenthesized do
  let target ← name "trait"
  let _ ← expect .comma
  let factor ← number
  return .amplifies target factor

/-- The target, the factor and the count of a transformation. -/
def transformation : Parser Modifier := parenthesized do
  let target ← name "trait"
  let _ ← expect .comma
  let factor ← number
  let _ ← expect .comma
  let periods ← count
  return .transformsTo target factor periods

/-- A modifier of a trait. -/
def modifier : Parser Modifier := do
  let token ← current
  if token.kind = .when then
    let _ ← advance
    let inner ← parenthesized context
    return .when inner
  else if token.kind = .name then
    if token.value = "decay" then
      let _ ← advance
      decay
    else if token.value = "unless" then
      let _ ← advance
      let inner ← parenthesized context
      return .unless inner
    else if token.value = "amplifies" then
      let _ ← advance
      amplification
    else if token.value = "transforms_to" then
      let _ ← advance
      transformation
    else failAt token (.unknownWord .modifier token.value)
  else failAt token (.expectedForm .modifier token)

/-- One modifier and those after further commas. Each takes at least one token, so `fuel`
above the number of tokens is never used up. -/
def modifiersWithin : (fuel : Nat) → Parser (List Modifier)
  | 0 => fail (.expectedForm .modifier)
  | fuel + 1 => do
    let first ← modifier
    if ← check .comma then
      let _ ← advance
      let others ← modifiersWithin fuel
      return first :: others
    else return [first]

/-- Modifiers separated by commas; there is at least one. -/
def modifiers : Parser (List Modifier) := fun setting tokens =>
  modifiersWithin (tokens.length + 1) setting tokens

/-- A trait: its name, its strength and perhaps modifiers. -/
def trait : Parser Trait := do
  let called ← name "trait"
  let _ ← expect .colon
  let strength ← number
  if ← check .with then
    let _ ← advance
    let all ← modifiers
    return ⟨called, strength, all.map some⟩
  else return ⟨called, strength, []⟩

/-- An entry of a domain: a topic, or the connections that one arrow draws. -/
inductive DomainEntry where
  | topic (value : Topic)
  | connections (values : List Connection)
deriving DecidableEq, Repr

/-- What an arrow points to, from `source`; a double arrow draws the way back as well. -/
def connection (source : Text) : Parser DomainEntry := do
  let arrow ← advance
  let target ← name "domain"
  let _ ← expect .parenOpen
  let strength ← number
  let rate ← (do
    if ← check .comma then
      let _ ← advance
      let value ← number
      return some value
    else return none : Parser (Option Binary64))
  let _ ← expect .parenClose
  let forth : Connection := ⟨source, target, strength, rate⟩
  let back : Connection := ⟨target, source, strength, rate⟩
  return .connections (if arrow.kind = .biArrow then [forth, back] else [forth])

/-- One of the two arrows. -/
def isArrow (token : Token) : Bool := token.kind = .arrow || token.kind = .biArrow

/-- An entry of the domain called `owner`, from which an arrow without a name leaves. -/
def domainEntry (owner : Text) : Parser DomainEntry := do
  let token ← current
  if isArrow token then connection owner
  else
    let called ← name "topic"
    let following ← current
    if following.kind = .colon then
      let _ ← advance
      let level ← level
      return .topic ⟨called, level⟩
    else if isArrow following then connection called
    else failAt token (.expectedEntry called following)

/-- The topics among the entries of a domain. -/
def topicsOf (all : List DomainEntry) : List Topic :=
  all.filterMap fun
    | .topic value => some value
    | .connections _ => none

/-- The connections among the entries of a domain. -/
def connectionsOf (all : List DomainEntry) : List Connection :=
  all.flatMap fun
    | .topic _ => []
    | .connections values => values

/-- A knowledge domain. -/
def domain : Parser Domain := do
  let _ ← expect .domain
  let called ← parenthesized (name "domain")
  let all ← entries ("domain " ++ called) false (domainEntry called)
  return ⟨called, topicsOf all, connectionsOf all⟩

/-- A condition that is a word, called like a function when `call` holds. -/
def wordCondition (token : Token) (call : Bool) : Parser Condition := do
  if token.value = "tired" || token.value = "motivated" then
    let _ ← advance
    if call then
      let _ ← advance
      let _ ← expect .parenClose
    return if token.value = "tired" then .tired else .motivated
  else if token.value = "context" && call then
    let _ ← advance
    let value ← parenthesized string
    return .context value
  else if token.value = "time" && call then
    let _ ← advance
    let _ ← advance
    let start ← string
    let _ ← expect .comma
    let stop ← string
    let _ ← expect .parenClose
    return .timeRange start stop
  else if call then
    let _ ← advance
    let _ ← advance
    if ← check .string then
      let _ ← advance
    let _ ← expect .parenClose
    note (.unknownCondition token)
    return .context token.value
  else
    let _ ← advance
    return .context token.value

/-- The condition of a behavior. -/
def condition : Parser Condition := do
  let token ← current
  let following ← peek 1
  if isName token && following.kind = .greater then
    let called ← name "trait"
    let _ ← advance
    let threshold ← number
    return .traitAbove called threshold
  else if token.kind = .string then
    let _ ← advance
    return .context token.value
  else if token.kind = .name then wordCondition token (following.kind = .parenOpen)
  else failAt token (.expectedForm .condition token)

/-- A string, with or without parentheses around it. -/
def looseString : Parser Text := do
  if ← check .parenOpen then parenthesized string else string

/-- The action of a behavior. -/
def action : Parser Action := do
  let token ← current
  if token.kind = .name then
    if token.value = "prefer" then
      let _ ← advance
      let value ← looseString
      return .prefer value
    else if token.value = "seek" then
      let _ ← advance
      let value ← looseString
      return .seek value
    else if token.value = "avoid" then
      let _ ← advance
      let value ← looseString
      return .avoid value
    else if token.value = "style" || token.value = "set_style" then
      let _ ← advance
      parenthesized do
        let key ← name "style"
        let _ ← expect .comma
        let value ← string
        return .setStyle key value
    else failAt token (.unknownWord .action token.value)
  else failAt token (.expectedForm .action token)

/-- A behavior rule. -/
def behavior : Parser BehaviorRule := do
  let _ ← expect .when
  let condition ← condition
  let _ ← expect .arrow
  let action ← action
  return ⟨some condition, some action⟩

/-- The argument of a trigger that compares: after a greater sign or in parentheses. -/
def compared {α : Type} (value : Parser α) : Parser α := do
  if ← check .greater then
    let _ ← advance
    value
  else parenthesized value

/-- The trigger of an evolution rule. -/
def trigger : Parser Trigger := do
  let token ← current
  if token.kind = .name then
    if token.value = "learns" then
      let _ ← advance
      let topic ← parenthesized (name "topic")
      return .learns topic
    else if token.value = "time_in" then
      let _ ← advance
      parenthesized do
        let domain ← name "domain"
        let _ ← expect .comma
        let periods ← count
        let unit ← timeUnit
        return .timeIn domain unit periods
    else if token.value = "interactions" then
      let _ ← advance
      let times ← compared count
      return .interactions times
    else if token.value = "feedback" then
      let _ ← advance
      let score ← compared number
      return .feedback score
    else
      let following ← peek 1
      if following.kind = .parenOpen then
        let _ ← advance
        let score ← parenthesized number
        note (.unknownTrigger token)
        return .feedback score
      else failAt token (.unknownWord .trigger token.value)
  else failAt token (.expectedForm .trigger token)

/-- An adjustment of a trait, from its name on. -/
def adjustment : Parser Effect := do
  let called ← name "trait"
  let operator ← advance
  let delta ← number
  return .adjust called (if operator.kind = .minusAssign then delta.neg else delta)

/-- A new connection written as an arrow, from its source on. -/
def arrowEffect : Parser Effect := do
  let source ← name "domain"
  let _ ← advance
  let target ← name "domain"
  let strength ← parenthesized number
  return .connect source target strength

/-- A behavior between braces, which is one level deeper. -/
def adoption : Parser Effect := nested do
  let _ ← expect .braceOpen
  let rule ← behavior
  if ← check .semicolon then
    let _ ← advance
  let _ ← expect .braceClose
  return .adopt rule

/-- The effect of an evolution rule. -/
def effect : Parser Effect := do
  let token ← current
  let following ← peek 1
  if isName token && (following.kind = .plusAssign || following.kind = .minusAssign) then
    adjustment
  else if isName token && following.kind = .arrow then arrowEffect
  else if token.kind = .name then
    if token.value = "unlock" then
      let _ ← advance
      let domain ← parenthesized (name "domain")
      return .unlock domain
    else if token.value = "connect" then
      let _ ← advance
      parenthesized do
        let source ← name "domain"
        let _ ← expect .comma
        let target ← name "domain"
        let _ ← expect .comma
        let strength ← number
        return .connect source target strength
    else if token.value = "new_behavior" then
      let _ ← advance
      adoption
    else failAt token (.unknownWord .effect token.value)
  else failAt token (.expectedForm .effect token)

/-- An evolution rule. -/
def evolutionRule : Parser EvolutionRule := do
  let _ ← expect .if
  let trigger ← trigger
  let _ ← expect .then
  let effect ← effect
  return ⟨some trigger, some effect⟩

end Persona.Grammar
