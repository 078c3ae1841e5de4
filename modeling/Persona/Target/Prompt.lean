import Persona.Failure
import Persona.Text.Blank

/-!
# The prompt target

A system prompt in plain English: who the model is, a section of bullets for
every list that is not empty, and the context in which it works. A context that
is blank is replaced by a general one.
-/

namespace Persona.Prompt

/-- The context of a prompt that was given none. -/
def defaultContext : Text :=
  "Adapt your responses to the conversation while staying consistent with this personality."

/-- A fraction of ten as a number. -/
def tenths (n : Nat) : Binary64 := Decimal.toBinary64 false ⟨n, -1⟩

/-- The name of the band a strength falls in. -/
def tier (strength : Binary64) : Text :=
  if (tenths 8).le strength then "Very high"
  else if (tenths 6).le strength then "High"
  else if (tenths 4).le strength then "Moderate"
  else "Low"

/-- A circumstance in words. -/
def contextPhrase : Context → Text
  | .topic value => value
  | .situation value => "in a " ++ value ++ " situation"
  | .timeOfDay value => "it is " ++ value
  | .mood value => "feeling " ++ value

/-- An optional circumstance in words. -/
def contextClause : Option Context → Except Missing Text :=
  written .prompt .context fun c => .ok (contextPhrase c)

/-- A modifier in words. -/
def modifierClause : Option Modifier → Except Missing Text :=
  written .prompt .modifier fun
    | .when context => do
      let inner ← contextClause context
      return "enhanced when " ++ inner
    | .unless context => do
      let inner ← contextClause context
      return "suppressed unless " ++ inner
    | .amplifies target factor => .ok ("amplifies " ++ target ++ " by " ++ factor.text ++ "x")
    | .decay rate unit => .ok ("naturally decays " ++ rate.text ++ " per " ++ unit.text)
    | .transformsTo target _ _ => .ok ("can evolve into " ++ target)

/-- A condition in words. -/
def conditionPhrase : Option Condition → Except Missing Text :=
  written .prompt .condition fun condition => .ok <| match condition with
    | .tired => "When you are tired"
    | .motivated => "When you are motivated"
    | .context value => "When the context involves " ++ value.quoted
    | .traitAbove trait threshold => "When your " ++ trait ++ " is above " ++ threshold.text
    | .timeRange start stop => "Between " ++ start ++ " and " ++ stop

/-- An action in words. -/
def actionPhrase : Option Action → Except Missing Text :=
  written .prompt .action fun action => .ok <| match action with
    | .prefer value => "prefer " ++ value
    | .seek value => "seek " ++ value
    | .avoid value => "avoid " ++ value
    | .setStyle key value => "set your " ++ key ++ " to " ++ value

/-- A behavior as a clause, without the full stop. -/
def behaviorClause (r : BehaviorRule) : Except Missing Text := do
  let condition ← conditionPhrase r.condition
  let action ← actionPhrase r.action
  return condition ++ ", " ++ action

/-- A number of things. -/
def plural (count : Int) (thing : Text) : Text :=
  if count = 1 then "1 " ++ thing else Text.ofInt count ++ " " ++ thing ++ "s"

/-- A trigger in words. -/
def triggerPhrase : Option Trigger → Except Missing Text :=
  written .prompt .trigger fun trigger => .ok <| match trigger with
    | .learns topic => "After learning about " ++ topic
    | .timeIn domain unit count => "After " ++ plural count unit.text ++ " in " ++ domain
    | .interactions count => "After " ++ plural count "interaction"
    | .feedback score => "When feedback reaches " ++ score.text

/-- A clause with a small first letter. -/
def uncapitalized : Text → Text
  | [] => []
  | first :: rest => Text.lowerByte first :: rest

/-- An effect in words. -/
def effectPhrase : Option Effect → Except Missing Text :=
  written .prompt .effect fun
    | .adjust trait delta =>
      if delta.lt .zero then .ok ("your " ++ trait ++ " will decrease by " ++ delta.neg.text)
      else .ok ("your " ++ trait ++ " will increase by " ++ delta.text)
    | .unlock domain => .ok ("you will unlock knowledge of " ++ domain)
    | .connect source target strength =>
      .ok ("you will connect " ++ source ++ " to " ++ target ++ " (strength " ++
        strength.text ++ ")")
    | .adopt rule => do
      let clause ← behaviorClause rule
      return "you will adopt a new behavior: " ++ uncapitalized clause

/-- The bullet of a trait. -/
def traitLine (t : Trait) : Except Missing Text := do
  let clauses ← t.modifiers.mapM modifierClause
  let notes : Text := clauses.flatMap fun clause =>
    Text.ofString " (" ++ clause ++ Text.ofString ")"
  return "- " ++ t.name ++ ": " ++ tier t.strength ++ " (" ++ t.strength.text ++ ")" ++ notes

/-- The note on a connection of the domain called `owner`: the other end of it. -/
def connectionNote (owner : Text) (c : Connection) : Text :=
  let other := if c.target = owner then c.source else c.target
  " [connects to " ++ other ++ " (strength " ++ c.strength.text ++ ")]"

/-- The bullet of a domain. -/
def domainLine (d : Domain) : Text :=
  let topics : Text :=
    if d.topics.isEmpty then "general familiarity"
    else Text.join ", " (d.topics.map fun t => t.name ++ " (" ++ t.level.text ++ ")")
  "- " ++ d.name ++ ": " ++ topics ++ d.connections.flatMap (connectionNote d.name)

/-- The bullet of a behavior. -/
def behaviorLine (r : BehaviorRule) : Except Missing Text := do
  let clause ← behaviorClause r
  return "- " ++ clause ++ "."

/-- The bullet of an evolution rule. -/
def evolutionLine (r : EvolutionRule) : Except Missing Text := do
  let trigger ← triggerPhrase r.trigger
  let effect ← effectPhrase r.effect
  return "- " ++ trigger ++ ", " ++ effect ++ "."

/-- A section: its heading and one bullet a line; without bullets there is none. -/
def bullets (heading : Text) (lines : List Text) : List Text :=
  if lines.isEmpty then [] else [Text.join [10] (("## " ++ heading) :: lines)]

/-- The context section's text. -/
def contextText (hint : Text) : Text :=
  let trimmed := hint.trim
  if trimmed.isEmpty then defaultContext else trimmed

/-- The prompt for a personality. -/
def emit (p : Personality) (hint : Text) : Except Missing Text := do
  let head := "You are " ++ p.name ++ ". Embody the following personality in every response."
  let traits ← p.traits.mapM traitLine
  let behaviors ← p.behaviors.mapM behaviorLine
  let evolution ← p.evolution.mapM evolutionLine
  let sections := [head] ++ bullets "Personality Traits" traits ++
    bullets "Knowledge Areas" (p.knowledge.map domainLine) ++
    bullets "Behavioral Guidelines" behaviors ++ bullets "Evolution Awareness" evolution ++
    [("## Context\n" : Text) ++ contextText hint]
  return Text.join "\n\n" sections ++ "\n"

end Persona.Prompt
