import Persona.Personality
import Persona.Number.Layout
import Persona.Text.Character
import Persona.Text.Letter
import Persona.Text.Digit
import Persona.Token

/-!
# Writing a personality

The canonical document of a personality: one entry a line, sections in their
fixed order, empty sections left out. A name is written bare when it could be
read as a name, and between quotes otherwise; strings have no escapes, so a text
with a quote or a line feed in it has no written form that reads back.

A missing variant cannot be written. The printers stop at the first one, in the
order in which the document would show it.
-/

namespace Persona

/-- The kinds of part that may be missing. -/
inductive Part where
  | modifier | context | condition | action | trigger | effect
deriving DecidableEq, Repr

/-- Who was writing when a missing part was met. -/
inductive Writer where
  | document | prompt
deriving DecidableEq, Repr

/-- A part was missing where it had to be written. -/
structure Missing where
  writer : Writer
  part : Part
deriving DecidableEq, Repr

/-- The word for a part. -/
def Part.text : Part → Text
  | .modifier => "modifier"
  | .context => "context"
  | .condition => "condition"
  | .action => "action"
  | .trigger => "trigger"
  | .effect => "effect"

/-- The wording of a missing part. -/
def Missing.message (m : Missing) : Text :=
  let layer : Text := match m.writer with
    | .document => "types"
    | .prompt => "compiler"
  layer ++ ": unhandled " ++ m.part.text ++ " <nil>"

/-- Write an optional part, or report that it is missing. -/
def written {α : Type} (writer : Writer) (part : Part) (write : α → Except Missing Text) :
    Option α → Except Missing Text
  | some x => write x
  | none => .error ⟨writer, part⟩

namespace Text

/-- A text between the quotes of the document language, which has no escapes. -/
def inQuotes (text : Text) : Text := "\"" ++ text ++ "\""

/-- A text that reads as one word: a letter, then letters, digits and underscores. -/
def isWord (text : Text) : Bool :=
  match text.characters with
  | [] => false
  | first :: rest =>
    Character.isLetter first.code &&
      rest.all fun r => Character.isLetter r.code || Character.isDecimalDigit r.code ||
        r.code = 95

/-- A name as a document writes it: bare when it is a word and no keyword. -/
def asName (text : Text) : Text :=
  if text.isWord && (Kind.ofWord? text).isNone then text else text.inQuotes

end Text

/-- The argument of a circumstance; a topic is written bare. -/
def Context.write : Context → Text
  | .topic value => value.inQuotes
  | .situation value => "situation:" ++ value.inQuotes
  | .timeOfDay value => "time:" ++ value.inQuotes
  | .mood value => "mood:" ++ value.inQuotes

/-- A modifier, such as `decay(0.1/month)`. -/
def Modifier.write : Modifier → Except Missing Text
  | .decay rate unit => .ok ("decay(" ++ rate.text ++ "/" ++ unit.text ++ ")")
  | .when context => do
    let inner ← written .document .context (fun c => .ok c.write) context
    return "when(" ++ inner ++ ")"
  | .unless context => do
    let inner ← written .document .context (fun c => .ok c.write) context
    return "unless(" ++ inner ++ ")"
  | .amplifies target factor =>
    .ok ("amplifies(" ++ target.asName ++ ", " ++ factor.text ++ ")")
  | .transformsTo target factor count =>
    .ok ("transforms_to(" ++ target.asName ++ ", " ++ factor.text ++ ", " ++
      Text.ofInt count ++ ")")

/-- A condition, such as `curiosity > 0.5`. -/
def Condition.write : Condition → Text
  | .tired => "tired"
  | .motivated => "motivated"
  | .context value => "context(" ++ value.inQuotes ++ ")"
  | .traitAbove trait threshold => trait.asName ++ " > " ++ threshold.text
  | .timeRange start stop => "time(" ++ start.inQuotes ++ ", " ++ stop.inQuotes ++ ")"

/-- An action, such as `seek "novelty"`. -/
def Action.write : Action → Text
  | .prefer value => "prefer " ++ value.inQuotes
  | .seek value => "seek " ++ value.inQuotes
  | .avoid value => "avoid " ++ value.inQuotes
  | .setStyle key value => "style(" ++ key.asName ++ ", " ++ value.inQuotes ++ ")"

/-- An optional modifier. -/
def writeModifier : Option Modifier → Except Missing Text :=
  written .document .modifier Modifier.write

/-- An optional condition. -/
def writeCondition : Option Condition → Except Missing Text :=
  written .document .condition fun c => .ok c.write

/-- An optional action. -/
def writeAction : Option Action → Except Missing Text :=
  written .document .action fun a => .ok a.write

/-- A behavior rule. -/
def BehaviorRule.write (r : BehaviorRule) : Except Missing Text := do
  let condition ← writeCondition r.condition
  let action ← writeAction r.action
  return "when " ++ condition ++ " -> " ++ action

/-- A trigger, such as `interactions(100)`. -/
def Trigger.write : Trigger → Text
  | .learns topic => "learns(" ++ topic.inQuotes ++ ")"
  | .timeIn domain unit count =>
    "time_in(" ++ domain.asName ++ ", " ++ Text.ofInt count ++ " " ++ unit.text ++ "s)"
  | .interactions count => "interactions(" ++ Text.ofInt count ++ ")"
  | .feedback score => "feedback(" ++ score.text ++ ")"

/-- An effect, such as `unlock(physics)`. A negative adjustment is written as a
subtraction. -/
def Effect.write : Effect → Except Missing Text
  | .adjust trait delta =>
    if delta.lt .zero then .ok (trait.asName ++ " -= " ++ delta.neg.text)
    else .ok (trait.asName ++ " += " ++ delta.text)
  | .unlock domain => .ok ("unlock(" ++ domain.asName ++ ")")
  | .connect source target strength =>
    .ok ("connect(" ++ source.asName ++ ", " ++ target.asName ++ ", " ++ strength.text ++ ")")
  | .adopt rule => do
    let inner ← rule.write
    return "new_behavior \x7b " ++ inner ++ " \x7d"

/-- An optional trigger. -/
def writeTrigger : Option Trigger → Except Missing Text :=
  written .document .trigger fun t => .ok t.write

/-- An optional effect. -/
def writeEffect : Option Effect → Except Missing Text :=
  written .document .effect Effect.write

/-- An evolution rule. -/
def EvolutionRule.write (r : EvolutionRule) : Except Missing Text := do
  let trigger ← writeTrigger r.trigger
  let effect ← writeEffect r.effect
  return "if " ++ trigger ++ " then " ++ effect

/-- A connection as an entry of the domain called `owner`; an edge that leaves the owner
does not repeat its name. -/
def Connection.write (owner : Text) (c : Connection) : Text :=
  let rate : Text := match c.rate with
    | some r => ", " ++ r.text
    | none => []
  let head : Text := if c.source = owner then [] else c.source.asName ++ " "
  head ++ "-> " ++ c.target.asName ++ "(" ++ c.strength.text ++ rate ++ ")"

/-- A topic entry. -/
def Topic.write (t : Topic) : Text :=
  t.name.asName ++ ": " ++ t.level.text

/-- A trait entry. -/
def Trait.write (t : Trait) : Except Missing Text := do
  let head := t.name.asName ++ ": " ++ t.strength.text
  let modifiers ← t.modifiers.mapM writeModifier
  return if modifiers.isEmpty then head else head ++ " with " ++ Text.join ", " modifiers

/-- The entries of a domain: its topics, then its connections. -/
def Domain.entries (d : Domain) : List Text :=
  d.topics.map Topic.write ++ d.connections.map (Connection.write d.name)

/-- A domain block. -/
def Domain.write (d : Domain) : Text :=
  let head := "    domain(" ++ d.name.asName ++ ") \x7b"
  if d.entries.isEmpty then head ++ "\x7d\n"
  else head ++ "\n      " ++ Text.join ";\n      " d.entries ++ "\n    \x7d\n"

/-- A section with one entry a line; without entries there is no section. -/
def writeSection (name : Text) (entries : List Text) : Text :=
  if entries.isEmpty then []
  else "  " ++ name ++ " \x7b\n    " ++ Text.join ";\n    " entries ++ "\n  \x7d\n"

/-- The canonical document of a personality. -/
def Personality.write (p : Personality) : Except Missing Text := do
  let traits ← p.traits.mapM Trait.write
  let knowledge : Text :=
    if p.knowledge.isEmpty then []
    else "  knowledge \x7b\n" ++ p.knowledge.flatMap Domain.write ++ "  \x7d\n"
  let behaviors ← p.behaviors.mapM BehaviorRule.write
  let evolution ← p.evolution.mapM EvolutionRule.write
  return "personality " ++ p.name.inQuotes ++ " \x7b\n" ++ writeSection "traits" traits ++
    knowledge ++
    writeSection "behaviors" behaviors ++ writeSection "evolution" evolution ++ "\x7d\n"

end Persona
