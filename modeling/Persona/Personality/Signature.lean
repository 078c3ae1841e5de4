import Persona.Personality
import Persona.Number.Layout

/-!
# Signatures

A signature shows a variant as a constructor with its arguments, such as
`Learns(x)`. Diagnostics use it as a short name of the variant. Texts stand in it
bare, without quotes, and a missing part is shown by a fixed mark.
-/

namespace Persona

/-- The mark of a missing part. -/
def missingSignature : Text := "<nil>"

/-- A constructor with its arguments. -/
def application (constructor : Text) (arguments : List Text) : Text :=
  constructor ++ "(" ++ Text.join ", " arguments ++ ")"

/-- The signature of an optional part. -/
def optionalSignature {α : Type} (signature : α → Text) : Option α → Text
  | some x => signature x
  | none => missingSignature

/-- The signature of a circumstance. -/
def Context.signature : Context → Text
  | .topic value => application "Topic" [value]
  | .situation value => application "Situation" [value]
  | .timeOfDay value => application "TimeOfDay" [value]
  | .mood value => application "EmotionalState" [value]

/-- The signature of a modifier. -/
def Modifier.signature : Modifier → Text
  | .decay rate unit => application "Decay" [rate.text, unit.text]
  | .when context => application "When" [optionalSignature Context.signature context]
  | .unless context => application "Unless" [optionalSignature Context.signature context]
  | .amplifies target factor => application "Amplifies" [target, factor.text]
  | .transformsTo target factor count =>
    application "TransformsTo" [target, factor.text, Text.ofInt count]

/-- The signature of a condition. -/
def Condition.signature : Condition → Text
  | .tired => "Tired"
  | .motivated => "Motivated"
  | .context value => application "ContextMatch" [value]
  | .traitAbove trait threshold => application "TraitAbove" [trait, threshold.text]
  | .timeRange start stop => application "TimeRange" [start, stop]

/-- The signature of an action. -/
def Action.signature : Action → Text
  | .prefer value => application "Prefer" [value]
  | .seek value => application "Seek" [value]
  | .avoid value => application "Avoid" [value]
  | .setStyle key value => application "SetStyle" [key, value]

/-- The signature of a behavior rule. -/
def BehaviorRule.signature (r : BehaviorRule) : Text :=
  optionalSignature Condition.signature r.condition ++ " -> " ++
    optionalSignature Action.signature r.action

/-- The signature of a trigger. -/
def Trigger.signature : Trigger → Text
  | .learns topic => application "Learns" [topic]
  | .timeIn domain unit count =>
    application "TimeInDomain" [domain, unit.text, Text.ofInt count]
  | .interactions count => application "InteractionCount" [Text.ofInt count]
  | .feedback score => application "FeedbackScore" [score.text]

/-- The signature of an effect. -/
def Effect.signature : Effect → Text
  | .adjust trait delta => application "TraitAdjust" [trait, delta.text]
  | .unlock domain => application "UnlockDomain" [domain]
  | .connect source target strength =>
    application "AddConnection" [source, target, strength.text]
  | .adopt rule => application "NewBehavior" [rule.signature]

/-- The signature of an evolution rule. -/
def EvolutionRule.signature (r : EvolutionRule) : Text :=
  optionalSignature Trigger.signature r.trigger ++ " => " ++
    optionalSignature Effect.signature r.effect

end Persona
