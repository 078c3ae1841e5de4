import Persona.Personality

/-!
# The numbers of a personality

Strengths, rates, factors, thresholds, scores and adjustments. Counts are integers
and are not among them.
-/

namespace Persona

/-- The number of a modifier, if it has one. -/
def Modifier.numbers : Modifier → List Binary64
  | .decay rate _ => [rate]
  | .when _ | .unless _ => []
  | .amplifies _ factor | .transformsTo _ factor _ => [factor]

/-- The numbers of a trait. -/
def Trait.numbers (t : Trait) : List Binary64 :=
  t.strength :: t.modifiers.flatMap fun m => m.toList.flatMap Modifier.numbers

/-- The numbers of a connection. -/
def Connection.numbers (c : Connection) : List Binary64 := c.strength :: c.rate.toList

/-- The number of a condition, if it has one. -/
def Condition.numbers : Condition → List Binary64
  | .tired | .motivated | .context _ | .timeRange _ _ => []
  | .traitAbove _ threshold => [threshold]

/-- The numbers of a behavior rule. -/
def BehaviorRule.numbers (r : BehaviorRule) : List Binary64 :=
  r.condition.toList.flatMap Condition.numbers

/-- The number of a trigger, if it has one. -/
def Trigger.numbers : Trigger → List Binary64
  | .learns _ | .timeIn _ _ _ | .interactions _ => []
  | .feedback score => [score]

/-- The numbers of an effect. -/
def Effect.numbers : Effect → List Binary64
  | .adjust _ delta => [delta]
  | .unlock _ => []
  | .connect _ _ strength => [strength]
  | .adopt rule => rule.numbers

/-- The numbers of an evolution rule. -/
def EvolutionRule.numbers (r : EvolutionRule) : List Binary64 :=
  r.trigger.toList.flatMap Trigger.numbers ++ r.effect.toList.flatMap Effect.numbers

/-- Every number of a personality. -/
def Personality.numbers (p : Personality) : List Binary64 :=
  p.traits.flatMap Trait.numbers ++ (p.connections.flatMap Connection.numbers ++
    (p.behaviors.flatMap BehaviorRule.numbers ++ p.evolution.flatMap EvolutionRule.numbers))

end Persona
