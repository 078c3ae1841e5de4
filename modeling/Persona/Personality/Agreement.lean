import Persona.Personality

/-!
# Agreement of variants

Two variants agree when they were built alike and their parts agree; numbers
agree when they are numerically equal. So the two zeros agree and a NaN agrees
with nothing, not even itself: a rule that holds a NaN is never taken for a
repetition of another one. This is weaker than equality on the zeros and stronger
on NaN, and it is the comparison that analysis and simplification use.
-/

namespace Persona

/-- Two optional parts agree when both are missing or both are there and agree. -/
def agreeing {α : Type} (agree : α → α → Bool) : Option α → Option α → Bool
  | none, none => true
  | some a, some b => agree a b
  | _, _ => false

/-- Agreement of modifiers. -/
def Modifier.agrees : Modifier → Modifier → Bool
  | .decay r u, .decay s v => r.same s && u == v
  | .when c, .when d => c == d
  | .unless c, .unless d => c == d
  | .amplifies t x, .amplifies u y => t == u && x.same y
  | .transformsTo t x m, .transformsTo u y n => t == u && x.same y && m == n
  | _, _ => false

/-- Agreement of conditions. -/
def Condition.agrees : Condition → Condition → Bool
  | .traitAbove t x, .traitAbove u y => t == u && x.same y
  | a, b => a == b

/-- Agreement of behavior rules. -/
def BehaviorRule.agrees (a b : BehaviorRule) : Bool :=
  agreeing Condition.agrees a.condition b.condition && a.action == b.action

/-- Agreement of triggers. -/
def Trigger.agrees : Trigger → Trigger → Bool
  | .feedback x, .feedback y => x.same y
  | a, b => a == b

/-- Agreement of effects. -/
def Effect.agrees : Effect → Effect → Bool
  | .adjust t x, .adjust u y => t == u && x.same y
  | .connect s t x, .connect u v y => s == u && t == v && x.same y
  | .adopt r, .adopt q => r.agrees q
  | a, b => a == b

/-- Agreement of evolution rules. -/
def EvolutionRule.agrees (a b : EvolutionRule) : Bool :=
  agreeing Trigger.agrees a.trigger b.trigger && agreeing Effect.agrees a.effect b.effect

end Persona
