import Mathlib.Logic.Relation
import Mathlib.Tactic.MkIffOfInductiveProp
import Persona.Analysis.Problem
import Persona.Personality.Agreement
import Persona.Proofs.Personality.Numbers

/-!
# Sound personalities

What it means for a personality to be fit for compiling, said without any of the
checks: which parts have to be there, which names have to be declared or different,
and which statements must not contradict each other.
-/

namespace Persona

open Relation (TransGen)

/-- A modifier with its circumstance, if it needs one. -/
def Modifier.Complete : Modifier → Prop
  | .when context | .unless context => context.isSome = true
  | .decay _ _ | .amplifies _ _ | .transformsTo _ _ _ => True

/-- A behavior rule with both its parts. -/
def BehaviorRule.Complete (r : BehaviorRule) : Prop := r.condition.isSome = true ∧
    r.action.isSome = true

/-- An effect with all its parts. -/
def Effect.Complete : Effect → Prop
  | .adopt rule => rule.Complete
  | .adjust _ _ | .unlock _ | .connect _ _ _ => True

namespace Personality

/-- Nothing is missing. -/
structure Complete (p : Personality) : Prop where
  modifiers : ∀ t ∈ p.traits, ∀ m ∈ t.modifiers, ∃ value, m = some value ∧ value.Complete
  behaviors : ∀ r ∈ p.behaviors, r.Complete
  evolution : ∀ r ∈ p.evolution, r.trigger.isSome = true ∧ ∃ value, r.effect = some value ∧
    value.Complete

/-- Some trait has this name. -/
def DeclaresTrait (p : Personality) (name : Text) : Prop := ∃ t ∈ p.traits, t.name = name

/-- Some domain has this name. -/
def DeclaresDomain (p : Personality) (name : Text) : Prop := ∃ d ∈ p.knowledge, d.name = name

/-- A connection leads from the one name to the other. -/
def Connects (p : Personality) (a b : Text) : Prop := ∃ c ∈ p.connections, c.source = a ∧
    c.target = b

end Personality

/-- A rule that depends on no trait but declared ones. -/
def BehaviorRule.Reachable (p : Personality) (r : BehaviorRule) : Prop :=
  ∀ trait threshold, r.condition = some (.traitAbove trait threshold) → p.DeclaresTrait trait

/-- Every domain that the rule mentions is declared. -/
@[mk_iff] structure EvolutionRule.Resolved (p : Personality) (r : EvolutionRule) : Prop where
  timeIn : ∀ domain unit count, r.trigger = some (.timeIn domain unit count) →
    p.DeclaresDomain domain
  unlock : ∀ domain, r.effect = some (.unlock domain) → p.DeclaresDomain domain
  connect : ∀ source target strength, r.effect = some (.connect source target strength) →
    p.DeclaresDomain source ∧ p.DeclaresDomain target

/-- A number between zero and one. -/
def Binary64.InUnit (x : Binary64) : Prop :=
  Binary64.zero.le x = true ∧ x.le (Binary64.ofRatio false 1 1) = true

/-- An adjustment that is small enough and leaves its trait between zero and one. -/
@[mk_iff] structure Personality.Adjustable (p : Personality) (trait : Text)
    (delta : Binary64) : Prop where
  small : delta.abs.le dangerousDelta = true
  within : ∀ t ∈ p.traits, t.name = trait → (t.strength.add delta).InUnit

/-- A personality that is fit for compiling. -/
structure Personality.Sound (p : Personality) : Prop where
  complete : p.Complete
  named : p.name ≠ []
  strengths : ∀ t ∈ p.traits, t.strength.InUnit
  domainsDistinct : (p.knowledge.map Domain.name).Nodup
  traitsDistinct : (p.traits.map Trait.name).Nodup
  /-- No name leads back to itself, not even directly. -/
  acyclic : ∀ name, ¬ TransGen p.Connects name name
  /-- No circumstance both enables and suppresses a trait. -/
  unopposed : ∀ t ∈ p.traits, ∀ context,
    ¬ (some (.when context) ∈ t.modifiers ∧ some (.unless context) ∈ t.modifiers)
  /-- A trait does not decay at two rates in one unit. -/
  decays : ∀ t ∈ p.traits, ∀ unit r s, some (.decay r unit) ∈ t.modifiers →
    some (.decay s unit) ∈ t.modifiers →
    r.same s = true
  /-- Rules with equal triggers have equal effects. -/
  determined : ∀ a ∈ p.evolution, ∀ b ∈ p.evolution,
    agreeing Trigger.agrees a.trigger b.trigger = true →
    agreeing Effect.agrees a.effect b.effect = true
  behaviorsReachable : ∀ r ∈ p.behaviors, r.Reachable p
  adoptedReachable : ∀ r ∈ p.evolution, ∀ rule, r.effect = some (.adopt rule) →
    rule.Reachable p
  connectionsResolved : ∀ c ∈ p.connections, p.DeclaresDomain c.source ∧
    p.DeclaresDomain c.target
  rulesResolved : ∀ r ∈ p.evolution, r.Resolved p
  /-- What one behavior avoids no other prefers or seeks. -/
  consistent : ∀ a ∈ p.behaviors, ∀ b ∈ p.behaviors, ∀ value, b.action = some (.avoid value) →
    a.action ≠ some (.prefer value) ∧ a.action ≠ some (.seek value)
  /-- A style is set to one value only. -/
  styles : ∀ a ∈ p.behaviors, ∀ b ∈ p.behaviors, ∀ key v w, a.action = some (.setStyle key v) →
    b.action = some (.setStyle key w) → v = w
  adjustable : ∀ r ∈ p.evolution, ∀ trait delta, r.effect = some (.adjust trait delta) →
    p.Adjustable trait delta

end Persona
