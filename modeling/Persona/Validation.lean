import Persona.Analysis
import Persona.Failure

/-!
# Validation

The gate before compiling. A personality with a missing part is only told which
parts are missing. Otherwise its name must not be empty, every strength must lie
between zero and one, domain names must differ, and the analysis must find no
problem; everything that fails is reported at once.
-/

namespace Persona

namespace Validation

/-- The places of a behavior at which a part is missing. -/
def missingInBehavior (place : Text) (r : BehaviorRule) : List Text :=
  (if r.condition.isNone then [place ++ " condition"] else []) ++
  if r.action.isNone then [place ++ " action"] else []

/-- The place of a modifier that is missing or has a missing part. -/
def missingInModifier (place : Text) : Option Modifier → List Text
  | none => [place]
  | some (.when none) => [place ++ " context"]
  | some (.unless none) => [place ++ " context"]
  | some _ => []

/-- The places of a trait at which a part is missing. -/
def missingInTrait (t : Trait) : List Text :=
  (t.modifiers.mapIdx fun i m =>
    missingInModifier ("trait " ++ t.name ++ " modifier " ++ Text.ofNat i) m).flatten

/-- The places of an evolution rule at which a part is missing. -/
def missingInEvolution (place : Text) (r : EvolutionRule) : List Text :=
  (if r.trigger.isNone then [place ++ " trigger"] else []) ++
  match r.effect with
  | none => [place ++ " effect"]
  | some (.adopt rule) => missingInBehavior (place ++ " new behavior") rule
  | some _ => []

/-- Every place at which a part is missing, in order. -/
def missing (p : Personality) : List Text :=
  p.traits.flatMap missingInTrait ++
  (p.behaviors.mapIdx fun i r => missingInBehavior ("behavior " ++ Text.ofNat i) r).flatten ++
  (p.evolution.mapIdx fun i r => missingInEvolution ("evolution " ++ Text.ofNat i) r).flatten

/-- A strength between zero and one, which a NaN is not. -/
def isStrength (x : Binary64) : Bool :=
  Binary64.zero.le x && x.le (Binary64.ofRatio false 1 1)

/-- The errors of a complete personality that are not found by analysis. -/
def ownErrors (p : Personality) : List CompileError :=
  (if p.name.isEmpty then [.emptyName] else []) ++
  ((p.traits.filter fun t => !isStrength t.strength).map fun t =>
    .invalidStrength t.name t.strength) ++
  (repetitions [] (p.knowledge.map Domain.name)).map .duplicateDomain

end Validation

open Validation in
/-- The analysis of a personality and everything that keeps it from being compiled. A
personality with missing parts is not analysed. -/
def Personality.validate (p : Personality) : Analysis × List CompileError :=
  let places := missing p
  if places.isEmpty then
    match Analysis.run p with
    | .ok analysis =>
      (analysis, ownErrors p ++ if analysis.isValid then [] else [.unsound analysis.problems])
    | .error part => (.empty, [.incomplete part.message])
  else (.empty, places.map .incomplete)

end Persona
