import Persona.Personality.Agreement
import Persona.Table.Markdown
import Persona.Text.Blank
import Persona.Text.Lower
import Persona.Text.Quoted

/-!
# Simplification

Five passes look over a personality. Three change it: idle modifiers are folded
away, dead evolution rules are dropped, and evolution rules are put in the order
in which they would fire. Two only count: traits worth caching and modifiers that
occur more than once. Every pass reports what it did in the statistics.

The name, the knowledge, the behaviors and the strengths of traits never change.
-/

namespace Persona

namespace Simplify

/-- How much simplification is asked for. -/
inductive Degree where
  | none | basic | aggressive
deriving DecidableEq, Repr

namespace Degree

/-- The name of a degree. -/
def text : Degree → Text
  | .none => "none"
  | .basic => "basic"
  | .aggressive => "aggressive"

/-- All degrees; the position of a degree is its code. -/
def all : List Degree := [.none, .basic, .aggressive]

/-- The name of the degree with a given code; codes past the last one are unknown. -/
def textOfCode (code : Nat) : Text :=
  match all[code]? with
  | some degree => degree.text
  | Option.none => "(unknown)"

/-- The degree a person named; naming none at all asks for none. -/
def ofName? (name : Text) : Option Degree :=
  let word := name.trim.lowered
  if word.isEmpty then some .none else all.find? fun degree => degree.text == word

/-- The wording for a name that is no degree. -/
def unknownMessage (name : Text) : Text :=
  "unknown optimization level " ++ name.quoted ++ " (want none, basic or aggressive)"

end Degree

/-- What the passes did. -/
structure Stats where
  degree : Degree
  folded : Nat := 0
  dead : Nat := 0
  hints : List Text := []
  common : Nat := 0
  reordered : Nat := 0
deriving DecidableEq, Repr

namespace Stats

/-- Some pass changed the personality. -/
def changed (s : Stats) : Bool := 0 < s.folded || 0 < s.dead || 0 < s.reordered

/-- A row of the report. -/
def row (name : Text) (count : Nat) (notes : Text) : List Cell :=
  [.text name, .number count, .text notes]

/-- The statistics as a table; the last two passes belong to the highest degree. -/
def report (s : Stats) : Table where
  title := "Optimization (" ++ s.degree.text ++ ")"
  header := some ["Pass", "Count", "Notes"]
  rows :=
    [row "modifiers folded" s.folded [], row "dead rules removed" s.dead [],
     row "cached calculations" s.hints.length (Text.join ", " s.hints)] ++
    if s.degree = .aggressive then
      [row "common subexpressions" s.common [], row "rules reordered" s.reordered []]
    else []
  rightAligned := [2]

end Stats

/-- One look over a personality. -/
abbrev Pass : Type := Personality → Stats → Personality × Stats

/-- A modifier without effect: a decay that does not lower the strength, or an
amplification by exactly one. -/
def isIdle : Option Modifier → Bool
  | some (.decay rate _) => rate.le .zero
  | some (.amplifies _ factor) => factor.same (Binary64.ofRatio false 1 1)
  | _ => false

/-- A trait without its idle modifiers. -/
def foldTrait (t : Trait) : Trait :=
  { t with modifiers := t.modifiers.filter fun m => !isIdle m }

/-- The number of idle modifiers. -/
def idleCount (p : Personality) : Nat :=
  p.traits.foldr (fun t count => t.modifiers.countP isIdle + count) 0

/-- Fold idle modifiers away. -/
def fold : Pass := fun p stats =>
  ({ p with traits := p.traits.map foldTrait },
    { stats with folded := stats.folded + idleCount p })

/-- A rule that can never fire, or whose effect is on something that does not exist. -/
def isDead (p : Personality) (r : EvolutionRule) : Bool :=
  (match r.trigger with
    | some (.timeIn domain _ _) => !p.hasDomain domain
    | _ => false) ||
  match r.effect with
    | some (.adjust trait _) => !p.hasTrait trait
    | some (.unlock domain) => !p.hasDomain domain
    | some (.connect source target _) => !p.hasDomain source || !p.hasDomain target
    | some (.adopt ⟨some (.traitAbove trait _), _⟩) => !p.hasTrait trait
    | _ => false

/-- Drop dead rules. -/
def dropDead : Pass := fun p stats =>
  ({ p with evolution := p.evolution.filter fun r => !isDead p r },
    { stats with dead := stats.dead + p.evolution.countP (isDead p) })

/-- A modifier that makes the strength depend on time or use. -/
def isTimeDependent : Option Modifier → Bool
  | some (.decay _ _) => true
  | some (.transformsTo _ _ _) => true
  | _ => false

/-- Name the traits whose strength is worth caching. -/
def hint : Pass := fun p stats =>
  (p, { stats with
    hints := (p.traits.filter fun t => t.modifiers.any isTimeDependent).map Trait.name })

/-- How many of the modifiers are the second of their class; `seen` holds those before. -/
def secondOccurrences : (seen : List (Option Modifier)) → List (Option Modifier) → Nat
  | _, [] => 0
  | seen, m :: rest =>
    let earlier := seen.countP fun other => agreeing Modifier.agrees other m
    (if earlier = 1 then 1 else 0) + secondOccurrences (m :: seen) rest

/-- Count the modifiers that occur more than once. -/
def countCommon : Pass := fun p stats =>
  (p, { stats with common := secondOccurrences [] (p.traits.flatMap Trait.modifiers) })

/-- The place of a trigger in the order of firing. -/
def priority : Option Trigger → Nat
  | some (.learns _) => 1
  | some (.feedback _) => 2
  | some (.interactions _) => 3
  | some (.timeIn _ _ _) => 4
  | none => 5

/-- The rules in the order of firing; rules of one priority keep their order. -/
def inFiringOrder (rules : List EvolutionRule) : List EvolutionRule :=
  rules.mergeSort fun a b => priority a.trigger ≤ priority b.trigger

/-- The places at which two lists of rules do not agree. -/
def moved (before after : List EvolutionRule) : Nat :=
  (before.zip after).countP fun (a, b) => !a.agrees b

/-- Put the rules in the order of firing. -/
def reorder : Pass := fun p stats =>
  let sorted := inFiringOrder p.evolution
  ({ p with evolution := sorted },
    { stats with reordered := stats.reordered + moved p.evolution sorted })

/-- The passes of a degree, in order. -/
def passes : Degree → List Pass
  | .none => []
  | .basic => [fold, dropDead, hint]
  | .aggressive => [fold, dropDead, hint, countCommon, reorder]

end Simplify

open Simplify in
/-- Run the passes of a degree. -/
def Personality.simplify (p : Personality) (degree : Degree) : Personality × Stats :=
  (passes degree).foldl (fun (q, stats) pass => pass q stats) (p, { degree := degree })

end Persona
