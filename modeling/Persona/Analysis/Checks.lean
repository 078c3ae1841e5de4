import Persona.Analysis.Problem
import Persona.Analysis.Cycles
import Persona.Personality.Agreement

/-!
# Checks and lints

Nine checks look for problems and six lints give advice. Each works on the whole
personality and reports in the order of the document; an analysis runs them all.

Only one check writes a rule out, so only that one can meet a missing part it has
to write.
-/

namespace Persona

/-- All pairs of elements at different places, the earlier one first. -/
def pairs {α : Type} : List α → List (α × α)
  | [] => []
  | x :: rest => rest.map (fun y => (x, y)) ++ pairs rest

/-- The names that occur more than once, each at its second occurrence; `seen` holds the
names before. -/
def repetitions : (seen : List Text) → List Text → List Text
  | _, [] => []
  | seen, name :: rest =>
    if seen.count name = 1 then name :: repetitions (name :: seen) rest
    else repetitions (name :: seen) rest

namespace Check

/-- Every cycle met in the connection graph. -/
def circular (p : Personality) : List Problem :=
  (Cycles.find p).map .circular

/-- The circumstance on which one of two modifiers depends and the other is suppressed. -/
def opposed? : Option Modifier → Option Modifier → Option (Option Context)
  | some (.when c), some (.unless d) => if c = d then some c else none
  | some (.unless c), some (.when d) => if c = d then some d else none
  | _, _ => none

/-- Traits that a circumstance both enables and suppresses. -/
def traitConflicts (p : Personality) : List Problem :=
  p.traits.flatMap fun t => (pairs t.modifiers).filterMap fun (a, b) =>
    (opposed? a b).map (.traitConflict t.name)

/-- The rates of two decays with one unit and different rates. -/
def decayConflict? : Option Modifier → Option Modifier →
    Option (Binary64 × Binary64 × TimeUnit)
  | some (.decay r u), some (.decay s v) => if u = v && !r.same s then some (r, s, u) else none
  | _, _ => none

/-- Traits that decay at two rates in the same unit. -/
def modifierConflicts (p : Personality) : List Problem :=
  p.traits.flatMap fun t => (pairs t.modifiers).filterMap fun (a, b) =>
    (decayConflict? a b).map fun (r, s, u) => .modifierConflict t.name r s u

/-- A trigger and the different effects it has. -/
structure Group where
  trigger : Option Trigger
  effects : List (Option Effect)

/-- Add an effect unless an agreeing one is there. -/
def Group.add (g : Group) (effect : Option Effect) : Group :=
  if g.effects.any fun other => agreeing Effect.agrees other effect then g
  else { g with effects := g.effects ++ [effect] }

/-- Add a rule to the first group with an agreeing trigger, or as a group of its own. -/
def addToGroups (rule : EvolutionRule) : List Group → List Group
  | [] => [⟨rule.trigger, [rule.effect]⟩]
  | g :: rest =>
    if agreeing Trigger.agrees g.trigger rule.trigger then g.add rule.effect :: rest
    else g :: addToGroups rule rest

/-- The rules grouped by their triggers, in order of first occurrence. -/
def groups (rules : List EvolutionRule) : List Group :=
  rules.foldl (fun all rule => addToGroups rule all) []

/-- Triggers with more than one effect. -/
def determinism (p : Personality) : List Problem :=
  (groups p.evolution).filterMap fun g =>
    if 1 < g.effects.length then some (.undetermined g.trigger g.effects.length) else none

/-- The problem of a rule that is conditioned on an unknown trait. -/
def unreachableRule (p : Personality) (adopted : Bool) (rule : BehaviorRule) :
    Except Missing (List Problem) :=
  match rule.condition with
  | some (.traitAbove trait _) =>
    if p.hasTrait trait then .ok []
    else do
      let text ← rule.write
      return [.unreachable trait adopted text]
  | _ => .ok []

/-- The behavior an effect adopts. -/
def adopted? : Option Effect → Option BehaviorRule
  | some (.adopt rule) => some rule
  | _ => none

/-- Behaviors, declared or adopted, that are conditioned on unknown traits. -/
def unreachable (p : Personality) : Except Missing (List Problem) := do
  let declared ← p.behaviors.mapM (unreachableRule p false)
  let adopted ← (p.evolution.filterMap fun r => adopted? r.effect).mapM
    (unreachableRule p true)
  return declared.flatten ++ adopted.flatten

/-- The domains a rule mentions. -/
def ruleMentions (r : EvolutionRule) : List (Text × Mention) :=
  (match r.trigger with
    | some (.timeIn domain _ _) => [(domain, .timeTrigger)]
    | _ => []) ++
  match r.effect with
    | some (.unlock domain) => [(domain, .unlockEffect)]
    | some (.connect source target _) => [(source, .connectEffect), (target, .connectEffect)]
    | _ => []

/-- All mentions of domains, in order. -/
def mentions (p : Personality) : List (Text × Mention) :=
  p.connections.flatMap (fun c => [(c.source, .connection), (c.target, .connection)]) ++
    p.evolution.flatMap ruleMentions

/-- The first mention of each unknown domain; `reported` holds the names before. -/
def unknownMentions (p : Personality) : (reported : List Text) → List (Text × Mention) →
    List Problem
  | _, [] => []
  | reported, (name, mention) :: rest =>
    if p.hasDomain name || reported.contains name then unknownMentions p reported rest
    else .unknownDomain name mention :: unknownMentions p (name :: reported) rest

/-- Names used as domains that no domain has. -/
def domainReferences (p : Personality) : List Problem :=
  unknownMentions p [] (mentions p)

/-- The value that the first action wants and the second avoids. -/
def avoided? : Action → Action → Option Text
  | .prefer value, .avoid other => if value = other then some value else none
  | .seek value, .avoid other => if value = other then some value else none
  | _, _ => none

/-- What two actions disagree about. -/
def actionConflicts (first second : Action) : List Problem :=
  ((avoided? first second <|> avoided? second first).toList.map fun value =>
    .contradiction value first second) ++
  match first, second with
  | .setStyle k v, .setStyle l w => if k = l && v != w then [.styleConflict k v w] else []
  | _, _ => []

/-- Behaviors that want and avoid one thing, and styles set to two values. -/
def consistency (p : Personality) : List Problem :=
  (pairs p.behaviors).flatMap fun (a, b) =>
    match a.action, b.action with
    | some first, some second => actionConflicts first second
    | _, _ => []

/-- The problems of an adjustment: too large a step, and a step out of the
unit interval. -/
def adjustmentProblems (p : Personality) (trait : Text) (delta : Binary64) : List Problem :=
  (if dangerousDelta.lt delta.abs then [.dangerous trait delta] else []) ++
  match p.trait? trait with
  | some t =>
    let moved := t.strength.add delta
    if moved.lt .zero || (Binary64.ofRatio false 1 1).lt moved then
      [.outOfBounds trait t.strength delta]
    else []
  | none => []

/-- Adjustments that go too far, and new connections between unknown domains. -/
def safety (p : Personality) : List Problem :=
  p.evolution.flatMap fun r =>
    match r.effect with
    | some (.adjust trait delta) => adjustmentProblems p trait delta
    | some (.connect source target _) =>
      if p.hasDomain source && p.hasDomain target then []
        else [.unknownConnection source target]
    | _ => []

/-- Names of more than one trait. -/
def duplicates (p : Personality) : List Problem :=
  (repetitions [] (p.traits.map Trait.name)).map .duplicateTrait

end Check

namespace Lint

/-- Domains no connection leads to. -/
def unusedDomains (p : Personality) : List Advice :=
  (p.knowledge.filter fun d => !p.connections.any fun c => c.target == d.name).map fun d =>
    .unusedDomain d.name

/-- Connections from this strength on are not weak. -/
def weakStrength : Binary64 := Decimal.toBinary64 false ⟨3, -1⟩

/-- Connections that are weak. -/
def weakConnections (p : Personality) : List Advice :=
  (p.connections.filter fun c => c.strength.lt weakStrength).map fun c =>
    .weakConnection c.source c.target c.strength

/-- A decay. -/
def isDecay : Option Modifier → Bool
  | some (.decay _ _) => true
  | _ => false

/-- Traits with more than one decay. -/
def redundantModifiers (p : Personality) : List Advice :=
  p.traits.filterMap fun t =>
    let decays := t.modifiers.countP isDecay
    if 1 < decays then some (.redundantModifiers t.name decays) else none

/-- The largest adjustment that is not suspicious. -/
def suspiciousDelta : Binary64 := Decimal.toBinary64 false ⟨5, -1⟩

/-- Adjustments larger than that. -/
def suspiciousEvolution (p : Personality) : List Advice :=
  p.evolution.filterMap fun r =>
    match r.effect with
    | some (.adjust trait delta) =>
      if suspiciousDelta.lt delta.abs then some (.suspicious trait delta) else none
    | _ => none

/-- The advice on what one modifier of a trait refers to. -/
def targetAdvice (p : Personality) (trait : Text) (modifier : Modifier) (target : Text) :
    List Advice :=
  if target = trait then [.selfReference trait modifier]
  else if p.hasTrait target then []
  else [.unknownTarget target trait]

/-- Modifiers that refer to their own trait or to none. -/
def modifierTargets (p : Personality) : List Advice :=
  p.traits.flatMap fun t => t.modifiers.flatMap fun modifier =>
    match modifier with
    | some (.amplifies target factor) =>
      targetAdvice p t.name (.amplifies target factor) target
    | some (.transformsTo target factor count) =>
      targetAdvice p t.name (.transformsTo target factor count) target
    | _ => []

/-- Domains without topics. -/
def emptyDomains (p : Personality) : List Advice :=
  (p.knowledge.filter fun d => d.topics.isEmpty).map fun d => .emptyDomain d.name

end Lint

end Persona
