import Persona.Number.Binary64
import Persona.Text

/-!
# Personalities

A personality has a name, weighted traits, knowledge domains joined by directed
connections, behavior rules and evolution rules. This module holds the data and
the questions asked of it; how it is written and read is described elsewhere.

A personality put together in code may leave a variant out. Such a part is
`none`: printers refuse it, validation names it, and a personality read from a
document never has one.
-/

namespace Persona

/-- The unit of a decay rate or of a time spent. It is only a label. Codes outside the
four units can be built but have no name of their own. -/
inductive TimeUnit where
  | day | week | month | year
  | unlisted (code : Nat)
deriving DecidableEq, Repr

/-- The proficiency held in a topic. -/
inductive Level where
  | beginner | intermediate | advanced | expert
  | unlisted (code : Nat)
deriving DecidableEq, Repr

namespace TimeUnit

/-- The four units in the order of their codes. -/
def all : List TimeUnit := [.day, .week, .month, .year]

/-- The unit with a given code. -/
def ofCode (code : Nat) : TimeUnit := (all[code]?).getD (.unlisted code)

/-- The singular word for a unit. -/
def text : TimeUnit → Text
  | .day => "day"
  | .week => "week"
  | .month => "month"
  | .year => "year"
  | .unlisted _ => "(unknown)"

/-- The unit named by a singular or plural word. -/
def ofWord? (word : Text) : Option TimeUnit :=
  all.find? fun unit => word == unit.text || word == unit.text ++ "s"

end TimeUnit

namespace Level

/-- The four levels in the order of their codes. -/
def all : List Level := [.beginner, .intermediate, .advanced, .expert]

/-- The level with a given code. -/
def ofCode (code : Nat) : Level := (all[code]?).getD (.unlisted code)

/-- The word for a level. -/
def text : Level → Text
  | .beginner => "beginner"
  | .intermediate => "intermediate"
  | .advanced => "advanced"
  | .expert => "expert"
  | .unlisted _ => "(unknown)"

/-- The level named by a word. -/
def ofWord? (word : Text) : Option Level :=
  all.find? fun level => word == level.text

end Level

/-- What a trait may depend on. -/
inductive Context where
  | topic (value : Text)
  | situation (value : Text)
  | timeOfDay (value : Text)
  | mood (value : Text)
deriving DecidableEq, Repr

/-- How the strength of a trait changes with time and circumstances. -/
inductive Modifier where
  | decay (rate : Binary64) (unit : TimeUnit)
  | when (context : Option Context)
  | unless (context : Option Context)
  | amplifies (target : Text) (factor : Binary64)
  | transformsTo (target : Text) (factor : Binary64) (count : Int)
deriving DecidableEq, Repr

/-- A named attribute; its strength should lie between zero and one. -/
structure Trait where
  name : Text
  strength : Binary64
  modifiers : List (Option Modifier)
deriving DecidableEq, Repr

/-- A topic and the proficiency held in it. -/
structure Topic where
  name : Text
  level : Level
deriving DecidableEq, Repr

/-- A directed edge between two domains. -/
structure Connection where
  source : Text
  target : Text
  strength : Binary64
  rate : Option Binary64
deriving DecidableEq, Repr

/-- A named area of knowledge. -/
structure Domain where
  name : Text
  topics : List Topic
  connections : List Connection
deriving DecidableEq, Repr

/-- When a behavior applies. -/
inductive Condition where
  | tired
  | motivated
  | context (value : Text)
  | traitAbove (trait : Text) (threshold : Binary64)
  | timeRange (start stop : Text)
deriving DecidableEq, Repr

/-- What a behavior does. -/
inductive Action where
  | prefer (value : Text)
  | seek (value : Text)
  | avoid (value : Text)
  | setStyle (key value : Text)
deriving DecidableEq, Repr

/-- A condition and the action it leads to. -/
structure BehaviorRule where
  condition : Option Condition
  action : Option Action
deriving DecidableEq, Repr

/-- What sets an evolution rule off. -/
inductive Trigger where
  | learns (topic : Text)
  | timeIn (domain : Text) (unit : TimeUnit) (count : Int)
  | interactions (count : Int)
  | feedback (score : Binary64)
deriving DecidableEq, Repr

/-- What an evolution rule changes. -/
inductive Effect where
  | adjust (trait : Text) (delta : Binary64)
  | unlock (domain : Text)
  | connect (source target : Text) (strength : Binary64)
  | adopt (rule : BehaviorRule)
deriving DecidableEq, Repr

/-- A trigger and the effect it has. -/
structure EvolutionRule where
  trigger : Option Trigger
  effect : Option Effect
deriving DecidableEq, Repr

/-- A whole personality. All lists are in the order of the document. -/
structure Personality where
  name : Text
  traits : List Trait
  knowledge : List Domain
  behaviors : List BehaviorRule
  evolution : List EvolutionRule
deriving DecidableEq, Repr

namespace Personality

/-- A personality that has only a name. -/
def named (name : Text) : Personality := ⟨name, [], [], [], []⟩

instance : Inhabited Personality := ⟨named []⟩

/-- One more trait, after the others. -/
def addTrait (p : Personality) (t : Trait) : Personality :=
  { p with traits := p.traits ++ [t] }

/-- One more domain, after the others. -/
def addDomain (p : Personality) (d : Domain) : Personality :=
  { p with knowledge := p.knowledge ++ [d] }

/-- One more behavior, after the others. -/
def addBehavior (p : Personality) (r : BehaviorRule) : Personality :=
  { p with behaviors := p.behaviors ++ [r] }

/-- One more evolution rule, after the others. -/
def addEvolution (p : Personality) (r : EvolutionRule) : Personality :=
  { p with evolution := p.evolution ++ [r] }

/-- The first trait with a name. -/
def trait? (p : Personality) (name : Text) : Option Trait :=
  p.traits.find? fun t => t.name == name

/-- Some trait has this name. -/
def hasTrait (p : Personality) (name : Text) : Bool :=
  p.traits.any fun t => t.name == name

/-- Some domain has this name. -/
def hasDomain (p : Personality) (name : Text) : Bool :=
  p.knowledge.any fun d => d.name == name

/-- The connections of all domains, in order. -/
def connections (p : Personality) : List Connection :=
  p.knowledge.flatMap Domain.connections

/-- The names without repetitions, in byte order. -/
def sortedNames (names : List Text) : List Text :=
  names.eraseDups.mergeSort fun a b => !b.before a

/-- The trait names in byte order. -/
def traitNames (p : Personality) : List Text :=
  sortedNames (p.traits.map Trait.name)

/-- The domain names in byte order. -/
def domainNames (p : Personality) : List Text :=
  sortedNames (p.knowledge.map Domain.name)

end Personality

end Persona
